import DenyFS.Verified.CreateOpen
import DenyFS.Verified.Steady

/-! # What creating a hidden volume touches

`denyfs_container_create_hidden` opens whatever volume the first password opens and never looks
at which one it got.  The space test alone keeps it apart from a hidden volume that is there
already: such a volume ends where the hidden header begins, so nothing fits behind it.  Up to the
first write every exit leaves the file alone, and from then on only a failing write can make the
call fail. -/

namespace DenyFS

open Packed BlockProgram

variable {crypto : Crypto} {mount : Mount} {random : Randomness} {disk disk' : Disk}
  {outerPassword hiddenPassword : List UInt8} {hiddenSizeMb now : UInt64}

/-! ## From the first write on -/

/-- The bytes `denyfs_container_create_hidden` may change: the new volume and, behind it, the
hidden header. -/
theorem hiddenWrites_confined {after : Disk}
    (space : HiddenSpace mount hiddenSizeMb disk.container)
    (created : hiddenWrites crypto random hiddenPassword hiddenSizeMb now disk =
      (.ok (), after)) :
    after.container.size = disk.container.size ∧
      ∀ i < disk.container.size, ¬(disk.container.size - 32768 - hiddenSizeMb.toNat * 1048576 ≤ i ∧
          i < disk.container.size - 32768 + 4096) →
        after.container.byte i = disk.container.byte i := by
  have start := space.hiddenStart
  have bytes := space.hiddenSize_toNat
  have room := space.room
  cases hiddenWrites_cases crypto random hiddenPassword now space with
  | inl failed =>
    obtain ⟨_, fails, _⟩ := failed
    rw [fails] at created
    cases created
  | inr headed =>
    obtain ⟨headed, ok, final, written, formats, result⟩ := headed
    rw [result] at created
    obtain rfl : final = after := congrArg Prod.snd created
    have placed := written.placed space random
    have confined := formatVolume_frame crypto rfl placed space.formattable
      random.hmacKey now Mount.Confines.refl Mount.Confines.trans
      (Mount.confines_read crypto _) (Mount.confines_write crypto _)
    rw [formats] at confined
    obtain ⟨sameSize, sameBytes⟩ := confined placed
    constructor
    · exact sameSize.trans written.size
    · intro i inFile outside
      have unwritable : ¬(hiddenMount random hiddenSizeMb disk.container).Writable i := by
        intro writable
        obtain ⟨first, last, _⟩ := writable
        change (disk.container.hiddenHeaderOffset - hiddenSize hiddenSizeMb).toNat ≤ i at first
        change i < (disk.container.hiddenHeaderOffset - hiddenSize hiddenSizeMb).toNat +
          (hiddenSize hiddenSizeMb).toNat at last
        omega
      rw [sameBytes i (written.size ▸ inFile) unwritable]
      exact written.bytes i inFile (by omega)

/-- Past its checks `denyfs_container_create_hidden` fails only where an I/O fails. -/
theorem hiddenWrites_untroubled (crypto : Crypto) (random : Randomness)
    (hiddenPassword : List UInt8) (now : UInt64)
    (space : HiddenSpace mount hiddenSizeMb disk.container) :
    disk.Consumes (hiddenWrites crypto random hiddenPassword hiddenSizeMb now disk).2 ∧
      (disk.Untroubled (hiddenWrites crypto random hiddenPassword hiddenSizeMb now disk).2 →
        (hiddenWrites crypto random hiddenPassword hiddenSizeMb now disk).1 = .ok ()) := by
  cases hiddenWrites_cases crypto random hiddenPassword now space with
  | inl failed =>
    obtain ⟨_, fails, consumes, troubled⟩ := failed
    rw [fails]
    exact ⟨consumes, fun untroubled => absurd untroubled troubled⟩
  | inr headed =>
    obtain ⟨headed, ok, final, written, formats, result⟩ := headed
    have placed := written.placed space random
    have consumes := formatVolume_frame crypto rfl placed space.formattable
      random.hmacKey now Disk.Consumes.refl Disk.Consumes.trans
      (read_consumes crypto _) (write_consumes crypto _)
    have works := formatVolume_untroubled crypto rfl placed space.formattable
      random.hmacKey now
    rw [formats] at consumes works
    rw [result]
    constructor
    · exact written.consumes.trans consumes
    · intro untroubled
      exact if_pos (works (untroubled.split written.consumes consumes).2)

theorem containerCreateHidden_consumes (crypto : Crypto) (random : Randomness)
    (outerPassword hiddenPassword : List UInt8) (hiddenSizeMb now : UInt64) (disk : Disk) :
    disk.Consumes (containerCreateHidden crypto random outerPassword hiddenPassword hiddenSizeMb now
      disk).2 := by
  cases containerCreateHidden_cases crypto random outerPassword hiddenPassword hiddenSizeMb now
    disk with
  | inl refused =>
    obtain ⟨error, after, result, consumes, _⟩ := refused
    rw [result]
    exact consumes
  | inr writes =>
    obtain ⟨mount, vol, opened, opens, space, result⟩ := writes
    have same := volOpen_container crypto outerPassword none false disk
    have consumes := volOpen_consumes crypto outerPassword none false disk
    rw [opens] at same consumes
    rw [result]
    apply consumes.trans
    exact (hiddenWrites_untroubled crypto random hiddenPassword now (space.opened same)).1

/-- After `denyfs_container_create_hidden` the hidden password selects the hidden volume. -/
theorem Hosts.mountFor_hidden {random' : Randomness} {sizeMb : UInt64}
    (roundTrip : crypto.SectorRoundTrip) (gcm : crypto.HeaderRoundTrip)
    (hosts : Hosts crypto random sizeMb outerPassword disk.container)
    (rejects : crypto.HeaderRejects (headerKey crypto outerPassword random.salt)
      (headerKey crypto hiddenPassword random.salt))
    (created : containerCreateHidden crypto random' outerPassword hiddenPassword hiddenSizeMb now
      disk = (.ok (), disk')) (secret : Option (List UInt8)) (protectHidden : Bool) :
    disk'.container.mountFor crypto hiddenPassword secret protectHidden =
      some (hiddenMount random' hiddenSizeMb disk'.container) := by
  obtain ⟨fits, size, below, header, _⟩ := containerCreateHidden_ok roundTrip gcm hosts created
  have room := fits.room
  have large := hosts.size
  have kept : disk'.container.sectorAt 0 = disk.container.sectorAt 0 :=
    Container.sectorAt_of_bytes fun i _ small => below i (by omega)
  exact hiddenMount_mounted (hosts.of_same size kept) fits gcm rejects header secret protectHidden

/-- Where `denyfs_container_create_hidden` returns 0, it opened the outer volume, and the file
changed only from the start of the new volume, behind the end of the outer one, to the end of the
hidden header.  Where it returns an error and no I/O failed, the file is as it was. -/
theorem hidden_creation_local (crypto : Crypto) (random : Randomness)
    (outerPassword hiddenPassword : List UInt8) (hiddenSizeMb now : UInt64) (disk : Disk) :
    let after := containerCreateHidden crypto random outerPassword hiddenPassword hiddenSizeMb now
      disk
    let bytes := hiddenSizeMb.toNat * 1048576
    (after.1 = .ok () → ∃ mount vol opened,
      volOpen crypto outerPassword none false disk = (some (mount, vol), opened) ∧
      mount.isHidden = false ∧
      mount.volStartOffset.toNat + mount.volumeSize.toNat + bytes + 32768 ≤ disk.container.size ∧
      after.2.container.size = disk.container.size ∧
      ∀ i < disk.container.size, ¬(disk.container.size - 32768 - bytes ≤ i ∧
          i < disk.container.size - 32768 + 4096) →
        after.2.container.byte i = disk.container.byte i) ∧
    (∀ error, after.1 = .error error → disk.Untroubled after.2 →
      after.2.container = disk.container) := by
  dsimp only
  cases containerCreateHidden_cases crypto random outerPassword hiddenPassword hiddenSizeMb now
    disk with
  | inl refused =>
    obtain ⟨error, after, result, _, same⟩ := refused
    rw [result]
    constructor
    · intro created
      cases created
    · intro _ _ _
      exact same
  | inr writes =>
    obtain ⟨mount, vol, opened, opens, space, result⟩ := writes
    have same := volOpen_container crypto outerPassword none false disk
    have consumes := volOpen_consumes crypto outerPassword none false disk
    rw [opens] at same consumes
    dsimp only at same consumes
    have openedSpace := space.opened same
    rw [result]
    constructor
    · intro created
      obtain ⟨size, bytes⟩ := hiddenWrites_confined openedSpace (Prod.ext created rfl)
      rw [same] at size bytes
      exact ⟨mount, vol, opened, opens, space.isOuter (volOpen_some opens).2.1, space.room, size,
        bytes⟩
    · intro error failed untroubled
      obtain ⟨writesConsume, works⟩ := hiddenWrites_untroubled crypto random hiddenPassword now
        openedSpace
      rw [works (untroubled.split consumes writesConsume).2] at failed
      cases failed

/-- A second hidden volume under the password of the first one is refused, and the file is as it
was. -/
theorem hidden_creation_local_small :
    ∃ created disk, smallContainer 4 = some created ∧
      containerCreateHidden transparentCrypto zeroRandomness [1] [2] 1 0 created = (.ok (), disk) ∧
      (∀ i < created.container.size, ¬(created.container.size - 32768 - 1048576 ≤ i ∧
          i < created.container.size - 32768 + 4096) →
        disk.container.byte i = created.container.byte i) ∧
      ∃ error after, containerCreateHidden transparentCrypto zeroRandomness [2] [3] 1 0
          ⟨disk.container, []⟩ = (.error error, after) ∧ after.container = disk.container := by
  obtain ⟨created, disk, _, isSmall, _, hosts, _, hides, _⟩ := smallContainer_hides
  have mounted := hosts.mountFor_hidden transparentCrypto_sectors transparentCrypto_headers
    smallContainer_rejects hides none false
  have first := (hidden_creation_local transparentCrypto zeroRandomness [1] [2] 1 0 created).1
  rw [hides] at first
  obtain ⟨_, _, _, _, _, _, _, bytes⟩ := first rfl
  obtain ⟨accepted, refused⟩ :=
    hidden_creation_local transparentCrypto zeroRandomness [2] [3] 1 0 ⟨disk.container, []⟩
  have consumes := containerCreateHidden_consumes transparentCrypto zeroRandomness [2] [3] 1 0
    ⟨disk.container, []⟩
  have untroubled := Disk.untroubled_of_faultless rfl consumes
  refine ⟨created, disk, isSmall, hides, bytes, ?_⟩
  cases again : containerCreateHidden transparentCrypto zeroRandomness [2] [3] 1 0
    ⟨disk.container, []⟩ with
  | mk result after =>
  rw [again] at accepted refused untroubled
  cases result with
  | ok value =>
    -- the outer volume would have been opened, and it was the hidden one
    obtain ⟨mount, _, _, opened, outer, _⟩ := accepted rfl
    rw [(volOpen_some opened).2.1] at mounted
    rw [Option.some.inj mounted] at outer
    cases outer
  | error error => exact ⟨error, after, rfl, refused error rfl untroubled⟩

end DenyFS
