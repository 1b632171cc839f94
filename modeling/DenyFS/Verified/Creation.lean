import DenyFS.Verified.FormatWrites
import DenyFS.Verified.Headers
import DenyFS.Verified.Reached

/-! # Creating and opening

`denyfs_container_create` and `denyfs_container_create_hidden` lay out headers and volumes;
`denyfs_vol_open` finds them again.  A container hosts an outer volume as long as its first
sector is the header it was created with. -/

namespace DenyFS

open Packed BlockProgram

variable {crypto : Crypto}

/-! ## A new volume -/

/-- No 32-bit step of `format_volume` wraps. -/
structure FormatExact (volumeSize : UInt64) : Prop where
  totalBlocks : (formatLayout volumeSize).totalBlocks.toNat = volumeSize.toNat / 4096
  roundedBits : ((formatLayout volumeSize).totalBlocks + 7).toNat =
    (formatLayout volumeSize).totalBlocks.toNat + 7
  roundedBytes : ((formatLayout volumeSize).bitmapBytesNeeded + 4096).toNat =
    (formatLayout volumeSize).bitmapBytesNeeded.toNat + 4096
  bitmapBytes : (formatLayout volumeSize).bitmapBlocks.toNat * 4096 < 2 ^ 32
  inodeStart : (1 + (formatLayout volumeSize).bitmapBlocks).toNat =
    1 + (formatLayout volumeSize).bitmapBlocks.toNat
  dataStart : (formatLayout volumeSize).dataStart.toNat =
    1 + (formatLayout volumeSize).bitmapBlocks.toNat + 2
  room : (formatLayout volumeSize).dataStart.toNat + 1 ≤
    (formatLayout volumeSize).totalBlocks.toNat

theorem Formattable.exact {volumeSize : UInt64} (formattable : Formattable volumeSize) :
    FormatExact volumeSize := by
  have blocks := formattable.blocks
  have total := formatLayout_totalBlocks blocks
  have bytes := formatLayout_bitmapBytesNeeded blocks
  have sectors := formatLayout_bitmapBlocks blocks
  have dataStart := formatLayout_dataStart blocks
  refine ⟨total, ?_, ?_, by omega, formatLayout_inodeStart blocks, by omega,
    UInt32.lt_iff_toNat_lt.1 formattable.room⟩
  · rw [UInt32.toNat_add]
    exact Nat.mod_eq_of_lt (by change _ + 7 < _; omega)
  · rw [UInt32.toNat_add]
    exact Nat.mod_eq_of_lt (by change _ + 4096 < _; omega)

/-- An open volume as `format_volume` leaves it: nothing is listed, only the root directory is
in use, and the sizes are those of the range. -/
structure OpenedNew (crypto : Crypto) (mount : Mount) (vol : Volume) (disk : Disk) : Prop where
  empty : call crypto mount (volumeDevice crypto mount) .readdir (vol, disk) =
    (.ok (.names []), vol, disk)
  freeInodes : vol.sb.freeInodes = 63
  freeBlocks : vol.sb.freeBlocks.toNat =
    vol.sb.totalBlocks.toNat - vol.sb.dataStart.toNat - 1
  totalBlocks : vol.sb.totalBlocks.toNat = mount.volumeSize.toNat / 4096
  dataStart : vol.sb.dataStart.toNat =
    3 + ((mount.volumeSize.toNat / 4096 + 7) / 8 + 4095) / 4096
  exact : FormatExact mount.volumeSize

section OpenNew

variable {mount : Mount}

theorem Formatted.loadable {now : UInt64} {disk : Blocks} (formattable : Formattable mount.volumeSize)
    (formatted : Formatted (formatImage crypto mount.hmacKey mount.volumeSize now) disk) :
    Loadable crypto mount disk :=
  formatted.stored.loadable formattable.aligned (formatted.wellFormed formattable) rfl

theorem Formatted.listing {now : UInt64} {disk : Blocks} (formattable : Formattable mount.volumeSize)
    (formatted : Formatted (formatImage crypto mount.hmacKey mount.volumeSize now) disk) :
    listing (loadedVolume disk) disk = [] := by
  have agrees := formatted.stored.loaded (formatImage_layout _ _ _ formattable)
  unfold DenyFS.listing
  rw [agrees.entryAt]
  refine List.filterMap_eq_nil_iff.2 fun p _ => ?_
  rw [formatted.entryAt]
  rfl

theorem call_readdir (roundTrip : crypto.SectorRoundTrip) {vol : Volume} {disk : Disk}
    (shows : Shows crypto mount vol disk) :
    call crypto mount (volumeDevice crypto mount) .readdir (vol, disk) =
      (.ok (.names (listing vol (mount.blocks crypto disk.container))), vol, disk) := by
  obtain ⟨outcome, _⟩ := call_plain roundTrip shows.unprotected shows.decrypts .readdir vol
  have plain : (call crypto mount (plainDevice mount.blockCount) .readdir
      (vol, mount.blocks crypto disk.container)).1 =
        .ok (.names (listing vol (mount.blocks crypto disk.container))) := by
    unfold call
    rw [perform, Prog.exec_bind_pure, shows.sound.exec_volReaddir]
    rfl
  have unchanged := exec_passive_faultless crypto mount
    (Prog.Passive.bind (volReaddir_simple collectEntries []).passive fun names =>
      Prog.Passive.ofPure (Reply.names names)) vol shows.decrypts.faultless
  exact Prod.ext (outcome.trans plain) unchanged

/-- A formatted volume opens as new. -/
theorem open_formatted (roundTrip : crypto.SectorRoundTrip) {password : List UInt8}
    {hiddenPassword : Option (List UInt8)} {protectHidden : Bool} {container : Container}
    (sized : container.WellSized)
    (mounted : container.mountFor crypto password hiddenPassword protectHidden = some mount)
    (unprotected : mount.Unprotected) {now : UInt64} (formattable : Formattable mount.volumeSize)
    (formatted : Formatted (formatImage crypto mount.hmacKey mount.volumeSize now)
      (mount.blocks crypto container)) :
    ∃ vol, volOpen crypto password hiddenPassword protectHidden ⟨container, []⟩ =
        (some (mount, vol), ⟨container, []⟩) ∧
      OpenedNew crypto mount vol ⟨container, []⟩ := by
  have layout := formatImage_layout crypto mount.hmacKey now formattable
  have agrees := formatted.stored.loaded layout
  have opens := volOpen_faultless ⟨container, []⟩ roundTrip password hiddenPassword
    protectHidden rfl sized mounted unprotected
  cases opens with
  | inr refused => exact absurd (formatted.loadable formattable) refused.1
  | inl accepted =>
    obtain ⟨loadable, opened⟩ := accepted
    have shows : Shows crypto mount (loadedVolume (mount.blocks crypto container))
        ⟨container, []⟩ :=
      ⟨unprotected, ⟨mountFor_placed sized mounted, rfl, rfl⟩, loadable.wellFormed.sound⟩
    have listed := call_readdir roundTrip shows
    rw [formatted.listing formattable] at listed
    refine ⟨_, opened, ⟨listed, ?_, ?_, ?_, ?_, formattable.exact⟩⟩
    · rw [agrees.sb]
      rfl
    · rw [agrees.sb]
      exact formatImage_freeBlocks _ _ _ formattable
    · rw [agrees.sb]
      exact layout.totalBlocks
    · rw [agrees.sb, layout.dataStart, layout.bitmapBlocks]

end OpenNew

/-! ## The outer volume -/

/-- The size `denyfs_container_create` gives the outer volume. -/
def outerSize (sizeMb : UInt64) : UInt64 := sizeMb * 1024 * 1024 / 2

def outerMount (random : Randomness) (sizeMb : UInt64) : Mount :=
  mountOf (newPayload random (outerSize sizeMb)) 4096 false

theorem totalBytes_toNat {sizeMb : UInt64} (small : sizeMb.toNat ≤ (2 ^ 64 - 1) / (1024 * 1024)) :
    (sizeMb * 1024 * 1024).toNat = sizeMb.toNat * 1048576 := by
  rw [UInt64.toNat_mul, UInt64.toNat_mul]
  change sizeMb.toNat * 1024 % 2 ^ 64 * 1024 % 2 ^ 64 = _
  rw [Nat.mod_eq_of_lt (by omega), Nat.mod_eq_of_lt (by omega)]
  omega

/-- A container with the outer header that `denyfs_container_create` gave it. -/
structure Hosts (crypto : Crypto) (random : Randomness) (sizeMb : UInt64) (password : List UInt8)
    (container : Container) : Prop where
  positive : 0 < sizeMb.toNat
  size : container.size = sizeMb.toNat * 1048576
  header : container.outerHeader = newHeader crypto random password (outerSize sizeMb)

namespace Hosts

variable {random : Randomness} {sizeMb : UInt64} {password : List UInt8} {container : Container}

theorem outerSize_toNat (hosts : Hosts crypto random sizeMb password container) :
    (outerSize sizeMb).toNat = sizeMb.toNat * 524288 := by
  have inFile := container.size_le
  rw [hosts.size] at inFile
  unfold longMax at inFile
  unfold outerSize
  rw [UInt64.toNat_div, totalBytes_toNat (by omega)]
  change _ / 2 = _
  omega

theorem wellSized (hosts : Hosts crypto random sizeMb password container) :
    container.WellSized := by
  have size := hosts.size
  have positive := hosts.positive
  exact ⟨by omega, by omega⟩

theorem placed (hosts : Hosts crypto random sizeMb password container) :
    (outerMount random sizeMb).Placed container.size where
  sized := by
    change (outerSize sizeMb).toNat % 4096 = 0
    rw [hosts.outerSize_toNat]
    omega
  aligned := by
    change (4096 : UInt64).toNat % 4096 = 0
    decide
  afterHeader := Nat.le_refl 4096
  beforeTail := by
    change 4096 + (outerSize sizeMb).toNat + 32768 ≤ container.size
    rw [hosts.outerSize_toNat, hosts.size]
    have positive := hosts.positive
    omega
  small := container.size_le

theorem range (hosts : Hosts crypto random sizeMb password container) :
    validVolumeRange 4096 (outerSize sizeMb) container.hiddenHeaderOffset = true := by
  have size := hosts.size
  have positive := hosts.positive
  have inFile := container.size_le
  rw [validVolumeRange_iff, hosts.wellSized.hiddenHeaderOffset_toNat, hosts.outerSize_toNat]
  change _ ∧ _ ∧ 4096 % 4096 = 0 ∧ 4096 + _ ≤ _ ∧ 4096 + _ ≤ _
  omega

/-- The password of the outer header selects the outer volume. -/
theorem select (gcm : crypto.HeaderRoundTrip) (hosts : Hosts crypto random sizeMb password container) :
    container.select crypto password = some (outerMount random sizeMb) := by
  have header : authenticate crypto container.outerHeader password =
      some (newPayload random (outerSize sizeMb)).stored := by
    rw [hosts.header]
    exact authenticate_newHeader gcm random password _
  exact (mountFor_outer header hosts.range none).1

theorem mountFor (gcm : crypto.HeaderRoundTrip) (hosts : Hosts crypto random sizeMb password container)
    (hiddenPassword : Option (List UInt8)) :
    container.mountFor crypto password hiddenPassword false = some (outerMount random sizeMb) := by
  unfold Container.mountFor
  rw [hosts.select gcm]
  rfl

end Hosts

theorem outerMount_unprotected (random : Randomness) (sizeMb : UInt64) :
    (outerMount random sizeMb).Unprotected := unprotected_of_flag rfl

/-- A written sector is read back. -/
theorem Container.sectorAt_of_bytes {before after : Container} {offset : Nat}
    (same : ∀ i, offset ≤ i → i < offset + 4096 → after.byte i = before.byte i) :
    after.sectorAt offset = before.sectorAt offset := by
  funext k
  exact same _ (by omega) (by omega)

/-- `denyfs_container_create` returns 0 only with an outer header and a formatted volume. -/
theorem containerCreate_some {random : Randomness} {fill : Nat → UInt8} {sizeMb : UInt64}
    {password : List UInt8} {now : UInt64} {faults : List Bool} {disk : Disk}
    (roundTrip : crypto.SectorRoundTrip)
    (created : containerCreate crypto random fill sizeMb password now faults = some disk) :
    Hosts crypto random sizeMb password disk.container ∧ Formattable (outerSize sizeMb) ∧
      Formatted (formatImage crypto random.hmacKey (outerSize sizeMb) now)
        ((outerMount random sizeMb).blocks crypto disk.container) ∧
      ∃ before : Disk, (outerMount random sizeMb).Placed before.container.size ∧
        formatVolume crypto (outerMount random sizeMb).volumeKey (outerMount random sizeMb).hmacKey
          (outerMount random sizeMb).volumeSize (outerMount random sizeMb).volStartOffset now
          before = (true, disk) := by
  unfold containerCreate at created
  split at created
  case isTrue => cases created
  case isFalse accepted =>
  rw [not_or, not_or, not_lt] at accepted
  obtain ⟨_, nonzero, small⟩ := accepted
  dsimp only at created
  have total := totalBytes_toNat small
  have positive : 0 < sizeMb.toNat := by
    refine Nat.pos_of_ne_zero fun zero => nonzero ?_
    exact UInt64.toNat_inj.1 zero
  split at created
  case isFalse => cases created
  case isTrue fits =>
  split at created
  case isTrue => cases created
  split at created
  case isTrue => cases created
  -- the random fill succeeded; next is the header
  have stores := Disk.fwrite_cases
    (Disk.afterIo ⟨⟨(sizeMb * 1024 * 1024).toNat, fill, fits⟩, faults⟩) 0
    (headerSector (newHeader crypto random password (sizeMb * 1024 * 1024 / 2)))
  generalize Disk.fwrite (Disk.afterIo ⟨⟨(sizeMb * 1024 * 1024).toNat, fill, fits⟩, faults⟩) 0
    (headerSector (newHeader crypto random password (sizeMb * 1024 * 1024 / 2))) = written
    at created stores
  obtain ⟨ok, headed⟩ := written
  cases stores with
  | inl failed =>
    obtain ⟨_, failed⟩ := failed
    dsimp only at failed
    subst failed
    cases created
  | inr stored =>
  obtain ⟨inFile, succeeded, container⟩ := stored
  dsimp only at succeeded container created
  subst succeeded
  dsimp only at created
  have hosts : Hosts crypto random sizeMb password headed.container := by
    refine ⟨positive, ?_, ?_⟩
    · rw [container, Container.store_size _ _ inFile]
      · exact total
      · change 0 + 4096 ≤ (sizeMb * 1024 * 1024).toNat
        omega
    · unfold Container.outerHeader
      rw [container, Container.sectorAt_store_self, Equiv.symm_apply_apply]
      rfl
  -- last the volume
  cases formats : formatVolume crypto random.volumeKey random.hmacKey (sizeMb * 1024 * 1024 / 2)
    4096 now headed with
  | mk ok after =>
  rw [formats] at created
  cases ok with
  | false => cases created
  | true =>
  cases created
  have volume : formatVolume crypto (outerMount random sizeMb).volumeKey
      (outerMount random sizeMb).hmacKey (outerMount random sizeMb).volumeSize (outerMount random sizeMb).volStartOffset now headed =
        (true, disk) := formats
  have ends := formatVolume_formatted roundTrip rfl hosts.placed (congrArg Prod.fst volume)
  rw [volume] at ends
  obtain ⟨formattable, _, formatted, confined⟩ := ends
  obtain ⟨sameSize, sameBytes⟩ := confined hosts.placed
  refine ⟨⟨positive, sameSize.trans hosts.size, ?_⟩, formattable, formatted, headed,
    hosts.placed, volume⟩
  rw [← hosts.header]
  refine congrArg headerSector.symm (Container.sectorAt_of_bytes fun i _ below => ?_)
  have big := hosts.wellSized.large
  refine sameBytes i (by omega) fun writable => ?_
  have start : 4096 ≤ i := writable.1
  omega

/-- Every volume with room for its metadata and one more block can be formatted. -/
theorem formattable_of_blocks {volumeSize : UInt64} (aligned : volumeSize.toNat % 4096 = 0)
    (enough : 5 ≤ volumeSize.toNat / 4096) (blocks : volumeSize.toNat / 4096 ≤ 2 ^ 32 - 1 - 8) :
    Formattable volumeSize := by
  refine ⟨aligned, blocks, ?_⟩
  rw [UInt32.lt_iff_toNat_lt, formatLayout_dataStart blocks, formatLayout_totalBlocks blocks,
    formatLayout_bitmapBlocks blocks]
  omega

theorem Disk.fwrite_faultless {disk : Disk} (faultless : disk.faults = []) {offset : Nat}
    (data : Sector) (fits : offset + 4096 ≤ longMax) :
    disk.fwrite offset data = (true, { disk with container := disk.container.store offset data fits }) := by
  unfold Disk.fwrite
  rw [Disk.ioFails_faultless faultless, if_neg Bool.false_ne_true, dif_pos fits,
    Disk.afterIo_faultless faultless]

/-- The end of `denyfs_container_create`: the file is kept where the format succeeded. -/
theorem kept_of_formatted : ∀ outcome : Bool × Disk, outcome.1 = true →
    (match outcome with
      | (true, disk) => some disk
      | (false, _) => none) = some outcome.2 := by
  intro outcome succeeds
  obtain ⟨ok, disk⟩ := outcome
  dsimp only at succeeds
  subst succeeds
  rfl

/-- Where no I/O fails, `denyfs_container_create` succeeds for every size within its limits. -/
theorem containerCreate_succeeds (crypto : Crypto) (random : Randomness) (fill : Nat → UInt8)
    {sizeMb : UInt64} {password : List UInt8} (now : UInt64)
    (named : password ≠ []) (positive : 0 < sizeMb.toNat)
    (fits : sizeMb.toNat * 1048576 ≤ longMax)
    (blocks : sizeMb.toNat * 524288 / 4096 ≤ 2 ^ 32 - 1 - 8) :
    ∃ disk, containerCreate crypto random fill sizeMb password now [] = some disk ∧
      disk.faults = [] := by
  have limit : longMax = 2 ^ 63 - 1 := rfl
  have small : sizeMb.toNat ≤ (2 ^ 64 - 1) / (1024 * 1024) := by omega
  have total := totalBytes_toNat small
  have accepted : ¬(password = [] ∨ sizeMb = 0 ∨ (2 ^ 64 - 1) / (1024 * 1024) < sizeMb.toNat) := by
    rw [not_or, not_or, not_lt]
    refine ⟨named, fun zero => ?_, small⟩
    rw [zero] at positive
    exact Nat.lt_irrefl 0 positive
  have inFile : (sizeMb * 1024 * 1024).toNat ≤ longMax := by
    rw [total]
    exact fits
  have sized : ¬(sizeMb * 1024 * 1024 < 1024 * 1024 ∨
      2 ^ 32 - 1 - 8 < (sizeMb * 1024 * 1024).toNat / 2 / 4096) := by
    rw [not_or, UInt64.lt_iff_toNat_lt, total]
    change ¬_ < 1048576 ∧ _
    omega
  have hosts : Hosts crypto random sizeMb password
      ((⟨(sizeMb * 1024 * 1024).toNat, fill, inFile⟩ : Container).store 0
        (headerSector (newHeader crypto random password (outerSize sizeMb)))
        (by rw [limit]; omega)) := by
    refine ⟨positive, ?_, ?_⟩
    · rw [Container.store_size]
      · exact total
      · change 0 + 4096 ≤ (sizeMb * 1024 * 1024).toNat
        omega
    · unfold Container.outerHeader
      rw [Container.sectorAt_store_self, Equiv.symm_apply_apply]
  have formattable : Formattable (outerMount random sizeMb).volumeSize := by
    have bytes : (outerMount random sizeMb).volumeSize.toNat = sizeMb.toNat * 524288 :=
      hosts.outerSize_toNat
    refine formattable_of_blocks ?_ ?_ ?_
    · omega
    · omega
    · rw [bytes]
      exact blocks
  have formats := formatVolume_succeeds crypto (outerMount random sizeMb)
    ⟨(⟨(sizeMb * 1024 * 1024).toNat, fill, inFile⟩ : Container).store 0
      (headerSector (newHeader crypto random password (outerSize sizeMb)))
      (by rw [limit]; omega), []⟩ rfl hosts.placed rfl formattable random.hmacKey now
  unfold containerCreate
  rw [if_neg accepted]
  dsimp only
  rw [dif_pos inFile, if_neg sized, Disk.ioFails_faultless rfl, if_neg Bool.false_ne_true,
    Disk.afterIo_faultless rfl, Disk.fwrite_faultless rfl _ (by rw [limit]; omega)]
  dsimp only
  obtain ⟨succeeds, faultless⟩ := formats
  exact ⟨_, kept_of_formatted _ succeeds, faultless⟩

/-! ## The hidden volume -/

/-- The size and the place `denyfs_container_create_hidden` gives the hidden volume. -/
def hiddenSize (hiddenSizeMb : UInt64) : UInt64 := hiddenSizeMb * 1024 * 1024

def hiddenMount (random : Randomness) (hiddenSizeMb : UInt64) (container : Container) : Mount :=
  mountOf (newPayload random (hiddenSize hiddenSizeMb))
    (container.hiddenHeaderOffset - hiddenSize hiddenSizeMb) true

/-- The hidden volume fits between the end of the outer one and the hidden header. -/
structure HiddenFits (sizeMb hiddenSizeMb : UInt64) : Prop where
  positive : 0 < hiddenSizeMb.toNat
  small : hiddenSizeMb.toNat ≤ (2 ^ 64 - 1) / (1024 * 1024)
  room : 4096 + sizeMb.toNat * 524288 + hiddenSizeMb.toNat * 1048576 + 32768 ≤
    sizeMb.toNat * 1048576

theorem HiddenFits.hiddenSize_toNat {sizeMb hiddenSizeMb : UInt64}
    (fits : HiddenFits sizeMb hiddenSizeMb) :
    (hiddenSize hiddenSizeMb).toNat = hiddenSizeMb.toNat * 1048576 := totalBytes_toNat fits.small

section Hidden

variable {random random' : Randomness} {sizeMb hiddenSizeMb : UInt64} {password : List UInt8}
  {container : Container}

theorem Hosts.hiddenStart (hosts : Hosts crypto random sizeMb password container)
    (fits : HiddenFits sizeMb hiddenSizeMb) :
    (container.hiddenHeaderOffset - hiddenSize hiddenSizeMb).toNat =
      container.size - 32768 - hiddenSizeMb.toNat * 1048576 := by
  have offset := hosts.wellSized.hiddenHeaderOffset_toNat
  have size := hosts.size
  have room := fits.room
  have under : hiddenSize hiddenSizeMb ≤ container.hiddenHeaderOffset := by
    rw [UInt64.le_iff_toNat_le, offset, fits.hiddenSize_toNat]
    omega
  rw [UInt64.toNat_sub_of_le _ _ under, offset, fits.hiddenSize_toNat]

theorem Hosts.hiddenPlaced (hosts : Hosts crypto random sizeMb password container)
    (fits : HiddenFits sizeMb hiddenSizeMb) :
    (hiddenMount random' hiddenSizeMb container).Placed container.size := by
  have start := hosts.hiddenStart fits
  have bytes := fits.hiddenSize_toNat
  have size := hosts.size
  have room := fits.room
  have inFile := container.size_le
  refine ⟨?_, ?_, ?_, ?_, inFile⟩
  · change (hiddenSize hiddenSizeMb).toNat % 4096 = 0
    omega
  · change (container.hiddenHeaderOffset - hiddenSize hiddenSizeMb).toNat % 4096 = 0
    omega
  · change 4096 ≤ (container.hiddenHeaderOffset - hiddenSize hiddenSizeMb).toNat
    omega
  · change (container.hiddenHeaderOffset - hiddenSize hiddenSizeMb).toNat +
      (hiddenSize hiddenSizeMb).toNat + 32768 ≤ container.size
    omega

theorem Hosts.hiddenRange (hosts : Hosts crypto random sizeMb password container)
    (fits : HiddenFits sizeMb hiddenSizeMb) :
    validHiddenRange (hiddenSize hiddenSizeMb) container.hiddenHeaderOffset = true := by
  have offset := hosts.wellSized.hiddenHeaderOffset_toNat
  have bytes := fits.hiddenSize_toNat
  have size := hosts.size
  have room := fits.room
  have positive := fits.positive
  have inFile := container.size_le
  rw [validHiddenRange_iff (by omega), offset, bytes]
  omega

end Hidden

/-- What `denyfs_container_create_hidden` has checked before its first write: the hidden volume
fits between the end of the volume that was opened and the hidden header. -/
structure HiddenSpace (mount : Mount) (hiddenSizeMb : UInt64) (container : Container) : Prop where
  positive : 0 < hiddenSizeMb.toNat
  small : hiddenSizeMb.toNat ≤ (2 ^ 64 - 1) / (1024 * 1024)
  blocks : hiddenSizeMb.toNat * 1048576 / 4096 ≤ 2 ^ 32 - 1 - 8
  sized : container.WellSized
  afterHeader : 4096 ≤ mount.volStartOffset.toNat
  room : mount.volStartOffset.toNat + mount.volumeSize.toNat + hiddenSizeMb.toNat * 1048576 +
    32768 ≤ container.size

/-- The end of `denyfs_container_create_hidden`, from its first write on. -/
def hiddenWrites (crypto : Crypto) (random : Randomness) (hiddenPassword : List UInt8)
    (hiddenSizeMb now : UInt64) (disk : Disk) : Except Errno Unit × Disk :=
  match disk.fwrite disk.container.hiddenHeaderOffset.toNat
      (headerSector (newHeader crypto random hiddenPassword (hiddenSize hiddenSizeMb))) with
  | (false, disk) => (.error .eio, disk)
  | (true, headed) =>
    match formatVolume crypto random.volumeKey random.hmacKey (hiddenSize hiddenSizeMb)
        (disk.container.hiddenHeaderOffset - hiddenSize hiddenSizeMb) now headed with
    | (true, disk) => (.ok (), disk)
    | (false, disk) => (.error .eio, disk)

section Checks

variable {mount : Mount} {random : Randomness} {outerPassword hiddenPassword : List UInt8}
  {hiddenSizeMb now : UInt64} {disk : Disk}

/-- `denyfs_container_create_hidden` gives up with the file as it was, or goes on to write. -/
theorem containerCreateHidden_cases (crypto : Crypto) (random : Randomness)
    (outerPassword hiddenPassword : List UInt8) (hiddenSizeMb now : UInt64) (disk : Disk) :
    (∃ error after, containerCreateHidden crypto random outerPassword hiddenPassword hiddenSizeMb
        now disk = (.error error, after) ∧ disk.Consumes after ∧
        after.container = disk.container) ∨
      ∃ mount vol opened, volOpen crypto outerPassword none false disk =
          (some (mount, vol), opened) ∧
        HiddenSpace mount hiddenSizeMb disk.container ∧
        containerCreateHidden crypto random outerPassword hiddenPassword hiddenSizeMb now disk =
          hiddenWrites crypto random hiddenPassword hiddenSizeMb now opened := by
  have kept := volOpen_container crypto outerPassword none false disk
  have reads := volOpen_consumes crypto outerPassword none false disk
  unfold containerCreateHidden
  split
  case isTrue => exact .inl ⟨_, _, rfl, .refl disk, rfl⟩
  case isFalse accepted =>
  simp only [not_or, Nat.not_lt] at accepted
  obtain ⟨_, _, nonzero, small, blocks, _⟩ := accepted
  have positive : 0 < hiddenSizeMb.toNat := by
    apply Nat.pos_of_ne_zero
    intro zero
    exact nonzero (UInt64.toNat_inj.1 zero)
  have bytes : (hiddenSizeMb * 1024 * 1024).toNat = hiddenSizeMb.toNat * 1048576 :=
    totalBytes_toNat small
  have product : (hiddenSizeMb * (1024 * 1024)).toNat = hiddenSizeMb.toNat * 1048576 := by
    rw [UInt64.toNat_mul]
    exact Nat.mod_eq_of_lt (by change _ * 1048576 < _; omega)
  rw [product] at blocks
  cases opened : volOpen crypto outerPassword none false disk with
  | mk result opens =>
  rw [opened] at kept reads
  cases result with
  | none => exact .inl ⟨_, _, rfl, reads, kept⟩
  | some found =>
  obtain ⟨mount, vol⟩ := found
  dsimp only at kept reads ⊢
  split
  case isTrue => exact .inl ⟨_, _, rfl, reads, kept⟩
  split
  case isTrue => exact .inl ⟨_, _, rfl, reads, kept⟩
  case isFalse space =>
  -- none of the comparisons wrapped
  obtain ⟨sized, selected, _⟩ := volOpen_some opened
  have placed := mountFor_placed sized selected
  have offset := sized.hiddenHeaderOffset_toNat
  have inFile := disk.container.size_le
  have beforeTail := placed.beforeTail
  unfold longMax at inFile
  rw [kept, not_or, not_or] at space
  obtain ⟨under, apart, _⟩ := space
  have under' : hiddenSizeMb * 1024 * 1024 ≤ disk.container.hiddenHeaderOffset :=
    UInt64.not_lt.1 under
  have start : (disk.container.hiddenHeaderOffset - hiddenSizeMb * 1024 * 1024).toNat =
      disk.container.size - 32768 - hiddenSizeMb.toNat * 1048576 := by
    rw [UInt64.toNat_sub_of_le _ _ under', offset, bytes]
  have outerEnd : (mount.volStartOffset + mount.volumeSize).toNat =
      mount.volStartOffset.toNat + mount.volumeSize.toNat := by
    rw [UInt64.toNat_add]
    exact Nat.mod_eq_of_lt (by omega)
  have after := UInt64.le_iff_toNat_le.1 (UInt64.not_lt.1 apart)
  change _ ≤ (disk.container.hiddenHeaderOffset - hiddenSizeMb * 1024 * 1024).toNat at after
  rw [outerEnd, start] at after
  rw [UInt64.le_iff_toNat_le, offset, bytes] at under'
  apply Or.inr
  exact ⟨mount, vol, opens, rfl,
    ⟨positive, small, blocks, sized, placed.afterHeader, by omega⟩, rfl⟩

namespace HiddenSpace

variable {container : Container}

theorem hiddenSize_toNat (space : HiddenSpace mount hiddenSizeMb container) :
    (hiddenSize hiddenSizeMb).toNat = hiddenSizeMb.toNat * 1048576 := totalBytes_toNat space.small

theorem hiddenStart (space : HiddenSpace mount hiddenSizeMb container) :
    (container.hiddenHeaderOffset - hiddenSize hiddenSizeMb).toNat =
      container.size - 32768 - hiddenSizeMb.toNat * 1048576 := by
  have offset := space.sized.hiddenHeaderOffset_toNat
  have bytes := space.hiddenSize_toNat
  have room := space.room
  have under : hiddenSize hiddenSizeMb ≤ container.hiddenHeaderOffset := by
    rw [UInt64.le_iff_toNat_le, offset, bytes]
    omega
  rw [UInt64.toNat_sub_of_le _ _ under, offset, bytes]

theorem opened {opens : Disk} (space : HiddenSpace mount hiddenSizeMb container)
    (same : opens.container = container) : HiddenSpace mount hiddenSizeMb opens.container := by
  rw [same]
  exact space

/-- The place of the new volume. -/
theorem placed (space : HiddenSpace mount hiddenSizeMb container) (random : Randomness) :
    (hiddenMount random hiddenSizeMb container).Placed container.size := by
  have start := space.hiddenStart
  have bytes := space.hiddenSize_toNat
  have room := space.room
  have afterHeader := space.afterHeader
  have sectors := space.sized.sectors
  constructor
  case sized =>
    change (hiddenSize hiddenSizeMb).toNat % 4096 = 0
    omega
  case aligned =>
    change (container.hiddenHeaderOffset - hiddenSize hiddenSizeMb).toNat % 4096 = 0
    omega
  case afterHeader =>
    change 4096 ≤ (container.hiddenHeaderOffset - hiddenSize hiddenSizeMb).toNat
    omega
  case beforeTail =>
    change (container.hiddenHeaderOffset - hiddenSize hiddenSizeMb).toNat +
      (hiddenSize hiddenSizeMb).toNat + 32768 ≤ container.size
    omega
  case small => exact container.size_le

/-- Every size that was accepted can be formatted. -/
theorem formattable (space : HiddenSpace mount hiddenSizeMb container) :
    Formattable (hiddenSize hiddenSizeMb) := by
  have bytes := space.hiddenSize_toNat
  have positive := space.positive
  apply formattable_of_blocks
  · omega
  · omega
  · rw [bytes]
    exact space.blocks

/-- Only the outer volume leaves room: a hidden one ends where the hidden header begins. -/
theorem isOuter (space : HiddenSpace mount hiddenSizeMb container)
    (mounted : container.mountFor crypto outerPassword none false = some mount) :
    mount.isHidden = false := by
  have ends := (mountFor_offsets space.sized mounted).2.1
  have positive := space.positive
  have room := space.room
  cases hidden : mount.isHidden with
  | false => rfl
  | true =>
    have last := ends hidden
    omega

end HiddenSpace

/-- The header is on disk; the file keeps its length and all other bytes. -/
structure HeaderWritten (header : HeaderDisk) (before headed : Disk) : Prop where
  consumes : before.Consumes headed
  size : headed.container.size = before.container.size
  header : headed.container.sectorAt (before.container.size - 32768) = headerSector header
  bytes : ∀ i < before.container.size, ¬(before.container.size - 32768 ≤ i ∧
    i < before.container.size - 32768 + 4096) → headed.container.byte i = before.container.byte i

/-- The header is not written, which takes a failing I/O, or it is, and the volume is formatted. -/
theorem hiddenWrites_cases (crypto : Crypto) (random : Randomness) (hiddenPassword : List UInt8) (now : UInt64)
    (space : HiddenSpace mount hiddenSizeMb disk.container) :
    (∃ after, hiddenWrites crypto random hiddenPassword hiddenSizeMb now disk =
        (.error .eio, after) ∧ disk.Consumes after ∧ ¬disk.Untroubled after) ∨
      ∃ headed ok after, HeaderWritten (newHeader crypto random hiddenPassword
          (hiddenSize hiddenSizeMb)) disk headed ∧
        formatVolume crypto (hiddenMount random hiddenSizeMb disk.container).volumeKey
          random.hmacKey (hiddenMount random hiddenSizeMb disk.container).volumeSize
          (hiddenMount random hiddenSizeMb disk.container).volStartOffset now headed =
            (ok, after) ∧
        hiddenWrites crypto random hiddenPassword hiddenSizeMb now disk =
          (if ok = true then .ok () else .error .eio, after) := by
  have offset := space.sized.hiddenHeaderOffset_toNat
  have large := space.sized.large
  have inFile := disk.container.size_le
  have fits : disk.container.hiddenHeaderOffset.toNat + 4096 ≤ longMax := by omega
  have consumes := disk.fwrite_consumes disk.container.hiddenHeaderOffset.toNat
    (headerSector (newHeader crypto random hiddenPassword (hiddenSize hiddenSizeMb)))
  have stores := disk.fwrite_cases disk.container.hiddenHeaderOffset.toNat
    (headerSector (newHeader crypto random hiddenPassword (hiddenSize hiddenSizeMb)))
  have works := disk.fwrite_untroubled
    (headerSector (newHeader crypto random hiddenPassword (hiddenSize hiddenSizeMb))) fits
  unfold hiddenWrites
  generalize disk.fwrite disk.container.hiddenHeaderOffset.toNat
    (headerSector (newHeader crypto random hiddenPassword (hiddenSize hiddenSizeMb))) = header
    at consumes stores works ⊢
  obtain ⟨ok, headed⟩ := header
  cases stores with
  | inl failed =>
    obtain ⟨_, failed⟩ := failed
    dsimp only at failed
    subst failed
    apply Or.inl
    exact ⟨headed, rfl, consumes, fun untroubled => Bool.false_ne_true (works untroubled)⟩
  | inr stored =>
    obtain ⟨_, succeeded, container⟩ := stored
    dsimp only at succeeded container consumes
    subst succeeded
    have written : HeaderWritten (newHeader crypto random hiddenPassword
        (hiddenSize hiddenSizeMb)) disk headed := by
      constructor
      case consumes => exact consumes
      case size => rw [container, Container.store_size _ _ fits (by omega)]
      case header =>
        rw [container, ← offset]
        exact Container.sectorAt_store_self ..
      case bytes =>
        intro i inFile outside
        rw [container]
        exact Container.byte_store_outside _ _ _ inFile (by omega)
    apply Or.inr
    cases formats : formatVolume crypto random.volumeKey random.hmacKey (hiddenSize hiddenSizeMb)
      (disk.container.hiddenHeaderOffset - hiddenSize hiddenSizeMb) now headed with
    | mk ok after =>
    refine ⟨headed, ok, after, written, formats, ?_⟩
    dsimp only
    rw [formats]
    cases ok with
    | true => rfl
    | false => rfl

theorem HeaderWritten.placed {header : HeaderDisk} {headed : Disk}
    (written : HeaderWritten header disk headed)
    (space : HiddenSpace mount hiddenSizeMb disk.container) (random : Randomness) :
    (hiddenMount random hiddenSizeMb disk.container).Placed headed.container.size := by
  rw [written.size]
  exact space.placed random

end Checks

/-- `denyfs_container_create_hidden` returns 0 only where the hidden volume fits, and then
leaves the hidden header, a formatted hidden volume and everything before it as it was. -/
theorem containerCreateHidden_ok {random random' : Randomness} {sizeMb hiddenSizeMb : UInt64}
    {outerPassword hiddenPassword : List UInt8} {now : UInt64} {disk disk' : Disk}
    (roundTrip : crypto.SectorRoundTrip) (gcm : crypto.HeaderRoundTrip)
    (hosts : Hosts crypto random sizeMb outerPassword disk.container)
    (created : containerCreateHidden crypto random' outerPassword hiddenPassword hiddenSizeMb now
      disk = (.ok (), disk')) :
    HiddenFits sizeMb hiddenSizeMb ∧
      disk'.container.size = disk.container.size ∧
      (∀ i < disk.container.size - 32768 - hiddenSizeMb.toNat * 1048576,
        disk'.container.byte i = disk.container.byte i) ∧
      disk'.container.hiddenHeader =
        newHeader crypto random' hiddenPassword (hiddenSize hiddenSizeMb) ∧
      Formattable (hiddenSize hiddenSizeMb) ∧
      Formatted (formatImage crypto random'.hmacKey (hiddenSize hiddenSizeMb) now)
        ((hiddenMount random' hiddenSizeMb disk.container).blocks crypto disk'.container) := by
  cases containerCreateHidden_cases crypto random' outerPassword hiddenPassword hiddenSizeMb now
    disk with
  | inl refused =>
    obtain ⟨error, after, result, _⟩ := refused
    rw [result] at created
    cases created
  | inr writes =>
  obtain ⟨mount, vol, opens, opened, space, result⟩ := writes
  rw [result] at created
  have same : opens.container = disk.container := by
    have kept := volOpen_container crypto outerPassword none false disk
    rw [opened] at kept
    exact kept
  -- the header the file was created with selects the outer volume
  have mounted : outerMount random sizeMb = mount := by
    have selected := (volOpen_some opened).2.1
    rw [hosts.mountFor gcm] at selected
    exact Option.some.inj selected
  subst mounted
  have bytes := space.hiddenSize_toNat
  have start := space.hiddenStart
  have fits : HiddenFits sizeMb hiddenSizeMb := by
    have size := hosts.size
    have outerBytes : (outerMount random sizeMb).volumeSize.toNat = sizeMb.toNat * 524288 :=
      hosts.outerSize_toNat
    have outerStart : (outerMount random sizeMb).volStartOffset.toNat = 4096 := rfl
    have room := space.room
    exact ⟨space.positive, space.small, by omega⟩
  cases hiddenWrites_cases crypto random' hiddenPassword now (space.opened same) with
  | inl failed =>
    obtain ⟨after, fails, _⟩ := failed
    rw [fails] at created
    cases created
  | inr headed =>
  obtain ⟨headed, ok, after, written, formats, ends⟩ := headed
  rw [ends] at created
  obtain rfl : after = disk' := congrArg Prod.snd created
  cases ok with
  | false => cases created
  | true =>
  have placed := written.placed (space.opened same) random'
  have formatted := formatVolume_formatted roundTrip rfl placed (congrArg Prod.fst formats)
  rw [formats] at formatted
  obtain ⟨formattable, _, formatted, confined⟩ := formatted
  obtain ⟨sameSize, sameBytes⟩ := confined placed
  have room := fits.room
  have size := hosts.size
  have some := fits.positive
  have header := written.header
  have headedBytes := written.bytes
  have headedSize := written.size
  rw [same] at header headedBytes headedSize formatted sameBytes
  have finalSize := sameSize.trans headedSize
  refine ⟨fits, finalSize, fun i below => ?_, ?_, formattable, formatted⟩
  · rw [sameBytes i (by omega) fun writable => ?_, headedBytes i (by omega) (by omega)]
    have first : (disk.container.hiddenHeaderOffset - hiddenSize hiddenSizeMb).toNat ≤ i :=
      writable.1
    omega
  · unfold Container.hiddenHeader
    have kept : after.container.sectorAt (disk.container.size - 32768) =
        headed.container.sectorAt (disk.container.size - 32768) := by
      refine Container.sectorAt_of_bytes fun i first below => sameBytes i (by omega) fun writable => ?_
      have last : i < (disk.container.hiddenHeaderOffset - hiddenSize hiddenSizeMb).toNat +
        (hiddenSize hiddenSizeMb).toNat := writable.2.1
      omega
    rw [finalSize, kept, header, Equiv.symm_apply_apply]

/-- The end of `denyfs_container_create_hidden`. -/
theorem ok_of_formatted : ∀ outcome : Bool × Disk, outcome.1 = true →
    (match outcome with
      | (true, disk) => (.ok (), disk)
      | (false, disk) => (.error .eio, disk) : Except Errno Unit × Disk) = (.ok (), outcome.2) := by
  intro outcome succeeds
  obtain ⟨ok, disk⟩ := outcome
  dsimp only at succeeds
  subst succeeds
  rfl

/-- Where no I/O fails and the outer volume opens, `denyfs_container_create_hidden` succeeds for
every size that fits. -/
theorem containerCreateHidden_succeeds {random random' : Randomness} {sizeMb hiddenSizeMb : UInt64}
    {outerPassword hiddenPassword : List UInt8} (now : UInt64) {container : Container} {vol : Volume}
    (hosts : Hosts crypto random sizeMb outerPassword container)
    (opens : volOpen crypto outerPassword none false ⟨container, []⟩ =
      (some (outerMount random sizeMb, vol), ⟨container, []⟩))
    (outerNamed : outerPassword ≠ []) (hiddenNamed : hiddenPassword ≠ [])
    (apart : outerPassword ≠ hiddenPassword) (fits : HiddenFits sizeMb hiddenSizeMb)
    (blocks : hiddenSizeMb.toNat * 1048576 / 4096 ≤ 2 ^ 32 - 1 - 8) :
    ∃ disk', containerCreateHidden crypto random' outerPassword hiddenPassword hiddenSizeMb now
        ⟨container, []⟩ = (.ok (), disk') ∧ disk'.faults = [] := by
  have bytes := fits.hiddenSize_toNat
  have offset := hosts.wellSized.hiddenHeaderOffset_toNat
  have start := hosts.hiddenStart fits
  have size := hosts.size
  have room := fits.room
  have positive := fits.positive
  have hostPositive := hosts.positive
  have inFile := container.size_le
  have limit : longMax = 2 ^ 63 - 1 := rfl
  have small := fits.small
  have product : (hiddenSizeMb * (1024 * 1024)).toNat = hiddenSizeMb.toNat * 1048576 := by
    rw [UInt64.toNat_mul]
    exact Nat.mod_eq_of_lt (by change _ * 1048576 < _; omega)
  have accepted : ¬(outerPassword = [] ∨ hiddenPassword = [] ∨ hiddenSizeMb = 0 ∨
      (2 ^ 64 - 1) / (1024 * 1024) < hiddenSizeMb.toNat ∨
      2 ^ 32 - 1 - 8 < (hiddenSizeMb * (1024 * 1024)).toNat / 4096 ∨
      outerPassword = hiddenPassword) := by
    rw [not_or, not_or, not_or, not_or, not_or, not_lt, not_lt, product]
    refine ⟨outerNamed, hiddenNamed, fun zero => ?_, small, blocks, apart⟩
    rw [zero] at positive
    exact Nat.lt_irrefl 0 positive
  have sized : ¬(container.size < 32768 + 4096 ∨ container.size % 4096 ≠ 0) := by
    rw [size]
    omega
  have outerEnd : ((outerMount random sizeMb).volStartOffset +
      (outerMount random sizeMb).volumeSize).toNat = 4096 + sizeMb.toNat * 524288 := by
    change (4096 + outerSize sizeMb).toNat = _
    rw [UInt64.toNat_add, hosts.outerSize_toNat]
    exact Nat.mod_eq_of_lt (by change 4096 + _ < _; omega)
  have space : ¬(container.hiddenHeaderOffset < hiddenSize hiddenSizeMb ∨
      container.hiddenHeaderOffset - hiddenSize hiddenSizeMb <
        (outerMount random sizeMb).volStartOffset + (outerMount random sizeMb).volumeSize ∨
      hiddenSize hiddenSizeMb % 4096 ≠ 0) := by
    rw [not_or, not_or, not_not, UInt64.not_lt, UInt64.not_lt, UInt64.le_iff_toNat_le,
      UInt64.le_iff_toNat_le, offset, start, outerEnd, bytes, ← UInt64.toNat_inj,
      UInt64.toNat_mod, bytes]
    change _ ∧ _ ∧ _ % 4096 = 0
    omega
  have headerFits : container.hiddenHeaderOffset.toNat + 4096 ≤ longMax := by
    rw [offset]
    omega
  have headedSize : (container.store container.hiddenHeaderOffset.toNat
      (headerSector (newHeader crypto random' hiddenPassword (hiddenSize hiddenSizeMb)))
      headerFits).size = container.size :=
    Container.store_size _ _ headerFits (by rw [offset]; omega)
  have placed : (hiddenMount random' hiddenSizeMb container).Placed
      (container.store container.hiddenHeaderOffset.toNat
        (headerSector (newHeader crypto random' hiddenPassword (hiddenSize hiddenSizeMb)))
        headerFits).size := by
    rw [headedSize]
    exact hosts.hiddenPlaced fits
  have formattable : Formattable (hiddenMount random' hiddenSizeMb container).volumeSize := by
    change Formattable (hiddenSize hiddenSizeMb)
    refine formattable_of_blocks ?_ ?_ ?_
    · omega
    · omega
    · rw [bytes]
      exact blocks
  obtain ⟨succeeds, faultless⟩ := formatVolume_succeeds crypto
    (hiddenMount random' hiddenSizeMb container)
    ⟨container.store container.hiddenHeaderOffset.toNat
      (headerSector (newHeader crypto random' hiddenPassword (hiddenSize hiddenSizeMb)))
      headerFits, []⟩ rfl placed rfl formattable random'.hmacKey now
  unfold containerCreateHidden
  rw [if_neg accepted, opens]
  dsimp only
  rw [if_neg sized]
  rw [show UInt64.ofNat container.size - 32768 = container.hiddenHeaderOffset from rfl,
    show hiddenSizeMb * 1024 * 1024 = hiddenSize hiddenSizeMb from rfl]
  rw [if_neg space, Disk.fwrite_faultless rfl _ headerFits]
  exact ⟨_, ok_of_formatted _ succeeds, faultless⟩

/-! ## A small container

Primitives that can be evaluated and meet everything the results assume of the real ones:
sectors are stored as they are, the tag of a header is the front of its key, and the key is the
front of the password. -/

def transparentCrypto : Crypto where
  deriveMasterKey password _ := fun i => password.getD i.val 0
  deriveHeaderKey key := key
  gcmEncrypt key _ plaintext := (plaintext, fun i => key (Fin.castLE (by decide) i))
  gcmDecrypt key _ ciphertext tag :=
    if ∀ i : Fin 16, tag i = key (Fin.castLE (by decide) i) then some ciphertext else none
  xtsEncrypt _ _ sector := sector
  xtsDecrypt _ _ sector := sector
  hmac key bytes := fun i => bytes.foldl (fun sum byte => sum * 31 + byte) (key i)

theorem transparentCrypto_sectors : transparentCrypto.SectorRoundTrip := fun _ _ _ => rfl

theorem transparentCrypto_onto : transparentCrypto.SectorOnto := fun _ _ _ => rfl

theorem transparentCrypto_headers : transparentCrypto.HeaderRoundTrip := by
  intro key iv plaintext
  exact if_pos fun _ => rfl

/-- Keys with different first bytes reject each other's headers. -/
theorem transparentCrypto_rejects {key other : Bytes 32} (apart : key 0 ≠ other 0) :
    transparentCrypto.HeaderRejects key other := by
  intro iv plaintext
  exact if_neg fun all => apart (all 0)

def zeroRandomness : Randomness :=
  ⟨fun _ => 0, fun _ => 0, fun _ => 0, fun _ => 0, fun _ => 0⟩

/-- A container of `sizeMb` MiB under the password `[1]`. -/
def smallContainer (sizeMb : UInt64) : Option Disk :=
  containerCreate transparentCrypto zeroRandomness (fun _ => 0) sizeMb [1] 0 []

theorem smallContainer_opens {sizeMb : UInt64} (positive : 0 < sizeMb.toNat)
    (small : sizeMb.toNat ≤ 1024) :
    ∃ disk vol, smallContainer sizeMb = some disk ∧ disk.faults = [] ∧
      Hosts transparentCrypto zeroRandomness sizeMb [1] disk.container ∧
      volOpen transparentCrypto [1] none false disk =
        (some (outerMount zeroRandomness sizeMb, vol), disk) ∧
      OpenedNew transparentCrypto (outerMount zeroRandomness sizeMb) vol disk := by
  have limit : longMax = 2 ^ 63 - 1 := rfl
  obtain ⟨disk, created, faultless⟩ := containerCreate_succeeds transparentCrypto
    zeroRandomness (fun _ => 0) 0 (by simp : ([1] : List UInt8) ≠ []) positive (by omega) (by omega)
  obtain ⟨hosts, formattable, formatted, _⟩ :=
    containerCreate_some transparentCrypto_sectors created
  obtain ⟨vol, opened, asNew⟩ := open_formatted transparentCrypto_sectors hosts.wellSized
    (hosts.mountFor transparentCrypto_headers none) (outerMount_unprotected zeroRandomness sizeMb)
    formattable formatted
  obtain ⟨container, faults⟩ := disk
  subst faultless
  exact ⟨_, vol, created, rfl, hosts, opened, asNew⟩

end DenyFS
