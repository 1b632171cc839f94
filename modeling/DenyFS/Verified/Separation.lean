import DenyFS.Verified.CreateOpen

/-! # Separation of the two volumes

An open volume writes only inside its own range, and a session on one volume neither depends
on what lies outside that range nor shows in it. -/

namespace DenyFS

open Packed BlockProgram

/-! ## Confinement -/

/-- Whatever the headers say, an open volume writes only inside its own range, which lies
between the two header slots; under outer-mount protection nothing from the start of the
hidden volume on is written; and no offset on the way wraps. -/
theorem open_volume_confined (crypto : Crypto) (password : List UInt8)
    (hiddenPassword : Option (List UInt8)) (protectHidden : Bool) (disk disk' : Disk)
    (mount : Mount) (vol : Volume)
    (opened : volOpen crypto password hiddenPassword protectHidden disk =
      (some (mount, vol), disk')) (calls : List Call) :
    let size := disk.container.size
    let start := mount.volStartOffset.toNat
    let final := (runCalls crypto mount (volumeDevice crypto mount) calls (vol, disk')).2.2.container
    final.size = size ∧ 4096 ≤ start ∧ start + mount.volumeSize.toNat + 32768 ≤ size ∧
      (∀ i < size, final.byte i ≠ disk.container.byte i →
        start ≤ i ∧ i < start + mount.volumeSize.toNat) ∧
      (protectHidden = true → mount.isHidden = false → ∃ secret payload,
        hiddenPassword = some secret ∧
        authenticate crypto disk.container.hiddenHeader secret = some payload ∧
        payload.volumeSize.toNat + 4096 ≤ size - 32768 ∧
        mount.protectStartSector.toNat * 4096 = size - 32768 - payload.volumeSize.toNat ∧
        mount.protectEndSector.toNat = size / 4096 - 1 ∧
        ∀ i < size, size - 32768 - payload.volumeSize.toNat ≤ i →
          final.byte i = disk.container.byte i) ∧
      disk.container.hiddenHeaderOffset.toNat = size - 32768 ∧
      (mount.isHidden = false → start = 4096) ∧
      (mount.isHidden = true → start = size - 32768 - mount.volumeSize.toNat) ∧
      ∀ block : UInt32, block.toNat < mount.volumeSize.toNat / 4096 →
        (blockOffset mount.volStartOffset block).toNat = start + block.toNat * 4096 ∧
        start + block.toNat * 4096 + 4096 ≤ longMax ∧
        (mount.volStartOffset / 4096 + block.toUInt64).toNat = start / 4096 + block.toNat := by
  intro size start final
  obtain ⟨sized, mounted, _⟩ := volOpen_some opened
  have placed := mountFor_placed sized mounted
  obtain ⟨outerStart, hiddenStart, protection⟩ := mountFor_offsets sized mounted
  have same : disk'.container = disk.container := by
    rw [← volOpen_container crypto password hiddenPassword protectHidden disk, opened]
  obtain ⟨finalSize, kept⟩ := runCalls_confined crypto mount calls (vol, disk') (same ▸ placed)
  dsimp only at finalSize kept
  rw [same] at finalSize kept
  refine ⟨finalSize, placed.afterHeader, placed.beforeTail, ?_, ?_,
    sized.hiddenHeaderOffset_toNat, outerStart, ?_, ?_⟩
  · intro i inFile changed
    by_contra outside
    exact changed (kept i inFile fun writable => outside ⟨writable.1, writable.2.1⟩)
  · intro wanted outer
    obtain ⟨secret, payload, given, found, room, active, first, last⟩ := protection wanted outer
    refine ⟨secret, payload, given, found, room, first, last, fun i inFile inHidden => ?_⟩
    refine kept i inFile fun writable => writable.2.2 ⟨active, ?_, ?_⟩
    · omega
    · have := sized.sectors
      omega
  · intro hidden
    have := hiddenStart hidden
    omega
  · intro block inside
    refine ⟨placed.blockOffset_toNat inside, ?_, placed.absoluteSector_toNat inside⟩
    have := placed.beforeTail
    have := placed.small
    omega

theorem open_volume_confined_small :
    ∃ disk vol, smallContainer 4 = some disk ∧
      volOpen transparentCrypto [1] none false disk =
        (some (outerMount zeroRandomness 4, vol), disk) ∧
      let final := (runCalls transparentCrypto (outerMount zeroRandomness 4)
        (volumeDevice transparentCrypto (outerMount zeroRandomness 4))
        [.create 0 ⟨[97], by decide⟩, .write 0 1 [1, 2, 3] 0] (vol, disk)).2.2.container
      ∀ i < disk.container.size, final.byte i ≠ disk.container.byte i →
        4096 ≤ i ∧ i < 4096 + 2097152 := by
  obtain ⟨disk, _, vol, isSmall, _, _, opened, _⟩ := smallContainer_hides
  have confined := open_volume_confined transparentCrypto [1] none false disk disk _ vol opened
    [.create 0 ⟨[97], by decide⟩, .write 0 1 [1, 2, 3] 0]
  obtain ⟨_, _, _, bytes, _⟩ := confined
  exact ⟨disk, vol, isSmall, opened, bytes⟩

/-! ## The outer view -/

/-- Two-run independence: containers of one length that agree on the outer header and the
outer range give the same results in all sessions opened with the outer password without
protection, select the outer volume in all of them, and still agree afterwards. -/
theorem outer_view_independent (crypto : Crypto) (password : List UInt8) (first second : Disk)
    (payload : HeaderPayload)
    (length : first.container.size = second.container.size)
    (faults : first.faults = second.faults)
    (header : authenticate crypto first.container.outerHeader password = some payload)
    (range : validVolumeRange 4096 payload.volumeSize first.container.hiddenHeaderOffset = true)
    (agree : ∀ i < 4096 + payload.volumeSize.toNat,
      first.container.byte i = second.container.byte i)
    (sessions : List Session)
    (outer : ∀ session ∈ sessions, session.password = password ∧ session.protectHidden = false) :
    (runSessions crypto sessions first).1 = (runSessions crypto sessions second).1 ∧
      (runSessions crypto sessions first).2.container.select crypto password =
        some (mountOf payload 4096 false) ∧
      (runSessions crypto sessions second).2.container.select crypto password =
        some (mountOf payload 4096 false) ∧
      ∀ i < 4096 + payload.volumeSize.toNat,
        (runSessions crypto sessions first).2.container.byte i =
          (runSessions crypto sessions second).2.container.byte i := by
  -- what every session keeps: equal length, faults and visible bytes, and the outer header
  let related : Disk → Disk → Prop := fun a b =>
    a.container.size = first.container.size ∧ b.container.size = first.container.size ∧
      a.faults = b.faults ∧
      a.container.outerHeader = first.container.outerHeader ∧
      b.container.outerHeader = first.container.outerHeader ∧
      ∀ i < 4096 + payload.volumeSize.toNat, a.container.byte i = b.container.byte i
  have selects : ∀ disk : Disk, disk.container.size = first.container.size →
      disk.container.outerHeader = first.container.outerHeader →
      ∀ hiddenPassword, disk.container.select crypto password =
          some (mountOf payload 4096 false) ∧
        disk.container.mountFor crypto password hiddenPassword false =
          some (mountOf payload 4096 false) := by
    intro disk same sameHeader hiddenPassword
    refine mountFor_outer (by rw [sameHeader, header]) ?_ hiddenPassword
    rwa [Container.hiddenHeaderOffset, same]
  have kept : ∀ session ∈ sessions, ∀ a b, related a b →
      (runSession crypto session a).1 = (runSession crypto session b).1 ∧
        related (runSession crypto session a).2 (runSession crypto session b).2 := by
    rintro session member a b ⟨sizeA, sizeB, sameFaults, headerA, headerB, bytes⟩
    obtain ⟨rfl, unprotected⟩ := outer session member
    by_cases sized : first.container.WellSized
    · have placed : (mountOf payload 4096 false).Placed first.container.size :=
        (authenticate_mount_placed sized).1 range
      have start : (mountOf payload 4096 false).volStartOffset.toNat = 4096 := rfl
      have mountA : a.container.mountFor crypto session.password session.hiddenPassword
          session.protectHidden = some (mountOf payload 4096 false) := by
        rw [unprotected]
        exact (selects a sizeA headerA session.hiddenPassword).2
      have mountB : b.container.mountFor crypto session.password session.hiddenPassword
          session.protectHidden = some (mountOf payload 4096 false) := by
        rw [unprotected]
        exact (selects b sizeB headerB session.hiddenPassword).2
      have seenRange : ∀ i, (mountOf payload 4096 false).Range i →
          i < 4096 + payload.volumeSize.toNat := fun i inside => inside.2
      have inRange : ∀ disk : Disk,
          disk.container.mountFor crypto session.password session.hiddenPassword
            session.protectHidden = some (mountOf payload 4096 false) →
          ∀ i, i < 4096 → ∀ mount, disk.container.mountFor crypto session.password
            session.hiddenPassword session.protectHidden = some mount → ¬mount.Range i := by
        intro disk mounted i before mount selected inside
        rw [mounted] at selected
        obtain rfl := Option.some.inj selected
        have := inside.1
        omega
      have beforeTail : 4096 + payload.volumeSize.toNat ≤ first.container.size := by
        have := placed.beforeTail
        simp only [mountOf] at this
        have : (4096 : UInt64).toNat = 4096 := rfl
        omega
      obtain ⟨results, after⟩ := runSession_agree crypto
        (fun i => i < 4096 + payload.volumeSize.toNat) session
        (by rw [mountA, mountB])
        (fun mount selected => by
          rw [mountA] at selected
          obtain rfl := Option.some.inj selected
          exact seenRange)
        ⟨sizeA.trans sizeB.symm, sameFaults, fun i _ visible => bytes i visible⟩
      obtain ⟨keptA, outsideA⟩ := runSession_outside crypto session a
      obtain ⟨keptB, outsideB⟩ := runSession_outside crypto session b
      have large := sized.large
      refine ⟨results, keptA.trans sizeA, keptB.trans sizeB, after.faults, ?_, ?_, ?_⟩
      · rw [← headerA]
        refine congrArg headerSector.symm (funext fun k => ?_)
        exact outsideA _ (by omega) (inRange a mountA _ (by omega))
      · rw [← headerB]
        refine congrArg headerSector.symm (funext fun k => ?_)
        exact outsideB _ (by omega) (inRange b mountB _ (by omega))
      · exact fun i visible => after.bytes i (by omega) visible
    · rw [runSession_unopenable session (fun wellA => sized ⟨sizeA ▸ wellA.1, sizeA ▸ wellA.2⟩),
        runSession_unopenable session (fun wellB => sized ⟨sizeB ▸ wellB.1, sizeB ▸ wellB.2⟩)]
      exact ⟨rfl, sizeA, sizeB, sameFaults, headerA, headerB, bytes⟩
  have secondHeader : second.container.outerHeader = first.container.outerHeader := by
    refine congrArg headerSector.symm (funext fun k => ?_)
    exact (agree _ (by omega)).symm
  obtain ⟨results, final⟩ := Machine.run_related related kept
    (show related first second from ⟨rfl, length.symm, faults, rfl, secondHeader, agree⟩)
  obtain ⟨sizeA, sizeB, _, headerA, headerB, bytes⟩ := final
  exact ⟨results, (selects _ sizeA headerA none).1, (selects _ sizeB headerB none).1, bytes⟩

/-- A container before and after a hidden volume was created in it. -/
theorem outer_view_independent_small :
    ∃ created disk, smallContainer 4 = some created ∧
      containerCreateHidden transparentCrypto zeroRandomness [1] [2] 1 0 created =
        (.ok (), disk) ∧
      let sessions : List Session :=
        [⟨[1], none, false, [.create 0 ⟨[97], by decide⟩, .write 0 1 [1, 2, 3] 0]⟩,
          ⟨[1], none, false, [.readdir, .read 1 3 0]⟩]
      (runSessions transparentCrypto sessions created).1 =
        (runSessions transparentCrypto sessions disk).1 := by
  obtain ⟨created, disk, _, isSmall, faultless, hosts, _, hides, faultless'⟩ := smallContainer_hides
  obtain ⟨_, size, below, _⟩ := containerCreateHidden_ok transparentCrypto_sectors
    transparentCrypto_headers hosts hides
  have header : authenticate transparentCrypto created.container.outerHeader [1] =
      some (newPayload zeroRandomness (outerSize 4)).stored := by
    rw [hosts.header]
    exact authenticate_newHeader transparentCrypto_headers zeroRandomness [1] _
  have outer : (newPayload zeroRandomness (outerSize 4)).stored.volumeSize.toNat = 2097152 := by
    decide
  have whole : created.container.size = 4194304 := hosts.size
  have hidden : (1 : UInt64).toNat = 1 := rfl
  refine ⟨created, disk, isSmall, hides, ?_⟩
  refine (outer_view_independent transparentCrypto [1] created disk _ size.symm
    (faultless.trans faultless'.symm) header hosts.range (fun i small => ?_) _ ?_).1
  · rw [outer] at small
    rw [whole, hidden] at below
    exact (below i (lt_trans small (by decide))).symm
  · intro session listed
    cases List.mem_pair.1 listed with
    | inl first => rw [first]; exact ⟨rfl, rfl⟩
    | inr second => rw [second]; exact ⟨rfl, rfl⟩

/-! ## Sessions on either volume

Every session keeps the length of the container and its two headers, and so the mounts that
later sessions get.  An observer on one volume sees the range of that volume and both headers. -/

/-- A disk that still has the length and the headers of `base`. -/
structure Carries (base : Container) (disk : Disk) : Prop where
  size : disk.container.size = base.size
  faultless : disk.faults = []
  outerHeader : disk.container.outerHeader = base.outerHeader
  hiddenHeader : disk.container.hiddenHeader = base.hiddenHeader

namespace Carries

variable {crypto : Crypto} {base : Container} {disk : Disk}

theorem mountFor (carries : Carries base disk) (password : List UInt8)
    (hiddenPassword : Option (List UInt8)) (protectHidden : Bool) :
    disk.container.mountFor crypto password hiddenPassword protectHidden =
      base.mountFor crypto password hiddenPassword protectHidden := by
  unfold Container.mountFor Container.select Container.hiddenHeaderOffset
  rw [carries.size, carries.outerHeader, carries.hiddenHeader]

/-- What leaves both headers alone. -/
theorem after (carries : Carries base disk) (sized : base.WellSized) {disk' : Disk}
    (size : disk'.container.size = disk.container.size) (faultless : disk'.faults = [])
    (away : ∀ i, i < 4096 ∨ base.size - 32768 ≤ i → i < base.size →
      disk'.container.byte i = disk.container.byte i) : Carries base disk' := by
  have large := sized.large
  refine ⟨size.trans carries.size, faultless, ?_, ?_⟩
  · rw [← carries.outerHeader]
    refine congrArg headerSector.symm (funext fun k => ?_)
    exact away _ (.inl (by omega)) (by omega)
  · rw [← carries.hiddenHeader]
    unfold Container.hiddenHeader
    rw [size]
    refine congrArg headerSector.symm (funext fun k => ?_)
    have here := carries.size
    exact away _ (.inr (by omega)) (by omega)

theorem session (carries : Carries base disk) (sized : base.WellSized) (crypto : Crypto)
    (session : Session) : Carries base (runSession crypto session disk).2 := by
  obtain ⟨size, kept⟩ := runSession_outside crypto session disk
  apply carries.after sized size (runSession_stays crypto session disk carries.faultless)
  intro i header inFile
  refine kept i (by rw [carries.size]; exact inFile) fun mount mounted inRange => ?_
  rw [carries.mountFor] at mounted
  have placed := mountFor_placed sized mounted
  have first := placed.afterHeader
  have last := placed.beforeTail
  have lower := inRange.1
  have upper := inRange.2
  omega

end Carries

/-- Two disks that an observer of `seen` cannot tell apart. -/
structure SameView (base : Container) (seen : Nat → Prop) (first second : Disk) : Prop where
  left : Carries base first
  right : Carries base second
  bytes : ∀ i < base.size, seen i → first.container.byte i = second.container.byte i

section Observer

variable {crypto : Crypto} {base : Container} {seen : Nat → Prop} (sized : base.WellSized)
  {session : Session}
include sized

/-- A session on a volume that the observer sees shows the same and keeps the view. -/
theorem SameView.own (visible : ∀ mount, base.mountFor crypto session.password
      session.hiddenPassword session.protectHidden = some mount → ∀ i, mount.Range i → seen i)
    {first second : Disk} (same : SameView base seen first second) :
    (runSession crypto session first).1 = (runSession crypto session second).1 ∧
      SameView base seen (runSession crypto session first).2
        (runSession crypto session second).2 := by
  have agree : Agree seen first second :=
    ⟨same.left.size.trans same.right.size.symm,
      same.left.faultless.trans same.right.faultless.symm,
      fun i inFile => same.bytes i (by rw [← same.left.size]; exact inFile)⟩
  have mounts : first.container.mountFor crypto session.password session.hiddenPassword
      session.protectHidden = second.container.mountFor crypto session.password
        session.hiddenPassword session.protectHidden := by
    rw [same.left.mountFor, same.right.mountFor]
  obtain ⟨results, after⟩ := runSession_agree crypto seen session mounts
    (fun mount mounted => visible mount (by rw [← same.left.mountFor]; exact mounted)) agree
  have kept := same.left.session sized crypto session
  exact ⟨results, kept, same.right.session sized crypto session, fun i inFile =>
    after.bytes i (by rw [kept.size]; exact inFile)⟩

/-- A session on a volume that the observer does not see keeps the view. -/
theorem SameView.other (hidden : ∀ mount, base.mountFor crypto session.password
      session.hiddenPassword session.protectHidden = some mount → ∀ i, mount.Range i → ¬seen i)
    {first second : Disk} (same : SameView base seen first second) :
    SameView base seen (runSession crypto session first).2 second := by
  obtain ⟨size, kept⟩ := runSession_outside crypto session first
  refine ⟨same.left.session sized crypto session, same.right, fun i inFile visible => ?_⟩
  rw [← same.bytes i inFile visible]
  refine kept i (by rw [same.left.size]; exact inFile) fun mount mounted inRange => ?_
  rw [same.left.mountFor] at mounted
  exact hidden mount mounted i inRange visible

variable (seen) in
/-- The results of an observer who owns some of the sessions are those of the run of these
sessions alone. -/
theorem resultsOf_own {mine : Session → Bool} {sessions : List Session}
    (own : ∀ session ∈ sessions, mine session = true → ∀ mount,
      base.mountFor crypto session.password session.hiddenPassword session.protectHidden =
        some mount → ∀ i, mount.Range i → seen i)
    (other : ∀ session ∈ sessions, mine session = false → ∀ mount,
      base.mountFor crypto session.password session.hiddenPassword session.protectHidden =
        some mount → ∀ i, mount.Range i → ¬seen i)
    {disk : Disk} (carries : Carries base disk) :
    Machine.resultsOf mine sessions (runSessions crypto sessions disk).1 =
      (runSessions crypto (sessions.filter mine) disk).1 := by
  have start : SameView base seen disk disk := ⟨carries, carries, fun _ _ _ => rfl⟩
  refine (Machine.run_purge (fun session listed isMine first second same => ?_)
    (fun session listed notMine first second same => ?_) start).1
  · exact same.own sized (own session listed isMine)
  · exact same.other sized (other session listed notMine)

end Observer

/-- Sessions on the outer and on the hidden volume of a container do not interfere: the results
of either are those of the sequence without the sessions on the other. -/
theorem sessions_do_not_interfere {crypto : Crypto} {random random' : Randomness}
    {sizeMb hiddenSizeMb : UInt64} {outerPassword hiddenPassword : List UInt8}
    (roundTrip : crypto.SectorRoundTrip) (gcm : crypto.HeaderRoundTrip)
    (rejects : crypto.HeaderRejects (headerKey crypto outerPassword random.salt)
      (headerKey crypto hiddenPassword random.salt))
    {fill : Nat → UInt8} {now now' : UInt64} {faults faults' : List Bool}
    {created disk : Disk}
    (outer : containerCreate crypto random fill sizeMb outerPassword now faults = some created)
    (hidden : containerCreateHidden crypto random' outerPassword hiddenPassword hiddenSizeMb now'
      ⟨created.container, faults'⟩ = (.ok (), disk))
    (sessions : List Session)
    (known : ∀ session ∈ sessions,
      session.password = outerPassword ∨ session.password = hiddenPassword) :
    let start : Disk := ⟨disk.container, []⟩
    let onOuter : Session → Bool := fun session => decide (session.password = outerPassword)
    let onHidden : Session → Bool := fun session => decide (session.password = hiddenPassword)
    Machine.resultsOf onOuter sessions (runSessions crypto sessions start).1 =
        (runSessions crypto (sessions.filter onOuter) start).1 ∧
      Machine.resultsOf onHidden sessions (runSessions crypto sessions start).1 =
        (runSessions crypto (sessions.filter onHidden) start).1 := by
  intro start onOuter onHidden
  obtain ⟨hosts, _⟩ := containerCreate_some roundTrip outer
  have apart : outerPassword ≠ hiddenPassword := by
    intro same
    unfold containerCreateHidden at hidden
    rw [if_pos (.inr (.inr (.inr (.inr (.inr same)))))] at hidden
    cases hidden
  have hosts' : Hosts crypto random sizeMb outerPassword
      (⟨created.container, faults'⟩ : Disk).container := hosts
  obtain ⟨fits, size, below, header, _, _⟩ :=
    containerCreateHidden_ok roundTrip gcm hosts' hidden
  dsimp only at size below
  have positive := hosts.positive
  have whole := hosts.size
  have room := fits.room
  have finalHosts := hosts.of_same size (Container.sectorAt_of_bytes fun i _ small =>
    below i (by omega))
  have carries : Carries disk.container start := ⟨rfl, rfl, rfl, rfl⟩
  have outerEnd : (outerMount random sizeMb).volumeSize.toNat = sizeMb.toNat * 524288 :=
    hosts.outerSize_toNat
  have hiddenEnd : (hiddenMount random' hiddenSizeMb disk.container).volumeSize.toNat =
      hiddenSizeMb.toNat * 1048576 := fits.hiddenSize_toNat
  have hiddenStart := finalHosts.hiddenStart fits
  have onOuterRange : ∀ secret protectHidden mount,
      disk.container.mountFor crypto outerPassword secret protectHidden = some mount →
      ∀ i, mount.Range i → i < 4096 + sizeMb.toNat * 524288 := by
    intro secret protectHidden mount mounted i inRange
    have base := finalHosts.select gcm
    have upper := inRange.2
    have first : (outerMount random sizeMb).volStartOffset.toNat = 4096 := rfl
    cases mountFor_cases mounted with
    | inl plain =>
      rw [base] at plain
      obtain rfl := Option.some.inj plain.1
      omega
    | inr guarded =>
      obtain ⟨selected, _, _, found, _, _, _, _, _, rfl⟩ := guarded
      rw [base] at found
      obtain rfl := Option.some.inj found
      dsimp only at upper
      omega
  have onHiddenRange : ∀ secret protectHidden mount,
      disk.container.mountFor crypto hiddenPassword secret protectHidden = some mount →
      ∀ i, mount.Range i → disk.container.size - 32768 - hiddenSizeMb.toNat * 1048576 ≤ i := by
    intro secret protectHidden mount mounted i inRange
    rw [hiddenMount_mounted finalHosts fits gcm rejects header secret protectHidden] at mounted
    obtain rfl := Option.some.inj mounted
    have lower := inRange.1
    change (disk.container.hiddenHeaderOffset - hiddenSize hiddenSizeMb).toNat ≤ i at lower
    omega
  constructor
  · refine resultsOf_own (fun i => i < 4096 + sizeMb.toNat * 524288) finalHosts.wellSized
      (fun session _ mine mount mounted i inRange => ?_)
      (fun session listed notMine mount mounted i inRange visible => ?_) carries
    · rw [of_decide_eq_true mine] at mounted
      exact onOuterRange _ _ mount mounted i inRange
    · cases known session listed with
      | inl isOuter => exact absurd isOuter (of_decide_eq_false notMine)
      | inr isHidden =>
        rw [isHidden] at mounted
        have lower := onHiddenRange _ _ mount mounted i inRange
        omega
  · refine resultsOf_own
      (fun i => disk.container.size - 32768 - hiddenSizeMb.toNat * 1048576 ≤ i)
      finalHosts.wellSized
      (fun session _ mine mount mounted i inRange => ?_)
      (fun session listed notMine mount mounted i inRange visible => ?_) carries
    · rw [of_decide_eq_true mine] at mounted
      exact onHiddenRange _ _ mount mounted i inRange
    · cases known session listed with
      | inr isHidden => exact absurd isHidden (of_decide_eq_false notMine)
      | inl isOuter =>
        rw [isOuter] at mounted
        have upper := onOuterRange _ _ mount mounted i inRange
        omega

theorem sessions_do_not_interfere_small :
    ∃ created disk, smallContainer 4 = some created ∧
      containerCreateHidden transparentCrypto zeroRandomness [1] [2] 1 0 created =
        (.ok (), disk) ∧
      let sessions : List Session :=
        [⟨[1], none, false, [.create 0 ⟨[97], by decide⟩]⟩,
          ⟨[2], none, false, [.create 0 ⟨[98], by decide⟩]⟩, ⟨[1], some [2], true, [.readdir]⟩,
          ⟨[2], none, false, [.readdir]⟩]
      let onOuter : Session → Bool := fun session => decide (session.password = [1])
      Machine.resultsOf onOuter sessions
          (runSessions transparentCrypto sessions ⟨disk.container, []⟩).1 =
        (runSessions transparentCrypto (sessions.filter onOuter) ⟨disk.container, []⟩).1 := by
  obtain ⟨created, disk, _, isSmall, faultless, _, _, hides, _⟩ := smallContainer_hides
  obtain ⟨container, faults⟩ := created
  refine ⟨_, disk, isSmall, hides, ?_⟩
  refine (sessions_do_not_interfere transparentCrypto_sectors transparentCrypto_headers
    smallContainer_rejects isSmall hides _ ?_).1
  simp

end DenyFS
