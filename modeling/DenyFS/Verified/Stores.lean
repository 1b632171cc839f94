import DenyFS.Verified.FuseSessions
import DenyFS.Verified.HiddenCreation

/-! # A container as stores of files

Mounted again and again, a volume is one store of named files.  A container with a hidden volume
is two such stores, both empty at first, and as long as space lasts the files of either are
strings of bytes. -/

namespace DenyFS

open Packed BlockProgram SparseFile Refinement

variable {crypto : Crypto} {mount : Mount} {disk : Disk}

/-- Without protection the outer password opens the outer volume. -/
theorem Hosts.opens {random : Randomness} {sizeMb : UInt64} {password : List UInt8}
    {container : Container} (gcm : crypto.HeaderRoundTrip)
    (hosts : Hosts crypto random sizeMb password container) (secret : Option (List UInt8)) :
    Opens crypto container (outerMount random sizeMb) ⟨password, secret, false⟩ := by
  intro mount' mounted
  rw [hosts.mountFor gcm] at mounted
  obtain rfl := Option.some.inj mounted
  exact ⟨⟨rfl, rfl, rfl⟩, unprotected_of_flag rfl⟩

/-- On any device, creating a path creates its name. -/
theorem request_create {δ : Type} (device : Device δ UInt32 Sector Errno) (now : UInt64)
    {path name : CString} (named : pathToName path = some name) (state : Volume × δ) :
    request crypto mount device (.create now path) state =
      ((call crypto mount device (.create now name) state).1.map fun _ => Answer.done,
        (call crypto mount device (.create now name) state).2) := by
  unfold request call
  rw [serve, perform, Prog.exec_bind_pure, Prog.exec_bind_pure, fuseCreate, named]
  dsimp only
  rw [Prog.exec_bind_pure]
  cases (Prog.exec device (volCreate crypto mount now name) state).1 <;> rfl

theorem pathA_name : pathToName pathA = some nameA := rfl

/-- One block is enough for the first bytes of an empty file. -/
theorem blocksNeeded_first {inode : Inode} {disk : Blocks} (blank : fileView inode disk = blankView) :
    blocksNeeded inode disk 0 3 = 1 := by
  have refs : fileRef inode disk = fun _ => none := congrArg FileView.refs blank
  have unmapped : unmappedBlocks inode disk 0 3 = [0] := by
    unfold unmappedBlocks
    rw [refs]
    decide
  unfold blocksNeeded missingChildren
  rw [unmapped]
  simp

/-- A file of a small container is created and written. -/
theorem smallContainer_written :
    ∃ disk vol, smallContainer 4 = some disk ∧ disk.faults = [] ∧
      Hosts transparentCrypto zeroRandomness 4 [1] disk.container ∧
      volOpen transparentCrypto [1] none false disk =
        (some (outerMount zeroRandomness 4, vol), disk) ∧
      let step := request transparentCrypto (outerMount zeroRandomness 4)
        (volumeDevice transparentCrypto (outerMount zeroRandomness 4))
      let created := step (.create 5 pathA) (vol, disk)
      created.1 = .ok .done ∧
        (step (.write 6 pathA [1, 2, 3] 0) created.2).1 = .ok (.count 3) := by
  have positive : 0 < (4 : UInt64).toNat := by decide
  have small : (4 : UInt64).toNat ≤ 1024 := by decide
  obtain ⟨disk, vol, made, faultless, hosts, opened, asNew⟩ := smallContainer_opens positive small
  have reached : Reached transparentCrypto (outerMount zeroRandomness 4) vol disk :=
    .opened faultless rfl opened
  refine ⟨disk, vol, made, faultless, hosts, opened, ?_⟩
  obtain ⟨ino, named, nonzero, file, blank, free, p, entries⟩ :=
    asNew.new_file transparentCrypto_sectors reached 5 nameA_valid
  have shows := (reached.called (.create 5 nameA)).shows transparentCrypto_sectors
  intro step created
  have creates : created = (.ok .done, _) :=
    (request_create _ 5 pathA_name _).trans (Prod.ext (by rw [named]; rfl) rfl)
  rw [creates]
  refine ⟨rfl, ?_⟩
  obtain ⟨answer, _⟩ := request_plain transparentCrypto_sectors shows.unprotected shows.decrypts
    (.write 6 pathA [1, 2, 3] 0) _
  have entry := entries p
  rw [if_pos rfl] at entry
  have live := nameRef_newEntry ino nameA_valid entry
  refine Eq.trans answer (shows.sound.request_writes _ _ 6 pathA_name live.1 (by decide) (by decide)
    (by decide) ?_)
  rw [live.2]
  refine (blocksNeeded_first blank).trans_le ?_
  rw [free, asNew.free_small]
  decide

/-! ## One volume -/

/-- The mounts of one volume are a trace from the files in the container. -/
theorem runMounts_stores (roundTrip : crypto.SectorRoundTrip) (faultless : disk.faults = [])
    (sized : disk.container.WellSized) {mounts : List (Credentials × List Request)}
    (opens : ∀ mounting ∈ mounts, Opens crypto disk.container mount mounting.1) :
    let blocks := mount.blocks crypto disk.container
    let after := runMounts crypto mounts disk
    let time := ((loadedVolume blocks).inodes 0).mtime
    ∃ files', Traces (mountSpec imageStore time) mounts (filesOf (loadedVolume blocks) blocks)
        after.1 files' ∧
      StoresFiles crypto mount disk.container time after.2 files' := by
  intro blocks after time
  have refines : Refines (fun mounting => handleMount crypto mounting.1 mounting.2)
      (mountSpec imageStore time) (fun _ mounting => Opens crypto disk.container mount mounting.1)
      (StoresFiles crypto mount disk.container time) :=
    fun mounting _ _ stores one => stores.mounted sized mounting.2 roundTrip one
  exact refines.run ⟨⟨rfl, faultless, rfl, rfl⟩, rfl, rfl⟩
    (meetsAll_of_mem (fun mounting listed _ => opens mounting listed) _)

/-- A volume without protected blocks that is mounted again and again, while no I/O fails: each
mount is refused and changes nothing, or it answers as one store of named files, which starts
with the files in the container and outlives every mount. -/
theorem mounts_refine_store (roundTrip : crypto.SectorRoundTrip) (faultless : disk.faults = [])
    (sized : disk.container.WellSized) {mounts : List (Credentials × List Request)}
    (opens : ∀ mounting ∈ mounts, Opens crypto disk.container mount mounting.1) :
    let blocks := mount.blocks crypto disk.container
    let after := runMounts crypto mounts disk
    let blocks' := mount.blocks crypto after.2.container
    Traces (mountSpec imageStore ((loadedVolume blocks).inodes 0).mtime) mounts
      (filesOf (loadedVolume blocks) blocks) after.1 (filesOf (loadedVolume blocks') blocks') := by
  intro blocks after blocks'
  obtain ⟨files', trace, stores⟩ := runMounts_stores roundTrip faultless sized opens
  have last : filesOf (loadedVolume blocks') blocks' = files' := stores.files
  rw [last]
  exact trace

theorem mounts_refine_store_small :
    ∃ disk, smallContainer 4 = some disk ∧
      let mount := outerMount zeroRandomness 4
      let mounts : List (Credentials × List Request) :=
        [(⟨[1], none, false⟩, [.create 5 pathA, .write 6 pathA [1, 2, 3] 4090]),
          (⟨[1], none, false⟩, [.read pathA 10 0, .unlink pathA])]
      let blocks := mount.blocks transparentCrypto disk.container
      let after := runMounts transparentCrypto mounts disk
      let blocks' := mount.blocks transparentCrypto after.2.container
      Traces (mountSpec imageStore ((loadedVolume blocks).inodes 0).mtime) mounts
        (filesOf (loadedVolume blocks) blocks) after.1 (filesOf (loadedVolume blocks') blocks') := by
  have positive : 0 < (4 : UInt64).toNat := by decide
  have small : (4 : UInt64).toNat ≤ 1024 := by decide
  obtain ⟨disk, _, created, faultless, hosts, _⟩ := smallContainer_opens positive small
  refine ⟨disk, created, ?_⟩
  apply mounts_refine_store transparentCrypto_sectors faultless hosts.wellSized
  intro mounting listed
  have arguments : mounting.1 = ⟨[1], none, false⟩ := by
    cases List.mem_pair.1 listed with
    | inl first => rw [first]
    | inr second => rw [second]
  rw [arguments]
  exact hosts.opens transparentCrypto_headers none

/-- In all requests that the mounts of a volume served, a read that is in range returns what a
write to its path stored, as long as no request in between changes that file: the two may belong to
different mounts. -/
theorem reads_return_writes (roundTrip : crypto.SectorRoundTrip) (faultless : disk.faults = [])
    (sized : disk.container.WellSized) {mounts : List (Credentials × List Request)}
    (opens : ∀ mounting ∈ mounts, Opens crypto disk.container mount mounting.1)
    {before between later : List (Request × Except Errno Answer)}
    {now : UInt64} {path name : CString} {data : List UInt8} {offset offset' : Int64} {n size : Nat}
    {answer : Except Errno Answer}
    (log : serveLog mounts (runMounts crypto mounts disk).1 =
      before ++ ((.write now path data offset, .ok (.count n)) :: between ++
        (.read path size offset', answer) :: later))
    (named : pathToName path = some name) (spares : Spares between name.bytes)
    (positive : ¬offset' < 0) (small : size ≤ intMax)
    (lower : offset.toUInt64.toNat ≤ offset'.toUInt64.toNat)
    (upper : offset'.toUInt64.toNat + size ≤ offset.toUInt64.toNat + data.length) :
    answer = .ok (.data
      ((data.drop (offset'.toUInt64.toNat - offset.toUInt64.toNat)).take size)) := by
  obtain ⟨_, trace, _⟩ := runMounts_stores roundTrip faultless sized opens
  have follows := follows_serveLog trace
  rw [log] at follows
  obtain ⟨_, _, follows⟩ := follows.split
  exact follows.read_written named spares positive small lower upper

theorem reads_return_writes_small :
    ∃ disk answer, smallContainer 4 = some disk ∧
      let mounts : List (Credentials × List Request) :=
        [(⟨[1], none, false⟩, [.create 5 pathA, .write 6 pathA [1, 2, 3] 0, .read pathA 2 1])]
      serveLog mounts (runMounts transparentCrypto mounts disk).1 = [(.create 5 pathA, .ok .done),
        (.write 6 pathA [1, 2, 3] 0, .ok (.count 3)), (.read pathA 2 1, answer)] ∧
      answer = .ok (.data [2, 3]) := by
  obtain ⟨disk, vol, made, faultless, hosts, opened, created, written⟩ := smallContainer_written
  generalize listed : [((⟨[1], none, false⟩ : Credentials),
    [Request.create 5 pathA, .write 6 pathA [1, 2, 3] 0, .read pathA 2 1])] = mounts
  have log : ∃ answer, serveLog mounts (runMounts transparentCrypto mounts disk).1 =
      [(.create 5 pathA, .ok .done)] ++ ((.write 6 pathA [1, 2, 3] 0, .ok (.count 3)) :: [] ++
        (.read pathA 2 1, answer) :: []) := by
    subst listed
    unfold runMounts
    rw [Machine.run_cons, serveLog_cons]
    unfold handleMount
    rw [opened]
    simp only [runRequests, Machine.run_cons, Option.getD_some, List.zip_cons_cons]
    rw [created, written]
    exact ⟨_, rfl⟩
  obtain ⟨answer, log⟩ := log
  refine ⟨disk, answer, made, log, ?_⟩
  exact reads_return_writes transparentCrypto_sectors faultless hosts.wellSized
    (fun mounting member => by
      rw [← listed] at member
      obtain rfl := List.mem_singleton.1 member
      exact hosts.opens transparentCrypto_headers none)
    log pathA_name (fun _ listed => absurd listed List.not_mem_nil) (by decide) (by decide)
    (by decide) (by decide)

/-! ## A formatted volume -/

section Formatted

variable {now : UInt64} {blocks : Blocks} (formattable : Formattable mount.volumeSize)
  (formatted : Formatted (formatImage crypto mount.hmacKey mount.volumeSize now) blocks)
include formattable formatted

theorem Formatted.files : filesOf (loadedVolume blocks) blocks = fun _ => none := by
  have agrees := formatted.stored.loaded (formatImage_layout _ _ _ formattable)
  funext name
  rw [filesOf_eq_none]
  intro p named
  have live := (nameRef_eq_some.1 named).1
  rw [agrees.entryAt, formatted.entryAt] at live
  exact live rfl

theorem Formatted.rootTime : ((loadedVolume blocks).inodes 0).mtime = now := by
  have agrees := formatted.stored.loaded (formatImage_layout _ _ _ formattable)
  rw [agrees.inodes]
  rfl

end Formatted

theorem Formatted.stores {now : UInt64} {container : Container}
    (formattable : Formattable mount.volumeSize)
    (formatted : Formatted (formatImage crypto mount.hmacKey mount.volumeSize now)
      (mount.blocks crypto container)) :
    StoresFiles crypto mount container now ⟨container, []⟩ fun _ => none :=
  ⟨⟨rfl, rfl, rfl, rfl⟩, formatted.rootTime formattable, formatted.files formattable⟩

/-! ## A container with a hidden volume -/

/-- Both passwords are known, and protection is asked for with the hidden one. -/
structure Credentials.Known (credentials : Credentials) (outerPassword hiddenPassword : List UInt8) :
    Prop where
  password : credentials.password = outerPassword ∨ credentials.password = hiddenPassword
  protects : credentials.password = outerPassword → credentials.protectHidden = true →
    credentials.hiddenPassword = some hiddenPassword

/-- The arguments open the outer volume. -/
def Credentials.isOuter (credentials : Credentials) (outerPassword : List UInt8) : Bool :=
  decide (credentials.password = outerPassword)

/-- The two volumes of a container, the outer one under `true`. -/
def volumesOf (random random' : Randomness) (sizeMb hiddenSizeMb : UInt64) (container : Container) :
    Bool → Mount
  | true => outerMount random sizeMb
  | false => hiddenMount random' hiddenSizeMb container

/-- When the volumes were created. -/
def timesOf (now now' : UInt64) : Bool → UInt64
  | true => now
  | false => now'

/-- A container with two empty volumes that lie apart, and the passwords that open them. -/
structure Deniable (crypto : Crypto) (container : Container) (volumes : Bool → Mount)
    (times : Bool → UInt64) (outerPassword hiddenPassword : List UInt8) : Prop where
  sized : container.WellSized
  placed : ∀ i, (volumes i).Placed container.size
  stores : ∀ i, StoresFiles crypto (volumes i) container (times i) ⟨container, []⟩ fun _ => none
  loadable : AllLoadable crypto volumes ⟨container, []⟩
  opens : ∀ credentials : Credentials, credentials.Known outerPassword hiddenPassword →
    OpensOne crypto container volumes (fun c => c.isOuter outerPassword) credentials ∧
      ∃ mount', container.mountFor crypto credentials.password credentials.hiddenPassword
        credentials.protectHidden = some mount' ∧
        mount'.hmacKey = (volumes (credentials.isOuter outerPassword)).hmacKey

theorem Mount.SameVolume.range {mount' : Mount} (same : mount.SameVolume mount') {i : Nat} :
    mount'.Range i ↔ mount.Range i := by
  unfold Mount.Range
  rw [same.start, same.size]

/-- The arguments select one volume of a family whose ranges are disjoint. -/
theorem OpensOne.of_selected {container : Container} {volumes : Bool → Mount}
    {owner : Credentials → Bool} {credentials : Credentials} {mount' : Mount}
    (mounted : container.mountFor crypto credentials.password credentials.hiddenPassword
      credentials.protectHidden = some mount')
    (same : (volumes (owner credentials)).SameVolume mount') (unprotected : mount'.Unprotected)
    (apart : ∀ i, (volumes true).Range i → ¬(volumes false).Range i) :
    OpensOne crypto container volumes owner credentials := by
  constructor
  case opens =>
    intro other selected
    rw [mounted] at selected
    obtain rfl := Option.some.inj selected
    exact ⟨same, unprotected⟩
  case elsewhere =>
    intro j differs other selected i inRange inOther
    rw [mounted] at selected
    obtain rfl := Option.some.inj selected
    rw [same.range] at inRange
    cases own : owner credentials with
    | true =>
      rw [own] at inRange differs
      rw [Bool.eq_false_of_not_eq_true differs] at inOther
      exact apart i inRange inOther
    | false =>
      rw [own] at inRange differs
      rw [Bool.eq_true_of_not_eq_false differs] at inOther
      exact apart i inOther inRange

section Created

variable {random random' : Randomness} {sizeMb hiddenSizeMb : UInt64}
  {outerPassword hiddenPassword : List UInt8}

section Headers

variable {container : Container} (hosts : Hosts crypto random sizeMb outerPassword container)
  (fits : HiddenFits sizeMb hiddenSizeMb)
include hosts fits

/-- The two volumes lie apart. -/
theorem volumesOf_apart {i : Nat} (inOuter : (outerMount random sizeMb).Range i) :
    ¬(hiddenMount random' hiddenSizeMb container).Range i := by
  intro inHidden
  have outerEnd : (outerMount random sizeMb).volumeSize.toNat = sizeMb.toNat * 524288 :=
    hosts.outerSize_toNat
  have hiddenStart := hosts.hiddenStart fits
  have room := fits.room
  have whole := hosts.size
  have upper := inOuter.2
  have lower := inHidden.1
  have first : (outerMount random sizeMb).volStartOffset.toNat = 4096 := rfl
  change (container.hiddenHeaderOffset - hiddenSize hiddenSizeMb).toNat ≤ i at lower
  omega

variable (gcm : crypto.HeaderRoundTrip)
  (rejects : crypto.HeaderRejects (headerKey crypto outerPassword random.salt)
    (headerKey crypto hiddenPassword random.salt))
  (header : container.hiddenHeader =
    newHeader crypto random' hiddenPassword (hiddenSize hiddenSizeMb))
include gcm rejects header

/-- What known passwords open. -/
theorem known_mounted {credentials : Credentials}
    (known : credentials.Known outerPassword hiddenPassword) :
    ∃ mount', container.mountFor crypto credentials.password credentials.hiddenPassword
        credentials.protectHidden = some mount' ∧
      (volumesOf random random' sizeMb hiddenSizeMb container
        (credentials.isOuter outerPassword)).SameVolume mount' ∧ mount'.Unprotected ∧
      mount'.hmacKey = (volumesOf random random' sizeMb hiddenSizeMb container
        (credentials.isOuter outerPassword)).hmacKey := by
  by_cases isOuter : credentials.password = outerPassword
  · have own : credentials.isOuter outerPassword = true := decide_eq_true isOuter
    rw [own, isOuter]
    -- protection does not reach into the outer volume
    cases protects : credentials.protectHidden with
    | true =>
      rw [known.protects isOuter protects]
      exact ⟨_, guardedMount_mounted hosts fits gcm header, ⟨rfl, rfl, rfl⟩,
        guardedMount_unprotected hosts fits, rfl⟩
    | false => exact ⟨_, hosts.mountFor gcm _, ⟨rfl, rfl, rfl⟩, unprotected_of_flag rfl, rfl⟩
  · have own : credentials.isOuter outerPassword = false := decide_eq_false isOuter
    rw [own, known.password.resolve_left isOuter]
    exact ⟨_, hiddenMount_mounted hosts fits gcm rejects header _ _, ⟨rfl, rfl, rfl⟩,
      unprotected_of_flag rfl, rfl⟩

end Headers

/-- A container with two new volumes. -/
structure HoldsBoth (crypto : Crypto) (random random' : Randomness) (sizeMb hiddenSizeMb : UInt64)
    (outerPassword hiddenPassword : List UInt8) (now now' : UInt64) (container : Container) : Prop where
  hosts : Hosts crypto random sizeMb outerPassword container
  fits : HiddenFits sizeMb hiddenSizeMb
  header : container.hiddenHeader =
    newHeader crypto random' hiddenPassword (hiddenSize hiddenSizeMb)
  formattable : Formattable (outerSize sizeMb)
  formatted : Formatted (formatImage crypto random.hmacKey (outerSize sizeMb) now)
    ((outerMount random sizeMb).blocks crypto container)
  formattable' : Formattable (hiddenSize hiddenSizeMb)
  formatted' : Formatted (formatImage crypto random'.hmacKey (hiddenSize hiddenSizeMb) now')
    ((hiddenMount random' hiddenSizeMb container).blocks crypto container)

section Commands

variable {fill : Nat → UInt8} {now now' : UInt64} {faults faults' : List Bool} {created : Disk}
  (roundTrip : crypto.SectorRoundTrip) (gcm : crypto.HeaderRoundTrip)
  (outer : containerCreate crypto random fill sizeMb outerPassword now faults = some created)
  (hidden : containerCreateHidden crypto random' outerPassword hiddenPassword hiddenSizeMb now'
    ⟨created.container, faults'⟩ = (.ok (), disk))
include roundTrip gcm outer hidden

/-- What `denyfs_container_create` and `denyfs_container_create_hidden` leave. -/
theorem created_holdsBoth : HoldsBoth crypto random random' sizeMb hiddenSizeMb outerPassword
    hiddenPassword now now' disk.container := by
  obtain ⟨hosts, formattable, formatted, _⟩ := containerCreate_some roundTrip outer
  have hosts' : Hosts crypto random sizeMb outerPassword
      (⟨created.container, faults'⟩ : Disk).container := hosts
  obtain ⟨fits, size, below, header, formattable', formatted'⟩ :=
    containerCreateHidden_ok roundTrip gcm hosts' hidden
  dsimp only at size below formatted'
  have room := fits.room
  have whole := hosts.size
  have positive := hosts.positive
  have finalHosts := hosts.of_same size (Container.sectorAt_of_bytes fun i _ small =>
    below i (by omega))
  -- the hidden volume was written behind the outer one
  have sameBlocks : (outerMount random sizeMb).blocks crypto disk.container =
      (outerMount random sizeMb).blocks crypto created.container := by
    apply Mount.blocks_congr
    intro i inRange
    have upper := inRange.2
    have first : (outerMount random sizeMb).volStartOffset.toNat = 4096 := rfl
    have outerEnd : (outerMount random sizeMb).volumeSize.toNat = sizeMb.toNat * 524288 :=
      hosts.outerSize_toNat
    exact below i (by omega)
  have sameMount : hiddenMount random' hiddenSizeMb disk.container =
      hiddenMount random' hiddenSizeMb created.container := hiddenMount_congr size
  rw [← sameBlocks] at formatted
  rw [← sameMount] at formatted'
  exact ⟨finalHosts, fits, header, formattable, formatted, formattable', formatted'⟩

theorem deniable_created
    (rejects : crypto.HeaderRejects (headerKey crypto outerPassword random.salt)
      (headerKey crypto hiddenPassword random.salt)) :
    Deniable crypto disk.container (volumesOf random random' sizeMb hiddenSizeMb disk.container)
      (timesOf now now') outerPassword hiddenPassword := by
  have both := created_holdsBoth roundTrip gcm outer hidden
  have outerStores : StoresFiles crypto (outerMount random sizeMb) disk.container now
      ⟨disk.container, []⟩ fun _ => none := Formatted.stores both.formattable both.formatted
  have hiddenStores : StoresFiles crypto (hiddenMount random' hiddenSizeMb disk.container)
      disk.container now' ⟨disk.container, []⟩ fun _ => none :=
    Formatted.stores both.formattable' both.formatted'
  constructor
  case sized => exact both.hosts.wellSized
  case placed =>
    intro i
    cases i with
    | true => exact both.hosts.placed
    | false =>
      apply mountFor_placed both.hosts.wellSized
      exact hiddenMount_mounted both.hosts both.fits gcm rejects both.header none false
  case stores =>
    intro i
    cases i with
    | true => exact outerStores
    | false => exact hiddenStores
  case loadable =>
    intro i
    cases i with
    | true => exact both.formatted.loadable both.formattable
    | false => exact both.formatted'.loadable both.formattable'
  case opens =>
    intro credentials known
    obtain ⟨mount', mounted, same, unprotected, key⟩ :=
      known_mounted both.hosts both.fits gcm rejects both.header known
    have apart : ∀ i, (outerMount random sizeMb).Range i →
        ¬(hiddenMount random' hiddenSizeMb disk.container).Range i :=
      fun _ inOuter => volumesOf_apart both.hosts both.fits inOuter
    exact ⟨.of_selected mounted same unprotected apart, mount', mounted, key⟩

end Commands

/-- Where no request writes, no write runs out of space. -/
theorem neverFull_of_quiet (crypto : Crypto) {mounts : List (Credentials × List Request)}
    (quiet : ∀ mounting ∈ mounts, ∀ r ∈ mounting.2, ∀ answer, ¬Request.RanFull r answer)
    (disk : Disk) : NeverFull mounts (runMounts crypto mounts disk).1 := by
  apply Machine.run_forall₂
  intro mounting listed disk answers served
  unfold handleMount at served
  split at served
  next => cases served
  next mount vol disk' _ =>
    obtain rfl := Option.some.inj served
    exact Machine.run_forall₂ (fun r member _ => quiet mounting listed r member _) _

/-! ### Two stores -/

/-- As long as no write runs out of space, each of these mounts succeeds, and the files of either
volume are strings of bytes. -/
theorem container_is_two_string_stores (roundTrip : crypto.SectorRoundTrip) (gcm : crypto.HeaderRoundTrip)
    (rejects : crypto.HeaderRejects (headerKey crypto outerPassword random.salt)
      (headerKey crypto hiddenPassword random.salt))
    {fill : Nat → UInt8} {now now' : UInt64} {faults faults' : List Bool} {created : Disk}
    (outer : containerCreate crypto random fill sizeMb outerPassword now faults = some created)
    (hidden : containerCreateHidden crypto random' outerPassword hiddenPassword hiddenSizeMb now'
      ⟨created.container, faults'⟩ = (.ok (), disk))
    {mounts : List (Credentials × List Request)}
    (known : ∀ mounting ∈ mounts, mounting.1.Known outerPassword hiddenPassword)
    (room : NeverFull mounts (runMounts crypto mounts ⟨disk.container, []⟩).1) :
    let results := (runMounts crypto mounts ⟨disk.container, []⟩).1
    let onOuter : Credentials × List Request → Bool := fun mounting =>
      mounting.1.isOuter outerPassword
    (∀ result ∈ results, result.isSome) ∧
    ∃ outerFiles hiddenFiles,
      Traces (mountSpec (stringOps UInt8) now) (mounts.filter onOuter) (fun _ => none)
        (Machine.resultsOf onOuter mounts results) outerFiles ∧
      Traces (mountSpec (stringOps UInt8) now') (mounts.filter fun mounting => !onOuter mounting)
        (fun _ => none) (Machine.resultsOf (fun mounting => !onOuter mounting) mounts results)
        hiddenFiles := by
  intro results onOuter
  have deniable := deniable_created roundTrip gcm outer hidden rejects
  have opens := fun (mounting : Credentials × List Request) (listed : mounting ∈ mounts) =>
    deniable.opens _ (known mounting listed)
  obtain ⟨files, each⟩ := mounts_refine_stores roundTrip deniable.sized deniable.placed
    deniable.stores fun mounting listed => (opens mounting listed).1
  have left := (each true).1
  have right := (each false).1
  simp only [Bool.decide_eq_true, Bool.decide_eq_false] at left right
  have noFile : FileStore.All (F := Image UInt8 4096) Image.Clean fun _ => none := by
    intro name file stored
    cases stored
  constructor
  · exact mounts_succeed roundTrip deniable.sized deniable.placed deniable.stores deniable.loadable
      (fun mounting listed => (opens mounting listed).1)
      (fun mounting listed => (opens mounting listed).2) room
  · obtain ⟨outerStrings, _⟩ := mounts_strings left noFile (room.filter _)
    obtain ⟨hiddenStrings, _⟩ := mounts_strings right noFile (room.filter _)
    exact ⟨_, _, outerStrings, hiddenStrings⟩

/-- Mounts of the two volumes of a small container, the last one with protection. -/
def smallMounts : List (Credentials × List Request) :=
  [(⟨[1], none, false⟩, [.create 5 pathA, .readdir ⟨[47], by decide⟩]),
    (⟨[2], none, false⟩, [.create 6 pathA, .truncate 7 pathA 5000, .getattr pathA]),
    (⟨[1], some [2], true⟩, [.getattr pathA, .unlink pathA])]

theorem smallMounts_known : ∀ mounting ∈ smallMounts, mounting.1.Known [1] [2] := by
  intro mounting listed
  simp only [smallMounts, List.mem_cons, List.not_mem_nil, or_false] at listed
  rcases listed with rfl | rfl | rfl
  · exact ⟨.inl rfl, fun _ => by simp⟩
  · exact ⟨.inr rfl, fun _ => by simp⟩
  · exact ⟨.inl rfl, fun _ _ => rfl⟩

theorem smallMounts_quiet : ∀ mounting ∈ smallMounts, ∀ r ∈ mounting.2, ∀ answer,
    ¬Request.RanFull r answer := by
  intro mounting listed r member answer
  simp only [smallMounts, List.mem_cons, List.not_mem_nil, or_false] at listed
  rcases listed with rfl | rfl | rfl <;>
    simp only [List.mem_cons, List.not_mem_nil, or_false] at member <;>
    rcases member with rfl | rfl | rfl <;> exact id

theorem container_is_two_string_stores_small :
    ∃ created disk, smallContainer 4 = some created ∧
      containerCreateHidden transparentCrypto zeroRandomness [1] [2] 1 0 created =
        (.ok (), disk) ∧
      ∀ result ∈ (runMounts transparentCrypto smallMounts ⟨disk.container, []⟩).1,
        result.isSome := by
  obtain ⟨created, disk, _, isSmall, _, _, _, hides, _⟩ := smallContainer_hides
  obtain ⟨container, faults⟩ := created
  exact ⟨_, disk, isSmall, hides, (container_is_two_string_stores transparentCrypto_sectors
    transparentCrypto_headers smallContainer_rejects isSmall hides smallMounts_known
    (neverFull_of_quiet _ smallMounts_quiet _)).1⟩

end Created

end DenyFS
