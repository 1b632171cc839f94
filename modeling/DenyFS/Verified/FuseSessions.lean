import DenyFS.Verified.FuseCalls
import DenyFS.Verified.FuseRuns
import DenyFS.Verified.StoreRuns

/-! # Mounting again

Between two mounts the files lie in the container alone: what `denyfs_vol_open` loads is what the
flush of `denyfs_fuse_destroy` stored.  So all mounts of a volume, one after the other, work on
one store of files.  Only after a write that ran out of space may a mount be refused. -/

namespace DenyFS

open Packed BlockProgram SparseFile Refinement

variable {crypto : Crypto} {mount mount' : Mount} {vol : Volume} {disk : Disk}
  {base : Container} {rootTime : UInt64} {files : FileStore (Image UInt8 4096)}

/-! ## The container between two mounts -/

/-- The files that lie in the container. -/
structure StoresFiles (crypto : Crypto) (mount : Mount) (base : Container) (rootTime : UInt64)
    (disk : Disk) (files : FileStore (Image UInt8 4096)) : Prop where
  carries : Carries base disk
  rootTime : ((loadedVolume (mount.blocks crypto disk.container)).inodes 0).mtime = rootTime
  files : filesOf (loadedVolume (mount.blocks crypto disk.container))
    (mount.blocks crypto disk.container) = files

/-- Only the blocks of the volume matter. -/
theorem StoresFiles.of_sameVolume (same : mount.SameVolume mount') :
    StoresFiles crypto mount' base rootTime disk files ↔
      StoresFiles crypto mount base rootTime disk files := by
  have blocks : mount'.blocks crypto disk.container = mount.blocks crypto disk.container :=
    same.blocks disk.container
  constructor
  · rintro ⟨carries, time, stored⟩
    rw [blocks] at time stored
    exact ⟨carries, time, stored⟩
  · rintro ⟨carries, time, stored⟩
    rw [← blocks] at time stored
    exact ⟨carries, time, stored⟩

/-- With the same key, it has the same metadata. -/
theorem Mount.SameVolume.loadable (same : mount.SameVolume mount') (key : mount'.hmacKey = mount.hmacKey)
    {blocks : Blocks} : Loadable crypto mount' blocks ↔ Loadable crypto mount blocks := by
  have count : mount'.blockCount = mount.blockCount := by
    unfold Mount.blockCount
    rw [same.size]
  constructor
  · rintro ⟨superblock, hmac, wellFormed⟩
    rw [same.size] at superblock
    rw [key] at hmac
    rw [count] at wellFormed
    exact ⟨superblock, hmac, wellFormed⟩
  · rintro ⟨superblock, hmac, wellFormed⟩
    rw [← same.size] at superblock
    rw [← key] at hmac
    rw [← count] at wellFormed
    exact ⟨superblock, hmac, wellFormed⟩

theorem Carries.wellSized (carries : Carries base disk) (sized : base.WellSized) :
    disk.container.WellSized := by
  constructor
  · rw [carries.size]
    exact sized.large
  · rw [carries.size]
    exact sized.sectors

theorem filesOf_congr {vol vol' : Volume} (same : vol'.inodes = vol.inodes) (blocks : Blocks) :
    filesOf vol' blocks = filesOf vol blocks := by
  have entries : entryAt vol' blocks = entryAt vol blocks := by
    funext p
    unfold entryAt
    rw [same]
  funext name
  unfold filesOf nameRef
  rw [entries, same]

/-! ## Serving requests -/

/-- What holds while requests are served, on a volume without protected blocks. -/
structure RunningFiles (crypto : Crypto) (mount : Mount) (base : Container) (rootTime : UInt64)
    (state : Volume × Disk) (files : FileStore (Image UInt8 4096)) : Prop where
  running : Running crypto mount base state.1 state.2
  shown : HoldsFiles crypto mount rootTime state files

section Serving

variable (roundTrip : crypto.SectorRoundTrip) (sized : base.WellSized)
include roundTrip sized

theorem running_refines (placed : mount.Placed base.size) (rootTime : UInt64) :
    Refines (request crypto mount (volumeDevice crypto mount)) (storeSpec imageStore rootTime)
      (fun _ _ => True) (RunningFiles crypto mount base rootTime) := by
  intro r state files before _
  have served : ServesRequest crypto mount state r :=
    before.running.shows.serves roundTrip (serve crypto mount r)
  obtain ⟨files', allowed, shown⟩ :=
    request_refines roundTrip rootTime r state files before.shown served
  exact ⟨files', allowed, before.running.requested roundTrip placed sized r, shown⟩

/-- A run without a write that runs out of space keeps the container closable. -/
theorem Running.requests_closable (placed : mount.Placed base.size) {requests : List Request}
    (running : Running crypto mount base vol disk)
    (closable : Closable crypto mount vol (mount.blocks crypto disk.container))
    (room : List.Forall₂ (fun r answer => ¬Request.RanFull r answer) requests
      (runRequests crypto mount (volumeDevice crypto mount) requests (vol, disk)).1) :
    let state := (runRequests crypto mount (volumeDevice crypto mount) requests (vol, disk)).2
    Closable crypto mount state.1 (mount.blocks crypto state.2.container) := by
  induction requests generalizing vol disk with
  | nil => exact closable
  | cons r rest ih =>
    obtain ⟨first, later⟩ := List.forall₂_cons.1 room
    exact ih (running.requested roundTrip placed sized r)
      (running.request_closable roundTrip placed closable r first) later

/-- The flush at the end of a mount stores the files, and what can be closed can be loaded. -/
theorem RunningFiles.destroyed (placed : mount.Placed base.size)
    (shown : RunningFiles crypto mount base rootTime (vol, disk) files) :
    let after := fuseDestroy crypto mount (volumeDevice crypto mount) (vol, disk)
    StoresFiles crypto mount base rootTime after files ∧
      (Closable crypto mount vol (mount.blocks crypto disk.container) →
        Loadable crypto mount (mount.blocks crypto after.container)) := by
  obtain ⟨running, holds, time, stored⟩ := shown
  dsimp only at running holds time stored
  have shows := running.shows
  have layout := shows.sound.accounted.layout
  obtain ⟨_, memory, image, _⟩ := call_plain roundTrip shows.unprotected shows.decrypts .flush vol
  obtain ⟨blocks', flushes, flushed⟩ :=
    call_flush_plain crypto mount layout (mount.blocks crypto disk.container)
  have isFlush : Call.flush.Flushes vol := trivial
  have loads := (call_stored layout running.flushable isFlush flushes).1.loaded
    (layout.of_same rfl : (vol.flushed crypto mount).sb.Layout mount.blockCount)
  have last := running.called roundTrip sized placed .flush
  have closes := fun closable : Closable crypto mount vol (mount.blocks crypto disk.container) =>
    closable.call placed.sized shows.sound running.flushable .flush trivial
  rw [flushes] at image closes
  -- the callback ends with the same flush
  have ends : fuseDestroy crypto mount (volumeDevice crypto mount) (vol, disk) =
      (call crypto mount (volumeDevice crypto mount) .flush (vol, disk)).2.2 := by
    unfold fuseDestroy call
    rw [perform, Prog.exec_bind_pure]
  dsimp only
  rw [ends]
  dsimp only at image closes loads
  constructor
  · constructor
    case carries => exact last.carries
    case rootTime =>
      rw [image, loads.inodes]
      exact time
    case files =>
      rw [image, filesOf_congr loads.inodes, shows.sound.filesOf_flushed flushed]
      exact stored
  · intro closable
    rw [image]
    exact (closes closable).loadable

end Serving

/-! ## One mount -/

/-- Whatever these arguments open is the volume `mount`, without protected blocks. -/
def Opens (crypto : Crypto) (base : Container) (mount : Mount) (credentials : Credentials) : Prop :=
  ∀ mount', base.mountFor crypto credentials.password credentials.hiddenPassword
      credentials.protectHidden = some mount' → mount.SameVolume mount' ∧ mount'.Unprotected

/-- Whatever these arguments open lies apart from the volume `mount`. -/
def OpensElsewhere (crypto : Crypto) (base : Container) (mount : Mount) (credentials : Credentials) :
    Prop :=
  ∀ mount', base.mountFor crypto credentials.password credentials.hiddenPassword
      credentials.protectHidden = some mount' → ∀ i, mount'.Range i → ¬mount.Range i

/-- What every block request respects, a whole mount respects. -/
theorem served_frame {δ : Type} {device : Device δ UInt32 Sector Errno} {frame : δ → δ → Prop}
    (refl : ∀ disk, frame disk disk) (trans : ∀ {a b c}, frame a b → frame b c → frame a c)
    (read : ∀ address disk, frame disk (device.read address disk).2)
    (write : ∀ address data disk, frame disk (device.write address data disk).2)
    (crypto : Crypto) (mount : Mount) (requests : List Request) (state : Volume × δ) :
    frame state.2
      (fuseDestroy crypto mount device (runRequests crypto mount device requests state).2) := by
  have serving : frame state.2 (runRequests crypto mount device requests state).2.2 :=
    Machine.run_frame (fun before after : Volume × δ => frame before.2 after.2)
      (fun state => refl state.2) trans
      (fun r state => Prog.exec_frame device refl trans read write (serve crypto mount r) state)
      requests state
  exact trans serving (Prog.exec_frame device refl trans read write (volFlush crypto mount) _)

theorem handleMount_stays (crypto : Crypto) (credentials : Credentials) (requests : List Request)
    (disk : Disk) : Disk.StaysFaultless disk (handleMount crypto credentials requests disk).2 := by
  apply Disk.Consumes.staysFaultless
  have opens := volOpen_consumes crypto credentials.password credentials.hiddenPassword
    credentials.protectHidden disk
  unfold handleMount
  split
  next opened =>
    rw [opened] at opens
    exact opens
  next mount vol disk' opened =>
    rw [opened] at opens
    exact opens.trans (served_frame Disk.Consumes.refl Disk.Consumes.trans
      (read_consumes crypto mount) (write_consumes crypto mount) crypto mount requests (vol, disk'))

/-- A mount changes nothing outside the range of the volume it opens. -/
theorem handleMount_outside (crypto : Crypto) (credentials : Credentials) (requests : List Request)
    (disk : Disk) :
    let after := (handleMount crypto credentials requests disk).2
    after.container.size = disk.container.size ∧
      ∀ i < disk.container.size,
        (∀ mount, disk.container.mountFor crypto credentials.password credentials.hiddenPassword
          credentials.protectHidden = some mount → ¬mount.Range i) →
        after.container.byte i = disk.container.byte i := by
  have kept := volOpen_container crypto credentials.password credentials.hiddenPassword
    credentials.protectHidden disk
  unfold handleMount
  dsimp only
  split
  next opened =>
    rw [opened] at kept
    dsimp only at kept ⊢
    rw [kept]
    exact ⟨rfl, fun _ _ _ => rfl⟩
  next mount vol disk' opened =>
    rw [opened] at kept
    obtain ⟨sized, selected, _⟩ := volOpen_some opened
    obtain ⟨size, bytes⟩ := served_frame Mount.Confines.refl Mount.Confines.trans
      (mount.confines_read crypto) (mount.confines_write crypto) crypto mount requests (vol, disk')
      (by dsimp only at kept ⊢; rw [kept]; exact mountFor_placed sized selected)
    dsimp only at kept size bytes ⊢
    rw [kept] at size bytes
    refine ⟨size, fun i inFile outside => bytes i inFile fun writable => ?_⟩
    exact outside mount selected ⟨writable.1, writable.2.1⟩

theorem Carries.mounted (carries : Carries base disk) (sized : base.WellSized) (crypto : Crypto)
    (credentials : Credentials) (requests : List Request) :
    Carries base (handleMount crypto credentials requests disk).2 := by
  obtain ⟨size, kept⟩ := handleMount_outside crypto credentials requests disk
  apply carries.after sized size (handleMount_stays crypto credentials requests disk carries.faultless)
  intro i header inFile
  apply kept i (by rw [carries.size]; exact inFile)
  intro mount mounted inRange
  rw [carries.mountFor] at mounted
  have placed := mountFor_placed sized mounted
  have first := placed.afterHeader
  have last := placed.beforeTail
  have lower := inRange.1
  have upper := inRange.2
  omega

/-- What a mount starts with: the volume as it lies in the container. -/
theorem Carries.opened (carries : Carries base disk) (roundTrip : crypto.SectorRoundTrip)
    {credentials : Credentials} (opens : Opens crypto base mount credentials) {disk' : Disk}
    (opened : volOpen crypto credentials.password credentials.hiddenPassword
      credentials.protectHidden disk = (some (mount', vol), disk')) :
    mount.SameVolume mount' ∧ mount'.Placed base.size ∧ disk' = disk ∧
      vol = loadedVolume (mount'.blocks crypto disk.container) ∧
      RunningFiles crypto mount' base (vol.inodes 0).mtime (vol, disk)
        (filesOf vol (mount'.blocks crypto disk.container)) ∧
      Closable crypto mount' vol (mount'.blocks crypto disk.container) := by
  obtain ⟨sized, mounted, _⟩ := volOpen_some opened
  have selected := mounted
  rw [carries.mountFor] at selected
  obtain ⟨same, unprotected⟩ := opens mount' selected
  have placed : mount'.Placed disk.container.size := mountFor_placed sized mounted
  cases volOpen_faultless disk roundTrip credentials.password credentials.hiddenPassword
    credentials.protectHidden carries.faultless sized mounted unprotected with
  | inr refused =>
    rw [opened] at refused
    exact absurd refused.2 (by simp)
  | inl accepted =>
    obtain ⟨loadable, returns⟩ := accepted
    rw [opened] at returns
    obtain ⟨loaded, rfl⟩ := Prod.mk.inj returns
    have loaded : vol = loadedVolume (mount'.blocks crypto disk'.container) :=
      congrArg Prod.snd (Option.some.inj loaded)
    have sound : Sound mount'.blockCount vol (mount'.blocks crypto disk'.container) := by
      rw [loaded]
      exact loadable.wellFormed.sound
    have shows : Shows crypto mount' vol disk' :=
      ⟨unprotected, ⟨placed, carries.faultless, rfl⟩, sound⟩
    refine ⟨same, ?_, rfl, loaded, ⟨⟨shows, ?_, carries⟩, volOpen_holdsFiles roundTrip opened⟩, ?_⟩
    · rw [← carries.size]
      exact placed
    · exact (opened_flushable roundTrip opened).2.2
    · constructor
      case loadable => exact loadable
      case within =>
        rw [loaded]
        exact loadable.wellFormed.within
      case refs =>
        intro j
        rw [loaded]

section Mounting

variable (sized : base.WellSized) (stores : StoresFiles crypto mount base rootTime disk files)
  {credentials : Credentials} (requests : List Request)
include sized stores

omit sized in
/-- A mount of another volume leaves the blocks alone. -/
theorem StoresFiles.elsewhere_blocks (placed : mount.Placed base.size)
    (elsewhere : OpensElsewhere crypto base mount credentials) :
    mount.blocks crypto (handleMount crypto credentials requests disk).2.container =
      mount.blocks crypto disk.container := by
  obtain ⟨size, kept⟩ := handleMount_outside crypto credentials requests disk
  apply Mount.blocks_congr
  intro i inRange
  have last := placed.beforeTail
  have upper := inRange.2
  apply kept i (by rw [stores.carries.size]; omega)
  intro mount' mounted
  rw [stores.carries.mountFor] at mounted
  exact fun inOther => elsewhere mount' mounted i inOther inRange

theorem StoresFiles.elsewhere (placed : mount.Placed base.size)
    (elsewhere : OpensElsewhere crypto base mount credentials) :
    StoresFiles crypto mount base rootTime (handleMount crypto credentials requests disk).2
      files := by
  have blocks := stores.elsewhere_blocks requests placed elsewhere
  constructor
  case carries => exact stores.carries.mounted sized crypto credentials requests
  case rootTime =>
    rw [blocks]
    exact stores.rootTime
  case files =>
    rw [blocks]
    exact stores.files

variable (roundTrip : crypto.SectorRoundTrip)
include roundTrip

/-- A mount of the volume is answered as the specification says. -/
theorem StoresFiles.mounted (opens : Opens crypto base mount credentials) :
    ∃ files', MountAllows imageStore rootTime files requests
        (handleMount crypto credentials requests disk).1 files' ∧
      StoresFiles crypto mount base rootTime (handleMount crypto credentials requests disk).2
        files' := by
  have carries := stores.carries.mounted sized crypto credentials requests
  have stays := volOpen_container crypto credentials.password credentials.hiddenPassword
    credentials.protectHidden disk
  unfold handleMount at carries ⊢
  cases opened : volOpen crypto credentials.password credentials.hiddenPassword
      credentials.protectHidden disk with
  | mk found disk' =>
    rw [opened] at stays carries
    dsimp only at stays
    cases found with
    | none =>
      refine ⟨files, .refused, ?_⟩
      dsimp only at carries ⊢
      constructor
      case carries => exact carries
      case rootTime =>
        rw [stays]
        exact stores.rootTime
      case files =>
        rw [stays]
        exact stores.files
    | some found =>
      obtain ⟨mount', vol⟩ := found
      obtain ⟨same, placed, rfl, loaded, start, _⟩ :=
        stores.carries.opened roundTrip opens opened
      have blocks : mount'.blocks crypto disk'.container = mount.blocks crypto disk'.container :=
        same.blocks disk'.container
      have time : (vol.inodes 0).mtime = rootTime := by
        rw [loaded, blocks]
        exact stores.rootTime
      have before : filesOf vol (mount'.blocks crypto disk'.container) = files := by
        rw [loaded, blocks]
        exact stores.files
      rw [time, before] at start
      obtain ⟨files', trace, final⟩ := (running_refines roundTrip sized placed rootTime).run start
        (meetsAll_of_mem (fun _ _ _ => trivial) _)
      have stored := (final.destroyed roundTrip sized placed).1
      exact ⟨files', .served trace, (StoresFiles.of_sameVolume same).1 stored⟩

/-- A mount whose arguments open the volume succeeds where its metadata can be loaded, and unless
a write runs out of space it can be loaded again. -/
theorem StoresFiles.mount_succeeds (opens : Opens crypto base mount credentials)
    (mounted : base.mountFor crypto credentials.password credentials.hiddenPassword
      credentials.protectHidden = some mount') (key : mount'.hmacKey = mount.hmacKey)
    (loadable : Loadable crypto mount (mount.blocks crypto disk.container)) :
    ∃ answers, (handleMount crypto credentials requests disk).1 = some answers ∧
      (List.Forall₂ (fun r answer => ¬Request.RanFull r answer) requests answers →
        Loadable crypto mount (mount.blocks crypto
          (handleMount crypto credentials requests disk).2.container)) := by
  obtain ⟨same, unprotected⟩ := opens mount' mounted
  have here : disk.container.mountFor crypto credentials.password credentials.hiddenPassword
      credentials.protectHidden = some mount' := by
    rw [stores.carries.mountFor]
    exact mounted
  have sizedHere := stores.carries.wellSized sized
  have loads := volOpen_faultless disk roundTrip credentials.password credentials.hiddenPassword
    credentials.protectHidden stores.carries.faultless sizedHere here unprotected
  rw [same.blocks] at loads
  cases loads with
  | inr refused => exact absurd ((same.loadable key).2 loadable) refused.1
  | inl accepted =>
    obtain ⟨_, opened⟩ := accepted
    obtain ⟨_, placed, _, _, start, closable⟩ := stores.carries.opened roundTrip opens opened
    obtain ⟨files', trace, final⟩ := (running_refines roundTrip sized placed _).run start
      (meetsAll_of_mem (fun _ _ _ => trivial) _)
    unfold handleMount
    rw [opened]
    refine ⟨_, rfl, fun room => ?_⟩
    have closes := start.running.requests_closable roundTrip sized placed closable room
    have loads := (final.destroyed roundTrip sized placed).2 closes
    rw [same.blocks, same.loadable key] at loads
    exact loads

end Mounting

/-! ## Runs of mounts -/

section Volumes

variable {ι : Type} [DecidableEq ι]

/-- The arguments open a volume of the family, and it lies apart from the others. -/
structure OpensOne (crypto : Crypto) (base : Container) (volumes : ι → Mount)
    (owner : Credentials → ι) (credentials : Credentials) : Prop where
  opens : Opens crypto base (volumes (owner credentials)) credentials
  elsewhere : ∀ i, i ≠ owner credentials → OpensElsewhere crypto base (volumes i) credentials

variable {volumes : ι → Mount} {owner : Credentials → ι} {rootTimes : ι → UInt64}
  (roundTrip : crypto.SectorRoundTrip) (sized : base.WellSized)
  (placed : ∀ i, (volumes i).Placed base.size)
include roundTrip sized placed

theorem mount_refines : Refines (fun mounting => handleMount crypto mounting.1 mounting.2)
    (family (fun mounting => owner mounting.1) fun i => mountSpec imageStore (rootTimes i))
    (fun _ mounting => OpensOne crypto base volumes owner mounting.1)
    (fun disk files => ∀ i, StoresFiles crypto (volumes i) base (rootTimes i) disk (files i)) := by
  intro mounting disk files before one
  obtain ⟨credentials, requests⟩ := mounting
  obtain ⟨opens, elsewhere⟩ := one
  obtain ⟨files', allowed, stored⟩ :=
    (before (owner credentials)).mounted sized requests roundTrip opens
  refine ⟨Function.update files (owner credentials) files', ⟨?_, fun i apart => ?_⟩, fun i => ?_⟩
  · dsimp only
    rw [Function.update_self]
    exact allowed
  · exact Function.update_of_ne apart ..
  · by_cases own : i = owner credentials
    · subst own
      rw [Function.update_self]
      exact stored
    · rw [Function.update_of_ne own]
      exact (before i).elsewhere sized requests (placed i) (elsewhere i own)

/-- Volumes that lie apart are stores of their own. -/
theorem mounts_refine_stores {files : ι → FileStore (Image UInt8 4096)}
    (start : ∀ i, StoresFiles crypto (volumes i) base (rootTimes i) disk (files i))
    {mounts : List (Credentials × List Request)}
    (each : ∀ mounting ∈ mounts, OpensOne crypto base volumes owner mounting.1) :
    ∃ files' : ι → FileStore (Image UInt8 4096), ∀ i,
      Traces (mountSpec imageStore (rootTimes i)) (mounts.filter fun mounting => owner mounting.1 = i)
        (files i) (Machine.resultsOf (fun mounting => owner mounting.1 = i) mounts
          (runMounts crypto mounts disk).1) (files' i) ∧
      StoresFiles crypto (volumes i) base (rootTimes i) (runMounts crypto mounts disk).2
        (files' i) := by
  obtain ⟨files', trace, final⟩ := (mount_refines roundTrip sized placed).run start
    (meetsAll_of_mem (fun mounting listed _ => each mounting listed) _)
  exact ⟨files', fun i => ⟨trace.own i, final i⟩⟩

/-- The metadata of every volume can be loaded. -/
def AllLoadable (crypto : Crypto) (volumes : ι → Mount) (disk : Disk) : Prop :=
  ∀ i, Loadable crypto (volumes i) ((volumes i).blocks crypto disk.container)

/-- While no write runs out of space, every mount whose arguments open a volume succeeds. -/
theorem mounts_succeed {files : ι → FileStore (Image UInt8 4096)}
    (start : ∀ i, StoresFiles crypto (volumes i) base (rootTimes i) disk (files i))
    (loadable : AllLoadable crypto volumes disk) {mounts : List (Credentials × List Request)}
    (each : ∀ mounting ∈ mounts, OpensOne crypto base volumes owner mounting.1)
    (opens : ∀ mounting ∈ mounts, ∃ mount', base.mountFor crypto mounting.1.password
      mounting.1.hiddenPassword mounting.1.protectHidden = some mount' ∧
        mount'.hmacKey = (volumes (owner mounting.1)).hmacKey)
    (room : NeverFull mounts (runMounts crypto mounts disk).1) :
    ∀ result ∈ (runMounts crypto mounts disk).1, result.isSome := by
  induction mounts generalizing disk files with
  | nil => simp [runMounts]
  | cons mounting rest ih =>
    obtain ⟨credentials, requests⟩ := mounting
    obtain ⟨first, later⟩ := List.forall₂_cons.1 room
    have one := each _ List.mem_cons_self
    obtain ⟨mount', mounted, key⟩ := opens _ List.mem_cons_self
    obtain ⟨answers, succeeds, loads⟩ := (start (owner credentials)).mount_succeeds sized requests
      roundTrip one.opens mounted key (loadable _)
    obtain ⟨files', _, after⟩ :=
      mount_refines roundTrip sized placed (credentials, requests) disk files start one
    have loadable' : AllLoadable crypto volumes (handleMount crypto credentials requests disk).2 := by
      intro i
      by_cases own : i = owner credentials
      · subst own
        exact loads (first answers succeeds)
      · rw [(start i).elsewhere_blocks requests (placed i) (one.elsewhere i own)]
        exact loadable i
    intro result member
    cases List.mem_cons.1 member with
    | inl here =>
      rw [here]
      exact Option.isSome_iff_exists.2 ⟨answers, succeeds⟩
    | inr there =>
      exact ih after loadable' (fun m listed => each m (List.mem_cons_of_mem _ listed))
        (fun m listed => opens m (List.mem_cons_of_mem _ listed)) later result there

end Volumes

end DenyFS
