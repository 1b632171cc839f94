import DenyFS.Verified.DirectoryGrowth
import DenyFS.Verified.NoTrace
import DenyFS.Verified.Separation
import DenyFS.Verified.Tails

/-! # Closing a volume and opening it again

An operation that succeeds ends with a flush, and what it flushes is well formed.  One that fails
skips the flush, so that what is on disk must still be accepted, and what is in memory must be
accepted once it is flushed.  Both hold as long as no write stops for lack of space after it has
taken blocks. -/

namespace DenyFS

open Packed BlockProgram Ownership

variable {count : Nat} {crypto : Crypto} {mount : Mount} {vol vol' : Volume} {disk disk' : Blocks}
  {ino j : Fin 64}

/-- A write takes all the blocks it needs or none: it is rejected at once, it fits, or no prefix of
the data that fits needs a block the file does not have. -/
def TakesAllOrNone (vol : Volume) (disk : Blocks) : Call → Prop
  | .write _ number buf offset =>
    let inode := vol.inodes (inodeOf number)
    writeError vol number buf.length offset ≠ none ∨
      blocksNeeded inode disk offset.toNat buf.length ≤ vol.sb.freeBlocks.toNat ∨
      ∀ n ≤ buf.length, blocksNeeded inode disk offset.toNat n ≤ vol.sb.freeBlocks.toNat →
        blocksNeeded inode disk offset.toNat n = 0
  | .lookup _ | .create _ _ | .unlink _ | .read _ _ _ | .truncate _ _ _ | .readdir | .flush => True

/-- A write that ran out of space although it takes all or none has taken none. -/
theorem TakesAllOrNone.needs_none {now : UInt64} {number : UInt32} {buf : List UInt8}
    {offset : UInt64} (meets : TakesAllOrNone vol disk (.write now number buf offset)) {m : Nat}
    (accepted : writeError vol number buf.length offset = none)
    (stops : m < (touchedBlocks offset.toNat buf.length).length)
    (fits : (neededSlots (vol.inodes (inodeOf number)) disk
      ((touchedBlocks offset.toNat buf.length).take m)).card ≤ vol.sb.freeBlocks.toNat)
    (full : vol.sb.freeBlocks.toNat < (neededSlots (vol.inodes (inodeOf number)) disk
      ((touchedBlocks offset.toNat buf.length).take (m + 1))).card) :
    neededSlots (vol.inodes (inodeOf number)) disk
      ((touchedBlocks offset.toNat buf.length).take m) = ∅ := by
  have part := touchedBlocks_storedPart stops
  have limit := (of_writeError_none accepted).2.2
  have countPart := card_neededSlots_stored (vol.inodes (inodeOf number)) disk stops limit
  have countAll := card_neededSlots (vol.inodes (inodeOf number)) disk limit
  have grows := Finset.card_le_card (neededSlots_mono (vol.inodes (inodeOf number)) disk
    (List.take_subset (m + 1) (touchedBlocks offset.toNat buf.length)))
  rw [← Finset.card_eq_zero]
  cases meets with
  | inl rejected => exact absurd accepted rejected
  | inr meets =>
    cases meets with
    | inl room => omega
    | inr none =>
      rw [countPart]
      exact none _ part.1 (by omega)

/-! ## No block past the end -/

/-- The view of a file that maps no block at or past its end. -/
def FileView.Within (view : FileView) : Prop :=
  ∀ s : FileSlot, s.IsData → view.refs s ≠ none → s.logical < (view.size.toNat + 4095) / 4096

/-- The blocks a range touches lie before its end. -/
theorem place_touched_within {offset len : Nat} {s : FileSlot} (isData : s.IsData) {l : Nat}
    (listed : l ∈ touchedBlocks offset len) (needed : s ∈ (place l).path)
    (fits : offset + len ≤ maxFileSize) : s.logical < (offset + len + 4095) / 4096 := by
  have small := touchedBlocks_small fits listed
  have limit : maxFileBlocks = 1049620 := rfl
  rw [path_isData needed isData, logical_place (by omega)]
  obtain ⟨i, lower, upper, rfl⟩ := mem_touchedBlocks.1 listed
  omega

theorem Effect.within {c : Call} {after : FileView} (effect : Effect vol disk j c after)
    (nonzero : j ≠ 0) (within : WithinSize vol disk) (meets : TakesAllOrNone vol disk c) :
    after.Within := by
  intro s isData mapped
  cases effect with
  | same c => exact within j nonzero s isData mapped
  | created _ => exact absurd rfl mapped
  | removed => exact absurd rfl mapped
  | @written _ _ buf offset _ accepted named size refs bytes =>
    have fits := (of_writeError_none accepted).2.2
    rw [size, writtenSize_toNat fits]
    rw [ne_eq, refs, not_and_or, not_forall] at mapped
    cases mapped with
    | inl before =>
      have inside := within j nonzero s isData before
      omega
    | inr touched =>
      obtain ⟨l, touched⟩ := touched
      rw [Classical.not_imp, not_not] at touched
      have inside := place_touched_within isData touched.1 touched.2 fits
      omega
  | @full _ number buf offset _ m accepted named stops fits full size refs bytes =>
    subst named
    have none := meets.needs_none accepted stops fits full
    rw [size]
    apply within _ nonzero s isData
    intro hole
    apply mapped
    rw [refs]
    refine ⟨hole, fun l listed needed => ?_⟩
    exact Finset.notMem_empty s (none ▸ mem_neededSlots.2 ⟨hole, l, listed, needed⟩)
  | cut _ _ shorter size refs bytes =>
    rw [refs s isData] at mapped
    rw [size]
    by_contra past
    rw [if_neg past] at mapped
    exact mapped rfl
  | grown _ _ longer =>
    have order := UInt64.lt_iff_toNat_lt.1 longer
    have inside := within j nonzero s isData mapped
    dsimp only
    omega

/-! ## Data blocks do not matter -/

/-- What file data blocks hold does not matter to a sound volume. -/
theorem Sound.rewritten (sound : Sound count vol disk)
    (same : ∀ j s b, fileRef (vol.inodes j) disk s = some b → j = 0 ∨ s.IsTable →
      disk' b = disk b) : Sound count vol disk' := by
  have refs : ∀ j, fileRef (vol.inodes j) disk' = fileRef (vol.inodes j) disk := fun j =>
    funext (fileRef_congr fun s isTable b points => same j s b points (.inr isTable))
  have ledger : Ledger (ref vol disk') vol.allocated [] :=
    sound.accounted.ledger.congr (fun slot => congrFun (refs slot.1) slot.2) fun _ => Iff.rfl
  constructor
  case accounted => exact ⟨sound.accounted.layout, ledger, sound.accounted.space, sound.accounted.metadataBits⟩
  case counted =>
    intro j
    rw [mappedSlots_congr (refs j)]
    exact sound.counted j
  case compact => exact fun j => (sound.compact j).congr (refs j)
  case tree => exact sound.tree
  case directory =>
    apply sound.directory.congr
    · intro p
      unfold entryAt
      split
      next => rfl
      next present =>
        have points : fileRef (vol.inodes 0) disk (.direct p.1) =
            some ((vol.inodes 0).direct p.1) := pointer_of_ne present
        rw [same 0 _ _ points (.inl rfl)]
    · exact fun _ _ => rfl

/-- The metadata is read from the blocks before `data_start` alone. -/
theorem loadedVolume_congr (layout : (loadedVolume disk).sb.Layout count)
    (kept : ∀ block : UInt32, block.toNat < (loadedVolume disk).sb.dataStart.toNat →
      disk' block = disk block) : loadedVolume disk' = loadedVolume disk := by
  have dataStart := layout.dataStart
  have superblock : superblockSector.symm (disk' 0) = superblockSector.symm (disk 0) := by
    rw [kept 0 (by change 0 < _; omega)]
  unfold loadedVolume
  rw [superblock]
  unfold Superblock.loaded
  congr 1
  · funext k
    unfold Superblock.loadedBitmap
    split
    next listed =>
      have small : k / 4096 < (loadedVolume disk).sb.bitmapBlocks.toNat := listed
      have place := layout.bitmapStart_add small
      change disk' ((loadedVolume disk).sb.bitmapStart + _) _ =
        disk ((loadedVolume disk).sb.bitmapStart + _) _
      rw [kept _ (by omega)]
    next => rfl
  · funext j
    have place := layout.inodeStart_add (show j.val / 32 < 2 by omega)
    unfold Superblock.loadedInodes
    change inodesSector.symm (disk' ((loadedVolume disk).sb.inodeStart + _)) _ =
      inodesSector.symm (disk ((loadedVolume disk).sb.inodeStart + _)) _
    rw [kept _ (by omega)]

/-! ## What a call leaves -/

/-- The metadata on disk is accepted, the metadata in memory maps no block past an end, and both
map the same blocks. -/
structure Closable (crypto : Crypto) (mount : Mount) (vol : Volume) (disk : Blocks) : Prop where
  loadable : Loadable crypto mount disk
  within : WithinSize vol disk
  refs : ∀ j, fileRef ((loadedVolume disk).inodes j) disk = fileRef (vol.inodes j) disk

/-- Metadata that is on disk under its HMAC. -/
theorem Closable.of_stored (aligned : mount.volumeSize.toNat % 4096 = 0)
    (sound : Sound mount.blockCount vol disk) (within : WithinSize vol disk)
    (stored : vol.Stored disk) (hmac : vol.Sealed crypto mount) :
    Closable crypto mount vol disk := by
  have agrees := stored.loaded sound.accounted.layout
  constructor
  case loadable => exact stored.loadable aligned ⟨sound, within⟩ hmac
  case within => exact within
  case refs =>
    intro j
    rw [agrees.inodes]

/-- A call that returns after a flush leaves the metadata on disk, under its HMAC. -/
theorem call_stored (layout : vol.sb.Layout count) (flushable : Flushable vol.sb Unframed vol disk)
    {c : Call} (flushes : c.Flushes vol) {reply : Reply} {after : Volume × Blocks}
    (returns : call crypto mount (plainDevice count) c (vol, disk) = (.ok reply, after)) :
    after.1.Stored after.2 ∧ after.1.Sealed crypto mount := by
  have storage := plainDevice_storage count
  obtain ⟨vol₀, disk₀, start, flushable₀, flushed⟩ :=
    call_last storage layout.unframed crypto mount trivial flushable flushes returns
  have outcome := (exec_volFlush_cases storage layout.unframed crypto mount start flushable₀).2
  rw [flushed] at outcome
  cases outcome with
  | inr fails => cases fails.1
  | inl done =>
    obtain ⟨_, memory, _, stored, _⟩ := done
    dsimp only at memory stored
    rw [memory]
    exact ⟨stored, rfl⟩

theorem FileSlot.IsTable.not_isData {s : FileSlot} (isTable : s.IsTable) : ¬s.IsData := by
  cases s with
  | single => exact id
  | root => exact id
  | child outer => exact id
  | direct i => exact isTable.elim
  | entry i => exact isTable.elim
  | leaf outer inner => exact isTable.elim

section TakesNone

variable {blocks : List Nat} {patch : Nat → Option UInt8}
  (stored : Stored count vol vol' disk disk' ino blocks patch)
  (none : neededSlots (vol.inodes ino) disk blocks = ∅)
include stored none

/-- Where nothing was needed, every file maps what it mapped. -/
theorem Stored.refs_of_none (accounted : Accounted count vol disk []) (j : Fin 64) :
    fileRef (vol'.inodes j) disk' = fileRef (vol.inodes j) disk := by
  by_cases other : j = ino
  case neg => exact stored.step.others_ref accounted other
  subst other
  funext s
  cases points : fileRef (vol.inodes j) disk s with
  | some b => exact stored.kept s b points
  | none =>
    rw [stored.refs]
    refine ⟨points, fun l listed needed => ?_⟩
    exact Finset.notMem_empty s (none ▸ mem_neededSlots.2 ⟨points, l, listed, needed⟩)

/-- Where nothing was needed, only data blocks of the file were written. -/
theorem Stored.blocks_of_none (accounted : Accounted count vol disk []) (file : ino ≠ 0) {j : Fin 64}
    {s : FileSlot} {b : UInt32} (points : fileRef (vol.inodes j) disk s = some b)
    (outside : j = 0 ∨ s.IsTable) : disk' b = disk b := by
  by_cases other : j = ino
  case neg => exact stored.step.others_blocks accounted other points
  subst other
  apply stored.untouched b (accounted.allocated_of_fileRef points)
  · intro l _ too
    have same : place l = s := congrArg Prod.snd
      (accounted.ledger.injective (s := (j, place l)) (t := (j, s)) too points)
    cases outside with
    | inl root => exact file root
    | inr isTable =>
      have isData := place_isData l
      rw [same] at isData
      exact isTable.not_isData isData
  · intro l listed hole t _ _
    exact Finset.notMem_empty (place l)
      (none ▸ mem_neededSlots.2 ⟨hole, l, listed, self_mem_path _⟩)

/-- A write that took no block leaves the metadata on disk as good as it was. -/
theorem Closable.rewritten (sound : Sound mount.blockCount vol disk)
    (closable : Closable crypto mount vol disk) (counts : count = mount.blockCount) (file : ino ≠ 0)
    (metadata : ∀ block : UInt32, block.toNat < vol.sb.dataStart.toNat →
      disk' block = disk block) : Closable crypto mount vol' disk' := by
  subst counts
  have kept := closable.loadable.wellFormed.sound
  have layout := kept.accounted.layout
  have loaded : loadedVolume disk' = loadedVolume disk := by
    apply loadedVolume_congr layout
    intro block before
    apply metadata
    have here := layout.dataStart
    have there := sound.accounted.layout.dataStart
    have sectors := layout.bitmapBlocks
    have sectors' := sound.accounted.layout.bitmapBlocks
    omega
  have same : ∀ j s b, fileRef ((loadedVolume disk).inodes j) disk s = some b → j = 0 ∨ s.IsTable →
      disk' b = disk b := by
    intro j s b points outside
    rw [closable.refs] at points
    exact stored.blocks_of_none none sound.accounted file points outside
  have refs : ∀ j, fileRef ((loadedVolume disk).inodes j) disk' =
      fileRef ((loadedVolume disk).inodes j) disk := fun j =>
    funext (fileRef_congr fun s isTable b points => same j s b points (.inr isTable))
  have now := stored.refs_of_none none sound.accounted
  have sizes : ∀ j, (vol'.inodes j).size = (vol.inodes j).size := by
    intro j
    by_cases other : j = ino
    · rw [other, stored.step.inode]
    · rw [stored.step.others j other]
  constructor
  case loadable =>
    constructor
    case superblock =>
      rw [loaded]
      exact closable.loadable.superblock
    case hmac =>
      rw [loaded]
      exact closable.loadable.hmac
    case wellFormed =>
      rw [loaded]
      refine ⟨kept.rewritten same, fun j nonzero s isData mapped => ?_⟩
      rw [refs] at mapped
      exact closable.loadable.wellFormed.within j nonzero s isData mapped
  case within =>
    intro j nonzero s isData mapped
    rw [now] at mapped
    rw [sizes]
    exact closable.within j nonzero s isData mapped
  case refs =>
    intro j
    rw [loaded, refs, closable.refs, now]

end TakesNone

/-- The time of an inode does not matter to what it maps. -/
theorem fileRef_setMtime (vol : Volume) (disk : Blocks) (ino : Fin 64) (mtime : UInt64)
    (j : Fin 64) :
    fileRef ((vol.setInode ino { vol.inodes ino with mtime }).inodes j) disk =
      fileRef (vol.inodes j) disk := by
  by_cases here : j = ino
  · subst here
    have self : (vol.setInode j { vol.inodes j with mtime }).inodes j =
        { vol.inodes j with size := (vol.inodes j).size, mtime } := Function.update_self ..
    rw [self, fileRef_setFields]
  · exact congrArg (fun inode => fileRef inode disk) (Function.update_of_ne here ..)

/-- A write that runs out of space has written no metadata. -/
theorem call_write_failed (layout : vol.sb.Layout count)
    (flushable : Flushable vol.sb Unframed vol disk) {now : UInt64} {number : UInt32}
    {buf : List UInt8} {offset : UInt64}
    (accepted : writeError vol number buf.length offset = none) {error : Errno}
    {after : Volume × Blocks}
    (fails : call crypto mount (plainDevice count) (.write now number buf offset) (vol, disk) =
      (.error error, after)) (block : UInt32)
    (metadata : block.toNat < vol.sb.dataStart.toNat) : after.2 block = disk block := by
  unfold call at fails
  rw [perform, Prog.exec_bind_pure, exec_volWrite_accepted _ crypto mount now accepted] at fails
  cases run : Prog.exec (plainDevice count)
    (acceptedWrite crypto mount now (Fin.ofNat 64 number.toNat) buf offset) (vol, disk) with
  | mk result state =>
    rw [run] at fails
    cases result with
    | ok value => cases fails
    | error failure =>
      cases fails
      exact exec_acceptedWrite_failed layout flushable run block metadata

/-- One call. -/
theorem Closable.call (aligned : mount.volumeSize.toNat % 4096 = 0)
    (sound : Sound mount.blockCount vol disk) (closable : Closable crypto mount vol disk)
    (flushable : Flushable vol.sb Unframed vol disk) (c : Call)
    (meets : TakesAllOrNone vol disk c) :
    let after := DenyFS.call crypto mount (plainDevice mount.blockCount) c (vol, disk)
    Closable crypto mount after.2.1 after.2.2 := by
  intro after
  have outcome : CallOutcome mount.blockCount crypto mount vol disk c after := sound.call_outcome c
  have within : WithinSize after.2.1 after.2.2 := fun j nonzero =>
    (outcome.effect sound nonzero).within nonzero closable.within meets
  have flushed : ∀ reply, c.Flushes vol → after.1 = .ok reply →
      Closable crypto mount after.2.1 after.2.2 := by
    intro reply flushes returns
    obtain ⟨stored, hmac⟩ := call_stored sound.accounted.layout flushable flushes
      (Prod.ext returns rfl : after = (.ok reply, after.2))
    exact .of_stored aligned (sound.after_call crypto mount c).1 within stored hmac
  have metadata : ∀ now number buf offset, c = .write now number buf offset →
      writeError vol number buf.length offset = none → after.1 = .error .enospc →
      ∀ block : UInt32, block.toNat < vol.sb.dataStart.toNat → after.2.2 block = disk block := by
    intro now number buf offset isWrite accepted fails
    subst isWrite
    exact call_write_failed sound.accounted.layout flushable accepted
      (Prod.ext fails rfl : after = (.error .enospc, after.2))
  generalize after = result at outcome within flushed metadata ⊢
  cases outcome with
  | lookup ends => cases ends <;> exact closable
  | create ends =>
    cases ends with
    | badName _ => exact closable
    | taken _ _ _ => exact closable
    | noInode _ _ _ => exact closable
    | noRoom ino _ _ _ _ _ _ =>
      constructor
      case loadable => exact closable.loadable
      case within => exact within
      case refs =>
        intro j
        rw [closable.refs]
        exact (fileRef_setMtime vol disk ino _ j).symm
    | created _ _ _ _ _ _ _ _ _ _ _ _ => exact flushed _ trivial rfl
  | unlink ends =>
    cases ends with
    | missing _ => exact closable
    | removed _ _ _ _ _ _ _ => exact flushed _ trivial rfl
  | read => exact closable
  | write ends =>
    cases ends with
    | rejected _ _ => exact closable
    | written _ _ _ _ _ _ => exact flushed _ trivial rfl
    | full m vol₁ disk₁ accepted stops stored full =>
      have nonzero := sound.tree.ne_root (of_writeError_none accepted).2.1
      have spent := stored.spent
      have none := meets.needs_none accepted stops (by omega) full
      exact closable.rewritten stored none sound rfl nonzero (metadata _ _ _ _ rfl accepted rfl)
  | truncate ends =>
    cases ends with
    | rejected _ _ => exact closable
    | same _ _ => exact closable
    | resized _ _ _ _ other _ _ => exact flushed _ other rfl
  | readdir => exact closable
  | flush _ _ => exact flushed _ trivial rfl

/-! ## Runs -/

/-- Every call of a run meets a condition on its arguments and on the state it starts from. -/
def MeetsAll (crypto : Crypto) (mount : Mount) (meets : Volume → Blocks → Call → Prop) :
    List Call → Volume × Disk → Prop
  | [], _ => True
  | c :: rest, state =>
    meets state.1 (mount.blocks crypto state.2.container) c ∧
      MeetsAll crypto mount meets rest (call crypto mount (volumeDevice crypto mount) c state).2

/-- `denyfs_vol_open` accepts the container, and mounts the same volume. -/
def Accepted (crypto : Crypto) (mount : Mount) (password : List UInt8)
    (hiddenPassword : Option (List UInt8)) (protectHidden : Bool) (container : Disk) : Prop :=
  ∃ vol, volOpen crypto password hiddenPassword protectHidden container =
    (some (mount, vol), container)

/-- What holds in every state of a run from a container `base` that was opened. -/
structure Running (crypto : Crypto) (mount : Mount) (base : Container) (vol : Volume)
    (container : Disk) : Prop where
  shows : Shows crypto mount vol container
  flushable : Flushable vol.sb Unframed vol (mount.blocks crypto container.container)
  carries : Carries base container

theorem Running.wellSized {base : Container} {container : Disk}
    (running : Running crypto mount base vol container) (sized : base.WellSized) :
    container.container.WellSized := by
  constructor
  · rw [running.carries.size]
    exact sized.large
  · rw [running.carries.size]
    exact sized.sectors

section Run

variable {base : Container} {container : Disk} (roundTrip : crypto.SectorRoundTrip)
  (sized : base.WellSized)
include roundTrip sized

theorem Running.called (placed : mount.Placed base.size)
    (running : Running crypto mount base vol container) (c : Call) :
    Running crypto mount base
      (call crypto mount (volumeDevice crypto mount) c (vol, container)).2.1
      (call crypto mount (volumeDevice crypto mount) c (vol, container)).2.2 := by
  have shows := running.shows
  have layout := shows.sound.accounted.layout
  obtain ⟨_, _, _, decrypts⟩ := call_plain roundTrip shows.unprotected shows.decrypts c vol
  obtain ⟨_, flushable, _⟩ := keeps_perform (volumeDevice_storage mount roundTrip)
    layout.unframed crypto mount c vol container shows.decrypts.placed running.flushable
  constructor
  case shows => exact shows.called roundTrip c
  case flushable => exact flushable.rebase
  case carries =>
    obtain ⟨size, kept⟩ :=
      exec_outside crypto vol container (perform crypto mount c) shows.decrypts.placed
    apply running.carries.after sized size decrypts.faultless
    intro i header inFile
    apply kept i (by rw [running.carries.size]; exact inFile)
    intro range
    have first := placed.afterHeader
    have last := placed.beforeTail
    have lower := range.1
    have upper := range.2
    omega

/-- A run whose calls take all or none keeps the container closable. -/
theorem Running.closable (placed : mount.Placed base.size)
    (running : Running crypto mount base vol container)
    (closable : Closable crypto mount vol (mount.blocks crypto container.container))
    (calls : List Call) (meets : MeetsAll crypto mount TakesAllOrNone calls (vol, container)) :
    let state := (runCalls crypto mount (volumeDevice crypto mount) calls (vol, container)).2
    Running crypto mount base state.1 state.2 ∧
      Closable crypto mount state.1 (mount.blocks crypto state.2.container) := by
  induction calls generalizing vol container with
  | nil => exact ⟨running, closable⟩
  | cons c rest ih =>
    have shows := running.shows
    obtain ⟨_, memory, image, _⟩ := call_plain roundTrip shows.unprotected shows.decrypts c vol
    have after := Closable.call placed.sized shows.sound closable running.flushable c meets.1
    dsimp only at after
    rw [← memory, ← image] at after
    exact ih (running.called roundTrip sized placed c) after meets.2

variable {password : List UInt8} {hiddenPassword : Option (List UInt8)} {protectHidden : Bool}
  (mounted : base.mountFor crypto password hiddenPassword protectHidden = some mount)
include mounted

/-- What is closable is accepted again. -/
theorem Running.accepted (running : Running crypto mount base vol container)
    (closable : Closable crypto mount vol (mount.blocks crypto container.container)) :
    Accepted crypto mount password hiddenPassword protectHidden container := by
  have here := running.wellSized sized
  have same : container.container.mountFor crypto password hiddenPassword protectHidden =
      base.mountFor crypto password hiddenPassword protectHidden :=
    running.carries.mountFor password hiddenPassword protectHidden
  cases volOpen_faultless container roundTrip password hiddenPassword protectHidden
    running.carries.faultless here (same.trans mounted) running.shows.unprotected with
  | inl accepted => exact ⟨_, accepted.2⟩
  | inr refused => exact absurd closable.loadable refused.1

end Run

/-- What maps a block past an end is refused once it has been flushed. -/
theorem Running.refused {base : Container} {container : Disk} (roundTrip : crypto.SectorRoundTrip)
    (running : Running crypto mount base vol container)
    (past : ¬WithinSize vol (mount.blocks crypto container.container)) :
    let after := call crypto mount (volumeDevice crypto mount) .flush (vol, container)
    after.1 = .ok .done ∧
      ∀ password hiddenPassword protectHidden,
        ¬Accepted crypto mount password hiddenPassword protectHidden after.2.2 := by
  intro after
  have shows := running.shows
  have layout := shows.sound.accounted.layout
  obtain ⟨outcome, memory, image, _⟩ :=
    call_plain roundTrip shows.unprotected shows.decrypts .flush vol
  obtain ⟨blocks', flushes, flushed⟩ :=
    call_flush_plain crypto mount layout (mount.blocks crypto container.container)
  have isFlush : Call.flush.Flushes vol := trivial
  have stored : (vol.flushed crypto mount).Stored blocks' :=
    (call_stored layout running.flushable isFlush flushes).1
  have sameLayout : (vol.flushed crypto mount).sb.Layout mount.blockCount := layout.of_same rfl
  have agrees := stored.loaded sameLayout
  rw [flushes] at outcome image
  refine ⟨outcome, fun password hiddenPassword protectHidden accepted => past ?_⟩
  obtain ⟨vol', opened⟩ := accepted
  obtain ⟨_, _, _, loadable⟩ := volOpen_loaded roundTrip opened
  have within := loadable.wellFormed.within
  rw [image] at within
  intro j nonzero s isData mapped
  have view := flushed.view shows.sound.accounted j
  obtain ⟨size, refs, _⟩ := of_fileView view
  have inside := within j nonzero s isData
  dsimp only at inside
  rw [agrees.inodes, refs, size] at inside
  exact inside mapped

/-- Opening a volume starts a run. -/
theorem Running.opened {password : List UInt8} {hiddenPassword : Option (List UInt8)}
    {protectHidden : Bool} {container : Disk} (roundTrip : crypto.SectorRoundTrip)
    (faultless : container.faults = []) (unguarded : mount.protectHidden = false)
    (opened : volOpen crypto password hiddenPassword protectHidden container =
      (some (mount, vol), container)) :
    Running crypto mount container.container vol container ∧
      Closable crypto mount vol (mount.blocks crypto container.container) ∧
      container.container.WellSized ∧ mount.Placed container.container.size ∧
      container.container.mountFor crypto password hiddenPassword protectHidden = some mount := by
  have shows := (Reached.opened faultless unguarded opened).shows roundTrip
  obtain ⟨sized, mounted, _⟩ := volOpen_some opened
  obtain ⟨placed, _, flushable⟩ := opened_flushable roundTrip opened
  obtain ⟨_, _, loaded, loadable⟩ := volOpen_loaded roundTrip opened
  refine ⟨⟨shows, flushable, rfl, faultless, rfl, rfl⟩, ?_, sized, placed, mounted⟩
  constructor
  case loadable => exact loadable
  case within =>
    rw [loaded]
    exact loadable.wellFormed.within
  case refs =>
    intro j
    rw [loaded]

/-- While no I/O fails and no write stops for lack of space after it has taken blocks: whatever is
done on a volume, closing it leaves a container that `denyfs_vol_open` accepts again, with or
without a flush before. -/
theorem closing_is_recoverable (roundTrip : crypto.SectorRoundTrip) {container : Disk}
    {password : List UInt8} {hiddenPassword : Option (List UInt8)} {protectHidden : Bool}
    (faultless : container.faults = []) (unguarded : mount.protectHidden = false)
    (opened : volOpen crypto password hiddenPassword protectHidden container =
      (some (mount, vol), container)) (calls : List Call)
    (meets : MeetsAll crypto mount TakesAllOrNone calls (vol, container)) :
    let state := (runCalls crypto mount (volumeDevice crypto mount) calls (vol, container)).2
    let flushed := call crypto mount (volumeDevice crypto mount) .flush state
    Accepted crypto mount password hiddenPassword protectHidden state.2 ∧
      flushed.1 = .ok .done ∧
      Accepted crypto mount password hiddenPassword protectHidden flushed.2.2 := by
  intro state flushed
  obtain ⟨starts, closable, sized, placed, mounted⟩ :=
    Running.opened roundTrip faultless unguarded opened
  obtain ⟨running, later⟩ := starts.closable roundTrip sized placed closable calls meets
  have flush : MeetsAll crypto mount TakesAllOrNone [.flush] state := ⟨trivial, trivial⟩
  obtain ⟨last, final⟩ := running.closable roundTrip sized placed later [.flush] flush
  refine ⟨running.accepted roundTrip sized mounted later, ?_,
    last.accepted roundTrip sized mounted final⟩
  obtain ⟨_, flushes⟩ := running.shows.flushes roundTrip
  exact congrArg Prod.fst flushes

theorem closing_is_recoverable_small :
    ∃ disk vol, smallContainer 4 = some disk ∧
      volOpen transparentCrypto [1] none false disk =
        (some (outerMount zeroRandomness 4, vol), disk) ∧
      let state := (runCalls transparentCrypto (outerMount zeroRandomness 4)
        (volumeDevice transparentCrypto (outerMount zeroRandomness 4))
        [.create 0 nameA, .unlink nameA] (vol, disk)).2
      Accepted transparentCrypto (outerMount zeroRandomness 4) [1] none false state.2 := by
  have positive : 0 < (4 : UInt64).toNat := by decide
  have small : (4 : UInt64).toNat ≤ 1024 := by decide
  obtain ⟨disk, vol, created, faultless, _, opened, _⟩ := smallContainer_opens positive small
  have meets : MeetsAll transparentCrypto (outerMount zeroRandomness 4) TakesAllOrNone
      [.create 0 nameA, .unlink nameA] (vol, disk) := ⟨trivial, trivial, trivial⟩
  obtain ⟨accepted, _⟩ := closing_is_recoverable transparentCrypto_sectors faultless rfl opened
    [.create 0 nameA, .unlink nameA] meets
  exact ⟨disk, vol, created, opened, accepted⟩

/-! ## A volume that ran full -/

/-- A write of 512 blocks to an empty file of a volume with 507 free blocks fails with `-ENOSPC`
and leaves blocks mapped past the end of the file.  The flush that follows succeeds, and the volume
cannot be opened again. -/
theorem full_volume_is_refused :
    ∃ disk vol, ∃ ino : Fin 64, smallContainer 4 = some disk ∧
      Fresh transparentCrypto (outerMount zeroRandomness 4) vol disk ∧
      let step := call transparentCrypto (outerMount zeroRandomness 4)
        (volumeDevice transparentCrypto (outerMount zeroRandomness 4))
      let created := (step (.create 0 nameA) (vol, disk)).2
      let failed := step (.write 0 (UInt32.ofNat ino.val) (List.replicate 2097152 1) 0) created
      let flushed := step .flush failed.2
      failed.1 = .error .enospc ∧ flushed.1 = .ok .done ∧
      ∀ password hiddenPassword protectHidden,
        ¬Accepted transparentCrypto (outerMount zeroRandomness 4) password hiddenPassword
          protectHidden flushed.2.2 := by
  obtain ⟨disk, vol, ino, made, fresh, nonzero, _, file, blank, free⟩ := smallContainer_newFile
  refine ⟨disk, vol, ino, made, fresh, ?_⟩
  have small := ofNat_ino_lt ino
  have same : inodeOf (UInt32.ofNat ino.val) = ino := ofNat_ino ino
  generalize UInt32.ofNat ino.val = number at small same ⊢
  subst same
  intro step created failed flushed
  obtain ⟨_, _, _, opened⟩ := fresh.opens
  obtain ⟨starts, _, sized, placed, _⟩ :=
    Running.opened transparentCrypto_sectors fresh.faultless fresh.unguarded opened
  have running := starts.called transparentCrypto_sectors sized placed (.create 0 nameA)
  have stopped := running.called transparentCrypto_sectors sized placed
    (.write 0 number (List.replicate 2097152 1) 0)
  have shows := running.shows
  obtain ⟨outcome, memory, image, _⟩ := call_plain transparentCrypto_sectors shows.unprotected
    shows.decrypts (.write 0 number (List.replicate 2097152 1) 0) _
  obtain ⟨full, _, size, mapped, _⟩ := shows.sound.write_overflows small file blank free
  rw [← outcome] at full
  rw [← memory] at size mapped
  rw [← image] at mapped
  obtain ⟨flushes, refused⟩ := stopped.refused transparentCrypto_sectors fun within => by
    have inside := within _ nonzero (.direct 0) trivial mapped
    rw [size] at inside
    exact absurd inside (by decide)
  exact ⟨full, flushes, refused⟩

end DenyFS
