import DenyFS.Verified.CleanBitmap
import DenyFS.Verified.Dirents

/-! # Every call keeps the bitmap flushable

The directory operations, the public operations and the flush on top of the block map: each of
them keeps `Flushable` on any store, whichever of its requests fail. -/

namespace DenyFS

open Packed BlockProgram

variable {base : Superblock} {frame : Blocks → Prop} {count : Nat} {vol : Volume}
  {disk : Blocks}

/-! ## Directory scans -/

/-- The entry a scan stops at is valid and the wanted one. -/
theorem scanEntries_some {wanted : Dirent → Bool} {entries : Fin 16 → Dirent}
    {indices : List (Fin 16)} {i : Fin 16}
    (found : scanEntries wanted entries indices = .ok (some i)) :
    validDirent (entries i) = true ∧ wanted (entries i) = true := by
  induction indices with
  | nil => cases found
  | cons j rest ih =>
    rw [scanEntries] at found
    split at found
    · cases found
    next valid =>
    split at found
    next here =>
      cases found
      exact ⟨by simpa using valid, here⟩
    · exact ih found

/-- Nothing is asked of the blocks. -/
abbrev Unframed : Blocks → Prop := fun _ => True

theorem Superblock.Layout.unframed (layout : base.Layout count) : Region base count Unframed :=
  ⟨layout, fun _ _ _ _ _ => trivial⟩

section Operations

variable {δ : Type} {device : Device δ UInt32 Sector Errno} {inside : UInt32 → Prop}
  {sound : δ → Prop} {view : δ → Blocks}

variable (storage : Storage device inside sound view) (fixed : Region base count frame)
include storage

/-- Where a directory scan can stop. -/
structure Stops (wanted : Dirent → Bool) (blocks : List UInt32) (position : DirentPosition) :
    Prop where
  listed : position.block ∈ blocks
  present : position.block ≠ invalidBlock
  valid : validDirent (position.entries position.index) = true
  wanted : wanted (position.entries position.index) = true

theorem keeps_findInBlock (wanted : Dirent → Bool) (block : UInt32) :
    KeepsFlushable device sound view base frame (findInBlock wanted block) fun found =>
      ∀ position, found = some position → position.block = block ∧
        validDirent (position.entries position.index) = true ∧
        wanted (position.entries position.index) = true := by
  refine ((Keeps.readAt storage block).elseThrow _).bind fun data _ => ?_
  dsimp only
  split
  · exact Keeps.throw _
  next found scan =>
    refine Keeps.pure fun position same => ?_
    cases found with
    | none => cases same
    | some i =>
      cases same
      exact ⟨rfl, scanEntries_some scan⟩

theorem keeps_findDirent (stopAtHole : Bool) (wanted : Dirent → Bool) (blocks : List UInt32) :
    KeepsFlushable device sound view base frame (findDirent stopAtHole wanted blocks) fun found =>
      ∀ position, found = some position → Stops wanted blocks position := by
  induction blocks with
  | nil => exact Keeps.pure fun position same => (nomatch same)
  | cons block rest ih =>
    have later : KeepsFlushable device sound view base frame (findDirent stopAtHole wanted rest)
        fun found => ∀ position, found = some position →
          Stops wanted (block :: rest) position := by
      refine ih.mono fun found stops position same => ?_
      obtain ⟨listed, present, valid, meets⟩ := stops position same
      exact ⟨List.mem_cons_of_mem _ listed, present, valid, meets⟩
    rw [findDirent]
    split
    · split
      · exact Keeps.pure fun position same => (nomatch same)
      · exact later
    next present =>
      refine (keeps_findInBlock storage wanted block).bind fun found stops => ?_
      cases found with
      | none => exact later
      | some position =>
        refine Keeps.pure fun position' same => ?_
        cases same
        obtain ⟨here, valid, meets⟩ := stops position rfl
        exact ⟨here ▸ List.mem_cons_self, here ▸ present, valid, meets⟩

omit storage in
/-- The blocks of the root directory lie in the data region. -/
theorem Flushable.inData_of_rootBlock (flushable : Flushable base frame vol disk) {block : UInt32}
    (listed : block ∈ vol.rootBlocks) (present : block ≠ invalidBlock) : base.InData block := by
  obtain ⟨i, rfl⟩ := List.mem_ofFn.1 listed
  exact (flushable.rootBlocks i).resolve_left present

theorem keeps_volLookup (name : CString) :
    KeepsFlushable device sound view base frame (volLookup name) fun ino => ino ≠ 0 ∧ ino < 64 := by
  unfold volLookup
  split
  · exact Keeps.throw _
  · refine Keeps.get_bind fun vol disk flushable => ?_
    refine (keeps_findDirent storage false _ vol.rootBlocks).bind fun found stops => ?_
    cases found with
    | none => exact Keeps.throw _
    | some position =>
      obtain ⟨_, _, valid, meets⟩ := stops position rfl
      refine Keeps.pure (Dirent.validDirent_inode valid ?_)
      simp only [lookupMatches, Bool.and_eq_true, bne_iff_ne] at meets
      exact meets.1.1

include fixed

theorem keeps_addDirent (name : CString) (ino : UInt32) :
    KeepsFlushable device sound view base frame (addDirent name ino) fun _ => True := by
  unfold addDirent
  split
  · exact Keeps.throw _
  · refine Keeps.get_bind fun vol disk flushable => ?_
    refine (keeps_findDirent storage true _ vol.rootBlocks).bind fun found stops => ?_
    cases found with
    | some position =>
      obtain ⟨listed, present, _, _⟩ := stops position rfl
      exact keeps_writeBlock storage fixed (flushable.inData_of_rootBlock listed present) _
    | none =>
      dsimp only
      split
      · exact Keeps.throw _
      have allocates : KeepsFlushable device sound view base frame (modifyGet allocBlock) fun block =>
          0 ≤ block → base.InData (UInt32.ofNat block.toNat) :=
        Keeps.modifyGet fun _ _ flushable => flushable.allocBlock
      refine allocates.bind fun block inData => ?_
      split
      · exact Keeps.throw _
      next positive =>
        have inData := inData (Int.not_lt.1 positive)
        have links : KeepsFlushable device sound view base frame (modifyInode 0 fun root =>
            { root with
              direct := Function.update root.direct (Fin.ofNat 20 root.blockCount.toNat)
                (UInt32.ofNat block.toNat)
              blockCount := root.blockCount + 1 }) fun _ => True := by
          refine keeps_modifyInode fun _ inode => ⟨rfl, fun i => ?_⟩
          dsimp only
          by_cases same : i = Fin.ofNat 20 inode.blockCount.toNat
          · subst same
            rw [Function.update_self]
            exact .inr (.inr inData)
          · exact .inl (Function.update_of_ne same ..)
        exact links.bind fun _ _ => keeps_writeBlock storage fixed inData _

theorem keeps_removeDirent (name : CString) :
    KeepsFlushable device sound view base frame (removeDirent name) fun _ => True := by
  refine Keeps.get_bind fun vol disk flushable => ?_
  refine (keeps_findDirent storage false _ vol.rootBlocks).bind fun found stops => ?_
  cases found with
  | none => exact Keeps.throw _
  | some position =>
    obtain ⟨listed, present, _, _⟩ := stops position rfl
    exact keeps_writeBlock storage fixed (flushable.inData_of_rootBlock listed present) _

/-! ## Storing -/

theorem keeps_blockForWrite (ino : Fin 64) (logicalBlock : Nat) :
    KeepsFlushable device sound view base frame (blockForWrite ino logicalBlock) base.InData := by
  refine Keeps.get_bind fun vol _ _ => ?_
  refine (keeps_getFileDataBlock storage _ logicalBlock).bind fun mapped inData => ?_
  split
  · exact keeps_allocateFileDataBlock storage fixed ino logicalBlock
  next present => exact Keeps.pure (inData present)

theorem keeps_writeChunks (ino : Fin 64) (fuel pos : Nat) (src : List UInt8) :
    KeepsFlushable device sound view base frame (writeChunks ino fuel pos src) fun _ => True := by
  induction fuel generalizing pos src with
  | zero => exact Keeps.pure trivial
  | succ fuel ih =>
    rw [writeChunks]
    split
    · exact Keeps.pure trivial
    · refine (keeps_blockForWrite storage fixed ino _).bind fun block inData => ?_
      have stores : KeepsFlushable device sound view base frame (writeChunk block (pos % 4096)
          (src.take (min (4096 - pos % 4096) src.length))) fun _ => True :=
        ((Keeps.readAt storage block).elseThrow _).bind fun _ _ =>
          keeps_writeBlock storage fixed inData _
      exact stores.bind fun _ _ => ih _ _

/-! ## Flush -/

omit storage fixed in
theorem Flushable.sealed (flushable : Flushable base frame vol disk) (crypto : Crypto) (mount : Mount) :
    Flushable base frame (vol.sealed crypto mount) disk where
  layout := flushable.layout.trans rfl
  clean := flushable.clean
  rootType := flushable.rootType
  rootBlocks := flushable.rootBlocks
  framed := flushable.framed

/-- What a flush does to the memory and to the blocks. -/
theorem exec_volFlush_cases (crypto : Crypto) (mount : Mount) {state : δ} (start : sound state)
    (flushable : Flushable base frame vol (view state)) :
    let after := Prog.exec device (volFlush crypto mount) (vol, state)
    sound after.2.2 ∧
      ((after.1 = .ok () ∧ after.2.1 = (vol.sealed crypto mount).cleaned ∧
          (∀ write ∈ (vol.sealed crypto mount).flushWrites, inside write.1) ∧
          (vol.sealed crypto mount).Stored (view after.2.2) ∧
          ∀ block, base.InData block → view after.2.2 block = view state block) ∨
        (after.1 = .error .eperm ∧ after.2.1 = vol.sealed crypto mount ∧
          (vol.sealed crypto mount).Clean (view after.2.2))) := by
  have sealed := flushable.sealed crypto mount
  have layout := fixed.layout.of_same sealed.layout
  have dataStart := sealed.layout.dataStart
  rw [exec_volFlush]
  generalize vol.sealed crypto mount = vol' at *
  obtain ⟨ends, memory, outcome⟩ :=
    exec_writeAll storage vol'.metadataBlock Errno.eperm (vol'.flushWrites_image layout) vol' state start
  rcases wrote : Prog.exec device (writeAll Errno.eperm vol'.flushWrites) (vol', state) with
    ⟨result, vol'', state'⟩
  rw [wrote] at ends memory outcome
  dsimp only at ends memory outcome
  subst memory
  rcases outcome with ⟨rfl, served, shows⟩ | ⟨rfl, shows⟩
  · refine ⟨ends, .inl ⟨rfl, rfl, served, sealed.clean.stored layout shows, ?_⟩⟩
    intro block inData
    dsimp only
    rw [shows block, if_neg]
    rw [vol''.mem_flushWrites layout, dataStart]
    rintro ⟨metadata, _⟩
    have start := UInt32.le_iff_toNat_le.1 inData
    omega
  · refine ⟨ends, .inr ⟨rfl, rfl, fun i small notDirty => ?_⟩⟩
    dsimp only at small notDirty ⊢
    rcases shows (vol''.sb.bitmapStart + UInt32.ofNat i) with before | ⟨_, now⟩
    · rw [before]
      exact sealed.clean i small notDirty
    · rw [now, vol''.metadataBlock_bitmap layout small]

end Operations

section Calls

variable {δ : Type} {device : Device δ UInt32 Sector Errno} {inside : UInt32 → Prop}
  {sound : δ → Prop} {view : δ → Blocks}
  (storage : Storage device inside sound view) (fixed : Region base count Unframed)
include storage fixed

/-! ## The public operations

They end with a flush, which leaves nothing below `data_start` alone. -/

theorem keeps_volFlush (crypto : Crypto) (mount : Mount) :
    KeepsFlushable device sound view base Unframed (volFlush crypto mount) fun _ => True := by
  intro vol state start flushable
  have sealed := flushable.sealed crypto mount
  have layout := fixed.layout.of_same sealed.layout
  obtain ⟨ends, outcome⟩ := exec_volFlush_cases storage fixed crypto mount start flushable
  refine ⟨ends, ?_, fun _ _ => trivial⟩
  rcases outcome with ⟨_, memory, _, stored, _⟩ | ⟨_, memory, clean⟩
  · rw [memory]
    refine ⟨sealed.layout, fun i small _ => ?_, sealed.rootType, sealed.rootBlocks, trivial⟩
    have place := layout.bitmapStart_add small
    have region := layout.dataStart
    have metadata : ((vol.sealed crypto mount).sb.bitmapStart + UInt32.ofNat i).toNat <
        (vol.sealed crypto mount).sb.dataStart.toNat := by
      rw [place]
      have : i < (vol.sealed crypto mount).sb.bitmapBlocks.toNat := small
      omega
    exact (stored _ metadata).trans (Volume.metadataBlock_bitmap layout small)
  · rw [memory]
    exact ⟨sealed.layout, clean, sealed.rootType, sealed.rootBlocks, trivial⟩

theorem keeps_flushOrEio (crypto : Crypto) (mount : Mount) :
    KeepsFlushable device sound view base Unframed (flushOrEio crypto mount) fun _ => True :=
  (keeps_volFlush storage fixed crypto mount).elseThrow _

omit storage fixed in
theorem keeps_allocInode :
    KeepsFlushable device sound view base Unframed (modifyGet allocInode) fun ino =>
      ∀ i, ino = some i → i ≠ 0 := by
  refine Keeps.modifyGet fun vol disk flushable => ?_
  unfold allocInode
  split
  next i found =>
    refine ⟨flushable.inodeCounts _, fun j same => ?_⟩
    cases same
    have free := List.find?_some found
    simp only [Bool.and_eq_true, bne_iff_ne] at free
    exact free.1
  · exact ⟨flushable, fun j same => (nomatch same)⟩

theorem keeps_volCreate (crypto : Crypto) (mount : Mount) (now : UInt64) (name : CString) :
    KeepsFlushable device sound view base Unframed (volCreate crypto mount now name) fun _ => True := by
  unfold volCreate
  split
  · exact Keeps.throw _
  refine (keeps_volLookup storage name).attempt.bind fun result _ => ?_
  split
  · exact Keeps.throw _
  · refine keeps_allocInode.bind fun ino notRoot => ?_
    cases ino with
    | none => exact Keeps.throw _
    | some ino =>
      have notRoot := notRoot ino rfl
      have resets : ∀ f : Inode → Inode,
          KeepsFlushable device sound view base Unframed (modifyInode ino f) fun _ => True :=
        fun f => keeps_modifyInode fun isRoot => absurd isRoot notRoot
      refine (resets _).bind fun _ _ => ?_
      refine ((keeps_addDirent storage fixed name _).rollback fun vol disk flushable => ?_).bind
        fun _ _ => ?_
      · refine Flushable.inodeCounts ?_ _
        exact flushable.setInode fun isRoot => absurd isRoot notRoot
      · exact (keeps_flushOrEio storage fixed crypto mount).bind fun _ _ => Keeps.pure trivial
  · exact Keeps.throw _

theorem keeps_volUnlink (crypto : Crypto) (mount : Mount) (name : CString) :
    KeepsFlushable device sound view base Unframed (volUnlink crypto mount name) fun _ => True := by
  refine ((keeps_volLookup storage name).elseThrow _).bind fun ino range => ?_
  refine (keeps_removeDirent storage fixed name).bind fun _ _ => ?_
  have notRoot := Dirent.ofNat_ino_ne_zero range.1 range.2
  exact ((keeps_freeInode storage notRoot).elseThrow _).bind fun _ _ =>
    keeps_flushOrEio storage fixed crypto mount

/-- Operations on the contents of a file are only ever let through on a file. -/
theorem keeps_volWrite (crypto : Crypto) (mount : Mount) (now : UInt64) (ino : UInt32)
    (buf : List UInt8) (offset : UInt64) :
    KeepsFlushable device sound view base Unframed (volWrite crypto mount now ino buf offset)
      fun _ => True := by
  unfold volWrite
  split
  · exact Keeps.throw _
  split
  · exact Keeps.throw _
  refine Keeps.get_bind fun vol _ _ => ?_
  dsimp only
  split
  · exact Keeps.throw _
  split
  · exact Keeps.throw _
  refine (keeps_writeChunks storage fixed _ _ _ _).bind fun _ _ => ?_
  refine Keeps.bind (keeps_modifyInode fun _ inode => ?_) fun _ _ =>
    (keeps_flushOrEio storage fixed crypto mount).bind fun _ _ => Keeps.pure trivial
  exact ⟨rfl, fun _ => .inl rfl⟩

theorem keeps_shrinkFile (ino : Fin 64) (newSize : Nat) :
    KeepsFlushable device sound view base Unframed (shrinkFile ino newSize) fun _ => True := by
  have clears : KeepsFlushable device sound view base Unframed (clearTail ino newSize)
      fun _ => True := by
    refine Keeps.get_bind fun vol _ _ => ?_
    refine (keeps_getFileDataBlock storage _ _).bind fun block inData => ?_
    split
    · exact Keeps.pure trivial
    next present =>
      exact ((Keeps.readAt storage block).elseThrow _).bind fun _ _ =>
        (keeps_writeBlock storage fixed (inData present) _).elseThrow _
  exact Keeps.bind (Keeps.when trivial fun _ => clears) fun _ _ =>
    (keeps_truncateFileBlocks storage fixed ino _).elseThrow _

theorem keeps_volTruncate (crypto : Crypto) (mount : Mount) (now : UInt64) (ino : UInt32)
    (newSize : UInt64) :
    KeepsFlushable device sound view base Unframed (volTruncate crypto mount now ino newSize)
      fun _ => True := by
  unfold volTruncate
  split
  · exact Keeps.throw _
  refine Keeps.get_bind fun vol _ _ => ?_
  dsimp only
  split
  · exact Keeps.throw _
  split
  · exact Keeps.throw _
  split
  · exact Keeps.pure trivial
  refine Keeps.bind (Keeps.when trivial fun _ => keeps_shrinkFile storage fixed _ _) fun _ _ => ?_
  refine Keeps.bind (keeps_modifyInode fun _ inode => ?_) fun _ _ =>
    keeps_flushOrEio storage fixed crypto mount
  exact ⟨rfl, fun _ => .inl rfl⟩

theorem keeps_perform (crypto : Crypto) (mount : Mount) (c : Call) :
    KeepsFlushable device sound view base Unframed (perform crypto mount c) fun _ => True := by
  cases c with
  | lookup name =>
    exact (keeps_volLookup storage name).bind fun _ _ => Keeps.pure trivial
  | create now name =>
    exact (keeps_volCreate storage fixed crypto mount now name).bind fun _ _ =>
      Keeps.pure trivial
  | unlink name =>
    exact (keeps_volUnlink storage fixed crypto mount name).bind fun _ _ => Keeps.pure trivial
  | read ino size offset =>
    exact (Keeps.ofPassive storage (volRead_simple ino size offset).passive).bind fun _ _ =>
      Keeps.pure trivial
  | write now ino buf offset =>
    exact (keeps_volWrite storage fixed crypto mount now ino buf offset).bind fun _ _ =>
      Keeps.pure trivial
  | truncate now ino newSize =>
    exact (keeps_volTruncate storage fixed crypto mount now ino newSize).bind fun _ _ =>
      Keeps.pure trivial
  | readdir =>
    exact (Keeps.ofPassive storage (volReaddir_simple collectEntries []).passive).bind fun _ _ =>
      Keeps.pure trivial
  | flush =>
    exact (keeps_volFlush storage fixed crypto mount).bind fun _ _ => Keeps.pure trivial

/-- After any run of calls the bitmap is flushable. -/
theorem runCalls_flushable (crypto : Crypto) (mount : Mount) (calls : List Call) {state : δ}
    (start : sound state) (flushable : Flushable base Unframed vol (view state)) :
    sound (runCalls crypto mount device calls (vol, state)).2.2 ∧
      Flushable base Unframed (runCalls crypto mount device calls (vol, state)).2.1
        (view (runCalls crypto mount device calls (vol, state)).2.2) := by
  refine Machine.run_invariant
    (fun state : Volume × δ => sound state.2 ∧ Flushable base Unframed state.1 (view state.2))
    (fun c _ state holds => ?_) ⟨start, flushable⟩
  obtain ⟨ends, kept, _⟩ := keeps_perform storage fixed crypto mount c state.1 state.2
    holds.1 holds.2
  exact ⟨ends, kept⟩

end Calls

end DenyFS
