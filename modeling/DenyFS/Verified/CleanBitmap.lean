import DenyFS.Verified.Flush
import DenyFS.Verified.Runs

/-! # The dirty flags of the bitmap

Whatever fails on the way, a bitmap sector that is not marked dirty is on disk as it is in
memory.  `Flushable` is the assertion every step of every operation keeps: the bitmap changes
together with its flags, and nothing but a flush writes below `data_start`. -/

namespace DenyFS

open Packed BlockProgram

/-! ## The assertion -/

/-- The block lies at or after `data_start`. -/
def Superblock.InData (sb : Superblock) (block : UInt32) : Prop := sb.dataStart ≤ block

structure Flushable (base : Superblock) (frame : Blocks → Prop) (vol : Volume) (disk : Blocks) :
    Prop where
  layout : base.SameLayout vol.sb
  clean : vol.Clean disk
  rootType : (vol.inodes 0).type = itypeDir
  rootBlocks : ∀ i, (vol.inodes 0).direct i = invalidBlock ∨ base.InData ((vol.inodes 0).direct i)
  framed : frame disk

/-- The layout of a volume, and an assertion on its blocks that the data region does not affect. -/
structure Region (base : Superblock) (count : Nat) (frame : Blocks → Prop) : Prop where
  layout : base.Layout count
  closed : ∀ disk block data, base.InData block → frame disk →
    frame (Function.update disk block data)

variable {base : Superblock} {frame : Blocks → Prop} {count : Nat} {vol : Volume}
  {disk : Blocks}

theorem Superblock.SameLayout.bitmapStart {a b : Superblock} (same : a.SameLayout b) :
    b.bitmapStart = a.bitmapStart := by
  rw [same]

/-- What a changed bit does to the flags and to the sectors. -/
theorem Volume.Clean.of_bit {i : Nat} {vol' : Volume} (clean : vol.Clean disk)
    (start : vol'.sb.bitmapStart = vol.sb.bitmapStart)
    (blocks : vol'.sb.bitmapBlocks = vol.sb.bitmapBlocks)
    (bitmap : ∀ k, k ≠ i / 8 → vol'.bitmap k = vol.bitmap k)
    (dirty : vol'.bitmapDirty = vol.markDirty i) : vol'.Clean disk := by
  intro j small notDirty
  rw [blocks] at small
  rw [dirty, markDirty] at notDirty
  -- the sector of the changed byte is marked, so this is another one
  have other : j ≠ i / 8 / 4096 := by
    rintro rfl
    rw [if_pos small, Function.update_self] at notDirty
    cases notDirty
  have before : vol.bitmapDirty j = false := by
    split at notDirty
    · rwa [Function.update_of_ne other] at notDirty
    · exact notDirty
  rw [start, clean j small before]
  funext k
  refine (bitmap _ fun equal => other ?_).symm
  have := k.isLt
  omega

theorem Flushable.takeBlock (flushable : Flushable base frame vol disk) (i : Nat) :
    Flushable base frame (vol.takeBlock i) disk where
  layout := flushable.layout.trans (vol.takeBlock_layout i)
  clean := flushable.clean.of_bit rfl rfl (fun _ away => Function.update_of_ne away ..) rfl
  rootType := flushable.rootType
  rootBlocks := flushable.rootBlocks
  framed := flushable.framed

theorem Flushable.freeBlock (flushable : Flushable base frame vol disk) (block : UInt32) :
    Flushable base frame (freeBlock vol block) disk := by
  unfold DenyFS.freeBlock
  split
  · exact {
      layout := flushable.layout.trans (vol.releaseBlock_layout block.toNat)
      clean := flushable.clean.of_bit rfl rfl (fun _ away => Function.update_of_ne away ..) rfl
      rootType := flushable.rootType
      rootBlocks := flushable.rootBlocks
      framed := flushable.framed }
  · exact flushable

/-- The inode table is not part of the bitmap; only the root directory's blocks matter. -/
theorem Flushable.setInode (flushable : Flushable base frame vol disk) {ino : Fin 64} {inode : Inode}
    (root : ino = 0 → inode.type = itypeDir ∧
      ∀ i, inode.direct i = invalidBlock ∨ base.InData (inode.direct i)) :
    Flushable base frame (vol.setInode ino inode) disk := by
  have clean : (vol.setInode ino inode).Clean disk := flushable.clean
  by_cases isRoot : ino = 0
  · subst isRoot
    have self : (vol.setInode 0 inode).inodes 0 = inode := by
      rw [Volume.setInode_inodes, Function.update_self]
    refine ⟨flushable.layout, clean, ?_, ?_, flushable.framed⟩
    · rw [self]
      exact (root rfl).1
    · rw [self]
      exact (root rfl).2
  · have self : (vol.setInode ino inode).inodes 0 = vol.inodes 0 :=
      Function.update_of_ne (Ne.symm isRoot) ..
    refine ⟨flushable.layout, clean, ?_, ?_, flushable.framed⟩
    · rw [self]
      exact flushable.rootType
    · rw [self]
      exact flushable.rootBlocks

/-- Blocks of the data region are not part of the metadata. -/
theorem Flushable.write (flushable : Flushable base frame vol disk) (fixed : Region base count frame)
    {block : UInt32} (inData : base.InData block) (data : Sector) :
    Flushable base frame vol (Function.update disk block data) where
  layout := flushable.layout
  clean := by
    intro i small notDirty
    rw [Function.update_of_ne, flushable.clean i small notDirty]
    rintro rfl
    have layout := fixed.layout.of_same flushable.layout
    have place := layout.bitmapStart_add small
    have region := fixed.layout.dataStart
    have blocks := flushable.layout.bitmapBlocks
    rw [blocks] at small
    have start := UInt32.le_iff_toNat_le.1 inData
    omega
  rootType := flushable.rootType
  rootBlocks := flushable.rootBlocks
  framed := fixed.closed _ _ _ inData flushable.framed

theorem Flushable.inodeCounts (flushable : Flushable base frame vol disk) (freeInodes : UInt32) :
    Flushable base frame { vol with sb := { vol.sb with freeInodes } } disk where
  layout := by
    have same : base.SameLayout vol.sb := flushable.layout
    exact same.trans rfl
  clean := flushable.clean
  rootType := flushable.rootType
  rootBlocks := flushable.rootBlocks
  framed := flushable.framed

/-- A mapped block that passed the bitmap check lies in the data region. -/
theorem Flushable.inData_of_allocated (flushable : Flushable base frame vol disk) {block : UInt32}
    (inUse : vol.allocated block) : base.InData block := by
  have start := inUse.1
  rwa [flushable.layout.dataStart] at start

/-- The block a first-fit search returns lies in the data region. -/
theorem Flushable.allocBlock (flushable : Flushable base frame vol disk) :
    Flushable base frame (allocBlock vol).2 disk ∧
      (0 ≤ (allocBlock vol).1 → base.InData (UInt32.ofNat (allocBlock vol).1.toNat)) := by
  unfold DenyFS.allocBlock
  split
  next i found =>
    refine ⟨flushable.takeBlock i, fun positive => ?_⟩
    have member := List.mem_of_find?_eq_some found
    rw [List.mem_range'_1] at member
    have start := congrArg UInt32.toNat flushable.layout.dataStart
    have small := vol.sb.totalBlocks.toNat_lt
    rw [Superblock.InData, UInt32.le_iff_toNat_le]
    dsimp only at positive ⊢
    have value : (UInt32.ofNat i).toInt32.toInt = (i : Int) ∨
        (UInt32.ofNat i).toInt32.toInt < 0 := by
      have bits : (UInt32.ofNat i).toInt32.toInt = (UInt32.ofNat i).toBitVec.toInt := rfl
      have length : (UInt32.ofNat i).toBitVec.toNat = i := UInt32.toNat_ofNat_of_lt' (by
        simp only [UInt32.size]
        omega)
      rw [bits, BitVec.toInt_eq_toNat_cond, length]
      split <;> omega
    rcases value with same | negative
    · rw [same, Int.toNat_natCast, UInt32.toNat_ofNat']
      omega
    · omega
  · refine ⟨flushable, fun positive => ?_⟩
    simp at positive

/-! ## The operations

Each lemma follows its program; what a program returns matters only where a later write goes
to it. -/

section Operations

variable {δ : Type} {device : Device δ UInt32 Sector Errno} {inside : UInt32 → Prop}
  {sound : δ → Prop} {view : δ → Blocks}

/-- The program keeps `Flushable` on whatever store of blocks it runs. -/
abbrev KeepsFlushable {α : Type} (device : Device δ UInt32 Sector Errno) (sound : δ → Prop)
    (view : δ → Blocks) (base : Superblock) (frame : Blocks → Prop) (program : Op α) (post : α → Prop) : Prop :=
  Keeps device sound view (Flushable base frame) program post

variable (storage : Storage device inside sound view) (fixed : Region base count frame)
include storage

theorem keeps_readPointerTable (table : UInt32) :
    KeepsFlushable device sound view base frame (readPointerTable table) fun _ => base.InData table := by
  refine Keeps.get_bind fun vol disk flushable => ?_
  split
  · exact Keeps.throw _
  next inUse =>
    have inData := flushable.inData_of_allocated (not_not.1 inUse)
    exact (Keeps.readAt storage table).bind fun data _ => Keeps.pure inData

omit storage in
theorem keeps_checkMapped (block : UInt32) :
    KeepsFlushable device sound view base frame (checkMapped block) fun block =>
      block ≠ invalidBlock → base.InData block := by
  refine Keeps.get_bind fun vol disk flushable => ?_
  split
  · exact Keeps.throw _
  next mapped =>
    refine Keeps.pure fun present => ?_
    rw [not_and, not_not] at mapped
    exact flushable.inData_of_allocated (mapped present)

theorem keeps_getFileDataBlock (inode : Inode) (logicalBlock : Nat) :
    KeepsFlushable device sound view base frame (getFileDataBlock inode logicalBlock) fun block =>
      block ≠ invalidBlock → base.InData block := by
  have hole : KeepsFlushable device sound view base frame (pure invalidBlock) fun block =>
      block ≠ invalidBlock → base.InData block := Keeps.pure fun present => absurd rfl present
  unfold getFileDataBlock
  split
  · exact Keeps.throw _
  split
  · exact keeps_checkMapped _
  split
  · split
    · exact hole
    · exact ((keeps_readPointerTable storage _).elseThrow _).bind fun pointers _ =>
        keeps_checkMapped _
  · split
    · exact hole
    · refine ((keeps_readPointerTable storage _).elseThrow _).bind fun roots _ => ?_
      dsimp only
      split
      · exact hole
      · exact ((keeps_readPointerTable storage _).elseThrow _).bind fun pointers _ =>
          keeps_checkMapped _

include fixed

theorem keeps_writeBlock {block : UInt32} (inData : base.InData block) (data : Sector) :
    KeepsFlushable device sound view base frame (writeBlock block data) fun _ => True :=
  Keeps.writeAt storage fun _ _ flushable => flushable.write fixed inData data

theorem keeps_allocateFilled (contents : Sector) :
    KeepsFlushable device sound view base frame (allocateFilled contents) base.InData := by
  have allocates : KeepsFlushable device sound view base frame (modifyGet allocBlock) fun block =>
      0 ≤ block → base.InData (UInt32.ofNat block.toNat) :=
    Keeps.modifyGet fun _ _ flushable => flushable.allocBlock
  refine allocates.bind fun block inData => ?_
  split
  · exact Keeps.throw _
  next positive =>
    have inData := inData (Int.not_lt.1 positive)
    exact (((keeps_writeBlock storage fixed inData contents).elseThrow _).rollback
      fun _ _ flushable => flushable.freeBlock _).bind fun _ _ => Keeps.pure inData

omit storage fixed in
theorem keeps_modifyInode {ino : Fin 64} {f : Inode → Inode} (root : ino = 0 →
    ∀ inode : Inode, (f inode).type = inode.type ∧
      ∀ i, (f inode).direct i = inode.direct i ∨ (f inode).direct i = invalidBlock ∨
        base.InData ((f inode).direct i)) :
    KeepsFlushable device sound view base frame (modifyInode ino f) fun _ => True := by
  refine Keeps.modify (fun vol disk flushable => flushable.setInode fun isRoot => ?_) trivial
  subst isRoot
  obtain ⟨type, direct⟩ := root rfl (vol.inodes 0)
  refine ⟨type.trans flushable.rootType, fun i => ?_⟩
  rcases direct i with same | ok
  · rw [same]
    exact flushable.rootBlocks i
  · exact ok

theorem keeps_tableOrNew (block : UInt32) {undo : Volume → Volume}
    (undoes : ∀ vol disk, Flushable base frame vol disk → Flushable base frame (undo vol) disk) :
    KeepsFlushable device sound view base frame (tableOrNew block undo) fun result =>
      (result.2 = true → base.InData result.1) ∧ (result.2 = false → result.1 = block) := by
  unfold tableOrNew
  split
  · refine ((keeps_allocateFilled storage fixed _).rollback undoes).bind fun table inData => ?_
    exact Keeps.pure ⟨fun _ => inData, fun old => (nomatch old)⟩
  · exact Keeps.pure ⟨fun new => (nomatch new), fun _ => rfl⟩

omit fixed in
theorem keeps_pointersOf (table : UInt32) (fresh : Bool) {undo : Volume → Volume}
    (undoes : ∀ vol disk, Flushable base frame vol disk → Flushable base frame (undo vol) disk) :
    KeepsFlushable device sound view base frame (pointersOf table fresh undo) fun _ =>
      fresh = false → base.InData table := by
  unfold pointersOf
  split
  next new => exact Keeps.pure fun old => by rw [new] at old; cases old
  · exact (((keeps_readPointerTable storage table).elseThrow _).rollback undoes).mono
      fun _ inData _ => inData

theorem keeps_storePointers {table : UInt32} (inData : base.InData table) (pointers : Pointers)
    {undo : Volume → Volume}
    (undoes : ∀ vol disk, Flushable base frame vol disk → Flushable base frame (undo vol) disk) :
    KeepsFlushable device sound view base frame (storePointers table pointers undo) fun _ => True :=
  ((keeps_writeBlock storage fixed inData _).elseThrow _).rollback undoes

theorem keeps_mapSingle (ino : Fin 64) (i : Fin 1024) (dataBlock : UInt32) :
    KeepsFlushable device sound view base frame (mapSingle ino i dataBlock) fun _ => True := by
  refine Keeps.get_bind fun vol _ _ => ?_
  have undoes : ∀ vol disk, Flushable base frame vol disk →
      Flushable base frame (freeBlock vol dataBlock) disk :=
    fun _ _ flushable => flushable.freeBlock dataBlock
  refine (keeps_tableOrNew storage fixed _ undoes).bind fun table known => ?_
  obtain ⟨tableBlock, newTable⟩ := table
  refine (keeps_pointersOf storage tableBlock newTable undoes).bind fun pointers read => ?_
  have inData : base.InData tableBlock := by
    cases newTable with
    | true => exact known.1 rfl
    | false => exact read rfl
  refine (keeps_storePointers storage fixed inData _ fun vol disk flushable => ?_).bind
    fun _ _ => ?_
  · split
    · exact (undoes vol disk flushable).freeBlock tableBlock
    · exact undoes vol disk flushable
  · exact Keeps.when trivial fun _ =>
      keeps_modifyInode fun _ inode => ⟨rfl, fun _ => .inl rfl⟩

theorem keeps_mapDouble (ino : Fin 64) (outer inner : Fin 1024) (dataBlock : UInt32) :
    KeepsFlushable device sound view base frame (mapDouble ino outer inner dataBlock) fun _ => True := by
  refine Keeps.get_bind fun vol _ _ => ?_
  have undoes : ∀ vol disk, Flushable base frame vol disk →
      Flushable base frame (freeBlock vol dataBlock) disk :=
    fun _ _ flushable => flushable.freeBlock dataBlock
  refine (keeps_tableOrNew storage fixed _ undoes).bind fun root knownRoot => ?_
  obtain ⟨rootBlock, newRoot⟩ := root
  have undoesRoot : ∀ vol disk, Flushable base frame vol disk → Flushable base frame
      (if newRoot = true then freeBlock (freeBlock vol dataBlock) rootBlock
        else freeBlock vol dataBlock) disk := by
    intro vol disk flushable
    split
    · exact (undoes vol disk flushable).freeBlock rootBlock
    · exact undoes vol disk flushable
  refine (keeps_pointersOf storage rootBlock newRoot undoes).bind fun roots readRoot => ?_
  have rootInData : base.InData rootBlock := by
    cases newRoot with
    | true => exact knownRoot.1 rfl
    | false => exact readRoot rfl
  refine (keeps_tableOrNew storage fixed _ undoesRoot).bind fun child knownChild => ?_
  obtain ⟨childBlock, newChild⟩ := child
  refine (keeps_pointersOf storage childBlock newChild undoesRoot).bind fun pointers readChild => ?_
  have childInData : base.InData childBlock := by
    cases newChild with
    | true => exact knownChild.1 rfl
    | false => exact readChild rfl
  have undoesChild : ∀ vol disk, Flushable base frame vol disk → Flushable base frame
      (if newRoot = true then freeBlock (freeBlock (freeBlock vol dataBlock) childBlock) rootBlock
        else freeBlock (freeBlock vol dataBlock) childBlock) disk := by
    intro vol disk flushable
    split
    · exact ((undoes vol disk flushable).freeBlock childBlock).freeBlock rootBlock
    · exact (undoes vol disk flushable).freeBlock childBlock
  refine (keeps_storePointers storage fixed childInData _ fun vol disk flushable => ?_).bind
    fun _ _ => ?_
  · cases newChild with
    | true => exact undoesChild vol disk flushable
    | false => exact undoesRoot vol disk flushable
  have links : KeepsFlushable device sound view base frame (Prog.when (newChild = true)
      (storePointers rootBlock (Function.update roots outer childBlock) fun vol =>
        if newRoot then freeBlock (freeBlock (freeBlock vol dataBlock) childBlock) rootBlock
        else freeBlock (freeBlock vol dataBlock) childBlock)) fun _ => True :=
    Keeps.when trivial fun _ => keeps_storePointers storage fixed rootInData _ undoesChild
  refine links.bind fun _ _ => ?_
  exact Keeps.when trivial fun _ => keeps_modifyInode fun _ inode => ⟨rfl, fun _ => .inl rfl⟩

theorem keeps_mapBlock (ino : Fin 64) (logicalBlock : Nat) {dataBlock : UInt32}
    (inData : base.InData dataBlock) :
    KeepsFlushable device sound view base frame (mapBlock ino logicalBlock dataBlock)
      fun _ => True := by
  unfold mapBlock
  split
  · refine keeps_modifyInode fun _ inode => ⟨rfl, fun i => ?_⟩
    by_cases same : i = Fin.ofNat 20 logicalBlock
    · subst same
      refine .inr (.inr ?_)
      dsimp only
      rwa [Function.update_self]
    · exact .inl (Function.update_of_ne same ..)
  split
  · exact keeps_mapSingle storage fixed ino _ dataBlock
  · exact keeps_mapDouble storage fixed ino _ _ dataBlock

theorem keeps_allocateFileDataBlock (ino : Fin 64) (logicalBlock : Nat) :
    KeepsFlushable device sound view base frame (allocateFileDataBlock ino logicalBlock)
      base.InData := by
  refine Keeps.get_bind fun vol _ _ => ?_
  refine (keeps_getFileDataBlock storage _ logicalBlock).bind fun existing mapped => ?_
  split
  next present => exact Keeps.pure (mapped present)
  · refine (keeps_allocateFilled storage fixed _).bind fun dataBlock inData => ?_
    refine (keeps_mapBlock storage fixed ino logicalBlock inData).bind fun _ _ => ?_
    have counts : KeepsFlushable device sound view base frame (modifyInode ino fun inode =>
        { inode with blockCount := inode.blockCount + 1 }) fun _ => True :=
      keeps_modifyInode fun _ inode => ⟨rfl, fun _ => .inl rfl⟩
    exact counts.bind fun _ _ => Keeps.pure inData

/-! ### Releasing blocks -/

omit storage fixed in
theorem Flushable.foldl {α : Type} {step : Volume → α → Volume} {steps : List α}
    (kept : ∀ vol disk a, Flushable base frame vol disk → Flushable base frame (step vol a) disk)
    (flushable : Flushable base frame vol disk) : Flushable base frame (steps.foldl step vol) disk := by
  induction steps generalizing vol with
  | nil => exact flushable
  | cons a rest ih => exact ih (kept vol disk a flushable)

omit storage fixed in
/-- Dropping a direct pointer keeps the root directory's pointers in the data region. -/
theorem Flushable.dropDirect (flushable : Flushable base frame vol disk) (ino : Fin 64) (i : Fin 20)
    (blockCount : UInt32) : Flushable base frame
      ((DenyFS.freeBlock vol ((vol.inodes ino).direct i)).setInode ino
        { vol.inodes ino with
          direct := Function.update (vol.inodes ino).direct i invalidBlock, blockCount }) disk := by
  refine (flushable.freeBlock _).setInode fun isRoot => ?_
  subst isRoot
  refine ⟨flushable.rootType, fun j => ?_⟩
  dsimp only
  by_cases same : j = i
  · subst same
    exact .inl (Function.update_self ..)
  · rw [Function.update_of_ne same]
    exact flushable.rootBlocks j

omit storage fixed in
theorem Flushable.recountInode (flushable : Flushable base frame vol disk) (ino : Fin 64)
    (blockCount : UInt32) :
    Flushable base frame (vol.setInode ino { vol.inodes ino with blockCount }) disk := by
  refine flushable.setInode fun isRoot => ?_
  subst isRoot
  exact ⟨flushable.rootType, flushable.rootBlocks⟩

omit storage fixed in
theorem keeps_prunePointers (ino : Fin 64) (start newBlockCount : Nat) (pointers : Pointers) :
    KeepsFlushable device sound view base frame (prunePointers ino start newBlockCount pointers)
      fun _ => True := by
  have loop : ∀ (disk : Blocks) (indices : List (Fin 1024)) (s : Pruning),
      Flushable base frame s.vol disk →
      Flushable base frame (indices.foldl (prunePointerAt ino start newBlockCount) s).vol disk := by
    intro disk indices
    induction indices with
    | nil => exact fun s flushable => flushable
    | cons i rest ih =>
      intro s flushable
      refine ih _ ?_
      unfold prunePointerAt
      dsimp only
      have dropped : Flushable base frame ((DenyFS.freeBlock s.vol (s.pointers i)).setInode ino
          { (DenyFS.freeBlock s.vol (s.pointers i)).inodes ino with
            blockCount :=
              ((DenyFS.freeBlock s.vol (s.pointers i)).inodes ino).blockCount - 1 }) disk :=
        (flushable.freeBlock _).recountInode ino _
      split <;> split <;> first | exact dropped | exact flushable
  exact Keeps.modifyGet fun vol disk flushable => ⟨loop disk _ _ flushable, trivial⟩

omit storage fixed in
theorem keeps_freeBlock (block : UInt32) :
    KeepsFlushable device sound view base frame (modify fun vol => freeBlock vol block)
      fun _ => True :=
  Keeps.modify (fun _ _ flushable => flushable.freeBlock block) trivial

theorem keeps_truncateChildren (ino : Fin 64) (newBlockCount : Nat) (outers : List (Fin 1024))
    (roots : Pointers) (remaining : Nat) :
    KeepsFlushable device sound view base frame
      (truncateChildren ino newBlockCount outers roots remaining) fun _ => True := by
  induction outers generalizing roots remaining with
  | nil => exact Keeps.pure trivial
  | cons outer rest ih =>
    rw [truncateChildren]
    split
    · exact ih _ _
    · refine ((keeps_readPointerTable storage _).elseThrow _).bind fun pointers inData => ?_
      refine (keeps_prunePointers ino _ newBlockCount pointers).bind fun pruned _ => ?_
      obtain ⟨pointers, remainingChild⟩ := pruned
      dsimp only
      split
      · exact (keeps_freeBlock _).bind fun _ _ => ih _ _
      · exact ((keeps_writeBlock storage fixed inData _).elseThrow _).bind fun _ _ => ih _ _

theorem keeps_truncateSingle (ino : Fin 64) (newBlockCount : Nat) :
    KeepsFlushable device sound view base frame (truncateSingle ino newBlockCount) fun _ => True := by
  refine Keeps.get_bind fun vol _ _ => ?_
  dsimp only
  split
  · exact Keeps.pure trivial
  · refine ((keeps_readPointerTable storage _).elseThrow _).bind fun pointers inData => ?_
    refine (keeps_prunePointers ino _ newBlockCount pointers).bind fun pruned _ => ?_
    obtain ⟨pointers, remaining⟩ := pruned
    dsimp only
    split
    · exact (keeps_freeBlock _).bind fun _ _ =>
        keeps_modifyInode fun _ inode => ⟨rfl, fun _ => .inl rfl⟩
    · exact (keeps_writeBlock storage fixed inData _).elseThrow _

theorem keeps_truncateDouble (ino : Fin 64) (newBlockCount : Nat) :
    KeepsFlushable device sound view base frame (truncateDouble ino newBlockCount) fun _ => True := by
  refine Keeps.get_bind fun vol _ _ => ?_
  dsimp only
  split
  · exact Keeps.pure trivial
  · refine ((keeps_readPointerTable storage _).elseThrow _).bind fun roots inData => ?_
    refine (keeps_truncateChildren storage fixed ino newBlockCount _ roots 0).bind
      fun pruned _ => ?_
    obtain ⟨roots, remaining⟩ := pruned
    dsimp only
    split
    · exact (keeps_freeBlock _).bind fun _ _ =>
        keeps_modifyInode fun _ inode => ⟨rfl, fun _ => .inl rfl⟩
    · exact (keeps_writeBlock storage fixed inData _).elseThrow _

theorem keeps_truncateFileBlocks (ino : Fin 64) (newBlockCount : Nat) :
    KeepsFlushable device sound view base frame (truncateFileBlocks ino newBlockCount)
      fun _ => True := by
  have directs : KeepsFlushable device sound view base frame
      (modify fun vol => (upTo 20).foldl (truncateDirectAt ino newBlockCount) vol)
      fun _ => True := by
    refine Keeps.modify (fun vol disk flushable => flushable.foldl fun vol disk i flushable => ?_)
      trivial
    unfold truncateDirectAt
    dsimp only
    split
    · exact flushable.dropDirect ino i _
    · exact flushable
  exact directs.bind fun _ _ => (keeps_truncateSingle storage fixed ino newBlockCount).bind
    fun _ _ => keeps_truncateDouble storage fixed ino newBlockCount

omit storage fixed in
theorem keeps_freePointers (pointers : Pointers) (block : UInt32) :
    KeepsFlushable device sound view base frame
      (modify fun vol => freeBlock (freePointers pointers vol) block) fun _ => True := by
  refine Keeps.modify (fun vol disk flushable => ?_) trivial
  refine (flushable.foldl fun vol disk i flushable => ?_).freeBlock block
  split
  · exact flushable.freeBlock _
  · exact flushable

omit fixed in
theorem keeps_freeChildren (outers : List (Fin 1024)) (roots : Pointers) :
    KeepsFlushable device sound view base frame (freeChildren outers roots) fun _ => True := by
  induction outers with
  | nil => exact Keeps.pure trivial
  | cons outer rest ih =>
    rw [freeChildren]
    split
    · exact ih
    · exact ((keeps_readPointerTable storage _).elseThrow _).bind fun pointers _ =>
        (keeps_freePointers pointers _).bind fun _ _ => ih

omit fixed in
theorem keeps_freeInode {ino : Fin 64} (notRoot : ino ≠ 0) :
    KeepsFlushable device sound view base frame (freeInode ino) fun _ => True := by
  have inodes : ∀ f : Inode → Inode,
      KeepsFlushable device sound view base frame (modifyInode ino f) fun _ => True :=
    fun f => keeps_modifyInode fun isRoot => absurd isRoot notRoot
  have directs : KeepsFlushable device sound view base frame
      (modify fun vol => (upTo 20).foldl (freeDirectAt ino) vol) fun _ => True := by
    refine Keeps.modify (fun vol disk flushable => flushable.foldl fun vol disk i flushable => ?_)
      trivial
    unfold freeDirectAt
    dsimp only
    split
    · exact flushable.dropDirect ino i _
    · exact flushable
  have single : KeepsFlushable device sound view base frame (freeSingle ino) fun _ => True := by
    refine Keeps.get_bind fun vol _ _ => ?_
    dsimp only
    split
    · exact Keeps.pure trivial
    · exact ((keeps_readPointerTable storage _).elseThrow _).bind fun pointers _ =>
        (keeps_freePointers pointers _).bind fun _ _ => inodes _
  have double : KeepsFlushable device sound view base frame (freeDouble ino) fun _ => True := by
    refine Keeps.get_bind fun vol _ _ => ?_
    dsimp only
    split
    · exact Keeps.pure trivial
    · exact ((keeps_readPointerTable storage _).elseThrow _).bind fun roots _ =>
        (keeps_freeChildren storage _ roots).bind fun _ _ =>
          (keeps_freeBlock _).bind fun _ _ => inodes _
  exact directs.bind fun _ _ => single.bind fun _ _ => double.bind fun _ _ =>
    (inodes _).bind fun _ _ =>
      Keeps.modify (fun _ _ flushable => flushable.inodeCounts _) trivial

end Operations

end DenyFS
