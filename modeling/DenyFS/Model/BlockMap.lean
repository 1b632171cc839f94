import DenyFS.Model.Types

/-! # Bitmap helpers and the block map of a file

`alloc_block` and `free_block` work on the in-memory bitmap alone; the block map of a file
(20 direct pointers, one single-indirect table, one double-indirect root with child tables)
lives partly in the in-memory inode and partly in tables on disk. -/

namespace DenyFS

open Packed BlockProgram

/-- A filesystem operation: it works on the open volume and asks for blocks. -/
abbrev Op (α : Type) : Type := Prog Volume UInt32 Sector Errno α

abbrev readBlock (block : UInt32) : Op Sector := Prog.readAt block

abbrev writeBlock (block : UInt32) (data : Sector) : Op Unit := Prog.writeAt block data

/-! ## Bitmap helpers -/

/-- `bitmap[i / 8] & (1 << (i % 8))` -/
def bitAt (bitmap : Nat → UInt8) (i : Nat) : Bool :=
  bitmap (i / 8) &&& (1 <<< UInt8.ofNat (i % 8)) != 0

/-- `bitmap[i / 8] |= 1 << (i % 8)` -/
def setBit (bitmap : Nat → UInt8) (i : Nat) : Nat → UInt8 :=
  Function.update bitmap (i / 8) (bitmap (i / 8) ||| (1 <<< UInt8.ofNat (i % 8)))

/-- `bitmap[i / 8] &= ~(1 << (i % 8))` -/
def clearBit (bitmap : Nat → UInt8) (i : Nat) : Nat → UInt8 :=
  Function.update bitmap (i / 8) (bitmap (i / 8) &&& ~~~(1 <<< UInt8.ofNat (i % 8)))

namespace Volume

def bit (vol : Volume) (i : Nat) : Bool := bitAt vol.bitmap i

def markDirty (vol : Volume) (i : Nat) : Nat → Bool :=
  if i / 8 / 4096 < vol.sb.bitmapBlocks.toNat then
    Function.update vol.bitmapDirty (i / 8 / 4096) true
  else vol.bitmapDirty

def takeBlock (vol : Volume) (i : Nat) : Volume :=
  { vol with
    bitmap := setBit vol.bitmap i
    sb := { vol.sb with freeBlocks := vol.sb.freeBlocks - 1 }
    bitmapDirty := vol.markDirty i }

def releaseBlock (vol : Volume) (i : Nat) : Volume :=
  { vol with
    bitmap := clearBit vol.bitmap i
    sb := { vol.sb with freeBlocks := vol.sb.freeBlocks + 1 }
    bitmapDirty := vol.markDirty i }

def setInode (vol : Volume) (ino : Fin 64) (inode : Inode) : Volume :=
  { vol with inodes := Function.update vol.inodes ino inode }

end Volume

/-- First fit from `data_start`; the index is returned as a C `int`. -/
def allocBlock (vol : Volume) : Int × Volume :=
  match (List.range' vol.sb.dataStart.toNat
      (vol.sb.totalBlocks.toNat - vol.sb.dataStart.toNat)).find? fun i => !vol.bit i with
  | some i => ((UInt32.ofNat i).toInt32.toInt, vol.takeBlock i)
  | none => (-1, vol)

def freeBlock (vol : Volume) (block : UInt32) : Volume :=
  if vol.sb.dataStart ≤ block ∧ block < vol.sb.totalBlocks ∧ vol.bit block.toNat then
    vol.releaseBlock block.toNat
  else vol

/-- The common body of `allocate_pointer_table` and `allocate_zeroed_data_block`: take a block
and fill it with `contents`. -/
def allocateFilled (contents : Sector) : Op UInt32 := do
  let block ← modifyGet allocBlock
  if block < 0 then throw .enospc
  else do
    ((writeBlock (UInt32.ofNat block.toNat) contents).elseThrow .eio).rollback
      fun vol => freeBlock vol (UInt32.ofNat block.toNat)
    return UInt32.ofNat block.toNat

/-- `memset(pointers, 0xFF, sizeof(pointers))` -/
def emptyPointers : Pointers := fun _ => invalidBlock

def allocatePointerTable : Op UInt32 := allocateFilled (pointersSector emptyPointers)

def allocateZeroedDataBlock : Op UInt32 := allocateFilled fun _ => 0

/-- The block lies in the data region and its bit is set. -/
def Volume.allocated (vol : Volume) (block : UInt32) : Prop :=
  vol.sb.dataStart ≤ block ∧ block < vol.sb.totalBlocks ∧ vol.bit block.toNat = true

instance (vol : Volume) (block : UInt32) : Decidable (vol.allocated block) :=
  inferInstanceAs (Decidable (_ ∧ _ ∧ _))

def readPointerTable (tableBlock : UInt32) : Op Pointers := do
  let vol ← get
  if ¬vol.allocated tableBlock then throw .eperm
  else do
    let data ← readBlock tableBlock
    return pointersSector.symm data

/-! ## The block map -/

/-- The final check of `get_file_data_block`. -/
def checkMapped (block : UInt32) : Op UInt32 := do
  let vol ← get
  if block ≠ invalidBlock ∧ ¬vol.allocated block then throw .eio
  else return block

def getFileDataBlock (inode : Inode) (logicalBlock : Nat) : Op UInt32 :=
  if maxFileBlocks ≤ logicalBlock then throw .einval
  else if logicalBlock < 20 then checkMapped (inode.direct (Fin.ofNat 20 logicalBlock))
  else if logicalBlock - 20 < 1024 then
    if inode.indirectBlock = invalidBlock then return invalidBlock
    else do
      let pointers ← (readPointerTable inode.indirectBlock).elseThrow .eio
      checkMapped (pointers (Fin.ofNat 1024 (logicalBlock - 20)))
  else
    let index := logicalBlock - 20 - 1024
    if inode.doubleIndirectBlock = invalidBlock then return invalidBlock
    else do
      let roots ← (readPointerTable inode.doubleIndirectBlock).elseThrow .eio
      let childBlock := roots (Fin.ofNat 1024 (index / 1024))
      if childBlock = invalidBlock then return invalidBlock
      else do
        let pointers ← (readPointerTable childBlock).elseThrow .eio
        checkMapped (pointers (Fin.ofNat 1024 (index % 1024)))

def modifyInode (ino : Fin 64) (f : Inode → Inode) : Op Unit :=
  modify fun vol => vol.setInode ino (f (vol.inodes ino))

/-- A pointer table taken from `block`, or a new empty one where there is none. -/
def tableOrNew (block : UInt32) (undo : Volume → Volume) : Op (UInt32 × Bool) :=
  if block = invalidBlock then do
    let table ← allocatePointerTable.rollback undo
    return (table, true)
  else return (block, false)

def pointersOf (table : UInt32) (fresh : Bool) (undo : Volume → Volume) : Op Pointers :=
  if fresh then return emptyPointers
  else ((readPointerTable table).elseThrow .eio).rollback undo

def storePointers (table : UInt32) (pointers : Pointers) (undo : Volume → Volume) : Op Unit :=
  ((writeBlock table (pointersSector pointers)).elseThrow .eio).rollback undo

/-- The first case of `allocate_file_data_block`: a direct pointer. -/
def mapDirect (ino : Fin 64) (i : Fin 20) (dataBlock : UInt32) : Op Unit :=
  modifyInode ino fun inode => { inode with direct := Function.update inode.direct i dataBlock }

/-- The second case: an entry of the single-indirect table, which is created on demand. -/
def mapSingle (ino : Fin 64) (i : Fin 1024) (dataBlock : UInt32) : Op Unit := do
  let vol ← get
  let undoData : Volume → Volume := fun vol => freeBlock vol dataBlock
  let (tableBlock, newTable) ← tableOrNew (vol.inodes ino).indirectBlock undoData
  let pointers ← pointersOf tableBlock newTable undoData
  storePointers tableBlock (Function.update pointers i dataBlock) fun vol =>
    if newTable then freeBlock (undoData vol) tableBlock else undoData vol
  Prog.when (newTable = true) <|
    modifyInode ino fun inode => { inode with indirectBlock := tableBlock }

/-- The third case: an entry of a child of the double-indirect root. -/
def mapDouble (ino : Fin 64) (outer inner : Fin 1024) (dataBlock : UInt32) : Op Unit := do
  let vol ← get
  let undoData : Volume → Volume := fun vol => freeBlock vol dataBlock
  let (rootBlock, newRoot) ← tableOrNew (vol.inodes ino).doubleIndirectBlock undoData
  let undoRoot : Volume → Volume := fun vol =>
    if newRoot then freeBlock (undoData vol) rootBlock else undoData vol
  let roots ← pointersOf rootBlock newRoot undoData
  let (childBlock, newChild) ← tableOrNew (roots outer) undoRoot
  let pointers ← pointersOf childBlock newChild undoRoot
  storePointers childBlock (Function.update pointers inner dataBlock) fun vol =>
    let vol := if newChild then freeBlock (undoData vol) childBlock else undoData vol
    if newRoot then freeBlock vol rootBlock else vol
  Prog.when (newChild = true) <|
    storePointers rootBlock (Function.update roots outer childBlock) fun vol =>
      let vol := freeBlock (undoData vol) childBlock
      if newRoot then freeBlock vol rootBlock else vol
  Prog.when (newRoot = true) <|
    modifyInode ino fun inode => { inode with doubleIndirectBlock := rootBlock }

def mapBlock (ino : Fin 64) (logicalBlock : Nat) (dataBlock : UInt32) : Op Unit :=
  if logicalBlock < 20 then mapDirect ino (Fin.ofNat 20 logicalBlock) dataBlock
  else if logicalBlock - 20 < 1024 then
    mapSingle ino (Fin.ofNat 1024 (logicalBlock - 20)) dataBlock
  else
    mapDouble ino (Fin.ofNat 1024 ((logicalBlock - 20 - 1024) / 1024))
      (Fin.ofNat 1024 ((logicalBlock - 20 - 1024) % 1024)) dataBlock

/-- `allocate_file_data_block`.  Every exit after the data block was taken releases the blocks
taken so far, in the order of the source. -/
def allocateFileDataBlock (ino : Fin 64) (logicalBlock : Nat) : Op UInt32 := do
  let vol ← get
  let existing ← getFileDataBlock (vol.inodes ino) logicalBlock
  if existing ≠ invalidBlock then return existing
  else do
    let dataBlock ← allocateZeroedDataBlock
    mapBlock ino logicalBlock dataBlock
    modifyInode ino fun inode => { inode with blockCount := inode.blockCount + 1 }
    return dataBlock

/-! ## Releasing blocks -/

/-- One step of the direct loop of `truncate_file_blocks`. -/
def truncateDirectAt (ino : Fin 64) (newBlockCount : Nat) (vol : Volume) (i : Fin 20) : Volume :=
  let inode := vol.inodes ino
  if newBlockCount ≤ i.val ∧ inode.direct i ≠ invalidBlock then
    (freeBlock vol (inode.direct i)).setInode ino
      { inode with
        direct := Function.update inode.direct i invalidBlock
        blockCount := inode.blockCount - 1 }
  else vol

/-- What the loop over one pointer table has reached. -/
structure Pruning where
  vol : Volume
  pointers : Pointers
  remaining : Nat

/-- One step of the loop over a pointer table whose first entry maps block `start`. -/
def prunePointerAt (ino : Fin 64) (start newBlockCount : Nat) (s : Pruning) (i : Fin 1024) :
    Pruning :=
  let s : Pruning :=
    if newBlockCount ≤ start + i.val ∧ s.pointers i ≠ invalidBlock then
      let vol := freeBlock s.vol (s.pointers i)
      { s with
        vol := vol.setInode ino
          { vol.inodes ino with blockCount := (vol.inodes ino).blockCount - 1 }
        pointers := Function.update s.pointers i invalidBlock }
    else s
  if s.pointers i ≠ invalidBlock then { s with remaining := s.remaining + 1 } else s

/-- The loop over one pointer table, which `truncate_file_blocks` has for the single-indirect
table and for each child table: the shortened table and how many entries it keeps. -/
def prunePointers (ino : Fin 64) (start newBlockCount : Nat) (pointers : Pointers) :
    Op (Pointers × Nat) :=
  modifyGet fun vol =>
    let s := (upTo 1024).foldl (prunePointerAt ino start newBlockCount)
      ⟨vol, pointers, 0⟩
    ((s.pointers, s.remaining), s.vol)

/-- The loop over the children of the double-indirect root. -/
def truncateChildren (ino : Fin 64) (newBlockCount : Nat) :
    List (Fin 1024) → Pointers → Nat → Op (Pointers × Nat)
  | [], roots, remaining => return (roots, remaining)
  | outer :: rest, roots, remaining =>
    if roots outer = invalidBlock then truncateChildren ino newBlockCount rest roots remaining
    else do
      let pointers ← (readPointerTable (roots outer)).elseThrow .eio
      let (pointers, remainingChild) ←
        prunePointers ino (20 + 1024 + outer.val * 1024) newBlockCount pointers
      if remainingChild = 0 then do
        modify fun vol => freeBlock vol (roots outer)
        truncateChildren ino newBlockCount rest (Function.update roots outer invalidBlock) remaining
      else do
        (writeBlock (roots outer) (pointersSector pointers)).elseThrow .eio
        truncateChildren ino newBlockCount rest roots (remaining + 1)

def truncateSingle (ino : Fin 64) (newBlockCount : Nat) : Op Unit := do
  let vol ← get
  let table := (vol.inodes ino).indirectBlock
  if table = invalidBlock then return ()
  else do
    let pointers ← (readPointerTable table).elseThrow .eio
    let (pointers, remaining) ← prunePointers ino 20 newBlockCount pointers
    if remaining = 0 then do
      modify fun vol => freeBlock vol table
      modifyInode ino fun inode => { inode with indirectBlock := invalidBlock }
    else (writeBlock table (pointersSector pointers)).elseThrow .eio

def truncateDouble (ino : Fin 64) (newBlockCount : Nat) : Op Unit := do
  let vol ← get
  let root := (vol.inodes ino).doubleIndirectBlock
  if root = invalidBlock then return ()
  else do
    let roots ← (readPointerTable root).elseThrow .eio
    let (roots, remaining) ← truncateChildren ino newBlockCount (upTo 1024) roots 0
    if remaining = 0 then do
      modify fun vol => freeBlock vol root
      modifyInode ino fun inode => { inode with doubleIndirectBlock := invalidBlock }
    else (writeBlock root (pointersSector roots)).elseThrow .eio

def truncateFileBlocks (ino : Fin 64) (newBlockCount : Nat) : Op Unit := do
  modify fun vol => (upTo 20).foldl (truncateDirectAt ino newBlockCount) vol
  truncateSingle ino newBlockCount
  truncateDouble ino newBlockCount

/-- One step of the direct loop of `free_inode`. -/
def freeDirectAt (ino : Fin 64) (vol : Volume) (i : Fin 20) : Volume :=
  let inode := vol.inodes ino
  if inode.direct i ≠ invalidBlock then
    (freeBlock vol (inode.direct i)).setInode ino
      { inode with direct := Function.update inode.direct i invalidBlock }
  else vol

/-- `free_block` on every entry of a pointer table. -/
def freePointers (pointers : Pointers) (vol : Volume) : Volume :=
  (upTo 1024).foldl
    (fun vol i => if pointers i ≠ invalidBlock then freeBlock vol (pointers i) else vol) vol

def freeChildren : List (Fin 1024) → Pointers → Op Unit
  | [], _ => return ()
  | outer :: rest, roots =>
    if roots outer = invalidBlock then freeChildren rest roots
    else do
      let pointers ← (readPointerTable (roots outer)).elseThrow .eio
      modify fun vol => freeBlock (freePointers pointers vol) (roots outer)
      freeChildren rest roots

def freeSingle (ino : Fin 64) : Op Unit := do
  let vol ← get
  let table := (vol.inodes ino).indirectBlock
  if table = invalidBlock then return ()
  else do
    let pointers ← (readPointerTable table).elseThrow .eio
    modify fun vol => freeBlock (freePointers pointers vol) table
    modifyInode ino fun inode => { inode with indirectBlock := invalidBlock }

def freeDouble (ino : Fin 64) : Op Unit := do
  let vol ← get
  let root := (vol.inodes ino).doubleIndirectBlock
  if root = invalidBlock then return ()
  else do
    let roots ← (readPointerTable root).elseThrow .eio
    freeChildren (upTo 1024) roots
    modify fun vol => freeBlock vol root
    modifyInode ino fun inode => { inode with doubleIndirectBlock := invalidBlock }

def freeInode (ino : Fin 64) : Op Unit := do
  modify fun vol => (upTo 20).foldl (freeDirectAt ino) vol
  freeSingle ino
  freeDouble ino
  modifyInode ino fun inode =>
    { inode with type := itypeFree, size := 0, blockCount := 0, mtime := 0 }
  modify fun vol => { vol with sb := { vol.sb with freeInodes := vol.sb.freeInodes + 1 } }

end DenyFS
