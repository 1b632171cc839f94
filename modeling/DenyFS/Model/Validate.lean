import DenyFS.Model.Operations

/-! # Checks on loaded metadata

`validate_superblock` and `validate_loaded_metadata`.  The local counters of the validator
count distinct blocks, inodes or entries of one table, all below `2 ^ 32`, so they are
natural numbers here.  Every `goto invalid` is the failure `eperm`, that is `-1`. -/

namespace DenyFS

open Packed BlockProgram

def validateSuperblock (sb : Superblock) (volumeSize : UInt64) : Bool :=
  if volumeSize = 0 ∨ volumeSize % 4096 ≠ 0 then false
  else
    let expectedBlocks := volumeSize.toNat / 4096
    let bitmapBytes := (expectedBlocks + 7) / 8
    let expectedBitmapBlocks := (bitmapBytes + 4095) / 4096
    let expectedInodeStart := 1 + expectedBitmapBlocks
    let expectedDataStart := expectedInodeStart + sb.inodeBlocks.toNat
    if 2 ^ 32 - 1 < expectedBlocks ∨ expectedBlocks < 4 ∨ sb.magic ≠ superblockMagic ∨
        sb.blockSize ≠ 4096 ∨ sb.totalBlocks.toNat ≠ expectedBlocks ∨ sb.inodeCount ≠ 64 ∨
        sb.bitmapStart ≠ 1 ∨ sb.inodeBlocks ≠ 2 then false
    else if 2 ^ 32 - 1 < expectedBitmapBlocks ∨ sb.bitmapBlocks.toNat ≠ expectedBitmapBlocks ∨
        sb.inodeStart.toNat ≠ expectedInodeStart ∨ sb.dataStart.toNat ≠ expectedDataStart ∨
        sb.totalBlocks ≤ sb.dataStart ∨ sb.totalBlocks - sb.dataStart < sb.freeBlocks ∨
        64 ≤ sb.freeInodes then false
    else true

/-- The claim map of the validator and the number of its blocks. -/
structure Claims where
  claimed : Nat → UInt8
  count : Nat

def claimMetadataBlock (vol : Volume) (claims : Claims) (block : UInt32) : Option Claims :=
  if ¬vol.allocated block ∨ vol.bitmapBytes ≤ block.toNat / 8 ∨
      bitAt claims.claimed block.toNat = true then none
  else some { claimed := setBit claims.claimed block.toNat, count := claims.count + 1 }

/-- The direct loop; the count is `actual_file_blocks`, which the root directory leaves alone. -/
def claimDirect (vol : Volume) (ino : Fin 64) (fileBlocks : Nat) :
    List (Fin 20) → Claims × Nat → Option (Claims × Nat)
  | [], state => some state
  | i :: rest, (claims, actual) =>
    let block := (vol.inodes ino).direct i
    if ino = 0 ∧ decide (i.val < (vol.inodes 0).blockCount.toNat) ≠ decide (block ≠ invalidBlock)
    then none
    else if ino ≠ 0 ∧ block ≠ invalidBlock ∧ fileBlocks ≤ i.val then none
    else if block = invalidBlock then claimDirect vol ino fileBlocks rest (claims, actual)
    else match claimMetadataBlock vol claims block with
      | none => none
      | some claims =>
        claimDirect vol ino fileBlocks rest (claims, if ino = 0 then actual else actual + 1)

/-- The loop over a pointer table whose first entry maps block `start`. -/
def claimPointers (vol : Volume) (start fileBlocks : Nat) (pointers : Pointers) :
    List (Fin 1024) → Claims × Nat → Option (Claims × Nat)
  | [], state => some state
  | i :: rest, (claims, entries) =>
    if pointers i = invalidBlock then
      claimPointers vol start fileBlocks pointers rest (claims, entries)
    else if fileBlocks ≤ start + i.val then none
    else match claimMetadataBlock vol claims (pointers i) with
      | none => none
      | some claims => claimPointers vol start fileBlocks pointers rest (claims, entries + 1)

/-- `goto invalid` where a check has no result. -/
def orInvalid {α : Type} : Option α → Op α
  | some value => return value
  | none => throw .eperm

/-- Claims one pointer table and the blocks it maps, and counts the latter. -/
def claimTable (vol : Volume) (fileBlocks start : Nat) (table : UInt32) (claims : Claims) :
    Op (Claims × Nat) := do
  let claims ← orInvalid (claimMetadataBlock vol claims table)
  let pointers ← readPointerTable table
  let (claims, entries) ←
    orInvalid (claimPointers vol start fileBlocks pointers (upTo 1024) (claims, 0))
  if entries = 0 then throw .eperm else return (claims, entries)

/-- The loop over the children of a double-indirect root: the claims, `root_entries` and the
file blocks counted. -/
def claimChildren (vol : Volume) (fileBlocks : Nat) (roots : Pointers) :
    List (Fin 1024) → Claims × Nat × Nat → Op (Claims × Nat × Nat)
  | [], state => return state
  | outer :: rest, (claims, rootEntries, actual) =>
    let logicalStart := 20 + 1024 + outer.val * 1024
    if roots outer = invalidBlock then
      claimChildren vol fileBlocks roots rest (claims, rootEntries, actual)
    else if fileBlocks ≤ logicalStart then throw .eperm
    else do
      let (claims, entries) ← claimTable vol fileBlocks logicalStart (roots outer) claims
      claimChildren vol fileBlocks roots rest (claims, rootEntries + 1, actual + entries)

def claimSingle (vol : Volume) (inode : Inode) (fileBlocks : Nat) (claims : Claims) :
    Op (Claims × Nat) :=
  if inode.indirectBlock = invalidBlock then return (claims, 0)
  else claimTable vol fileBlocks 20 inode.indirectBlock claims

def claimDouble (vol : Volume) (inode : Inode) (fileBlocks : Nat) (claims : Claims) :
    Op (Claims × Nat) :=
  if inode.doubleIndirectBlock = invalidBlock then return (claims, 0)
  else do
    let claims ← orInvalid (claimMetadataBlock vol claims inode.doubleIndirectBlock)
    let roots ← readPointerTable inode.doubleIndirectBlock
    let (claims, rootEntries, actual) ←
      claimChildren vol fileBlocks roots (upTo 1024) (claims, 0, 0)
    if rootEntries = 0 then throw .eperm else return (claims, actual)

/-- An unused inode is blank. -/
def blankInode (inode : Inode) : Bool :=
  inode.size == 0 && inode.blockCount == 0 &&
    (upTo 20).all (fun i => inode.direct i == invalidBlock) &&
    inode.indirectBlock == invalidBlock && inode.doubleIndirectBlock == invalidBlock

/-- One round of the loop over the inodes, with `allocated_inodes`. -/
def validateInode (vol : Volume) (ino : Fin 64) (claims : Claims) (allocatedInodes : Nat) :
    Op (Claims × Nat) :=
  let inode := vol.inodes ino
  if inode.type = itypeFree then
    if ino = 0 ∨ blankInode inode = false then throw .eperm else return (claims, allocatedInodes)
  else if inode.type ≠ (if ino = 0 then itypeDir else itypeFile) ∨
      maxFileSize < inode.size.toNat ∨ maxFileBlocks < inode.blockCount.toNat then throw .eperm
  else do
    let fileBlocks := (inode.size.toNat + 4095) / 4096
    let (claims, direct) ←
      orInvalid (claimDirect vol ino fileBlocks (upTo 20) (claims, 0))
    if ino = 0 then return (claims, allocatedInodes + 1)
    else do
      let (claims, single) ← claimSingle vol inode fileBlocks claims
      let (claims, double) ← claimDouble vol inode fileBlocks claims
      if direct + single + double ≠ inode.blockCount.toNat then throw .eperm
      else return (claims, allocatedInodes + 1)

def validateInodes (vol : Volume) : List (Fin 64) → Claims → Nat → Op (Claims × Nat)
  | [], claims, allocatedInodes => return (claims, allocatedInodes)
  | ino :: rest, claims, allocatedInodes => do
    let (claims, allocatedInodes) ← validateInode vol ino claims allocatedInodes
    validateInodes vol rest claims allocatedInodes

/-- The entries of the directory seen so far. -/
structure Names where
  referenced : Fin 64 → Bool
  names : List (List UInt8)

def collectNames (vol : Volume) (entries : Fin 16 → Dirent) :
    List (Fin 16) → Names → Option Names
  | [], seen => some seen
  | i :: rest, seen =>
    let entry := entries i
    let ino : Fin 64 := Fin.ofNat 64 entry.inode.toNat
    let name := entry.namePrefix entry.nameLen.toNat
    if entry.inode = invalidIno then
      if validDirent entry then collectNames vol entries rest seen else none
    else if validDirent entry = false ∨ (vol.inodes ino).type ≠ itypeFile ∨
        seen.referenced ino = true ∨ 63 ≤ seen.names.length ∨ name ∈ seen.names then none
    else collectNames vol entries rest
      { referenced := Function.update seen.referenced ino true, names := seen.names ++ [name] }

def collectBlocks (vol : Volume) : List UInt32 → Names → Op Names
  | [], seen => return seen
  | block :: rest, seen => do
    let data ← readBlock block
    let seen ← orInvalid (collectNames vol (direntsSector.symm data) (upTo 16) seen)
    collectBlocks vol rest seen

/-- The data region, block by block. -/
def Volume.dataBlocks (vol : Volume) : List Nat :=
  List.range' vol.sb.dataStart.toNat (vol.sb.totalBlocks.toNat - vol.sb.dataStart.toNat)

def validateLoadedMetadata : Op Unit := do
  let vol ← get
  let root := vol.inodes 0
  if root.type ≠ itypeDir ∨ root.size ≠ 0 ∨ root.blockCount = 0 ∨ 20 < root.blockCount ∨
      root.indirectBlock ≠ invalidBlock ∨ root.doubleIndirectBlock ≠ invalidBlock then
    throw .eperm
  else do
    let (claims, allocatedInodes) ←
      validateInodes vol (upTo 64) { claimed := fun _ => 0, count := 0 } 0
    let allocatedDataBlocks := vol.dataBlocks.countP fun block => vol.bit block
    if allocatedInodes = 0 ∨ vol.sb.freeInodes.toNat ≠ 64 - allocatedInodes then throw .eperm
    else if (List.range vol.sb.dataStart.toNat).all (fun block => vol.bit block) = false then
      throw .eperm
    else if allocatedDataBlocks ≠ claims.count ∨ vol.sb.freeBlocks.toNat ≠
        vol.sb.totalBlocks.toNat - vol.sb.dataStart.toNat - allocatedDataBlocks then throw .eperm
    else do
      let seen ← collectBlocks vol (vol.rootBlocks.take root.blockCount.toNat)
        { referenced := fun _ => false, names := [] }
      if (upTo 64).all (fun ino =>
          ino == 0 || ((vol.inodes ino).type == itypeFile) == seen.referenced ino) = false then
        throw .eperm
      else return ()

end DenyFS
