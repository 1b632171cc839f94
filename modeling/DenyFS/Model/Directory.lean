import DenyFS.Model.BlockMap

/-! # The root directory and the inode table

Directory entries stand in up to 20 blocks, 16 to a block.  Every scan checks each entry it
passes with `valid_dirent` before it looks at it. -/

namespace DenyFS

open Packed BlockProgram

/-- A C string: the bytes before its terminating NUL. -/
structure CString where
  bytes : List UInt8
  noNul : (0 : UInt8) ∉ bytes
  deriving DecidableEq

def slash : UInt8 := 47
def dot : UInt8 := 46

namespace Dirent

def nameAt (entry : Dirent) (i : Nat) : UInt8 := entry.name (Fin.ofNat 251 i)

/-- The first `n` bytes of the name field. -/
def namePrefix (entry : Dirent) (n : Nat) : List UInt8 := (List.ofFn entry.name).take n

/-- The name field read as a C string. -/
def cName (entry : Dirent) : List UInt8 := (List.ofFn entry.name).takeWhile fun byte => byte ≠ 0

/-- A zeroed name field with `name` copied to its front. -/
def withName (entry : Dirent) (ino : UInt32) (name : List UInt8) : Dirent :=
  { entry with
    inode := ino
    nameLen := UInt8.ofNat name.length
    name := fun i => name.getD i.val 0 }

def cleared (entry : Dirent) : Dirent :=
  { entry with inode := invalidIno, nameLen := 0, name := fun _ => 0 }

end Dirent

/-- An unused entry of a block that `add_dirent` or `format_volume` sets up. -/
def emptyDirent : Dirent := { inode := invalidIno, nameLen := 0, name := fun _ => 0 }

def validDirent (entry : Dirent) : Bool :=
  if entry.inode = invalidIno then entry.nameLen == 0
  else if entry.inode = 0 ∨ 64 ≤ entry.inode ∨ entry.nameLen = 0 ∨ 251 ≤ entry.nameLen ∨
      entry.nameAt entry.nameLen.toNat ≠ 0 then false
  else if (List.range entry.nameLen.toNat).any fun i =>
      entry.nameAt i == 0 || entry.nameAt i == slash then false
  else !((entry.nameLen == 1 && entry.nameAt 0 == dot) ||
    (entry.nameLen == 2 && entry.nameAt 0 == dot && entry.nameAt 1 == dot))

/-- The inner loop of every directory scan. -/
def scanEntries (wanted : Dirent → Bool) (entries : Fin 16 → Dirent) :
    List (Fin 16) → Except Errno (Option (Fin 16))
  | [] => .ok none
  | i :: rest =>
    if !validDirent (entries i) then .error .eio
    else if wanted (entries i) then .ok (some i)
    else scanEntries wanted entries rest

/-- Where a directory scan stopped: the block, its contents and the entry. -/
structure DirentPosition where
  block : UInt32
  entries : Fin 16 → Dirent
  index : Fin 16

/-- Reads one directory block and scans its entries. -/
def findInBlock (wanted : Dirent → Bool) (block : UInt32) : Op (Option DirentPosition) := do
  let data ← (readBlock block).elseThrow .eio
  let entries := direntsSector.symm data
  match scanEntries wanted entries (upTo 16) with
  | .error error => throw error
  | .ok found => return found.map fun index => ⟨block, entries, index⟩

/-- The outer loop of the directory scans.  `add_dirent` stops at the first missing block,
the others pass over it. -/
def findDirent (stopAtHole : Bool) (wanted : Dirent → Bool) :
    List UInt32 → Op (Option DirentPosition)
  | [] => return none
  | block :: rest =>
    if block = invalidBlock then
      if stopAtHole then return none else findDirent stopAtHole wanted rest
    else do
      match ← findInBlock wanted block with
      | some position => return some position
      | none => findDirent stopAtHole wanted rest

def Volume.rootBlocks (vol : Volume) : List UInt32 := List.ofFn (vol.inodes 0).direct

/-- `memcmp(entry->name, name, name_len) == 0` for an entry in use whose length fits. -/
def lookupMatches (name : List UInt8) (entry : Dirent) : Bool :=
  entry.inode != invalidIno && entry.nameLen == UInt8.ofNat name.length &&
    entry.namePrefix name.length == name

def removeMatches (name : List UInt8) (entry : Dirent) : Bool :=
  entry.inode != invalidIno && entry.nameLen.toNat == name.length &&
    entry.namePrefix name.length == name

def volLookup (name : CString) : Op UInt32 := do
  if name.bytes.length = 0 ∨ 251 ≤ name.bytes.length then throw .einval
  else do
    let vol ← get
    match ← findDirent false (lookupMatches name.bytes) vol.rootBlocks with
    | some position => return (position.entries position.index).inode
    | none => throw .enoent

def addDirent (name : CString) (ino : UInt32) : Op Unit := do
  if name.bytes.length = 0 ∨ 251 ≤ name.bytes.length then throw .enametoolong
  else do
    let vol ← get
    match ← findDirent true (fun entry => entry.inode == invalidIno) vol.rootBlocks with
    | some position =>
      writeBlock position.block (direntsSector (Function.update position.entries position.index
        ((position.entries position.index).withName ino name.bytes)))
    | none =>
      if 20 ≤ (vol.inodes 0).blockCount then throw .enospc
      else do
        let block ← modifyGet allocBlock
        if block < 0 then throw .enospc
        else do
          let entries : Fin 16 → Dirent := fun i =>
            if i = 0 then emptyDirent.withName ino name.bytes else emptyDirent
          modifyInode 0 fun root =>
            { root with
              direct := Function.update root.direct (Fin.ofNat 20 root.blockCount.toNat)
                (UInt32.ofNat block.toNat)
              blockCount := root.blockCount + 1 }
          writeBlock (UInt32.ofNat block.toNat) (direntsSector entries)

def removeDirent (name : CString) : Op Unit := do
  let vol ← get
  match ← findDirent false (removeMatches name.bytes) vol.rootBlocks with
  | some position =>
    writeBlock position.block (direntsSector (Function.update position.entries position.index
      (position.entries position.index).cleared))
  | none => throw .enoent

/-- The callback of `denyfs_vol_readdir` on the entries of one block: the new state of its user
data, and whether it asked to stop. -/
def readdirEntries {τ : Type} (cb : τ → List UInt8 → UInt32 → τ × Bool)
    (entries : Fin 16 → Dirent) : List (Fin 16) → τ → Except Errno (τ × Bool)
  | [], userdata => .ok (userdata, false)
  | i :: rest, userdata =>
    if !validDirent (entries i) then .error .eio
    else if (entries i).inode ≠ invalidIno then
      match cb userdata (entries i).cName (entries i).inode with
      | (userdata, true) => .ok (userdata, true)
      | (userdata, false) => readdirEntries cb entries rest userdata
    else readdirEntries cb entries rest userdata

/-- The callbacks on the entries of one directory block. -/
def readdirBlock {τ : Type} (cb : τ → List UInt8 → UInt32 → τ × Bool) (block : UInt32)
    (userdata : τ) : Op (τ × Bool) := do
  let data ← (readBlock block).elseThrow .eio
  match readdirEntries cb (direntsSector.symm data) (upTo 16) userdata with
  | .error error => throw error
  | .ok outcome => return outcome

def readdirBlocks {τ : Type} (cb : τ → List UInt8 → UInt32 → τ × Bool) :
    List UInt32 → τ → Op τ
  | [], userdata => return userdata
  | block :: rest, userdata =>
    if block = invalidBlock then readdirBlocks cb rest userdata
    else do
      let (userdata, stop) ← readdirBlock cb block userdata
      if stop then return userdata else readdirBlocks cb rest userdata

def volReaddir {τ : Type} (cb : τ → List UInt8 → UInt32 → τ × Bool) (userdata : τ) : Op τ := do
  let vol ← get
  readdirBlocks cb vol.rootBlocks userdata

/-- Inode 0 is the root directory, so the search starts at 1. -/
def allocInode (vol : Volume) : Option (Fin 64) × Volume :=
  match (upTo 64).find? fun i => i != 0 && (vol.inodes i).type == itypeFree with
  | some i => (some i, { vol with sb := { vol.sb with freeInodes := vol.sb.freeInodes - 1 } })
  | none => (none, vol)

end DenyFS
