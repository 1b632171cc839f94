import DenyFS.Model.Directory

/-! # Public operations on an open volume

`time(NULL)` is the argument `now`.  A buffer is a list of bytes, whose length is the `size`
of the call. -/

namespace DenyFS

open Packed BlockProgram

/-! ## Flush -/

/-- The in-memory bitmap as the bytes the HMAC covers. -/
def Volume.bitmapImage (vol : Volume) : List UInt8 := (List.range vol.bitmapBytes).map vol.bitmap

/-- `bitmap + i * SECTOR_SIZE` -/
def Volume.bitmapSector (vol : Volume) (i : Nat) : Sector := fun k => vol.bitmap (i * 4096 + k.val)

/-- `(uint8_t *)inodes + i * SECTOR_SIZE` -/
def Volume.inodeSector (vol : Volume) (i : Nat) : Sector :=
  inodesSector fun j => vol.inodes (Fin.ofNat 64 (32 * i + j.val))

def flushBitmap : List Nat → Op Unit
  | [] => return ()
  | i :: rest => do
    let vol ← get
    if vol.bitmapDirty i then do
      (writeBlock (vol.sb.bitmapStart + UInt32.ofNat i) (vol.bitmapSector i)).elseThrow .eperm
      flushBitmap rest
    else flushBitmap rest

def flushInodes : List Nat → Op Unit
  | [] => return ()
  | i :: rest => do
    let vol ← get
    (writeBlock (vol.sb.inodeStart + UInt32.ofNat i) (vol.inodeSector i)).elseThrow .eperm
    flushInodes rest

def volFlush (crypto : Crypto) (mount : Mount) : Op Unit := do
  modify fun vol =>
    { vol with sb := { vol.sb with bitmapHmac := crypto.hmac mount.hmacKey vol.bitmapImage } }
  let vol ← get
  (writeBlock 0 (superblockSector vol.sb)).elseThrow .eperm
  flushBitmap (List.range vol.sb.bitmapBlocks.toNat)
  flushInodes (List.range vol.sb.inodeBlocks.toNat)
  modify fun vol => { vol with bitmapDirty := fun _ => false }

/-- The closing `denyfs_vol_flush(vol) == 0 ? 0 : -EIO` of the operations. -/
def flushOrEio (crypto : Crypto) (mount : Mount) : Op Unit :=
  (volFlush crypto mount).elseThrow .eio

/-! ## Create and unlink -/

def volCreate (crypto : Crypto) (mount : Mount) (now : UInt64) (name : CString) : Op UInt32 := do
  if name.bytes.length = 0 ∨ 251 ≤ name.bytes.length ∨ slash ∈ name.bytes ∨
      name.bytes = [dot] ∨ name.bytes = [dot, dot] then throw .einval
  else do
    match ← (volLookup name).attempt with
    | .ok _ => throw .eexist
    | .error .enoent => do
      match ← modifyGet allocInode with
      | none => throw .enospc
      | some ino => do
        modifyInode ino fun inode =>
          { inode with
            type := itypeFile
            size := 0
            blockCount := 0
            direct := fun _ => invalidBlock
            indirectBlock := invalidBlock
            doubleIndirectBlock := invalidBlock
            mtime := now }
        (addDirent name (UInt32.ofNat ino.val)).rollback fun vol =>
          let vol := vol.setInode ino { vol.inodes ino with type := itypeFree }
          { vol with sb := { vol.sb with freeInodes := vol.sb.freeInodes + 1 } }
        flushOrEio crypto mount
        return UInt32.ofNat ino.val
    | .error error => throw error

def volUnlink (crypto : Crypto) (mount : Mount) (name : CString) : Op Unit := do
  let ino ← (volLookup name).elseThrow .enoent
  removeDirent name
  (freeInode (Fin.ofNat 64 ino.toNat)).elseThrow .eio
  flushOrEio crypto mount

/-! ## Read and write -/

def zeroBytes (n : Nat) : List UInt8 := List.replicate n 0

/-- `n` bytes of a sector from `offset` on. -/
def sliceSector (data : Sector) (offset n : Nat) : List UInt8 :=
  (List.range n).map fun i => data (Fin.ofNat 4096 (offset + i))

/-- `memcpy(data + offset, bytes, length)` -/
def spliceSector (data : Sector) (offset : Nat) (bytes : List UInt8) : Sector := fun k =>
  if offset ≤ k.val ∧ k.val < offset + bytes.length then bytes.getD (k.val - offset) 0 else data k

/-- The bytes one round of the read loop copies; a hole reads as zeros. -/
def readChunk (physicalBlock : UInt32) (offset chunk : Nat) : Op (List UInt8) :=
  if physicalBlock = invalidBlock then return zeroBytes chunk
  else do
    let data ← (readBlock physicalBlock).elseThrow .eio
    return sliceSector data offset chunk

/-- The loop of `denyfs_vol_read`; `fuel` bounds its rounds, each of which reads at least one
byte. -/
def readChunks (inode : Inode) : Nat → Nat → Nat → Op (List UInt8)
  | 0, _, _ => return []
  | fuel + 1, pos, remaining =>
    if remaining = 0 then return []
    else do
      let chunk := min (4096 - pos % 4096) remaining
      let physicalBlock ← getFileDataBlock inode (pos / 4096)
      let bytes ← readChunk physicalBlock (pos % 4096) chunk
      let rest ← readChunks inode fuel (pos + chunk) (remaining - chunk)
      return bytes ++ rest

def volRead (ino : UInt32) (size : Nat) (offset : UInt64) : Op (List UInt8) := do
  if 64 ≤ ino then throw .einval
  else if intMax < size then throw .einval
  else do
    let vol ← get
    let inode := vol.inodes (Fin.ofNat 64 ino.toNat)
    if inode.type ≠ itypeFile then throw .eisdir
    else if inode.size ≤ offset then return []
    else
      let size := min size (inode.size.toNat - offset.toNat)
      readChunks inode size offset.toNat size

/-- The block a round of the write loop stores into, allocated where there is none. -/
def blockForWrite (ino : Fin 64) (logicalBlock : Nat) : Op UInt32 := do
  let vol ← get
  let mapped ← getFileDataBlock (vol.inodes ino) logicalBlock
  if mapped = invalidBlock then allocateFileDataBlock ino logicalBlock else return mapped

/-- The read-modify-write of one round. -/
def writeChunk (physicalBlock : UInt32) (offset : Nat) (bytes : List UInt8) : Op Unit := do
  let data ← (readBlock physicalBlock).elseThrow .eio
  writeBlock physicalBlock (spliceSector data offset bytes)

/-- The loop of `denyfs_vol_write`; `fuel` bounds its rounds, each of which stores at least one
byte. -/
def writeChunks (ino : Fin 64) : Nat → Nat → List UInt8 → Op Unit
  | 0, _, _ => return ()
  | fuel + 1, pos, src =>
    if src = [] then return ()
    else do
      let chunk := min (4096 - pos % 4096) src.length
      let physicalBlock ← blockForWrite ino (pos / 4096)
      writeChunk physicalBlock (pos % 4096) (src.take chunk)
      writeChunks ino fuel (pos + chunk) (src.drop chunk)

def volWrite (crypto : Crypto) (mount : Mount) (now : UInt64) (ino : UInt32) (buf : List UInt8)
    (offset : UInt64) : Op Nat := do
  if 64 ≤ ino then throw .einval
  else if intMax < buf.length then throw .einval
  else do
    let vol ← get
    let i : Fin 64 := Fin.ofNat 64 ino.toNat
    if (vol.inodes i).type ≠ itypeFile then throw .eisdir
    else if maxFileSize < offset.toNat ∨ maxFileSize - offset.toNat < buf.length then throw .enospc
    else do
      writeChunks i buf.length offset.toNat buf
      modifyInode i fun inode =>
        { inode with
          size := if inode.size.toNat < offset.toNat + buf.length then
              UInt64.ofNat (offset.toNat + buf.length) else inode.size
          mtime := now }
      flushOrEio crypto mount
      return buf.length

/-! ## Truncate -/

/-- Clears the bytes of block `tail` from `newSize` on, where the block is mapped. -/
def clearTail (ino : Fin 64) (newSize : Nat) : Op Unit := do
  let vol ← get
  let physicalBlock ← getFileDataBlock (vol.inodes ino) (newSize / 4096)
  if physicalBlock = invalidBlock then return ()
  else do
    let data ← (readBlock physicalBlock).elseThrow .eio
    (writeBlock physicalBlock
      (spliceSector data (newSize % 4096) (zeroBytes (4096 - newSize % 4096)))).elseThrow .eio

/-- What `denyfs_vol_truncate` does first when the file gets shorter. -/
def shrinkFile (ino : Fin 64) (newSize : Nat) : Op Unit := do
  Prog.when (newSize % 4096 ≠ 0) (clearTail ino newSize)
  (truncateFileBlocks ino ((newSize + 4095) / 4096)).elseThrow .eio

def volTruncate (crypto : Crypto) (mount : Mount) (now : UInt64) (ino : UInt32)
    (newSize : UInt64) : Op Unit := do
  if 64 ≤ ino then throw .einval
  else do
    let vol ← get
    let i : Fin 64 := Fin.ofNat 64 ino.toNat
    let inode := vol.inodes i
    if inode.type ≠ itypeFile then throw .eisdir
    else if maxFileSize < newSize.toNat then throw .enospc
    else if newSize = inode.size then return ()
    else do
      Prog.when (newSize < inode.size) (shrinkFile i newSize.toNat)
      modifyInode i fun inode => { inode with size := newSize, mtime := now }
      flushOrEio crypto mount

end DenyFS
