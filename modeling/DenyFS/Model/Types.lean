import DenyFS.Library.BlockProgram
import DenyFS.Library.Packed
import Mathlib.Data.List.FinRange

/-! # Data model of `fs.h`

The on-disk records of a DenyFS volume and the state of an open one.  Every record is packed,
so its layout is an equivalence with its bytes; block numbers and counters keep the widths
the source gives them.  A sector is `SECTOR_SIZE = 4096` bytes. -/

namespace DenyFS

open Packed

abbrev Sector : Type := Bytes 4096

/-! The lengths of the arrays that are indexed by numbers. -/

instance neZeroEntries : NeZero 16 := ⟨by decide⟩
instance neZeroDirect : NeZero 20 := ⟨by decide⟩
instance neZeroPerSector : NeZero 32 := ⟨by decide⟩
instance neZeroInodes : NeZero 64 := ⟨by decide⟩
instance neZeroPointers : NeZero 1024 := ⟨by decide⟩
instance neZeroSector : NeZero 4096 := ⟨by decide⟩

/-- The errno values the filesystem returns; a plain `-1` is `eperm`. -/
inductive Errno where
  | eperm | enoent | eio | eacces | eexist | eisdir | einval | enospc | enametoolong
  deriving DecidableEq, Repr

def superblockMagic : UInt64 := 0x44656e7946533033
def headerMagic : UInt64 := 0x44656e7946533031
def invalidIno : UInt32 := 0xFFFFFFFF
def invalidBlock : UInt32 := 0xFFFFFFFF

def itypeFree : UInt32 := 0
def itypeFile : UInt32 := 1
def itypeDir : UInt32 := 2

def maxFileBlocks : Nat := 20 + 1024 + 1024 * 1024
def maxFileSize : Nat := 4 * 1024 * 1024 * 1024
def intMax : Nat := 2 ^ 31 - 1
def longMax : Nat := 2 ^ 63 - 1

/-- The indices of a loop `for (i = 0; i < n; i++)`. -/
@[irreducible] def upTo (n : Nat) : List (Fin n) := List.finRange n

theorem upTo_eq (n : Nat) : upTo n = List.finRange n := by
  unfold upTo
  rfl

/-- `denyfs_superblock_t`, volume block 0. -/
structure Superblock where
  magic : UInt64
  blockSize : UInt32
  totalBlocks : UInt32
  inodeCount : UInt32
  bitmapStart : UInt32
  bitmapBlocks : UInt32
  inodeStart : UInt32
  inodeBlocks : UInt32
  dataStart : UInt32
  freeBlocks : UInt32
  freeInodes : UInt32
  bitmapHmac : Bytes 32
  reserved : Bytes 4016

/-- `denyfs_inode_t`, 128 bytes. -/
structure Inode where
  type : UInt32
  size : UInt64
  blockCount : UInt32
  direct : Fin 20 → UInt32
  indirectBlock : UInt32
  doubleIndirectBlock : UInt32
  mtime : UInt64
  reserved : Bytes 16

/-- `denyfs_dirent_t`, 256 bytes. -/
structure Dirent where
  inode : UInt32
  nameLen : UInt8
  name : Bytes 251

/-- A pointer table: `DENYFS_POINTERS_PER_BLOCK = 1024` block numbers. -/
abbrev Pointers : Type := Fin 1024 → UInt32

/-! ## Layouts -/

def superblockFields : Superblock ≃ UInt64 × UInt32 × UInt32 × UInt32 × UInt32 × UInt32 ×
    UInt32 × UInt32 × UInt32 × UInt32 × UInt32 × Bytes 32 × Bytes 4016 where
  toFun sb := (sb.magic, sb.blockSize, sb.totalBlocks, sb.inodeCount, sb.bitmapStart,
    sb.bitmapBlocks, sb.inodeStart, sb.inodeBlocks, sb.dataStart, sb.freeBlocks,
    sb.freeInodes, sb.bitmapHmac, sb.reserved)
  invFun
    | (magic, blockSize, totalBlocks, inodeCount, bitmapStart, bitmapBlocks, inodeStart,
        inodeBlocks, dataStart, freeBlocks, freeInodes, bitmapHmac, reserved) =>
      { magic, blockSize, totalBlocks, inodeCount, bitmapStart, bitmapBlocks, inodeStart,
        inodeBlocks, dataStart, freeBlocks, freeInodes, bitmapHmac, reserved }
  left_inv _ := rfl
  right_inv _ := rfl

@[irreducible] def superblockSector : Superblock ≃ Sector :=
  superblockFields.trans (pair u64 (pair u32 (pair u32 (pair u32 (pair u32 (pair u32
    (pair u32 (pair u32 (pair u32 (pair u32 (pair u32 (pair (raw 32) (raw 4016)))))))))))))

def inodeFields : Inode ≃ UInt32 × UInt64 × UInt32 × (Fin 20 → UInt32) × UInt32 × UInt32 ×
    UInt64 × Bytes 16 where
  toFun inode := (inode.type, inode.size, inode.blockCount, inode.direct, inode.indirectBlock,
    inode.doubleIndirectBlock, inode.mtime, inode.reserved)
  invFun
    | (type, size, blockCount, direct, indirectBlock, doubleIndirectBlock, mtime, reserved) =>
      { type, size, blockCount, direct, indirectBlock, doubleIndirectBlock, mtime, reserved }
  left_inv _ := rfl
  right_inv _ := rfl

def inodeLayout : Layout Inode 128 :=
  inodeFields.trans (pair u32 (pair u64 (pair u32 (pair (array 20 u32) (pair u32 (pair u32
    (pair u64 (raw 16))))))))

def direntFields : Dirent ≃ UInt32 × UInt8 × Bytes 251 where
  toFun entry := (entry.inode, entry.nameLen, entry.name)
  invFun | (inode, nameLen, name) => { inode, nameLen, name }
  left_inv _ := rfl
  right_inv _ := rfl

def direntLayout : Layout Dirent 256 := direntFields.trans (pair u32 (pair u8 (raw 251)))

/-- A pointer table fills one sector. -/
@[irreducible] def pointersSector : Pointers ≃ Sector := array 1024 u32

/-- A directory block holds `DENYFS_DIRENTS_PER_BLOCK = 16` entries. -/
@[irreducible] def direntsSector : (Fin 16 → Dirent) ≃ Sector := array 16 direntLayout

/-- One block of the inode table holds 32 inodes. -/
@[irreducible] def inodesSector : (Fin 32 → Inode) ≃ Sector := array 32 inodeLayout

/-! ## State of an open volume

`denyfs_vol_open` fixes where a volume lies, its keys and its protected range once and for
all; `Mount` holds these fields of `denyfs_volume_t`, and `Volume` the ones that the
operations change.  `bitmap_bytes` and `bitmap_dirty_count` are set together with the
superblock and are read off it. -/

structure Mount where
  volumeKey : Bytes 64
  hmacKey : Bytes 32
  volumeSize : UInt64
  volStartOffset : UInt64
  isHidden : Bool
  protectHidden : Bool
  protectStartSector : UInt64
  protectEndSector : UInt64

structure Volume where
  sb : Superblock
  bitmap : Nat → UInt8
  bitmapDirty : Nat → Bool
  inodes : Fin 64 → Inode

def Volume.bitmapBytes (vol : Volume) : Nat := vol.sb.bitmapBlocks.toNat * 4096

/-- The cryptographic primitives, which lie outside the sources: Argon2id, HKDF-Expand,
AES-256-GCM, AES-256-XTS and HMAC-SHA256, as functions of their inputs. -/
structure Crypto where
  deriveMasterKey : List UInt8 → Bytes 16 → Bytes 32
  deriveHeaderKey : Bytes 32 → Bytes 32
  gcmEncrypt : Bytes 32 → Bytes 12 → Bytes 4052 → Bytes 4052 × Bytes 16
  gcmDecrypt : Bytes 32 → Bytes 12 → Bytes 4052 → Bytes 16 → Option (Bytes 4052)
  xtsEncrypt : Bytes 64 → UInt64 → Sector → Sector
  xtsDecrypt : Bytes 64 → UInt64 → Sector → Sector
  hmac : Bytes 32 → List UInt8 → Bytes 32

/-- Decrypting a sector under the key and number it was encrypted with gives it back. -/
def Crypto.SectorRoundTrip (crypto : Crypto) : Prop :=
  ∀ key lba sector, crypto.xtsDecrypt key lba (crypto.xtsEncrypt key lba sector) = sector

/-- Encrypting what a sector decrypts to gives the same ciphertext. -/
def Crypto.SectorOnto (crypto : Crypto) : Prop :=
  ∀ key lba sector, crypto.xtsEncrypt key lba (crypto.xtsDecrypt key lba sector) = sector

end DenyFS
