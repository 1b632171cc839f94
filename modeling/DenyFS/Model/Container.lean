import DenyFS.Model.Validate

/-! # The container file

A container holds the outer header in its first sector, the hidden header `32768` bytes before
its end, and one or two volumes between them.  All block I/O of a volume goes through
`read_block` and `write_block`, which are the container's answers to the requests of the
operations. -/

namespace DenyFS

open Packed BlockProgram

/-! ## The file -/

/-- The bytes of a container; its length is a file offset. -/
structure Container where
  size : Nat
  byte : Nat → UInt8
  size_le : size ≤ longMax

namespace Container

def sectorAt (container : Container) (offset : Nat) : Sector :=
  fun k => container.byte (offset + k.val)

/-- `fwrite` of one sector: it overwrites, and extends the file where it writes past the end. -/
def store (container : Container) (offset : Nat) (data : Sector)
    (fits : offset + 4096 ≤ longMax) : Container where
  size := max container.size (offset + 4096)
  byte i :=
    if offset ≤ i ∧ i < offset + 4096 then data (Fin.ofNat 4096 (i - offset))
    else if i < container.size then container.byte i
    else 0
  size_le := by have := container.size_le; omega

end Container

/-- A container being accessed, with the outcomes of the I/O calls to come: a `true` makes the
next call fail, and after the end of the list every call succeeds. -/
structure Disk where
  container : Container
  faults : List Bool

namespace Disk

def ioFails (disk : Disk) : Bool := disk.faults.headD false

def afterIo (disk : Disk) : Disk := { disk with faults := disk.faults.tail }

/-- `fseek` and `fread` of one sector. -/
def fread (disk : Disk) (offset : Nat) : Option Sector × Disk :=
  if disk.ioFails ∨ disk.container.size < offset + 4096 then (none, disk.afterIo)
  else (some (disk.container.sectorAt offset), disk.afterIo)

/-- `fseek` and `fwrite` of one sector; a failed write leaves the file as it was. -/
def fwrite (disk : Disk) (offset : Nat) (data : Sector) : Bool × Disk :=
  if disk.ioFails then (false, disk.afterIo)
  else if fits : offset + 4096 ≤ longMax then
    (true, { disk.afterIo with container := disk.container.store offset data fits })
  else (false, disk.afterIo)

end Disk

/-! ## Block I/O -/

/-- The file offset of a block, in 64-bit arithmetic. -/
def blockOffset (start : UInt64) (block : UInt32) : UInt64 := start + block.toUInt64 * 4096

def readBlockAt (crypto : Crypto) (mount : Mount) (block : UInt32) (disk : Disk) :
    Except Errno Sector × Disk :=
  if mount.volumeSize / 4096 ≤ block.toUInt64 then (.error .eperm, disk)
  else
    let offset := blockOffset mount.volStartOffset block
    if longMax < offset.toNat then (.error .eperm, disk)
    else match disk.fread offset.toNat with
      | (some cipher, disk) =>
        (.ok (crypto.xtsDecrypt mount.volumeKey block.toUInt64 cipher), disk)
      | (none, disk) => (.error .eperm, disk)

/-- Outer-mount protection: the absolute sector of the block lies in the protected range. -/
def Mount.protects (mount : Mount) (block : UInt32) : Bool :=
  let absoluteSector := mount.volStartOffset / 4096 + block.toUInt64
  mount.protectHidden && decide (mount.protectStartSector ≤ absoluteSector) &&
    decide (absoluteSector ≤ mount.protectEndSector)

/-- `0` or `-1`. -/
def writeStatus (outcome : Bool × Disk) : Except Errno Unit × Disk :=
  (if outcome.1 then .ok () else .error .eperm, outcome.2)

def writeBlockAt (crypto : Crypto) (mount : Mount) (block : UInt32) (data : Sector)
    (disk : Disk) : Except Errno Unit × Disk :=
  if mount.volumeSize / 4096 ≤ block.toUInt64 then (.error .eperm, disk)
  else if mount.protects block then (.error .enospc, disk)
  else
    let offset := blockOffset mount.volStartOffset block
    if longMax < offset.toNat then (.error .eperm, disk)
    else writeStatus (disk.fwrite offset.toNat
      (crypto.xtsEncrypt mount.volumeKey block.toUInt64 data))

/-- The container as the device under an open volume. -/
def volumeDevice (crypto : Crypto) (mount : Mount) : Device Disk UInt32 Sector Errno where
  read block disk := readBlockAt crypto mount block disk
  write block data disk := writeBlockAt crypto mount block data disk

def writeBlockRaw (crypto : Crypto) (volumeKey : Bytes 64) (startOffset : UInt64)
    (block : UInt32) (data : Sector) (disk : Disk) : Except Errno Unit × Disk :=
  let offset := blockOffset startOffset block
  if longMax < offset.toNat then (.error .eperm, disk)
  else writeStatus (disk.fwrite offset.toNat
    (crypto.xtsEncrypt volumeKey block.toUInt64 data))

/-- The container as the device under `format_volume`, which only writes. -/
def rawDevice (crypto : Crypto) (volumeKey : Bytes 64) (startOffset : UInt64) :
    Device Disk UInt32 Sector Errno where
  read _ disk := (.error .eperm, disk)
  write block data disk := writeBlockRaw crypto volumeKey startOffset block data disk

/-! ## Format -/

/-- The sizes `format_volume` computes, in 32-bit arithmetic. -/
structure FormatLayout where
  totalBlocks : UInt32
  bitmapBytesNeeded : UInt32
  bitmapBlocks : UInt32
  inodeBlocks : UInt32
  dataStart : UInt32

def formatLayout (volumeSize : UInt64) : FormatLayout :=
  let totalBlocks := (volumeSize / 4096).toUInt32
  let bitmapBytesNeeded := (totalBlocks + 7) / 8
  let bitmapBlocks := (bitmapBytesNeeded + 4096 - 1) / 4096
  let inodeBlocks := 2
  { totalBlocks, bitmapBytesNeeded, bitmapBlocks, inodeBlocks
    dataStart := 1 + bitmapBlocks + inodeBlocks }

def blankInodeRecord : Inode :=
  { type := itypeFree, size := 0, blockCount := 0, direct := fun _ => invalidBlock
    indirectBlock := invalidBlock, doubleIndirectBlock := invalidBlock, mtime := 0
    reserved := fun _ => 0 }

/-- The metadata `format_volume` builds before it writes anything. -/
def formatImage (crypto : Crypto) (hmacKey : Bytes 32) (volumeSize : UInt64) (now : UInt64) :
    Volume :=
  let layout := formatLayout volumeSize
  let bitmap := setBit ((List.range layout.dataStart.toNat).foldl setBit fun _ => 0)
    layout.dataStart.toNat
  { bitmap
    bitmapDirty := fun _ => false
    inodes := fun ino =>
      if ino = 0 then
        { blankInodeRecord with
          type := itypeDir
          blockCount := 1
          direct := Function.update (fun _ => invalidBlock) 0 layout.dataStart
          mtime := now }
      else blankInodeRecord
    sb :=
      { magic := superblockMagic
        blockSize := 4096
        totalBlocks := layout.totalBlocks
        inodeCount := 64
        bitmapStart := 1
        bitmapBlocks := layout.bitmapBlocks
        inodeStart := 1 + layout.bitmapBlocks
        inodeBlocks := layout.inodeBlocks
        dataStart := layout.dataStart
        freeBlocks := layout.totalBlocks - layout.dataStart - 1
        freeInodes := 64 - 1
        bitmapHmac := crypto.hmac hmacKey
          ((List.range (layout.bitmapBlocks.toNat * 4096)).map bitmap)
        reserved := fun _ => 0 } }

/-- A program that only issues requests. -/
abbrev RawOp (α : Type) : Type := Prog Unit UInt32 Sector Errno α

/-- Writes blocks `first + i` with contents `contents i`. -/
def writeBlocks (first : UInt32) (contents : Nat → Sector) : List Nat → RawOp Unit
  | [] => return ()
  | i :: rest => do
    Prog.writeAt (first + UInt32.ofNat i) (contents i)
    writeBlocks first contents rest

/-- The writing part of `format_volume`. -/
def writeImage (image : Volume) : RawOp Unit := do
  Prog.writeAt 0 (superblockSector image.sb)
  writeBlocks 1 image.bitmapSector (List.range image.sb.bitmapBlocks.toNat)
  writeBlocks image.sb.inodeStart image.inodeSector (List.range image.sb.inodeBlocks.toNat)
  Prog.writeAt image.sb.dataStart (direntsSector fun _ => emptyDirent)

def formatVolume (crypto : Crypto) (volumeKey : Bytes 64) (hmacKey : Bytes 32)
    (volumeSize startOffset : UInt64) (now : UInt64) (disk : Disk) : Bool × Disk :=
  if volumeSize = 0 ∨ volumeSize % 4096 ≠ 0 ∨ longMax < startOffset.toNat ∨
      longMax - startOffset.toNat < volumeSize.toNat ∨
      2 ^ 32 - 1 - 8 < volumeSize.toNat / 4096 then (false, disk)
  else
    let image := formatImage crypto hmacKey volumeSize now
    if image.sb.totalBlocks ≤ image.sb.dataStart then (false, disk)
    else match Prog.exec (rawDevice crypto volumeKey startOffset) (writeImage image) ((), disk) with
      | (.ok (), _, disk) => (true, disk)
      | (.error _, _, disk) => (false, disk)

/-! ## Headers -/

/-- `denyfs_header_payload_t`.  The record is 8 bytes longer than the ciphertext, so the last
8 reserved bytes are never stored. -/
structure HeaderPayload where
  magic : UInt64
  volumeSize : UInt64
  bitmapOffset : UInt64
  bitmapSize : UInt64
  volumeKey : Bytes 64
  hmacKey : Bytes 32
  reserved : Bytes 3932

@[irreducible] def payloadLayout : Layout HeaderPayload 4060 :=
  Equiv.trans
    { toFun := fun payload => (payload.magic, payload.volumeSize, payload.bitmapOffset,
        payload.bitmapSize, payload.volumeKey, payload.hmacKey, payload.reserved)
      invFun := fun (magic, volumeSize, bitmapOffset, bitmapSize, volumeKey, hmacKey, reserved) =>
        { magic, volumeSize, bitmapOffset, bitmapSize, volumeKey, hmacKey, reserved }
      left_inv := fun _ => rfl
      right_inv := fun _ => rfl }
    (pair u64 (pair u64 (pair u64 (pair u64 (pair (raw 64) (pair (raw 32) (raw 3932)))))))

/-- `denyfs_header_disk_t` -/
structure HeaderDisk where
  salt : Bytes 16
  iv : Bytes 12
  tag : Bytes 16
  ciphertext : Bytes 4052

@[irreducible] def headerSector : HeaderDisk ≃ Sector :=
  Equiv.trans
    { toFun := fun header => (header.salt, header.iv, header.tag, header.ciphertext)
      invFun := fun (salt, iv, tag, ciphertext) => { salt, iv, tag, ciphertext }
      left_inv := fun _ => rfl
      right_inv := fun _ => rfl }
    (pair (raw 16) (pair (raw 12) (pair (raw 16) (raw 4052))))

def headerKey (crypto : Crypto) (password : List UInt8) (salt : Bytes 16) : Bytes 32 :=
  crypto.deriveHeaderKey (crypto.deriveMasterKey password salt)

def encryptHeader (crypto : Crypto) (payload : HeaderPayload) (key : Bytes 32)
    (salt : Bytes 16) (iv : Bytes 12) : HeaderDisk :=
  let sealed := crypto.gcmEncrypt key iv fun i => payloadLayout payload (Fin.castLE (by decide) i)
  { salt, iv, tag := sealed.2, ciphertext := sealed.1 }

/-- The plaintext lands in a zeroed payload. -/
def decryptHeader (crypto : Crypto) (header : HeaderDisk) (key : Bytes 32) :
    Option HeaderPayload :=
  (crypto.gcmDecrypt key header.iv header.ciphertext header.tag).map fun plaintext =>
    payloadLayout.symm fun i => if h : i.val < 4052 then plaintext ⟨i.val, h⟩ else 0

/-- The payload of a header that authenticates under the password and has the right magic. -/
def authenticate (crypto : Crypto) (header : HeaderDisk) (password : List UInt8) :
    Option HeaderPayload :=
  (decryptHeader crypto header (headerKey crypto password header.salt)).filter
    fun payload => payload.magic == headerMagic

/-! ## Open -/

def longMax64 : UInt64 := 0x7FFFFFFFFFFFFFFF

def validVolumeRange (start size containerSize : UInt64) : Bool :=
  size != 0 && size % 4096 == 0 && start % 4096 == 0 && decide (start ≤ containerSize) &&
    decide (size ≤ containerSize - start) && decide (start ≤ longMax64) &&
    decide (size ≤ longMax64 - start)

/-- The range a hidden header of this size claims is a valid one. -/
def validHiddenRange (size hiddenHeaderOffset : UInt64) : Bool :=
  decide (size ≤ hiddenHeaderOffset - 4096) &&
    validVolumeRange (hiddenHeaderOffset - size) size hiddenHeaderOffset

def mountOf (payload : HeaderPayload) (start : UInt64) (isHidden : Bool) : Mount :=
  { volumeKey := payload.volumeKey, hmacKey := payload.hmacKey, volumeSize := payload.volumeSize
    volStartOffset := start, isHidden, protectHidden := false, protectStartSector := 0
    protectEndSector := 0 }

/-- Both headers are tried whatever the first attempt gives; the outer one has precedence. -/
def selectVolume (crypto : Crypto) (outerDisk hiddenDisk : HeaderDisk)
    (hiddenHeaderOffset : UInt64) (password : List UInt8) : Option Mount :=
  let outer := (authenticate crypto outerDisk password).filter fun payload =>
    validVolumeRange 4096 payload.volumeSize hiddenHeaderOffset
  let hidden := (authenticate crypto hiddenDisk password).filter fun payload =>
    validHiddenRange payload.volumeSize hiddenHeaderOffset
  match outer, hidden with
  | some payload, _ => some (mountOf payload 4096 false)
  | none, some payload =>
    some (mountOf payload (hiddenHeaderOffset - payload.volumeSize) true)
  | none, none => none

/-- Outer-mount protection, if requested: the protected sectors run from the first one of the
hidden volume to the last one of the container. -/
def protectVolume (crypto : Crypto) (hiddenDisk : HeaderDisk)
    (containerSize hiddenHeaderOffset : UInt64) (hiddenPassword : Option (List UInt8))
    (protectHidden : Bool) (mount : Mount) : Option Mount :=
  if protectHidden && !mount.isHidden then
    match hiddenPassword with
    | none => none
    | some password =>
      match (authenticate crypto hiddenDisk password).filter fun payload =>
          validHiddenRange payload.volumeSize hiddenHeaderOffset with
      | none => none
      | some payload =>
        some { mount with
          protectHidden := true
          protectStartSector := (hiddenHeaderOffset - payload.volumeSize) / 4096
          protectEndSector := containerSize / 4096 - 1 }
  else some mount

/-- `calloc(1, sizeof(*vol))` -/
def zeroedVolume : Volume :=
  { bitmap := fun _ => 0
    bitmapDirty := fun _ => false
    inodes := fun _ =>
      { type := 0, size := 0, blockCount := 0, direct := fun _ => 0, indirectBlock := 0
        doubleIndirectBlock := 0, mtime := 0, reserved := fun _ => 0 }
    sb :=
      { magic := 0, blockSize := 0, totalBlocks := 0, inodeCount := 0, bitmapStart := 0
        bitmapBlocks := 0, inodeStart := 0, inodeBlocks := 0, dataStart := 0, freeBlocks := 0
        freeInodes := 0, bitmapHmac := fun _ => 0, reserved := fun _ => 0 } }

def loadBitmap : List Nat → Op Unit
  | [] => return ()
  | i :: rest => do
    let vol ← get
    let data ← readBlock (vol.sb.bitmapStart + UInt32.ofNat i)
    modify fun vol =>
      { vol with
        bitmap := fun k => if k / 4096 = i then data (Fin.ofNat 4096 k) else vol.bitmap k }
    loadBitmap rest

def loadInodes : List Nat → Op Unit
  | [] => return ()
  | i :: rest => do
    let vol ← get
    let data ← readBlock (vol.sb.inodeStart + UInt32.ofNat i)
    modify fun vol =>
      { vol with
        inodes := fun j =>
          if j.val / 32 = i then inodesSector.symm data (Fin.ofNat 32 j.val) else vol.inodes j }
    loadInodes rest

/-- The last part of `denyfs_vol_open`: superblock, bitmap with its HMAC, inode table, and the
checks on them. -/
def loadVolume (crypto : Crypto) (mount : Mount) : Op Unit := do
  let data ← readBlock 0
  modify fun vol => { vol with sb := superblockSector.symm data }
  let sb := superblockSector.symm data
  if sb.magic ≠ superblockMagic ∨ validateSuperblock sb mount.volumeSize = false then throw .eperm
  else do
    loadBitmap (List.range sb.bitmapBlocks.toNat)
    let vol ← get
    if crypto.hmac mount.hmacKey vol.bitmapImage ≠ sb.bitmapHmac then throw .eperm
    else do
      loadInodes (List.range sb.inodeBlocks.toNat)
      validateLoadedMetadata

/-- `denyfs_vol_open`; `none` is `NULL`. -/
def volOpen (crypto : Crypto) (password : List UInt8) (hiddenPassword : Option (List UInt8))
    (protectHidden : Bool) (disk : Disk) : Option (Mount × Volume) × Disk :=
  let containerSize := disk.container.size
  if containerSize < 32768 + 4096 ∨ containerSize % 4096 ≠ 0 then (none, disk)
  else match disk.fread 0 with
    | (none, disk) => (none, disk)
    | (some outerData, disk) =>
      match disk.fread (containerSize - 32768) with
      | (none, disk) => (none, disk)
      | (some hiddenData, disk) =>
        let hiddenHeaderOffset := UInt64.ofNat containerSize - 32768
        let hiddenDisk := headerSector.symm hiddenData
        match (selectVolume crypto (headerSector.symm outerData) hiddenDisk hiddenHeaderOffset
            password).bind (protectVolume crypto hiddenDisk (UInt64.ofNat containerSize)
              hiddenHeaderOffset hiddenPassword protectHidden) with
        | none => (none, disk)
        | some mount =>
          match Prog.exec (volumeDevice crypto mount) (loadVolume crypto mount)
              (zeroedVolume, disk) with
          | (.ok (), vol, disk) => (some (mount, vol), disk)
          | (.error _, _, disk) => (none, disk)

/-! ## Creation -/

/-- What `randombytes_buf` fills in when a volume is created. -/
structure Randomness where
  salt : Bytes 16
  iv : Bytes 12
  volumeKey : Bytes 64
  hmacKey : Bytes 32
  reserved : Bytes 3932

def newPayload (random : Randomness) (volumeSize : UInt64) : HeaderPayload :=
  { magic := headerMagic
    volumeSize
    bitmapOffset := 4096
    bitmapSize := (volumeSize / 4096 + 7) / 8
    volumeKey := random.volumeKey
    hmacKey := random.hmacKey
    reserved := random.reserved }

def newHeader (crypto : Crypto) (random : Randomness) (password : List UInt8)
    (volumeSize : UInt64) : HeaderDisk :=
  encryptHeader crypto (newPayload random volumeSize)
    (headerKey crypto password random.salt) random.salt random.iv

/-- `denyfs_container_create` on a new path: the container, filled with the random bytes `fill`
first.  Where it fails the file is removed again. -/
def containerCreate (crypto : Crypto) (random : Randomness) (fill : Nat → UInt8)
    (sizeMb : UInt64) (password : List UInt8) (now : UInt64) (faults : List Bool) : Option Disk :=
  if password = [] ∨ sizeMb = 0 ∨ (2 ^ 64 - 1) / (1024 * 1024) < sizeMb.toNat then none
  else
    let totalBytes := sizeMb * 1024 * 1024
    if fits : totalBytes.toNat ≤ longMax then
      if totalBytes < 1024 * 1024 ∨ 2 ^ 32 - 1 - 8 < totalBytes.toNat / 2 / 4096 then none
      else
        let filled : Disk := ⟨⟨totalBytes.toNat, fill, fits⟩, faults⟩
        if filled.ioFails then none
        else
          let volumeSize := totalBytes / 2
          match filled.afterIo.fwrite 0
              (headerSector (newHeader crypto random password volumeSize)) with
          | (false, _) => none
          | (true, disk) =>
            match formatVolume crypto random.volumeKey random.hmacKey volumeSize 4096 now disk with
            | (true, disk) => some disk
            | (false, _) => none
    else none

/-- `denyfs_container_create_hidden` -/
def containerCreateHidden (crypto : Crypto) (random : Randomness)
    (outerPassword hiddenPassword : List UInt8) (hiddenSizeMb : UInt64) (now : UInt64)
    (disk : Disk) : Except Errno Unit × Disk :=
  if outerPassword = [] ∨ hiddenPassword = [] ∨ hiddenSizeMb = 0 ∨
      (2 ^ 64 - 1) / (1024 * 1024) < hiddenSizeMb.toNat ∨
      2 ^ 32 - 1 - 8 < (hiddenSizeMb * (1024 * 1024)).toNat / 4096 ∨
      outerPassword = hiddenPassword then (.error .einval, disk)
  else match volOpen crypto outerPassword none false disk with
    | (none, disk) => (.error .eacces, disk)
    | (some (mount, _), disk) =>
      let hiddenSizeBytes := hiddenSizeMb * 1024 * 1024
      let outerEnd := mount.volStartOffset + mount.volumeSize
      let hiddenHeaderOffset := UInt64.ofNat disk.container.size - 32768
      if disk.container.size < 32768 + 4096 ∨ disk.container.size % 4096 ≠ 0 then
        (.error .einval, disk)
      else if hiddenHeaderOffset < hiddenSizeBytes ∨
          hiddenHeaderOffset - hiddenSizeBytes < outerEnd ∨ hiddenSizeBytes % 4096 ≠ 0 then
        (.error .enospc, disk)
      else match disk.fwrite hiddenHeaderOffset.toNat
          (headerSector (newHeader crypto random hiddenPassword hiddenSizeBytes)) with
        | (false, disk) => (.error .eio, disk)
        | (true, disk) =>
          match formatVolume crypto random.volumeKey random.hmacKey hiddenSizeBytes
              (hiddenHeaderOffset - hiddenSizeBytes) now disk with
          | (true, disk) => (.ok (), disk)
          | (false, disk) => (.error .eio, disk)

end DenyFS
