import DenyFS.Verified.Bitmap
import DenyFS.Verified.FileMap

/-! # What a sound volume is

`Accounted` ties the bitmap and its counters to the slots that point to blocks; `Tree` says
what the inodes are, `Directory` how the entries of the root directory and the inodes belong
together.  `held` lists blocks that an operation has taken and not linked yet. -/

namespace DenyFS

open Packed BlockProgram Ownership

/-- The layout `validate_superblock` insists on, for a volume of `count` blocks. -/
structure Superblock.Layout (sb : Superblock) (count : Nat) : Prop where
  magic : sb.magic = superblockMagic
  blockSize : sb.blockSize = 4096
  inodeCount : sb.inodeCount = 64
  totalBlocks : sb.totalBlocks.toNat = count
  bitmapStart : sb.bitmapStart = 1
  bitmapBlocks : sb.bitmapBlocks.toNat = ((count + 7) / 8 + 4095) / 4096
  inodeStart : sb.inodeStart.toNat = 1 + sb.bitmapBlocks.toNat
  inodeBlocks : sb.inodeBlocks = 2
  dataStart : sb.dataStart.toNat = 3 + sb.bitmapBlocks.toNat
  room : sb.dataStart.toNat < count

theorem Superblock.Layout.of_same {before after : Superblock} {count : Nat}
    (layout : before.Layout count) (same : before.SameLayout after) : after.Layout count := by
  obtain ⟨magic, blockSize, inodeCount, totalBlocks, bitmapStart, bitmapBlocks, inodeStart,
    inodeBlocks, dataStart, room⟩ := layout
  rw [same]
  exact ⟨magic, blockSize, inodeCount, totalBlocks, bitmapStart, bitmapBlocks, inodeStart,
    inodeBlocks, dataStart, room⟩

namespace Superblock.Layout

variable {sb : Superblock} {count : Nat}

theorem count_lt (layout : sb.Layout count) : count < 2 ^ 32 := by
  have := sb.totalBlocks.toNat_lt
  have := layout.totalBlocks
  omega

theorem dataStart_le (layout : sb.Layout count) : sb.dataStart.toNat ≤ 2 ^ 18 := by
  have := layout.count_lt
  have := layout.dataStart
  have := layout.bitmapBlocks
  omega

end Superblock.Layout

/-- The bitmap, its counters and the block counts agree with the slots. -/
structure Accounted (count : Nat) (vol : Volume) (disk : Blocks) (held : List UInt32) : Prop where
  layout : vol.sb.Layout count
  ledger : Ledger (ref vol disk) vol.allocated held
  space : vol.Space
  metadataBits : ∀ i < vol.sb.dataStart.toNat, vol.bit i = true

/-- No pointer table of the file is empty. -/
structure Compact (inode : Inode) (disk : Blocks) : Prop where
  single : fileRef inode disk .single ≠ none → ∃ i, fileRef inode disk (.entry i) ≠ none
  root : fileRef inode disk .root ≠ none → ∃ outer, fileRef inode disk (.child outer) ≠ none
  child : ∀ outer, fileRef inode disk (.child outer) ≠ none →
    ∃ i, fileRef inode disk (.leaf outer i) ≠ none

/-- `block_count` is the number of mapped data blocks. -/
def Counted (vol : Volume) (disk : Blocks) : Prop :=
  ∀ ino, (vol.inodes ino).blockCount.toNat = (mappedSlots (vol.inodes ino) disk).card

/-- `r` with the slots of one inode replaced. -/
def setFile (r : Slot → Option UInt32) (ino : Fin 64) (f : FileSlot → Option UInt32) (slot : Slot) :
    Option UInt32 :=
  if slot.1 = ino then f slot.2 else r slot

/-- A block in hand is linked to an empty slot of one inode. -/
theorem linkFile {r : Slot → Option UInt32} {ino : Fin 64} {f : FileSlot → Option UInt32}
    {used : UInt32 → Prop} {held : List UInt32} {block : UInt32} {s : FileSlot}
    (ledger : Ledger (setFile r ino f) used (block :: held)) (empty : f s = none) :
    Ledger (setFile r ino (Function.update f s (some block))) used held := by
  have here : setFile r ino f (ino, s) = none := by rw [setFile, if_pos rfl, empty]
  refine (ledger.link here).congr (fun slot => ?_) fun _ => Iff.rfl
  obtain ⟨j, t⟩ := slot
  by_cases file : j = ino
  · subst file
    by_cases same : t = s
    · subst same
      rw [Function.update_self, setFile, if_pos rfl, Function.update_self]
    · rw [Function.update_of_ne fun equal => same (congrArg Prod.snd equal), setFile, setFile,
        if_pos rfl, if_pos rfl, Function.update_of_ne same]
  · rw [Function.update_of_ne fun equal => file (congrArg Prod.fst equal), setFile, setFile,
      if_neg file, if_neg file]

theorem setFile_self (vol : Volume) (disk : Blocks) (ino : Fin 64) :
    setFile (ref vol disk) ino (fileRef (vol.inodes ino) disk) = ref vol disk := by
  funext slot
  unfold setFile
  split
  next same => rw [← same]; rfl
  · rfl

/-- Only one inode's slots have changed. -/
theorem ref_eq_setFile {vol vol' : Volume} {disk disk' : Blocks} {ino : Fin 64}
    (others : ∀ j, j ≠ ino →
      fileRef (vol'.inodes j) disk' = fileRef (vol.inodes j) disk) :
    ref vol' disk' = setFile (ref vol disk) ino (fileRef (vol'.inodes ino) disk') := by
  funext slot
  unfold setFile
  split
  next same => rw [← same]; rfl
  next other => exact congrFun (others slot.1 other) slot.2

namespace Accounted

variable {count : Nat} {vol vol' : Volume} {disk disk' : Blocks} {held : List UInt32}
  {block : UInt32}

theorem inVolume (accounted : Accounted count vol disk held) (inUse : vol.allocated block) :
    block.toNat < count := by
  have inside := UInt32.lt_iff_toNat_lt.1 inUse.2.1
  rwa [accounted.layout.totalBlocks] at inside

theorem inVolume_of_data (accounted : Accounted count vol disk held)
    (inData : block.toNat ∈ vol.dataBlocks) : block.toNat < count := by
  have upper := (vol.mem_dataBlocks.1 inData).2
  rwa [accounted.layout.totalBlocks] at upper

/-- A block of the volume is no `DENYFS_INVALID_BLOCK`. -/
theorem ne_invalid (accounted : Accounted count vol disk held)
    (inside : block.toNat < count) : block ≠ invalidBlock := by
  rintro rfl
  have limit := accounted.layout.totalBlocks
  have small := vol.sb.totalBlocks.toNat_lt
  have value : invalidBlock.toNat = 2 ^ 32 - 1 := rfl
  omega

theorem allocated_of_ref (accounted : Accounted count vol disk held) {slot : Slot}
    (points : ref vol disk slot = some block) : vol.allocated block :=
  accounted.ledger.used_of_ref points

theorem allocated_of_fileRef (accounted : Accounted count vol disk held) {ino : Fin 64}
    {s : FileSlot} (points : fileRef (vol.inodes ino) disk s = some block) :
    vol.allocated block :=
  have pointsAt : ref vol disk (ino, s) = some block := points
  accounted.allocated_of_ref pointsAt

/-- Only few blocks can ever be in use, whatever the size of the volume. -/
theorem bounded (accounted : Accounted count vol disk held) (blocks : Finset UInt32)
    (inUse : ∀ c ∈ blocks, vol.allocated c) : blocks.card ≤ held.length + 2 ^ 27 := by
  have bound := accounted.ledger.card_le blocks inUse
  have := card_slot_le
  omega

/-- `alloc_block` takes the first free block, whatever the size of the volume. -/
theorem allocBlock_cases (accounted : Accounted count vol disk held) (few : held.length ≤ 2) :
    (vol.sb.freeBlocks.toNat = 0 ∧ allocBlock vol = (-1, vol)) ∨
      ∃ block : UInt32, allocBlock vol = ((block.toNat : Int), vol.takeBlock block.toNat) ∧
        block.toNat ∈ vol.dataBlocks ∧ vol.bit block.toNat = false := by
  have bounded : ∀ blocks : Finset UInt32, (∀ c ∈ blocks, vol.allocated c) →
      blocks.card ≤ 2 + 2 ^ 27 := by
    intro blocks inUse
    have := accounted.bounded blocks inUse
    omega
  have room : vol.sb.dataStart.toNat + (2 + 2 ^ 27) < 2 ^ 31 := by
    have := accounted.layout.dataStart_le
    omega
  cases DenyFS.allocBlock_cases accounted.space bounded room with
  | inl none => exact .inl ⟨by rw [none.1]; rfl, none.2⟩
  | inr some =>
    obtain ⟨block, _, takes, inData, clear, _⟩ := some
    exact .inr ⟨block, takes, inData, clear⟩

theorem ref_free (accounted : Accounted count vol disk held) (free : ¬vol.allocated block)
    (slot : Slot) : ref vol disk slot ≠ some block :=
  accounted.ledger.ref_ne_of_free free slot

/-- The contents of blocks no table stands in do not matter. -/
theorem write (accounted : Accounted count vol disk held)
    (same : ∀ slot : Slot, slot.2.IsTable → ∀ b, ref vol disk slot = some b → disk' b = disk b) :
    Accounted count vol disk' held :=
  { accounted with ledger := accounted.ledger.congr (ref_congr same) fun _ => Iff.rfl }

/-- Taking a block and filling it. -/
theorem take (accounted : Accounted count vol disk held) (inData : block.toNat ∈ vol.dataBlocks)
    (clear : vol.bit block.toNat = false) (contents : Sector) :
    Accounted count (vol.takeBlock block.toNat) (Function.update disk block contents)
        (block :: held) ∧
      vol.sb.freeBlocks.toNat = (vol.takeBlock block.toNat).sb.freeBlocks.toNat + 1 := by
  have free : ¬vol.allocated block := by
    rw [Volume.allocated_iff, clear]
    exact fun both => Bool.false_ne_true both.2
  have grown := Volume.takeBlock_allocated inData block.toNat_lt
  rw [UInt32.ofNat_toNat] at grown
  obtain ⟨space, fewer⟩ := Volume.takeBlock_space accounted.space inData clear
  refine ⟨⟨accounted.layout.of_same (vol.takeBlock_layout _), ?_, space, fun i below => ?_⟩, fewer⟩
  · refine (accounted.ledger.take free grown).congr (ref_congr fun slot _ b points => ?_)
      fun _ => Iff.rfl
    rw [Function.update_of_ne]
    rintro rfl
    exact accounted.ref_free free slot points
  · rw [Volume.takeBlock_bit, accounted.metadataBits i below, Bool.true_or]

/-- Giving back the block taken last. -/
theorem giveBack (accounted : Accounted count vol disk (block :: held)) :
    Accounted count (freeBlock vol block) disk held ∧
      (freeBlock vol block).sb.freeBlocks.toNat = vol.sb.freeBlocks.toNat + 1 := by
  have inUse := accounted.ledger.used_of_held (b := block) List.mem_cons_self
  obtain ⟨inData, set⟩ := (vol.allocated_iff block).1 inUse
  obtain ⟨space, more⟩ := Volume.releaseBlock_space accounted.space inData set
  rw [freeBlock_of_allocated inUse]
  refine ⟨⟨accounted.layout.of_same (vol.releaseBlock_layout _), ?_, space, fun i below => ?_⟩,
    more⟩
  · refine accounted.ledger.giveBack fun c => ?_
    rw [Volume.releaseBlock_allocated block.toNat_lt, UInt32.ofNat_toNat]
  · have := (vol.mem_dataBlocks.1 inData).1
    have before : i < vol.sb.dataStart.toNat := below
    rw [Volume.releaseBlock_bit, accounted.metadataBits i before, Bool.true_and]
    exact decide_eq_true (by omega)

theorem perm (accounted : Accounted count vol disk held) {held' : List UInt32}
    (reordered : held'.Perm held) : Accounted count vol disk held' :=
  { accounted with
    ledger :=
      { accounted.ledger with
        used_iff := fun b => by rw [accounted.ledger.used_iff, reordered.mem_iff]
        apart := fun inHand => accounted.ledger.apart (reordered.mem_iff.1 inHand)
        nodup := reordered.nodup_iff.2 accounted.ledger.nodup } }

/-- New pointers with the same bitmap. -/
theorem relink (accounted : Accounted count vol disk held) {held' : List UInt32}
    (sb : vol'.sb = vol.sb) (bitmap : vol'.bitmap = vol.bitmap)
    (ledger : Ledger (ref vol' disk') vol.allocated held') :
    Accounted count vol' disk' held' := by
  have bit : ∀ i, vol'.bit i = vol.bit i := fun i => by rw [Volume.bit, bitmap, Volume.bit]
  refine ⟨sb ▸ accounted.layout, ledger.congr (fun _ => rfl) fun c => ?_, ?_, fun i below => ?_⟩
  · rw [Volume.allocated, Volume.allocated, sb, bit]
  · have space := accounted.space
    unfold Volume.Space Volume.usedCount Volume.dataBlocks at *
    simp only [sb, bit]
    exact space
  · rw [bit]
    exact accounted.metadataBits i (sb ▸ below)

/-- Writing a block that belongs to one inode or to nobody yet leaves the other inodes alone. -/
theorem others_of_write (accounted : Accounted count vol disk held) {ino : Fin 64}
    (own : block ∈ held ∨ ∃ s, fileRef (vol.inodes ino) disk s = some block) (data : Sector)
    {j : Fin 64} (other : j ≠ ino) :
    fileRef (vol.inodes j) (Function.update disk block data) = fileRef (vol.inodes j) disk := by
  funext s
  refine fileRef_congr (fun t _ b points => ?_) s
  rw [Function.update_of_ne]
  rintro rfl
  rcases own with inHand | ⟨s, here⟩
  · exact accounted.ledger.apart (s := (j, t)) inHand points
  · exact other (congrArg Prod.fst (accounted.ledger.injective (s := (j, t)) (t := (ino, s)) points here))

/-- A block in hand is filled anew. -/
theorem writeHeld (accounted : Accounted count vol disk held) (inHand : block ∈ held)
    (data : Sector) : Accounted count vol (Function.update disk block data) held :=
  accounted.write fun slot _ b points => by
    rw [Function.update_of_ne]
    rintro rfl
    exact accounted.ledger.apart inHand points

end Accounted

end DenyFS
