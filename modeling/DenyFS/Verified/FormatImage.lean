import DenyFS.Verified.Loading

/-! # What `format_volume` builds

The sizes `format_volume` computes in 32 bits are the ones `validate_superblock` recomputes,
and the image it builds is well formed: the metadata blocks and the block of the empty root
directory are in use and nothing else is. -/

namespace DenyFS

open Packed BlockProgram Ownership

/-! ## Sizes -/

section Sizes

variable {volumeSize : UInt64} (blocks : volumeSize.toNat / 4096 ≤ 2 ^ 32 - 1 - 8)
include blocks

theorem formatLayout_totalBlocks :
    (formatLayout volumeSize).totalBlocks.toNat = volumeSize.toNat / 4096 := by
  have small : volumeSize.toNat / 4096 < 2 ^ 32 := by omega
  change (volumeSize / 4096).toUInt32.toNat = _
  rw [UInt64.toNat_toUInt32, UInt64.toNat_div]
  exact Nat.mod_eq_of_lt small

theorem formatLayout_bitmapBytesNeeded :
    (formatLayout volumeSize).bitmapBytesNeeded.toNat = (volumeSize.toNat / 4096 + 7) / 8 := by
  have total := formatLayout_totalBlocks blocks
  change (((formatLayout volumeSize).totalBlocks + 7) / 8).toNat = _
  rw [UInt32.toNat_div, UInt32.toNat_add, total]
  change (_ + 7) % 2 ^ 32 / 8 = _
  rw [Nat.mod_eq_of_lt (by omega)]

theorem formatLayout_bitmapBlocks :
    (formatLayout volumeSize).bitmapBlocks.toNat =
      ((volumeSize.toNat / 4096 + 7) / 8 + 4095) / 4096 := by
  have bytes := formatLayout_bitmapBytesNeeded blocks
  change (((formatLayout volumeSize).bitmapBytesNeeded + 4096 - 1) / 4096).toNat = _
  have sum : ((formatLayout volumeSize).bitmapBytesNeeded + 4096).toNat =
      (formatLayout volumeSize).bitmapBytesNeeded.toNat + 4096 := by
    rw [UInt32.toNat_add]
    exact Nat.mod_eq_of_lt (by rw [bytes]; change _ + 4096 < _; omega)
  have one : (1 : UInt32) ≤ (formatLayout volumeSize).bitmapBytesNeeded + 4096 := by
    rw [UInt32.le_iff_toNat_le, sum]
    change 1 ≤ _ + 4096
    omega
  rw [UInt32.toNat_div, UInt32.toNat_sub_of_le _ _ one, sum, bytes]
  rfl

theorem formatLayout_inodeStart :
    (1 + (formatLayout volumeSize).bitmapBlocks).toNat =
      1 + (formatLayout volumeSize).bitmapBlocks.toNat := by
  have sectors := formatLayout_bitmapBlocks blocks
  rw [UInt32.toNat_add]
  exact Nat.mod_eq_of_lt (by change 1 + _ < _; omega)

theorem formatLayout_dataStart :
    (formatLayout volumeSize).dataStart.toNat =
      3 + (formatLayout volumeSize).bitmapBlocks.toNat := by
  have sectors := formatLayout_bitmapBlocks blocks
  change (1 + (formatLayout volumeSize).bitmapBlocks + 2).toNat = _
  rw [UInt32.toNat_add, formatLayout_inodeStart blocks]
  change (1 + (formatLayout volumeSize).bitmapBlocks.toNat + 2) % 2 ^ 32 = _
  rw [Nat.mod_eq_of_lt (by omega)]
  omega

end Sizes

/-! ## The image -/

theorem bitAt_setBits (bits : List Nat) (bitmap : Nat → UInt8) (j : Nat) :
    bitAt (bits.foldl setBit bitmap) j = (bitAt bitmap j || decide (j ∈ bits)) := by
  induction bits generalizing bitmap with
  | nil => simp
  | cons i rest ih =>
    rw [List.foldl_cons, ih, bitAt_setBit]
    simp [Bool.or_assoc]

theorem bitAt_zero (j : Nat) : bitAt (fun _ => 0) j = false := by
  unfold bitAt
  simp

/-- The sizes for which `format_volume` gets as far as building an image. -/
structure Formattable (volumeSize : UInt64) : Prop where
  aligned : volumeSize.toNat % 4096 = 0
  blocks : volumeSize.toNat / 4096 ≤ 2 ^ 32 - 1 - 8
  room : (formatLayout volumeSize).dataStart < (formatLayout volumeSize).totalBlocks

section Image

variable {crypto : Crypto} {hmacKey : Bytes 32} {volumeSize now : UInt64}

theorem formatImage_bit (j : Nat) :
    (formatImage crypto hmacKey volumeSize now).bit j =
      decide (j ≤ (formatLayout volumeSize).dataStart.toNat) := by
  change bitAt (setBit ((List.range (formatLayout volumeSize).dataStart.toNat).foldl setBit
    fun _ => 0) (formatLayout volumeSize).dataStart.toNat) j = _
  rw [bitAt_setBit, bitAt_setBits, bitAt_zero, Bool.false_or, ← Bool.decide_or]
  refine decide_eq_decide.2 ?_
  rw [List.mem_range]
  omega

/-- The root directory of a new volume, with one block. -/
def newRoot (dataStart : UInt32) (now : UInt64) : Inode :=
  { blankInodeRecord with
    type := itypeDir
    blockCount := 1
    direct := Function.update (fun _ => invalidBlock) 0 dataStart
    mtime := now }

theorem formatImage_root :
    (formatImage crypto hmacKey volumeSize now).inodes 0 =
      newRoot (formatLayout volumeSize).dataStart now := rfl

theorem newRoot_direct (dataStart : UInt32) (now : UInt64) (i : Fin 20) :
    (newRoot dataStart now).direct i = if i = 0 then dataStart else invalidBlock := by
  change Function.update (fun _ => invalidBlock) 0 dataStart i = _
  by_cases first : i = 0
  · rw [if_pos first, first, Function.update_self]
  · rw [if_neg first, Function.update_of_ne first]

theorem formatImage_blank {ino : Fin 64} (other : ino ≠ 0) :
    (formatImage crypto hmacKey volumeSize now).inodes ino = blankInodeRecord := by
  change (if ino = 0 then _ else blankInodeRecord) = _
  rw [if_neg other]

theorem blankInodeRecord_blank : blankInodeRecord.Blank := ⟨rfl, rfl, fun _ => rfl, rfl, rfl⟩

variable (formattable : Formattable volumeSize)
include formattable

variable (crypto hmacKey now) in
theorem formatImage_layout :
    (formatImage crypto hmacKey volumeSize now).sb.Layout (volumeSize.toNat / 4096) where
  magic := rfl
  blockSize := rfl
  inodeCount := rfl
  totalBlocks := formatLayout_totalBlocks formattable.blocks
  bitmapStart := rfl
  bitmapBlocks := formatLayout_bitmapBlocks formattable.blocks
  inodeStart := formatLayout_inodeStart formattable.blocks
  inodeBlocks := rfl
  dataStart := formatLayout_dataStart formattable.blocks
  room := by
    have room := UInt32.lt_iff_toNat_lt.1 formattable.room
    rw [formatLayout_totalBlocks formattable.blocks] at room
    exact room

variable (crypto hmacKey now) in
/-- `free_blocks` of a new volume: all data blocks but the one of the root directory. -/
theorem formatImage_freeBlocks :
    (formatImage crypto hmacKey volumeSize now).sb.freeBlocks.toNat =
      (formatImage crypto hmacKey volumeSize now).sb.totalBlocks.toNat -
        (formatImage crypto hmacKey volumeSize now).sb.dataStart.toNat - 1 := by
  have room := UInt32.lt_iff_toNat_lt.1 formattable.room
  have under : (formatLayout volumeSize).dataStart ≤ (formatLayout volumeSize).totalBlocks :=
    UInt32.le_of_lt formattable.room
  have one : (1 : UInt32) ≤
      (formatLayout volumeSize).totalBlocks - (formatLayout volumeSize).dataStart := by
    rw [UInt32.le_iff_toNat_le, UInt32.toNat_sub_of_le _ _ under]
    change 1 ≤ _
    omega
  change ((formatLayout volumeSize).totalBlocks - (formatLayout volumeSize).dataStart - 1).toNat = _
  rw [UInt32.toNat_sub_of_le _ _ one, UInt32.toNat_sub_of_le _ _ under]
  rfl

variable (crypto hmacKey now) in
theorem formatImage_ref (disk : Blocks) (slot : Slot) (block : UInt32) :
    ref (formatImage crypto hmacKey volumeSize now) disk slot = some block ↔
      slot = (0, .direct 0) ∧ block = (formatLayout volumeSize).dataStart := by
  obtain ⟨ino, s⟩ := slot
  have layout := formatImage_layout crypto hmacKey now formattable
  have present : (formatLayout volumeSize).dataStart ≠ invalidBlock := by
    intro same
    have := formattable.room
    rw [same] at this
    exact absurd this (by rw [UInt32.lt_iff_toNat_lt]; have := UInt32.toNat_lt (formatLayout volumeSize).totalBlocks; change ¬(2 ^ 32 - 1 < _); omega)
  unfold ref
  by_cases first : ino = 0
  case neg =>
    rw [formatImage_blank first, blankInodeRecord_blank.fileRef_eq_none]
    simp [first]
  subst first
  rw [formatImage_root]
  cases s with
  | direct i =>
    rw [fileRef, newRoot_direct]
    by_cases at0 : i = 0
    · rw [if_pos at0, pointer_of_ne present]
      simp [at0, eq_comm]
    · rw [if_neg at0, pointer_invalid]
      simp [at0]
  | single => simp [fileRef, newRoot, blankInodeRecord]
  | entry i => simp [fileRef, newRoot, blankInodeRecord, Inode.singleTable, emptyPointers]
  | root => simp [fileRef, newRoot, blankInodeRecord]
  | child outer => simp [fileRef, newRoot, blankInodeRecord, Inode.rootTable, emptyPointers]
  | leaf outer i =>
    simp [fileRef, newRoot, blankInodeRecord, Inode.childTable, Inode.rootTable, emptyPointers]

theorem formatImage_allocated (block : UInt32) :
    (formatImage crypto hmacKey volumeSize now).allocated block ↔
      block = (formatLayout volumeSize).dataStart := by
  have room := UInt32.lt_iff_toNat_lt.1 formattable.room
  rw [Volume.allocated_iff, Volume.mem_dataBlocks, formatImage_bit, decide_eq_true_iff]
  change ((formatLayout volumeSize).dataStart.toNat ≤ block.toNat ∧
    block.toNat < (formatLayout volumeSize).totalBlocks.toNat) ∧ _ ↔ _
  constructor
  · intro inUse
    exact UInt32.toNat_inj.1 (by omega)
  · intro same
    subst same
    exact ⟨⟨Nat.le_refl _, room⟩, Nat.le_refl _⟩

theorem formatImage_usedCount :
    (formatImage crypto hmacKey volumeSize now).usedCount = 1 := by
  have one : (formatImage crypto hmacKey volumeSize now).usedBlocks =
      {(formatLayout volumeSize).dataStart} := by
    ext block
    rw [Volume.mem_usedBlocks, formatImage_allocated formattable, Finset.mem_singleton]
  rw [← Volume.card_usedBlocks, one, Finset.card_singleton]

theorem formatImage_accounted (disk : Blocks) :
    Accounted (volumeSize.toNat / 4096) (formatImage crypto hmacKey volumeSize now) disk [] where
  layout := formatImage_layout crypto hmacKey now formattable
  ledger :=
    { injective := by
        intro s t block first second
        rw [formatImage_ref crypto hmacKey now formattable] at first second
        rw [first.1, second.1]
      used_iff := by
        intro block
        rw [formatImage_allocated formattable]
        constructor
        · intro same
          exact .inr ⟨(0, .direct 0), (formatImage_ref crypto hmacKey now formattable disk _ block).2 ⟨rfl, same⟩⟩
        · intro owned
          cases owned with
          | inl inHand => cases inHand
          | inr points =>
            obtain ⟨slot, points⟩ := points
            exact ((formatImage_ref crypto hmacKey now formattable disk slot block).1 points).2
      apart := fun inHand => by cases inHand
      nodup := List.nodup_nil }
  space := by
    have layout := formatImage_layout crypto hmacKey now formattable
    have free := formatImage_freeBlocks crypto hmacKey now formattable
    have room := layout.room
    have total := layout.totalBlocks
    unfold Volume.Space
    rw [formatImage_usedCount formattable, free]
    omega
  metadataBits := by
    intro i below
    rw [formatImage_bit, decide_eq_true_iff]
    exact Nat.le_of_lt below

omit formattable in
theorem formatImage_liveInodes :
    (formatImage crypto hmacKey volumeSize now).liveInodes = 1 := by
  have same : ∀ ino, decide (((formatImage crypto hmacKey volumeSize now).inodes ino).type ≠ itypeFree) =
      decide (ino = 0) := by
    intro ino
    by_cases first : ino = 0
    · subst first
      rfl
    · rw [formatImage_blank first]
      simp [first, blankInodeRecord]
  unfold Volume.liveInodes
  rw [funext same, upTo_eq]
  decide

variable (crypto hmacKey now) in
theorem formatImage_tree : Tree (formatImage crypto hmacKey volumeSize now) where
  rootType := rfl
  rootSize := rfl
  rootCount := ⟨Nat.one_pos, show 1 ≤ 20 by omega⟩
  rootDirect := by
    intro i
    have points := formatImage_ref crypto hmacKey now formattable
      (fun _ _ => 0) (0, .direct 0) (formatLayout volumeSize).dataStart
    have present := fileRef_ne_invalid (points.2 ⟨rfl, rfl⟩)
    have one : (newRoot (formatLayout volumeSize).dataStart now).blockCount.toNat = 1 := rfl
    rw [formatImage_root, newRoot_direct, one]
    by_cases first : i = 0
    · rw [if_pos first, first]
      exact ⟨fun _ => Nat.one_pos, fun _ => present⟩
    · rw [if_neg first]
      have apart : i.val ≠ 0 := fun zero => first (Fin.ext zero)
      exact ⟨fun absent => absurd rfl absent, fun small => by omega⟩
  rootSingle := rfl
  rootDouble := rfl
  types := by
    intro ino other
    rw [formatImage_blank other]
    exact .inl rfl
  blank := by
    intro ino free
    by_cases first : ino = 0
    · subst first
      rw [formatImage_root] at free
      cases free
    · rw [formatImage_blank first]
      exact blankInodeRecord_blank
  sizes := by
    intro ino
    by_cases first : ino = 0
    · subst first
      exact Nat.zero_le _
    · rw [formatImage_blank first]
      exact Nat.zero_le _
  freeInodes := by
    rw [formatImage_liveInodes]
    rfl

/-! ## The blocks of a new volume -/

/-- The blocks hold the metadata of the volume and, where it says its root directory is, a
block of unused entries. -/
structure Formatted (vol : Volume) (disk : Blocks) : Prop where
  stored : vol.Stored disk
  root : disk vol.sb.dataStart = direntsSector fun _ => emptyDirent

omit formattable in
theorem Formatted.entryAt {disk : Blocks}
    (formatted : Formatted (formatImage crypto hmacKey volumeSize now) disk) (p : DirentSlot) :
    entryAt (formatImage crypto hmacKey volumeSize now) disk p = emptyDirent := by
  unfold DenyFS.entryAt
  rw [formatImage_root, newRoot_direct]
  by_cases first : p.1 = 0
  · have root : disk (formatLayout volumeSize).dataStart = direntsSector fun _ => emptyDirent :=
      formatted.root
    rw [if_pos first, root, Equiv.symm_apply_apply]
    split
    · rfl
    · rfl
  · rw [if_neg first, if_pos rfl]

theorem Formatted.wellFormed {disk : Blocks}
    (formatted : Formatted (formatImage crypto hmacKey volumeSize now) disk) :
    WellFormed (volumeSize.toNat / 4096) (formatImage crypto hmacKey volumeSize now) disk where
  sound :=
    { accounted := formatImage_accounted formattable disk
      counted := by
        intro ino
        have tree := formatImage_tree crypto hmacKey now formattable
        by_cases first : ino = 0
        · subst first
          exact (card_mappedSlots_root tree.rootSingle tree.rootDouble tree.rootDirect
            tree.rootCount.2).symm
        · rw [formatImage_blank first]
          have none : mappedSlots blankInodeRecord disk = ∅ := by
            ext s
            rw [mem_mappedSlots, blankInodeRecord_blank.fileRef_eq_none]
            simp
          rw [none]
          rfl
      compact := by
        intro ino
        by_cases first : ino = 0
        · subst first
          exact compact_of_no_tables rfl rfl
        · rw [formatImage_blank first]
          exact compact_of_no_tables rfl rfl
      tree := formatImage_tree crypto hmacKey now formattable
      directory :=
        { valid := by
            intro p
            rw [formatted.entryAt]
            rfl
          names := by
            intro p q name named
            rw [nameRef_eq_some, formatted.entryAt] at named
            exact absurd rfl named.1
          inodes := by
            intro p q ino listed
            rw [inodeRef_eq_some, formatted.entryAt] at listed
            exact absurd rfl listed.1
          file := by
            intro p ino listed
            rw [inodeRef_eq_some, formatted.entryAt] at listed
            exact absurd rfl listed.1
          listed := by
            intro ino other file
            rw [formatImage_blank other] at file
            cases file } }
  within := by
    intro ino other s _ mapped
    rw [formatImage_blank other, blankInodeRecord_blank.fileRef_eq_none] at mapped
    exact absurd rfl mapped

end Image

end DenyFS
