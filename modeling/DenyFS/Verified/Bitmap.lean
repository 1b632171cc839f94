import DenyFS.Library.Ledger
import DenyFS.Model.Validate

/-! # The bitmap

What setting and clearing a bit does to the other bits, and what taking and releasing a block
does to a volume. -/

namespace DenyFS

/-! ## Bits of a byte -/

theorem byte_bit (byte : UInt8) (j : Fin 8) :
    (byte &&& (1 <<< UInt8.ofNat j.val) != 0) = byte.toBitVec.getLsbD j.val := by
  obtain ⟨⟨value⟩⟩ := byte
  revert value j
  decide +kernel

theorem mask_bit (j k : Fin 8) :
    (1 <<< UInt8.ofNat k.val : UInt8).toBitVec.getLsbD j.val = (j == k) := by
  revert j k
  decide +kernel

theorem byte_or_bit (byte : UInt8) (j k : Fin 8) :
    ((byte ||| (1 <<< UInt8.ofNat k.val)) &&& (1 <<< UInt8.ofNat j.val) != 0) =
      ((byte &&& (1 <<< UInt8.ofNat j.val) != 0) || j == k) := by
  rw [byte_bit, byte_bit, UInt8.toBitVec_or, BitVec.getLsbD_or, mask_bit]

theorem byte_andNot_bit (byte : UInt8) (j k : Fin 8) :
    ((byte &&& ~~~(1 <<< UInt8.ofNat k.val)) &&& (1 <<< UInt8.ofNat j.val) != 0) =
      ((byte &&& (1 <<< UInt8.ofNat j.val) != 0) && j != k) := by
  have inByte : decide (j.val < 8) = true := decide_eq_true j.isLt
  rw [byte_bit, byte_bit, UInt8.toBitVec_and, BitVec.getLsbD_and, UInt8.toBitVec_not,
    BitVec.getLsbD_not, mask_bit, inByte, Bool.true_and]
  rfl

theorem bitAt_setBit (bitmap : Nat → UInt8) (i j : Nat) :
    bitAt (setBit bitmap i) j = (bitAt bitmap j || decide (j = i)) := by
  unfold bitAt setBit
  by_cases sameByte : j / 8 = i / 8
  · rw [sameByte, Function.update_self]
    have bits := byte_or_bit (bitmap (i / 8)) ⟨j % 8, by omega⟩ ⟨i % 8, by omega⟩
    dsimp only at bits
    rw [bits]
    congr 1
    rw [Bool.eq_iff_iff, beq_iff_eq, Fin.mk.injEq, decide_eq_true_eq]
    omega
  · rw [Function.update_of_ne sameByte]
    have other : j ≠ i := fun same => sameByte (same ▸ rfl)
    simp [other]

theorem bitAt_clearBit (bitmap : Nat → UInt8) (i j : Nat) :
    bitAt (clearBit bitmap i) j = (bitAt bitmap j && decide (j ≠ i)) := by
  unfold bitAt clearBit
  by_cases sameByte : j / 8 = i / 8
  · rw [sameByte, Function.update_self]
    have bits := byte_andNot_bit (bitmap (i / 8)) ⟨j % 8, by omega⟩ ⟨i % 8, by omega⟩
    dsimp only at bits
    rw [bits]
    congr 1
    rw [Bool.eq_iff_iff, bne_iff_ne, ne_eq, Fin.mk.injEq, decide_eq_true_eq]
    omega
  · rw [Function.update_of_ne sameByte]
    have other : j ≠ i := fun same => sameByte (same ▸ rfl)
    simp [other]

/-- A bitmap is determined by its bits. -/
theorem bitmap_ext {first second : Nat → UInt8} (same : ∀ i, bitAt first i = bitAt second i) :
    first = second := by
  funext k
  rw [← UInt8.toBitVec_inj]
  refine BitVec.eq_of_getLsbD_eq fun j inByte => ?_
  have bits := same (8 * k + j)
  have byte : (8 * k + j) / 8 = k := by omega
  have position : (8 * k + j) % 8 = j := by omega
  simp only [bitAt, byte, position] at bits
  rwa [byte_bit (first k) ⟨j, inByte⟩, byte_bit (second k) ⟨j, inByte⟩] at bits

/-! ## Layout and space -/

/-- The fields of the superblock that no operation changes. -/
def Superblock.SameLayout (before after : Superblock) : Prop :=
  after = { before with
    freeBlocks := after.freeBlocks, freeInodes := after.freeInodes
    bitmapHmac := after.bitmapHmac }

namespace Superblock.SameLayout

variable {a b c : Superblock}

theorem refl (a : Superblock) : SameLayout a a := rfl

theorem trans (first : SameLayout a b) (second : SameLayout b c) : SameLayout a c := by
  unfold SameLayout at *
  rw [second, first]

theorem totalBlocks (same : SameLayout a b) : b.totalBlocks = a.totalBlocks := by
  rw [same]

theorem dataStart (same : SameLayout a b) : b.dataStart = a.dataStart := by
  rw [same]

theorem bitmapBlocks (same : SameLayout a b) : b.bitmapBlocks = a.bitmapBlocks := by
  rw [same]

end Superblock.SameLayout

namespace Volume

variable (vol : Volume)

/-- How many blocks of the data region have their bit set. -/
def usedCount : Nat := vol.dataBlocks.countP fun i => vol.bit i

/-- `free_blocks` counts the clear bits of the data region. -/
def Space : Prop :=
  vol.sb.freeBlocks.toNat + vol.usedCount =
    vol.sb.totalBlocks.toNat - vol.sb.dataStart.toNat

theorem mem_dataBlocks {i : Nat} :
    i ∈ vol.dataBlocks ↔ vol.sb.dataStart.toNat ≤ i ∧ i < vol.sb.totalBlocks.toNat := by
  unfold dataBlocks
  rw [List.mem_range'_1]
  omega

theorem dataBlocks_nodup : vol.dataBlocks.Nodup := List.nodup_range'

theorem usedCount_le : vol.usedCount ≤ vol.sb.totalBlocks.toNat - vol.sb.dataStart.toNat := by
  calc vol.usedCount ≤ vol.dataBlocks.length := List.countP_le_length
    _ = vol.sb.totalBlocks.toNat - vol.sb.dataStart.toNat := List.length_range'

theorem allocated_iff (block : UInt32) :
    vol.allocated block ↔ block.toNat ∈ vol.dataBlocks ∧ vol.bit block.toNat = true := by
  rw [mem_dataBlocks, allocated, UInt32.le_iff_toNat_le, UInt32.lt_iff_toNat_lt, and_assoc]

@[simp] theorem setInode_sb (ino : Fin 64) (inode : Inode) : (vol.setInode ino inode).sb = vol.sb :=
  rfl

@[simp] theorem setInode_bit (ino : Fin 64) (inode : Inode) (i : Nat) :
    (vol.setInode ino inode).bit i = vol.bit i := rfl

@[simp] theorem setInode_allocated (ino : Fin 64) (inode : Inode) (block : UInt32) :
    (vol.setInode ino inode).allocated block ↔ vol.allocated block := Iff.rfl

@[simp] theorem setInode_usedCount (ino : Fin 64) (inode : Inode) :
    (vol.setInode ino inode).usedCount = vol.usedCount := rfl

@[simp] theorem setInode_inodes (ino : Fin 64) (inode : Inode) :
    (vol.setInode ino inode).inodes = Function.update vol.inodes ino inode := rfl

@[simp] theorem takeBlock_inodes (i : Nat) : (vol.takeBlock i).inodes = vol.inodes := rfl

@[simp] theorem takeBlock_bit (i j : Nat) :
    (vol.takeBlock i).bit j = (vol.bit j || decide (j = i)) := bitAt_setBit vol.bitmap i j

theorem takeBlock_layout (i : Nat) : vol.sb.SameLayout (vol.takeBlock i).sb := rfl

@[simp] theorem takeBlock_dataBlocks (i : Nat) : (vol.takeBlock i).dataBlocks = vol.dataBlocks :=
  rfl

@[simp] theorem releaseBlock_inodes (i : Nat) : (vol.releaseBlock i).inodes = vol.inodes := rfl

@[simp] theorem releaseBlock_bit (i j : Nat) :
    (vol.releaseBlock i).bit j = (vol.bit j && decide (j ≠ i)) := bitAt_clearBit vol.bitmap i j

theorem releaseBlock_layout (i : Nat) : vol.sb.SameLayout (vol.releaseBlock i).sb := rfl

@[simp] theorem releaseBlock_dataBlocks (i : Nat) :
    (vol.releaseBlock i).dataBlocks = vol.dataBlocks := rfl

variable {vol}

/-- Giving back what was just taken changes the dirty flags at most. -/
theorem release_take {i : Nat} (clear : vol.bit i = false) :
    ∃ dirty, (vol.takeBlock i).releaseBlock i = { vol with bitmapDirty := dirty } := by
  refine ⟨((vol.takeBlock i).releaseBlock i).bitmapDirty, ?_⟩
  have bits : ((vol.takeBlock i).releaseBlock i).bitmap = vol.bitmap := by
    refine bitmap_ext fun j => ?_
    change ((vol.takeBlock i).releaseBlock i).bit j = vol.bit j
    rw [releaseBlock_bit, takeBlock_bit]
    by_cases here : j = i
    · simp [here, clear]
    · simp [here]
  have free : vol.sb.freeBlocks - 1 + 1 = vol.sb.freeBlocks := UInt32.sub_add_cancel _ _
  rw [← bits]
  simp only [releaseBlock, takeBlock, free]

/-- The same for two blocks, given back in the order they were taken. -/
theorem release_take_two {i j : Nat} (clear : vol.bit i = false) (clear' : vol.bit j = false) :
    ∃ dirty, (((vol.takeBlock i).takeBlock j).releaseBlock i).releaseBlock j =
      { vol with bitmapDirty := dirty } := by
  refine ⟨((((vol.takeBlock i).takeBlock j).releaseBlock i).releaseBlock j).bitmapDirty, ?_⟩
  have bits : ((((vol.takeBlock i).takeBlock j).releaseBlock i).releaseBlock j).bitmap =
      vol.bitmap := by
    refine bitmap_ext fun k => ?_
    change ((((vol.takeBlock i).takeBlock j).releaseBlock i).releaseBlock j).bit k = vol.bit k
    rw [releaseBlock_bit, releaseBlock_bit, takeBlock_bit, takeBlock_bit]
    by_cases first : k = i
    · simp [first, clear]
    by_cases second : k = j
    · simp [second, clear']
    · simp [first, second]
  have free : vol.sb.freeBlocks - 1 - 1 + 1 + 1 = vol.sb.freeBlocks := by
    rw [UInt32.sub_add_cancel, UInt32.sub_add_cancel]
  rw [← bits]
  simp only [releaseBlock, takeBlock, free]

theorem takeBlock_allocated {i : Nat} (inData : i ∈ vol.dataBlocks) (small : i < 2 ^ 32)
    (block : UInt32) :
    (vol.takeBlock i).allocated block ↔ vol.allocated block ∨ block = UInt32.ofNat i := by
  rw [allocated_iff, allocated_iff, takeBlock_bit, takeBlock_dataBlocks, Bool.or_eq_true,
    decide_eq_true_eq, ← UInt32.toNat_inj, UInt32.toNat_ofNat_of_lt' small]
  constructor
  · rintro ⟨member, set | equal⟩
    · exact .inl ⟨member, set⟩
    · exact .inr equal
  · rintro (⟨member, set⟩ | equal)
    · exact ⟨member, .inl set⟩
    · exact ⟨equal ▸ inData, .inr equal⟩

theorem takeBlock_usedCount {i : Nat} (inData : i ∈ vol.dataBlocks) (clear : vol.bit i = false) :
    (vol.takeBlock i).usedCount = vol.usedCount + 1 := by
  refine Ownership.countP_of_added vol.dataBlocks_nodup inData clear (by simp) ?_
  intro j _ other
  simp [other]

theorem takeBlock_space {i : Nat} (space : vol.Space) (inData : i ∈ vol.dataBlocks)
    (clear : vol.bit i = false) :
    (vol.takeBlock i).Space ∧
      vol.sb.freeBlocks.toNat = (vol.takeBlock i).sb.freeBlocks.toNat + 1 := by
  have count := takeBlock_usedCount inData clear
  have bound := (vol.takeBlock i).usedCount_le
  have layout := vol.takeBlock_layout i
  unfold Space at *
  rw [layout.totalBlocks, layout.dataStart] at *
  have positive : 1 ≤ vol.sb.freeBlocks.toNat := by omega
  have fewer : (vol.takeBlock i).sb.freeBlocks.toNat = vol.sb.freeBlocks.toNat - 1 :=
    UInt32.toNat_sub_of_le _ _ (UInt32.le_iff_toNat_le.mpr positive)
  omega

theorem releaseBlock_allocated {i : Nat} (small : i < 2 ^ 32) (block : UInt32) :
    (vol.releaseBlock i).allocated block ↔ vol.allocated block ∧ block ≠ UInt32.ofNat i := by
  rw [allocated_iff, allocated_iff, releaseBlock_bit, releaseBlock_dataBlocks, Bool.and_eq_true,
    decide_eq_true_eq, ne_eq, ne_eq, ← UInt32.toNat_inj, UInt32.toNat_ofNat_of_lt' small, and_assoc]

theorem releaseBlock_usedCount {i : Nat} (inData : i ∈ vol.dataBlocks)
    (set : vol.bit i = true) : vol.usedCount = (vol.releaseBlock i).usedCount + 1 := by
  refine Ownership.countP_of_added vol.dataBlocks_nodup inData (by simp) set ?_
  intro j _ other
  simp [other]

theorem releaseBlock_space {i : Nat} (space : vol.Space) (inData : i ∈ vol.dataBlocks)
    (set : vol.bit i = true) :
    (vol.releaseBlock i).Space ∧
      (vol.releaseBlock i).sb.freeBlocks.toNat = vol.sb.freeBlocks.toNat + 1 := by
  have count := releaseBlock_usedCount inData set
  have bound := vol.usedCount_le
  have layout := vol.releaseBlock_layout i
  unfold Space at *
  rw [layout.totalBlocks, layout.dataStart] at *
  have small := vol.sb.totalBlocks.toNat_lt
  have more : (vol.releaseBlock i).sb.freeBlocks.toNat = vol.sb.freeBlocks.toNat + 1 := by
    have sum : (vol.releaseBlock i).sb.freeBlocks.toNat =
        (vol.sb.freeBlocks.toNat + 1) % 2 ^ 32 := UInt32.toNat_add _ _
    omega
  omega

end Volume

/-! ## Allocation -/

/-- With at most `limit` blocks in use, the index of the first free one is no negative `int`. -/
theorem first_fit_small {vol : Volume} {limit i : Nat}
    (bounded : ∀ blocks : Finset UInt32, (∀ c ∈ blocks, vol.allocated c) → blocks.card ≤ limit)
    (small : i < 2 ^ 32) (upper : i < vol.sb.totalBlocks.toNat)
    (first : ∀ j ∈ vol.dataBlocks, j < i → vol.bit j = true) :
    i ≤ vol.sb.dataStart.toNat + limit := by
  classical
  let below := (Finset.Ico vol.sb.dataStart.toNat i).image UInt32.ofNat
  have inUse : ∀ c ∈ below, vol.allocated c := by
    intro c member
    obtain ⟨j, range, rfl⟩ := Finset.mem_image.1 member
    rw [Finset.mem_Ico] at range
    have inData : j ∈ vol.dataBlocks := vol.mem_dataBlocks.2 ⟨range.1, by omega⟩
    rw [Volume.allocated_iff, UInt32.toNat_ofNat_of_lt' (show j < UInt32.size by
      simp only [UInt32.size]; omega)]
    exact ⟨inData, first j inData range.2⟩
  have card : below.card = i - vol.sb.dataStart.toNat := by
    rw [Finset.card_image_of_injOn, Nat.card_Ico]
    intro a inA b inB equal
    rw [Finset.mem_coe, Finset.mem_Ico] at inA inB
    have same := congrArg UInt32.toNat equal
    rw [UInt32.toNat_ofNat_of_lt' (show a < UInt32.size by simp only [UInt32.size]; omega),
      UInt32.toNat_ofNat_of_lt' (show b < UInt32.size by simp only [UInt32.size]; omega)] at same
    exact same
  have := bounded below inUse
  omega

/-- What `alloc_block` does: nothing where no block is free, and otherwise it takes the first
free block of the data region. -/
theorem allocBlock_cases {vol : Volume} {limit : Nat} (space : vol.Space)
    (bounded : ∀ blocks : Finset UInt32, (∀ c ∈ blocks, vol.allocated c) → blocks.card ≤ limit)
    (room : vol.sb.dataStart.toNat + limit < 2 ^ 31) :
    (vol.sb.freeBlocks = 0 ∧ allocBlock vol = (-1, vol)) ∨
      ∃ block : UInt32, 0 < vol.sb.freeBlocks.toNat ∧
        allocBlock vol = ((block.toNat : Int), vol.takeBlock block.toNat) ∧
        block.toNat ∈ vol.dataBlocks ∧ vol.bit block.toNat = false ∧
        ∀ j ∈ vol.dataBlocks, j < block.toNat → vol.bit j = true := by
  unfold allocBlock
  have same : List.range' vol.sb.dataStart.toNat
      (vol.sb.totalBlocks.toNat - vol.sb.dataStart.toNat) = vol.dataBlocks := rfl
  rw [same]
  cases found : vol.dataBlocks.find? fun i => !vol.bit i with
  | none =>
    refine .inl ⟨?_, rfl⟩
    have full : vol.usedCount = vol.dataBlocks.length := by
      refine List.countP_eq_length.2 fun j member => ?_
      simpa using List.find?_eq_none.1 found j member
    have length : vol.dataBlocks.length =
        vol.sb.totalBlocks.toNat - vol.sb.dataStart.toNat := List.length_range'
    unfold Volume.Space at space
    exact UInt32.toNat_inj.1 (show vol.sb.freeBlocks.toNat = 0 by omega)
  | some i =>
    have clear : vol.bit i = false := by simpa using List.find?_some found
    have inData := List.mem_of_find?_eq_some found
    have upper := (vol.mem_dataBlocks.1 inData).2
    have small : i < 2 ^ 32 := by
      have := vol.sb.totalBlocks.toNat_lt
      omega
    have first : ∀ j ∈ vol.dataBlocks, j < i → vol.bit j = true := by
      intro j member before
      by_contra unset
      have least := List.find?_eq_some_iff_append.1 found
      obtain ⟨_, front, back, split, passed⟩ := least
      have sorted : vol.dataBlocks.Pairwise (· < ·) := List.pairwise_lt_range'
      rw [split] at member sorted
      rcases List.mem_append.1 member with inFront | inBack
      · have := passed j inFront
        simp_all
      · rcases List.mem_cons.1 inBack with rfl | later
        · omega
        · have := List.rel_of_pairwise_cons (List.pairwise_append.1 sorted).2.1 later
          omega
    have positive : (UInt32.ofNat i).toInt32.toInt = i := by
      have bound := first_fit_small bounded small upper first
      have value : (UInt32.ofNat i).toNat = i := UInt32.toNat_ofNat_of_lt' small
      rw [← value]
      exact Int32.toInt_ofNat_of_lt (by omega)
    refine .inr ⟨UInt32.ofNat i, ?_, ?_⟩
    · have := (Volume.takeBlock_space space inData clear).2
      omega
    · rw [UInt32.toNat_ofNat_of_lt' small]
      exact ⟨by simp only [positive], inData, clear, first⟩

theorem freeBlock_of_allocated {vol : Volume} {block : UInt32} (inUse : vol.allocated block) :
    freeBlock vol block = vol.releaseBlock block.toNat := if_pos inUse

theorem freeBlock_of_free {vol : Volume} {block : UInt32} (free : ¬vol.allocated block) :
    freeBlock vol block = vol := if_neg free

end DenyFS
