import DenyFS.Library.Ledger
import DenyFS.Model.Validate
import Mathlib.Data.Fintype.Prod
import Mathlib.Data.Fintype.Sum

/-! # The block map of a file as slots

Everything that can point to a block is a slot: the 20 direct pointers of an inode, its two
table pointers, the entries of its tables.  `fileRef` reads a slot off the in-memory inode and
the tables on disk; the slots of all inodes together are what the bitmap accounts for. -/

namespace DenyFS

open Packed BlockProgram Ownership

/-- The contents of a volume, block by block. -/
abbrev Blocks : Type := UInt32 → Sector

/-- A volume of `count` blocks whose I/O never fails. -/
def plainDevice (count : Nat) : Device Blocks UInt32 Sector Errno where
  read block disk := (if block.toNat < count then .ok (disk block) else .error .eperm, disk)
  write block data disk :=
    if block.toNat < count then (.ok (), Function.update disk block data)
    else (.error .eperm, disk)

/-! ## Loops over all indices -/

theorem upTo_nodup (n : Nat) : (upTo n).Nodup := by
  rw [upTo_eq]
  exact List.nodup_finRange n

@[simp] theorem mem_upTo {n : Nat} (i : Fin n) : i ∈ upTo n := by
  rw [upTo_eq]
  exact List.mem_finRange i

/-! ## Tables -/

/-- The pointer table in a block, empty where there is no block. -/
def tableAt (disk : Blocks) (block : UInt32) : Pointers :=
  if block = invalidBlock then emptyPointers else pointersSector.symm (disk block)

@[simp] theorem tableAt_invalid (disk : Blocks) : tableAt disk invalidBlock = emptyPointers :=
  if_pos rfl

theorem tableAt_of_ne {disk : Blocks} {block : UInt32} (present : block ≠ invalidBlock) :
    tableAt disk block = pointersSector.symm (disk block) := if_neg present

theorem tableAt_update_of_ne (disk : Blocks) {block other : UInt32} (data : Sector)
    (apart : other ≠ block) :
    tableAt (Function.update disk block data) other = tableAt disk other := by
  unfold tableAt
  rw [Function.update_of_ne apart]

theorem tableAt_update_self (disk : Blocks) {block : UInt32} (pointers : Pointers)
    (present : block ≠ invalidBlock) :
    tableAt (Function.update disk block (pointersSector pointers)) block = pointers := by
  rw [tableAt_of_ne present, Function.update_self, Equiv.symm_apply_apply]

namespace Inode

def singleTable (inode : Inode) (disk : Blocks) : Pointers := tableAt disk inode.indirectBlock

def rootTable (inode : Inode) (disk : Blocks) : Pointers :=
  tableAt disk inode.doubleIndirectBlock

def childTable (inode : Inode) (disk : Blocks) (outer : Fin 1024) : Pointers :=
  tableAt disk (inode.rootTable disk outer)

end Inode

/-! ## Slots -/

inductive FileSlot where
  | direct (i : Fin 20)
  | single
  | entry (i : Fin 1024)
  | root
  | child (outer : Fin 1024)
  | leaf (outer inner : Fin 1024)
  deriving DecidableEq

/-- The slots one after another, as a sum. -/
def FileSlot.code : FileSlot →
    Fin 20 ⊕ Unit ⊕ Fin 1024 ⊕ Unit ⊕ Fin 1024 ⊕ (Fin 1024 × Fin 1024)
  | .direct i => .inl i
  | .single => .inr (.inl ())
  | .entry i => .inr (.inr (.inl i))
  | .root => .inr (.inr (.inr (.inl ())))
  | .child outer => .inr (.inr (.inr (.inr (.inl outer))))
  | .leaf outer inner => .inr (.inr (.inr (.inr (.inr (outer, inner)))))

theorem FileSlot.code_injective : Function.Injective FileSlot.code := by
  intro s t equal
  cases s <;> cases t <;> simp_all [FileSlot.code]

noncomputable instance : Fintype FileSlot := Fintype.ofInjective _ FileSlot.code_injective

/-- The slots that point to file data. -/
def FileSlot.IsData : FileSlot → Prop
  | .direct _ | .entry _ | .leaf _ _ => True
  | .single | .root | .child _ => False

instance (s : FileSlot) : Decidable s.IsData := by
  cases s <;> unfold FileSlot.IsData <;> infer_instance

/-- A block number, unless it is `DENYFS_INVALID_BLOCK`. -/
def pointer (block : UInt32) : Option UInt32 := if block = invalidBlock then none else some block

@[simp] theorem pointer_invalid : pointer invalidBlock = none := if_pos rfl

theorem pointer_of_ne {block : UInt32} (present : block ≠ invalidBlock) :
    pointer block = some block := if_neg present

@[simp] theorem pointer_eq_some {block b : UInt32} :
    pointer block = some b ↔ block = b ∧ b ≠ invalidBlock := by
  unfold pointer
  split
  · constructor
    · intro impossible
      cases impossible
    · rintro ⟨rfl, present⟩
      contradiction
  · rw [Option.some.injEq]
    constructor
    · rintro rfl
      exact ⟨rfl, ‹_›⟩
    · exact And.left

@[simp] theorem pointer_eq_none {block : UInt32} : pointer block = none ↔ block = invalidBlock := by
  unfold pointer
  split
  · simp [*]
  · simp [*]

def fileRef (inode : Inode) (disk : Blocks) : FileSlot → Option UInt32
  | .direct i => pointer (inode.direct i)
  | .single => pointer inode.indirectBlock
  | .entry i => pointer (inode.singleTable disk i)
  | .root => pointer inode.doubleIndirectBlock
  | .child outer => pointer (inode.rootTable disk outer)
  | .leaf outer inner => pointer (inode.childTable disk outer inner)

/-- A slot of the volume: an inode and a slot of its block map. -/
abbrev Slot : Type := Fin 64 × FileSlot

def ref (vol : Volume) (disk : Blocks) (slot : Slot) : Option UInt32 :=
  fileRef (vol.inodes slot.1) disk slot.2

/-- The slots that point to pointer tables. -/
def FileSlot.IsTable : FileSlot → Prop
  | .single | .root | .child _ => True
  | .direct _ | .entry _ | .leaf _ _ => False

theorem fileRef_ne_invalid {inode : Inode} {disk : Blocks} {s : FileSlot} {block : UInt32}
    (points : fileRef inode disk s = some block) : block ≠ invalidBlock := by
  cases s <;> exact (pointer_eq_some.1 points).2

/-- The block map depends on the disk through the file's tables alone. -/
theorem fileRef_congr {inode : Inode} {disk disk' : Blocks}
    (same : ∀ s : FileSlot, s.IsTable → ∀ block, fileRef inode disk s = some block →
      disk' block = disk block) (s : FileSlot) : fileRef inode disk' s = fileRef inode disk s := by
  have table : ∀ (t : FileSlot) (block : UInt32), t.IsTable →
      fileRef inode disk t = pointer block → tableAt disk' block = tableAt disk block := by
    intro t block isTable reads
    unfold tableAt
    split
    · rfl
    next present =>
      rw [same t isTable block (by rw [reads, pointer_of_ne present])]
  have rootSame : inode.rootTable disk' = inode.rootTable disk := table .root _ trivial rfl
  cases s with
  | direct i => rfl
  | single => rfl
  | root => rfl
  | entry i =>
    have single : inode.singleTable disk' = inode.singleTable disk := table .single _ trivial rfl
    simp only [fileRef, single]
  | child outer => simp only [fileRef, rootSame]
  | leaf outer inner =>
    have child : inode.childTable disk' outer = inode.childTable disk outer := by
      unfold Inode.childTable
      rw [rootSame]
      exact table (.child outer) _ trivial rfl
    simp only [fileRef, child]

theorem ref_congr {vol : Volume} {disk disk' : Blocks}
    (same : ∀ slot : Slot, slot.2.IsTable → ∀ block, ref vol disk slot = some block →
      disk' block = disk block) (slot : Slot) : ref vol disk' slot = ref vol disk slot := by
  have inFile : ∀ s : FileSlot, s.IsTable → ∀ block,
      fileRef (vol.inodes slot.1) disk s = some block → disk' block = disk block :=
    fun s isTable => same (slot.1, s) isTable
  exact fileRef_congr inFile slot.2

/-- The places a logical block of a file is found under. -/
def place (logicalBlock : Nat) : FileSlot :=
  if logicalBlock < 20 then .direct (Fin.ofNat 20 logicalBlock)
  else if logicalBlock - 20 < 1024 then .entry (Fin.ofNat 1024 (logicalBlock - 20))
  else .leaf (Fin.ofNat 1024 ((logicalBlock - 20 - 1024) / 1024))
    (Fin.ofNat 1024 ((logicalBlock - 20 - 1024) % 1024))

/-- The logical block a data slot stands for. -/
def FileSlot.logical : FileSlot → Nat
  | .direct i => i.val
  | .entry i => 20 + i.val
  | .leaf outer inner => 20 + 1024 + outer.val * 1024 + inner.val
  | .single | .root | .child _ => 0

theorem place_isData (logicalBlock : Nat) : (place logicalBlock).IsData := by
  unfold place
  split
  · trivial
  split <;> trivial

theorem logical_place {logicalBlock : Nat} (small : logicalBlock < maxFileBlocks) :
    (place logicalBlock).logical = logicalBlock := by
  unfold maxFileBlocks at small
  unfold place
  split
  · simp only [FileSlot.logical, Fin.ofNat]
    omega
  split
  · simp only [FileSlot.logical, Fin.ofNat]
    omega
  · simp only [FileSlot.logical, Fin.ofNat]
    omega

@[simp] theorem logical_direct (i : Fin 20) : (FileSlot.direct i).logical = i.val := rfl

@[simp] theorem logical_entry (i : Fin 1024) : (FileSlot.entry i).logical = 20 + i.val := rfl

@[simp] theorem logical_leaf (outer inner : Fin 1024) :
    (FileSlot.leaf outer inner).logical = 20 + 1024 + outer.val * 1024 + inner.val := rfl

theorem place_logical {s : FileSlot} (isData : s.IsData) : place s.logical = s := by
  cases s with
  | direct i =>
    rw [logical_direct, place, if_pos i.isLt, FileSlot.direct.injEq, ← Fin.val_inj]
    exact Nat.mod_eq_of_lt i.isLt
  | entry i =>
    rw [logical_entry, place, if_neg (by omega), if_pos (by omega), FileSlot.entry.injEq,
      ← Fin.val_inj]
    simp only [Fin.ofNat]
    omega
  | leaf outer inner =>
    rw [logical_leaf, place, if_neg (by omega), if_neg (by omega), FileSlot.leaf.injEq,
      ← Fin.val_inj, ← Fin.val_inj]
    simp only [Fin.ofNat]
    omega
  | single => exact isData.elim
  | root => exact isData.elim
  | child outer => exact isData.elim

theorem logical_lt {s : FileSlot} (isData : s.IsData) : s.logical < maxFileBlocks := by
  have limit : maxFileBlocks = 1049620 := rfl
  rw [limit]
  cases s with
  | direct i =>
    rw [logical_direct]
    omega
  | entry i =>
    rw [logical_entry]
    omega
  | leaf outer inner =>
    rw [logical_leaf]
    omega
  | single => exact isData.elim
  | root => exact isData.elim
  | child outer => exact isData.elim

/-- The block a file maps at a logical block, as a block number. -/
def Inode.mapped (inode : Inode) (disk : Blocks) (logicalBlock : Nat) : Option UInt32 :=
  fileRef inode disk (place logicalBlock)

/-- The data slots of a file that point somewhere. -/
noncomputable def mappedSlots (inode : Inode) (disk : Blocks) : Finset FileSlot :=
  Finset.univ.filter fun s => s.IsData ∧ fileRef inode disk s ≠ none

theorem mem_mappedSlots {inode : Inode} {disk : Blocks} {s : FileSlot} :
    s ∈ mappedSlots inode disk ↔ s.IsData ∧ fileRef inode disk s ≠ none := by
  unfold mappedSlots
  rw [Finset.mem_filter]
  exact and_iff_right (Finset.mem_univ s)

theorem card_codes (a b : Nat) :
    Fintype.card (Fin a ⊕ Unit ⊕ Fin b ⊕ Unit ⊕ Fin b ⊕ (Fin b × Fin b)) =
      a + (1 + (b + (1 + (b + b * b)))) := by
  simp only [Fintype.card_prod, Fintype.card_sum, Fintype.card_fin, Fintype.card_unit]

theorem card_fileSlot_le :
    Fintype.card FileSlot ≤ 20 + (1 + (1024 + (1 + (1024 + 1024 * 1024)))) :=
  (Fintype.card_le_of_injective _ FileSlot.code_injective).trans_eq (card_codes 20 1024)

/-- There are fewer slots than a C `int` has values. -/
theorem card_slot_le : Fintype.card Slot ≤ 2 ^ 27 := by
  have bound := card_fileSlot_le
  have pairs : Fintype.card Slot = 64 * Fintype.card FileSlot := by
    rw [Fintype.card_prod, Fintype.card_fin]
  omega

/-! ## Changing the block map -/

variable {inode inode' : Inode} {disk disk' : Blocks}

variable (inode disk) in
theorem fileRef_setDirect (i : Fin 20) (block : UInt32) :
    fileRef { inode with direct := Function.update inode.direct i block } disk =
      Function.update (fileRef inode disk) (.direct i) (pointer block) := by
  funext s
  by_cases here : s = .direct i
  · subst here
    simp only [fileRef, Function.update_self]
  rw [Function.update_of_ne here]
  cases s with
  | direct j =>
    have other : j ≠ i := fun same => here (same ▸ rfl)
    simp only [fileRef, Function.update_of_ne other]
  | single => rfl
  | entry i => rfl
  | root => rfl
  | child outer => rfl
  | leaf outer inner => rfl

variable (inode inode' disk) in
/-- An entry of the single-indirect table changes, and perhaps the table is a new one. -/
theorem fileRef_setEntry (i : Fin 1024) (block : UInt32)
    (direct : inode'.direct = inode.direct)
    (double : inode'.doubleIndirectBlock = inode.doubleIndirectBlock)
    (table : inode'.singleTable disk' = Function.update (inode.singleTable disk) i block)
    (roots : inode'.rootTable disk' = inode.rootTable disk)
    (children : inode'.childTable disk' = inode.childTable disk) :
    fileRef inode' disk' = Function.update
      (Function.update (fileRef inode disk) .single (pointer inode'.indirectBlock))
      (.entry i) (pointer block) := by
  funext s
  cases s with
  | direct j => simp only [fileRef, direct, ne_eq, reduceCtorEq, not_false_eq_true,
      Function.update_of_ne]
  | single => simp only [fileRef, ne_eq, reduceCtorEq, not_false_eq_true, Function.update_of_ne,
      Function.update_self]
  | entry j =>
    simp only [fileRef, table, Function.update_apply, FileSlot.entry.injEq, reduceCtorEq, if_false]
    split <;> rfl
  | root => simp only [fileRef, double, ne_eq, reduceCtorEq, not_false_eq_true,
      Function.update_of_ne]
  | child outer => simp only [fileRef, roots, ne_eq, reduceCtorEq, not_false_eq_true,
      Function.update_of_ne]
  | leaf outer inner => simp only [fileRef, children, ne_eq, reduceCtorEq, not_false_eq_true,
      Function.update_of_ne]

variable (inode inode' disk) in
/-- An entry of a child of the double-indirect root changes; the child and the root are perhaps
new ones. -/
theorem fileRef_setLeaf (outer inner : Fin 1024) (child block : UInt32)
    (direct : inode'.direct = inode.direct)
    (single : inode'.indirectBlock = inode.indirectBlock)
    (table : inode'.singleTable disk' = inode.singleTable disk)
    (roots : inode'.rootTable disk' = Function.update (inode.rootTable disk) outer child)
    (children : inode'.childTable disk' = Function.update (inode.childTable disk) outer
      (Function.update (inode.childTable disk outer) inner block)) :
    fileRef inode' disk' = Function.update
      (Function.update
        (Function.update (fileRef inode disk) .root (pointer inode'.doubleIndirectBlock))
        (.child outer) (pointer child))
      (.leaf outer inner) (pointer block) := by
  funext s
  cases s with
  | direct j => simp only [fileRef, direct, ne_eq, reduceCtorEq, not_false_eq_true,
      Function.update_of_ne]
  | single => simp only [fileRef, single, ne_eq, reduceCtorEq, not_false_eq_true,
      Function.update_of_ne]
  | entry j => simp only [fileRef, table, ne_eq, reduceCtorEq, not_false_eq_true,
      Function.update_of_ne]
  | root => simp only [fileRef, ne_eq, reduceCtorEq, not_false_eq_true, Function.update_of_ne,
      Function.update_self]
  | child o =>
    simp only [fileRef, roots, Function.update_apply, FileSlot.child.injEq, reduceCtorEq, if_false]
    split <;> rfl
  | leaf o i =>
    simp only [fileRef, children, Function.update_apply, FileSlot.leaf.injEq, reduceCtorEq,
      if_false]
    by_cases sameOuter : o = outer
    · subst sameOuter
      simp only [if_true, true_and, Function.update_apply]
      split <;> rfl
    · simp only [sameOuter, if_false, false_and]

end DenyFS
