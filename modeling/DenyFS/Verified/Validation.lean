import DenyFS.Verified.Claims

/-! # What the validator accepts

Program by program, `validate_loaded_metadata` on a plain device returns exactly where its
checks hold and the blocks of its traversal can be claimed; together that is
`WellFormed`. -/

namespace DenyFS

open Packed BlockProgram Ownership

variable {count : Nat} {vol : Volume} {disk : Blocks}

/-! ## Tables -/

theorem readPointerTable_returns (layout : vol.sb.Layout count) {table : UInt32}
    {pointers : Pointers} :
    Returns count vol disk (readPointerTable table) pointers ↔
      vol.allocated table ∧ tableAt disk table = pointers := by
  unfold readPointerTable
  rw [returns_get_bind]
  by_cases inUse : vol.allocated table
  · have inside : table.toNat < count := by
      have upper := UInt32.lt_iff_toNat_lt.1 inUse.2.1
      rwa [layout.totalBlocks] at upper
    have present : table ≠ invalidBlock := by
      rintro rfl
      have small := layout.count_lt
      have value : invalidBlock.toNat = 2 ^ 32 - 1 := rfl
      have := vol.sb.totalBlocks.toNat_lt
      have := layout.totalBlocks
      omega
    rw [if_neg (not_not_intro inUse), returns_bind (Prog.Passive.ofReadAt _),
      tableAt_of_ne present]
    constructor
    · rintro ⟨data, reads, returns⟩
      rw [returns_readBlock inside] at reads
      rw [returns_pure] at returns
      exact ⟨inUse, reads ▸ returns⟩
    · rintro ⟨_, same⟩
      exact ⟨disk table, (returns_readBlock inside).2 rfl, returns_pure.2 same⟩
  · rw [if_pos inUse, returns_throw]
    simp [inUse]

/-- What a claimed list of blocks says about its first block. -/
theorem allocated_of_claims {claims claims' : Claims} {block : UInt32} {rest : List UInt32}
    (claimed : claimAll vol claims (block :: rest) = some claims') : vol.allocated block := by
  rw [claimAll, claimMetadataBlock] at claimed
  split at claimed
  · cases claimed
  next passes =>
    simp only [not_or, not_not] at passes
    exact passes.1

theorem claimTable_returns (layout : vol.sb.Layout count) {fileBlocks start : Nat}
    {table : UInt32} {claims claims' : Claims} {entries : Nat} :
    Returns count vol disk (claimTable vol fileBlocks start table claims) (claims', entries) ↔
      (∀ i, tableAt disk table i ≠ invalidBlock → start + i.val < fileBlocks) ∧
        claimAll vol claims (table :: pointersIn (tableAt disk table) (upTo 1024)) =
          some claims' ∧
        entries = (pointersIn (tableAt disk table) (upTo 1024)).length ∧ entries ≠ 0 := by
  unfold claimTable
  rw [returns_bind (orInvalid_simple _).passive]
  simp only [returns_orInvalid, returns_bind (readPointerTable_simple _).passive,
    readPointerTable_returns layout, returns_bind (orInvalid_simple _).passive]
  constructor
  · rintro ⟨claims₁, claimsTable, pointers, ⟨inUse, rfl⟩, ⟨claims₂, entries₂⟩, claimsEntries, last⟩
    rw [claimPointers_eq_some] at claimsEntries
    obtain ⟨near, claimed, rfl⟩ := claimsEntries
    dsimp only at last
    split at last
    · exact (returns_throw.1 last).elim
    next some =>
      obtain ⟨rfl, rfl⟩ := Prod.ext_iff.1 (returns_pure.1 last)
      dsimp only at *
      rw [Nat.zero_add] at *
      refine ⟨fun i => near i (mem_upTo i), ?_, rfl, some⟩
      rw [claimAll, claimsTable, Option.bind_some, claimed]
  · rintro ⟨near, claimed, rfl, some⟩
    have inUse := allocated_of_claims claimed
    rw [claimAll, Option.bind_eq_some_iff] at claimed
    obtain ⟨claims₁, claimsTable, claimed⟩ := claimed
    refine ⟨claims₁, claimsTable, tableAt disk table, ⟨inUse, rfl⟩, (claims', _),
      claimPointers_eq_some.2 ⟨fun i _ => near i, claimed, rfl⟩, ?_⟩
    rw [Nat.zero_add, if_neg some]
    exact returns_pure.2 rfl

/-- What the traversal claims for one child of a double-indirect root. -/
def childBlocks (disk : Blocks) (roots : Pointers) (outer : Fin 1024) : List UInt32 :=
  if roots outer = invalidBlock then []
  else roots outer :: pointersIn (tableAt disk (roots outer)) (upTo 1024)

/-- The data blocks below one child. -/
def childEntries (disk : Blocks) (roots : Pointers) (outer : Fin 1024) : List UInt32 :=
  pointersIn (tableAt disk (roots outer)) (upTo 1024)

theorem childEntries_hole {roots : Pointers} {outer : Fin 1024}
    (hole : roots outer = invalidBlock) : childEntries disk roots outer = [] := by
  rw [childEntries, hole, tableAt_invalid]
  refine List.filterMap_eq_nil_iff.2 fun i _ => ?_
  rw [emptyPointers, pointer_invalid]

/-- The checks on one child: nothing past the end of the file, and not empty. -/
def ChildOk (disk : Blocks) (fileBlocks : Nat) (roots : Pointers) (outer : Fin 1024) : Prop :=
  roots outer ≠ invalidBlock →
    (∀ i, tableAt disk (roots outer) i ≠ invalidBlock →
      20 + 1024 + outer.val * 1024 + i.val < fileBlocks) ∧
    childEntries disk roots outer ≠ []

theorem claimChildren_returns (layout : vol.sb.Layout count) {fileBlocks : Nat}
    {roots : Pointers} {outers : List (Fin 1024)} {claims claims' : Claims}
    {rootEntries rootEntries' actual actual' : Nat} :
    Returns count vol disk (claimChildren vol fileBlocks roots outers
        (claims, rootEntries, actual)) (claims', rootEntries', actual') ↔
      (∀ outer ∈ outers, ChildOk disk fileBlocks roots outer) ∧
        claimAll vol claims (outers.flatMap (childBlocks disk roots)) = some claims' ∧
        rootEntries' = rootEntries + (pointersIn roots outers).length ∧
        actual' = actual + (outers.flatMap (childEntries disk roots)).length := by
  induction outers generalizing claims rootEntries actual with
  | nil =>
    rw [claimChildren, returns_pure]
    simp only [Prod.mk.injEq, List.not_mem_nil, false_implies, implies_true, List.flatMap_nil,
      claimAll, Option.some.injEq, true_and, pointersIn, List.filterMap_nil, List.length_nil,
      Nat.add_zero]
    constructor
    · rintro ⟨rfl, rfl, rfl⟩
      exact ⟨rfl, rfl, rfl⟩
    · rintro ⟨rfl, rfl, rfl⟩
      exact ⟨rfl, rfl, rfl⟩
  | cons outer rest ih =>
    rw [claimChildren]
    dsimp only
    simp only [List.forall_mem_cons, List.flatMap_cons, claimAll_append, List.length_append]
    by_cases hole : roots outer = invalidBlock
    · have ok : ChildOk disk fileBlocks roots outer := fun present => absurd hole present
      rw [if_pos hole, ih, pointersIn_hole hole, childEntries_hole hole, childBlocks, if_pos hole]
      simp only [ok, true_and, claimAll, Option.bind_some, List.length_nil, Nat.zero_add]
    · rw [if_neg hole, pointersIn_cons hole, childBlocks, if_neg hole, List.length_cons]
      by_cases far : fileBlocks ≤ 20 + 1024 + outer.val * 1024
      · -- an entry of such a child would lie past the end of the file as well
        rw [if_pos far, returns_throw, false_iff]
        rintro ⟨⟨ok, _⟩, _⟩
        obtain ⟨near, some⟩ := ok hole
        obtain ⟨block, member⟩ := List.exists_mem_of_ne_nil _ some
        obtain ⟨i, _, points⟩ := List.mem_filterMap.1 member
        have present : tableAt disk (roots outer) i ≠ invalidBlock := by
          intro empty
          rw [empty, pointer_invalid] at points
          cases points
        have := near i present
        omega
      · rw [if_neg far, returns_bind (claimTable_simple _ _ _ _ _).passive]
        constructor
        · rintro ⟨⟨claims₁, entries₁⟩, table, later⟩
          rw [claimTable_returns layout] at table
          obtain ⟨near, claimed, rfl, some⟩ := table
          rw [ih] at later
          obtain ⟨ok, claimedRest, rfl, rfl⟩ := later
          refine ⟨⟨fun _ => ⟨near, fun empty => some ?_⟩, ok⟩, ?_, by omega, ?_⟩
          · rw [childEntries] at empty
            rw [empty, List.length_nil]
          · rw [claimed, Option.bind_some, claimedRest]
          · rw [childEntries]
            omega
        · rintro ⟨⟨ok, okRest⟩, claimed, rfl, rfl⟩
          obtain ⟨near, some⟩ := ok hole
          obtain ⟨claims₁, claimedTable, claimedRest⟩ := Option.bind_eq_some_iff.1 claimed
          refine ⟨(claims₁, _), (claimTable_returns layout).2 ⟨near, claimedTable, rfl, ?_⟩, ?_⟩
          · exact fun empty => some (List.length_eq_zero_iff.1 empty)
          · rw [ih]
            refine ⟨okRest, claimedRest, by omega, ?_⟩
            rw [childEntries]
            omega

/-! ## The block map of one inode -/

def directSlots : List FileSlot := (upTo 20).map .direct

def singleSlots : List FileSlot := .single :: (upTo 1024).map .entry

def childSlots (outer : Fin 1024) : List FileSlot := .child outer :: (upTo 1024).map (.leaf outer)

def doubleSlots : List FileSlot := .root :: (upTo 1024).flatMap childSlots

/-- All slots of a file, in the order of the traversal. -/
def fileSlots : List FileSlot := directSlots ++ singleSlots ++ doubleSlots

/-- The blocks the listed slots of a file point to. -/
def refsOf (inode : Inode) (disk : Blocks) (slots : List FileSlot) : List UInt32 :=
  slots.filterMap (fileRef inode disk)

theorem refsOf_append (inode : Inode) (disk : Blocks) (first second : List FileSlot) :
    refsOf inode disk (first ++ second) = refsOf inode disk first ++ refsOf inode disk second :=
  List.filterMap_append

theorem refsOf_directSlots (inode : Inode) (disk : Blocks) :
    refsOf inode disk directSlots = pointersIn inode.direct (upTo 20) := by
  rw [refsOf, directSlots, List.filterMap_map]
  rfl

theorem refsOf_entries (inode : Inode) (disk : Blocks) :
    refsOf inode disk ((upTo 1024).map .entry) =
      pointersIn (inode.singleTable disk) (upTo 1024) := by
  rw [refsOf, List.filterMap_map]
  rfl

theorem refsOf_leaves (inode : Inode) (disk : Blocks) (outer : Fin 1024) :
    refsOf inode disk ((upTo 1024).map (.leaf outer)) =
      childEntries disk (inode.rootTable disk) outer := by
  rw [refsOf, List.filterMap_map]
  rfl

theorem refsOf_childSlots (inode : Inode) (disk : Blocks) (outer : Fin 1024) :
    refsOf inode disk (childSlots outer) = childBlocks disk (inode.rootTable disk) outer := by
  have leaves := refsOf_leaves inode disk outer
  unfold childSlots childBlocks
  by_cases hole : inode.rootTable disk outer = invalidBlock
  · have empty : fileRef inode disk (.child outer) = none := pointer_eq_none.2 hole
    rw [if_pos hole, refsOf, List.filterMap_cons_none empty]
    exact leaves.trans (childEntries_hole hole)
  · have points : fileRef inode disk (.child outer) = some (inode.rootTable disk outer) :=
      pointer_of_ne hole
    rw [if_neg hole, refsOf, List.filterMap_cons_some points]
    exact congrArg _ leaves

/-- A file without a table has nothing behind it. -/
theorem refsOf_singleSlots_hole {inode : Inode} (hole : inode.indirectBlock = invalidBlock) :
    refsOf inode disk singleSlots = [] := by
  refine List.filterMap_eq_nil_iff.2 fun s member => ?_
  rcases List.mem_cons.1 member with rfl | entry
  · exact pointer_eq_none.2 hole
  · obtain ⟨i, _, rfl⟩ := List.mem_map.1 entry
    rw [fileRef, Inode.singleTable, hole, tableAt_invalid, emptyPointers, pointer_invalid]

theorem refsOf_singleSlots {inode : Inode} (present : inode.indirectBlock ≠ invalidBlock) :
    refsOf inode disk singleSlots =
      inode.indirectBlock :: pointersIn (inode.singleTable disk) (upTo 1024) := by
  have points : fileRef inode disk .single = some inode.indirectBlock := pointer_of_ne present
  rw [refsOf, singleSlots, List.filterMap_cons_some points]
  exact congrArg _ (refsOf_entries inode disk)

theorem refsOf_doubleSlots {inode : Inode} (present : inode.doubleIndirectBlock ≠ invalidBlock) :
    refsOf inode disk doubleSlots = inode.doubleIndirectBlock ::
      (upTo 1024).flatMap (childBlocks disk (inode.rootTable disk)) := by
  have points : fileRef inode disk .root = some inode.doubleIndirectBlock := pointer_of_ne present
  rw [refsOf, doubleSlots, List.filterMap_cons_some points, List.filterMap_flatMap]
  congr 1
  exact List.flatMap_congr fun outer _ => refsOf_childSlots inode disk outer

theorem refsOf_doubleSlots_hole {inode : Inode}
    (hole : inode.doubleIndirectBlock = invalidBlock) : refsOf inode disk doubleSlots = [] := by
  have none : fileRef inode disk .root = none := pointer_eq_none.2 hole
  rw [refsOf, doubleSlots, List.filterMap_cons_none none, List.filterMap_flatMap]
  refine List.flatMap_eq_nil_iff.2 fun outer _ => ?_
  have child := refsOf_childSlots inode disk outer
  rw [childBlocks, if_pos (rootTable_hole hole outer)] at child
  exact child

/-- The slots of one file that point to data, in the order of the traversal. -/
def dataSlots : List FileSlot :=
  directSlots ++ (upTo 1024).map .entry ++
    (upTo 1024).flatMap fun outer => (upTo 1024).map (.leaf outer)

/-- A pointer table is not empty where some entry is in use. -/
theorem pointersIn_eq_nil {n : Nat} {table : Fin n → UInt32} :
    pointersIn table (upTo n) = [] ↔ ∀ i, pointer (table i) = none := by
  unfold pointersIn
  rw [List.filterMap_eq_nil_iff]
  exact ⟨fun all i => all i (mem_upTo i), fun all i _ => all i⟩

theorem claimSingle_returns (layout : vol.sb.Layout count) {inode : Inode} {fileBlocks : Nat}
    {claims claims' : Claims} {entries : Nat} :
    Returns count vol disk (claimSingle vol inode fileBlocks claims) (claims', entries) ↔
      (∀ i, fileRef inode disk (.entry i) ≠ none → 20 + i.val < fileBlocks) ∧
        (fileRef inode disk .single ≠ none → ∃ i, fileRef inode disk (.entry i) ≠ none) ∧
        claimAll vol claims (refsOf inode disk singleSlots) = some claims' ∧
        entries = (refsOf inode disk ((upTo 1024).map .entry)).length := by
  rw [refsOf_entries]
  unfold claimSingle
  by_cases hole : inode.indirectBlock = invalidBlock
  · have empty : ∀ i, fileRef inode disk (.entry i) = none := by
      intro i
      rw [fileRef, Inode.singleTable, hole, tableAt_invalid, emptyPointers, pointer_invalid]
    have noTable : fileRef inode disk .single = none := pointer_eq_none.2 hole
    have noEntries : pointersIn (inode.singleTable disk) (upTo 1024) = [] :=
      pointersIn_eq_nil.2 empty
    rw [if_pos hole, returns_pure, refsOf_singleSlots_hole hole, noEntries]
    simp only [empty, noTable, ne_eq, not_true_eq_false, false_implies, implies_true, true_and,
      claimAll, Prod.mk.injEq, Option.some.injEq, List.length_nil]
    exact and_congr_right fun _ => eq_comm
  · have points : fileRef inode disk .single = some inode.indirectBlock := pointer_of_ne hole
    rw [if_neg hole, claimTable_returns layout, refsOf_singleSlots hole]
    simp only [Inode.singleTable, fileRef, ne_eq, pointer_eq_none]
    constructor
    · rintro ⟨near, claimed, rfl, some⟩
      refine ⟨near, fun _ => ?_, claimed, rfl⟩
      by_contra all
      refine some (List.length_eq_zero_iff.2 (pointersIn_eq_nil.2 fun i => ?_))
      rw [not_exists] at all
      exact pointer_eq_none.2 (not_not.1 (all i))
    · rintro ⟨near, some, claimed, rfl⟩
      refine ⟨near, claimed, rfl, fun empty => ?_⟩
      obtain ⟨i, present⟩ := some hole
      exact present (pointer_eq_none.1 (pointersIn_eq_nil.1 (List.length_eq_zero_iff.1 empty) i))

theorem claimDouble_returns (layout : vol.sb.Layout count) {inode : Inode} {fileBlocks : Nat}
    {claims claims' : Claims} {actual : Nat} :
    Returns count vol disk (claimDouble vol inode fileBlocks claims) (claims', actual) ↔
      (∀ outer i, fileRef inode disk (.leaf outer i) ≠ none →
          20 + 1024 + outer.val * 1024 + i.val < fileBlocks) ∧
        (fileRef inode disk .root ≠ none → ∃ outer, fileRef inode disk (.child outer) ≠ none) ∧
        (∀ outer, fileRef inode disk (.child outer) ≠ none →
          ∃ i, fileRef inode disk (.leaf outer i) ≠ none) ∧
        claimAll vol claims (refsOf inode disk doubleSlots) = some claims' ∧
        actual = ((upTo 1024).flatMap fun outer =>
          refsOf inode disk ((upTo 1024).map (.leaf outer))).length := by
  have leaves : ((upTo 1024).flatMap fun outer =>
      refsOf inode disk ((upTo 1024).map (.leaf outer))) =
      (upTo 1024).flatMap (childEntries disk (inode.rootTable disk)) :=
    List.flatMap_congr fun outer _ => refsOf_leaves inode disk outer
  rw [leaves]
  unfold claimDouble
  by_cases hole : inode.doubleIndirectBlock = invalidBlock
  · have noChild : ∀ outer, fileRef inode disk (.child outer) = none := fun outer =>
      pointer_eq_none.2 (rootTable_hole hole outer)
    have noLeaf : ∀ outer i, fileRef inode disk (.leaf outer i) = none := by
      intro outer i
      rw [fileRef, Inode.childTable, rootTable_hole hole, tableAt_invalid, emptyPointers,
        pointer_invalid]
    have noRoot : fileRef inode disk .root = none := pointer_eq_none.2 hole
    have noEntries : (upTo 1024).flatMap (childEntries disk (inode.rootTable disk)) = [] :=
      List.flatMap_eq_nil_iff.2 fun outer _ => childEntries_hole (rootTable_hole hole outer)
    rw [if_pos hole, returns_pure, refsOf_doubleSlots_hole hole, noEntries]
    simp only [noLeaf, noRoot, noChild, ne_eq, not_true_eq_false, false_implies, implies_true,
      true_and, claimAll, Prod.mk.injEq, Option.some.injEq, List.length_nil]
    exact and_congr_right fun _ => eq_comm
  · have children : ∀ outer, ChildOk disk fileBlocks (inode.rootTable disk) outer ↔
        (∀ i, fileRef inode disk (.leaf outer i) ≠ none →
          20 + 1024 + outer.val * 1024 + i.val < fileBlocks) ∧
        (fileRef inode disk (.child outer) ≠ none →
          ∃ i, fileRef inode disk (.leaf outer i) ≠ none) := by
      intro outer
      unfold ChildOk childEntries
      simp only [fileRef, ne_eq, pointer_eq_none, Inode.childTable]
      by_cases absent : inode.rootTable disk outer = invalidBlock
      · have empty : ∀ i, tableAt disk (inode.rootTable disk outer) i = invalidBlock := by
          intro i
          rw [absent, tableAt_invalid]
          rfl
        simp only [absent, not_true_eq_false, false_implies, and_true, true_iff]
        intro i present
        rw [absent] at empty
        exact absurd (empty i) present
      · simp only [absent, not_false_eq_true, forall_const]
        refine and_congr_right fun _ => ?_
        rw [pointersIn_eq_nil, not_forall]
        simp only [pointer_eq_none]
    rw [if_neg hole, returns_bind (orInvalid_simple _).passive, refsOf_doubleSlots hole]
    simp only [returns_orInvalid, returns_bind (readPointerTable_simple _).passive,
      readPointerTable_returns layout, returns_bind (claimChildren_simple _ _ _ _ _).passive]
    constructor
    · rintro ⟨claims₁, claimsRoot, roots, ⟨inUse, rfl⟩, ⟨claims₂, rootEntries, actual₂⟩, loop, last⟩
      rw [claimChildren_returns layout] at loop
      obtain ⟨ok, claimed, rfl, rfl⟩ := loop
      dsimp only at last
      split at last
      · exact (returns_throw.1 last).elim
      next some =>
        obtain ⟨rfl, rfl⟩ := Prod.ext_iff.1 (returns_pure.1 last)
        have ok := fun outer => (children outer).1 (ok outer (mem_upTo outer))
        refine ⟨fun outer => (ok outer).1, fun _ => ?_, fun outer => (ok outer).2, ?_, ?_⟩
        · by_contra all
          rw [not_exists] at all
          refine some ?_
          rw [Nat.zero_add, List.length_eq_zero_iff]
          exact pointersIn_eq_nil.2 fun outer => not_not.1 (all outer)
        · rw [claimAll, claimsRoot, Option.bind_some]
          exact claimed
        · rw [Nat.zero_add]
          rfl
    · rintro ⟨near, someChild, someLeaf, claimed, rfl⟩
      have inUse := allocated_of_claims claimed
      rw [claimAll, Option.bind_eq_some_iff] at claimed
      obtain ⟨claims₁, claimsRoot, claimed⟩ := claimed
      refine ⟨claims₁, claimsRoot, _, ⟨inUse, rfl⟩, (claims', _, _),
        (claimChildren_returns layout).2 ⟨fun outer _ => (children outer).2
          ⟨near outer, someLeaf outer⟩, claimed, rfl, rfl⟩, ?_⟩
      rw [if_neg]
      · exact returns_pure.2 (Prod.ext rfl (Nat.zero_add _))
      · have points : fileRef inode disk .root ≠ none := by
          rw [fileRef, pointer_of_ne hole]
          exact Option.some_ne_none _
        obtain ⟨outer, present⟩ := someChild points
        rw [Nat.zero_add, List.length_eq_zero_iff]
        exact fun empty => present (pointersIn_eq_nil.1 empty outer)

/-! ## The slots of a file, listed -/

theorem mem_fileSlots (s : FileSlot) : s ∈ fileSlots := by
  unfold fileSlots directSlots singleSlots doubleSlots childSlots
  cases s <;> simp

theorem mem_dataSlots {s : FileSlot} : s ∈ dataSlots ↔ s.IsData := by
  unfold dataSlots directSlots
  cases s <;> simp [FileSlot.IsData]

theorem leaves_nodup : ((upTo 1024).flatMap fun outer =>
    (upTo 1024).map (FileSlot.leaf outer)).Nodup := by
  rw [List.nodup_flatMap]
  constructor
  · intro outer _
    exact (upTo_nodup 1024).map fun i j equal => by cases equal; rfl
  · refine (upTo_nodup 1024).imp fun {first second} differ => ?_
    intro s inFirst inSecond
    obtain ⟨i, _, rfl⟩ := List.mem_map.1 inFirst
    obtain ⟨j, _, equal⟩ := List.mem_map.1 inSecond
    cases equal
    exact differ rfl

theorem directSlots_nodup : directSlots.Nodup :=
  (upTo_nodup 20).map fun i j equal => by cases equal; rfl

theorem entries_nodup : ((upTo 1024).map FileSlot.entry).Nodup :=
  (upTo_nodup 1024).map fun i j equal => by cases equal; rfl

theorem dataSlots_nodup : dataSlots.Nodup := by
  unfold dataSlots
  rw [List.nodup_append, List.nodup_append]
  refine ⟨⟨directSlots_nodup, entries_nodup, ?_⟩, leaves_nodup, ?_⟩
  · intro s direct t entry
    obtain ⟨i, _, rfl⟩ := List.mem_map.1 direct
    obtain ⟨j, _, rfl⟩ := List.mem_map.1 entry
    simp
  · intro s before t leaf
    obtain ⟨outer, _, member⟩ := List.mem_flatMap.1 leaf
    obtain ⟨j, _, rfl⟩ := List.mem_map.1 member
    rcases List.mem_append.1 before with direct | entry
    · obtain ⟨i, _, rfl⟩ := List.mem_map.1 direct
      simp
    · obtain ⟨i, _, rfl⟩ := List.mem_map.1 entry
      simp

theorem childSlots_nodup (outer : Fin 1024) : (childSlots outer).Nodup := by
  unfold childSlots
  rw [List.nodup_cons]
  refine ⟨by simp, (upTo_nodup 1024).map fun i j equal => ?_⟩
  cases equal
  rfl

theorem fileSlots_nodup : fileSlots.Nodup := by
  have singles : singleSlots.Nodup := by
    unfold singleSlots
    exact List.nodup_cons.2 ⟨by simp, entries_nodup⟩
  have doubles : doubleSlots.Nodup := by
    unfold doubleSlots
    rw [List.nodup_cons, List.nodup_flatMap]
    refine ⟨by simp [childSlots], fun outer _ => childSlots_nodup outer, ?_⟩
    refine (upTo_nodup 1024).imp fun {first second} differ s inFirst inSecond => ?_
    rcases List.mem_cons.1 inFirst with rfl | leaf
    · rcases List.mem_cons.1 inSecond with equal | leaf'
      · cases equal
        exact differ rfl
      · simp at leaf'
    · obtain ⟨i, _, rfl⟩ := List.mem_map.1 leaf
      rcases List.mem_cons.1 inSecond with equal | leaf'
      · cases equal
      · obtain ⟨j, _, equal⟩ := List.mem_map.1 leaf'
        cases equal
        exact differ rfl
  unfold fileSlots
  rw [List.nodup_append, List.nodup_append]
  refine ⟨⟨directSlots_nodup, singles, ?_⟩, doubles, ?_⟩
  · intro s direct t single
    obtain ⟨i, _, rfl⟩ := List.mem_map.1 direct
    rcases List.mem_cons.1 single with rfl | entry
    · simp
    · obtain ⟨j, _, rfl⟩ := List.mem_map.1 entry
      simp
  · intro s before t double
    have noDouble : t = .root ∨ (∃ outer, t = .child outer) ∨ ∃ outer i, t = .leaf outer i := by
      rcases List.mem_cons.1 double with rfl | below
      · exact .inl rfl
      · obtain ⟨outer, _, member⟩ := List.mem_flatMap.1 below
        rcases List.mem_cons.1 member with rfl | leaf
        · exact .inr (.inl ⟨outer, rfl⟩)
        · obtain ⟨i, _, rfl⟩ := List.mem_map.1 leaf
          exact .inr (.inr ⟨outer, i, rfl⟩)
    have early : (∃ i, s = .direct i) ∨ s = .single ∨ ∃ i, s = .entry i := by
      rcases List.mem_append.1 before with direct | single
      · obtain ⟨i, _, rfl⟩ := List.mem_map.1 direct
        exact .inl ⟨i, rfl⟩
      · rcases List.mem_cons.1 single with rfl | entry
        · exact .inr (.inl rfl)
        · obtain ⟨i, _, rfl⟩ := List.mem_map.1 entry
          exact .inr (.inr ⟨i, rfl⟩)
    rintro rfl
    rcases early with ⟨i, rfl⟩ | rfl | ⟨i, rfl⟩ <;>
      rcases noDouble with equal | ⟨_, equal⟩ | ⟨_, _, equal⟩ <;> cases equal

theorem length_flatMap_const {α β : Type} {n : Nat} (items : List α) (f : α → List β)
    (each : ∀ a ∈ items, (f a).length = n) : (items.flatMap f).length = items.length * n := by
  rw [List.length_flatMap, List.map_congr_left each, List.map_const', List.sum_replicate]
  rfl

theorem dataSlots_length : dataSlots.length = maxFileBlocks := by
  have leaves : ((upTo 1024).flatMap fun outer => (upTo 1024).map (FileSlot.leaf outer)).length =
      (upTo 1024).length * 1024 := by
    refine length_flatMap_const _ _ fun outer _ => ?_
    rw [List.length_map, upTo_eq, List.length_finRange]
  rw [dataSlots, List.length_append, List.length_append, leaves, directSlots, List.length_map,
    List.length_map, upTo_eq, upTo_eq, List.length_finRange, List.length_finRange]
  rfl

/-- The mapped data blocks of a file, counted along the traversal. -/
theorem card_mappedSlots (inode : Inode) (disk : Blocks) :
    (mappedSlots inode disk).card = (refsOf inode disk dataSlots).length := by
  have listed : mappedSlots inode disk =
      (dataSlots.filter fun s => (fileRef inode disk s).isSome).toFinset := by
    ext s
    rw [mem_mappedSlots, List.mem_toFinset, List.mem_filter, mem_dataSlots,
      Option.isSome_iff_ne_none]
  rw [listed, List.toFinset_card_of_nodup (dataSlots_nodup.filter _), refsOf,
    List.length_filterMap_eq_countP, List.countP_eq_length_filter]

theorem refsOf_dataSlots_length (inode : Inode) (disk : Blocks) :
    (refsOf inode disk dataSlots).length =
      (refsOf inode disk directSlots).length +
        (refsOf inode disk ((upTo 1024).map .entry)).length +
        ((upTo 1024).flatMap fun outer =>
          refsOf inode disk ((upTo 1024).map (.leaf outer))).length := by
  unfold dataSlots
  rw [refsOf_append, refsOf_append, List.length_append, List.length_append]
  congr 2
  exact List.filterMap_flatMap

/-! ## One inode -/

theorem blankInode_iff (inode : Inode) : blankInode inode = true ↔ inode.Blank := by
  unfold blankInode
  simp only [Bool.and_eq_true, beq_iff_eq, List.all_eq_true]
  constructor
  · rintro ⟨⟨⟨⟨size, blocks⟩, direct⟩, single⟩, double⟩
    exact ⟨size, blocks, fun i => direct i (mem_upTo i), single, double⟩
  · rintro ⟨size, blocks, direct, single, double⟩
    exact ⟨⟨⟨⟨size, blocks⟩, fun i _ => direct i⟩, single⟩, double⟩

/-- What one round of the loop over the inodes checks. -/
def InodeOk (vol : Volume) (disk : Blocks) (ino : Fin 64) : Prop :=
  ((vol.inodes ino).type = itypeFree ∧ ino ≠ 0 ∧ (vol.inodes ino).Blank) ∨
    ((vol.inodes ino).type ≠ itypeFree ∧
      (vol.inodes ino).type = (if ino = 0 then itypeDir else itypeFile) ∧
      (vol.inodes ino).size.toNat ≤ maxFileSize ∧
      (vol.inodes ino).blockCount.toNat ≤ maxFileBlocks ∧
      (ino = 0 → ∀ i, i.val < (vol.inodes 0).blockCount.toNat ↔
        (vol.inodes 0).direct i ≠ invalidBlock) ∧
      (ino ≠ 0 → (∀ s : FileSlot, s.IsData → fileRef (vol.inodes ino) disk s ≠ none →
          s.logical < ((vol.inodes ino).size.toNat + 4095) / 4096) ∧
        Compact (vol.inodes ino) disk ∧
        (vol.inodes ino).blockCount.toNat = (mappedSlots (vol.inodes ino) disk).card))

/-- The conditions on the three parts of a block map, together. -/
theorem within_iff (inode : Inode) (disk : Blocks) (fileBlocks : Nat) :
    (∀ s : FileSlot, s.IsData → fileRef inode disk s ≠ none → s.logical < fileBlocks) ↔
      (∀ i, inode.direct i ≠ invalidBlock → i.val < fileBlocks) ∧
      (∀ i, fileRef inode disk (.entry i) ≠ none → 20 + i.val < fileBlocks) ∧
      ∀ outer i, fileRef inode disk (.leaf outer i) ≠ none →
        20 + 1024 + outer.val * 1024 + i.val < fileBlocks := by
  constructor
  · intro within
    refine ⟨fun i present => within (.direct i) trivial ?_, fun i => within (.entry i) trivial,
      fun outer i => within (.leaf outer i) trivial⟩
    rw [fileRef, ne_eq, pointer_eq_none]
    exact present
  · rintro ⟨direct, entry, leaf⟩ s isData mapped
    cases s with
    | direct i =>
      rw [fileRef, ne_eq, pointer_eq_none] at mapped
      exact direct i mapped
    | entry i => exact entry i mapped
    | leaf outer i => exact leaf outer i mapped
    | single => exact isData.elim
    | root => exact isData.elim
    | child outer => exact isData.elim

theorem compact_iff (inode : Inode) (disk : Blocks) :
    Compact inode disk ↔
      (fileRef inode disk .single ≠ none → ∃ i, fileRef inode disk (.entry i) ≠ none) ∧
      (fileRef inode disk .root ≠ none → ∃ outer, fileRef inode disk (.child outer) ≠ none) ∧
      ∀ outer, fileRef inode disk (.child outer) ≠ none →
        ∃ i, fileRef inode disk (.leaf outer i) ≠ none :=
  ⟨fun compact => ⟨compact.single, compact.root, compact.child⟩,
    fun ⟨single, root, child⟩ => ⟨single, root, child⟩⟩

/-- The two pointer tables of a file and the count of its data blocks. -/
theorem claimTables_returns {inode : Inode} {fileBlocks allocated : Nat} {claims' : Claims}
    {allocated' : Nat} (claims : Claims) (direct : Nat) :
    Returns count vol disk (do
      let (claims, single) ← claimSingle vol inode fileBlocks claims
      let (claims, double) ← claimDouble vol inode fileBlocks claims
      if direct + single + double ≠ inode.blockCount.toNat then throw .eperm
      else return (claims, allocated + 1)) (claims', allocated') ↔
    ∃ claims₂ single, Returns count vol disk (claimSingle vol inode fileBlocks claims)
        (claims₂, single) ∧
      ∃ double, Returns count vol disk (claimDouble vol inode fileBlocks claims₂)
          (claims', double) ∧
        direct + single + double = inode.blockCount.toNat ∧ allocated' = allocated + 1 := by
  rw [returns_bind (claimSingle_simple _ _ _ _).passive]
  constructor
  · rintro ⟨⟨claims₂, single⟩, first, rest⟩
    rw [returns_bind (claimDouble_simple _ _ _ _).passive] at rest
    obtain ⟨⟨claims₃, double⟩, second, last⟩ := rest
    dsimp only at last
    split at last
    · exact (returns_throw.1 last).elim
    next exact_ =>
      obtain ⟨rfl, rfl⟩ := Prod.ext_iff.1 (returns_pure.1 last)
      exact ⟨claims₂, single, first, double, second, not_not.1 exact_, rfl⟩
  · rintro ⟨claims₂, single, first, double, second, counts, rfl⟩
    refine ⟨(claims₂, single), first, ?_⟩
    rw [returns_bind (claimDouble_simple _ _ _ _).passive]
    refine ⟨(claims', double), second, ?_⟩
    dsimp only
    rw [if_neg (not_not_intro counts)]
    exact returns_pure.2 rfl

theorem validateInode_returns (layout : vol.sb.Layout count)
    (rootSingle : (vol.inodes 0).indirectBlock = invalidBlock)
    (rootDouble : (vol.inodes 0).doubleIndirectBlock = invalidBlock) {ino : Fin 64}
    {claims claims' : Claims} {allocated allocated' : Nat} :
    Returns count vol disk (validateInode vol ino claims allocated) (claims', allocated') ↔
      InodeOk vol disk ino ∧
        claimAll vol claims (refsOf (vol.inodes ino) disk fileSlots) = some claims' ∧
        allocated' = allocated + if (vol.inodes ino).type = itypeFree then 0 else 1 := by
  unfold validateInode
  dsimp only
  by_cases free : (vol.inodes ino).type = itypeFree
  · have ok : InodeOk vol disk ino ↔ ino ≠ 0 ∧ (vol.inodes ino).Blank := by
      unfold InodeOk
      simp only [free, true_and, ne_eq, not_true_eq_false, false_and, or_false]
    rw [if_pos free, if_pos free, ok]
    by_cases blank : ino ≠ 0 ∧ (vol.inodes ino).Blank
    · have passes : ¬(ino = 0 ∨ blankInode (vol.inodes ino) = false) := by
        rw [not_or, Bool.not_eq_false, blankInode_iff]
        exact blank
      have noRefs : refsOf (vol.inodes ino) disk fileSlots = [] :=
        List.filterMap_eq_nil_iff.2 fun s _ => blank.2.fileRef_eq_none disk s
      rw [if_neg passes, returns_pure, noRefs]
      simp only [blank, not_false_eq_true, ne_eq, and_self, true_and, claimAll, Option.some.injEq,
        Nat.add_zero, Prod.mk.injEq]
      exact and_congr_right fun _ => eq_comm
    · have fails : ino = 0 ∨ blankInode (vol.inodes ino) = false := by
        by_contra passes
        rw [not_or, Bool.not_eq_false, blankInode_iff] at passes
        exact blank passes
      rw [if_pos fails, returns_throw]
      simp only [blank, false_and]
  rw [if_neg free, if_neg free]
  by_cases bad : (vol.inodes ino).type ≠ (if ino = 0 then itypeDir else itypeFile) ∨
      maxFileSize < (vol.inodes ino).size.toNat ∨ maxFileBlocks < (vol.inodes ino).blockCount.toNat
  · rw [if_pos bad, returns_throw, false_iff]
    rintro ⟨ok, _⟩
    rcases ok with ⟨isFree, _⟩ | ⟨_, type, size, blocks, _⟩
    · exact free isFree
    · rcases bad with other | large | many
      · exact other type
      · omega
      · omega
  rw [if_neg bad]
  simp only [not_or, not_not, Nat.not_lt] at bad
  obtain ⟨type, size, blocks⟩ := bad
  rw [returns_bind (orInvalid_simple _).passive]
  simp only [returns_orInvalid]
  by_cases root : ino = 0
  · subst root
    have ok : InodeOk vol disk 0 ↔ ∀ i, i.val < (vol.inodes 0).blockCount.toNat ↔
        (vol.inodes 0).direct i ≠ invalidBlock := by
      constructor
      · rintro (⟨isFree, _⟩ | ⟨_, _, _, _, prefixFilled, _⟩)
        · exact absurd isFree free
        · exact prefixFilled rfl
      · intro prefixFilled
        exact .inr ⟨free, type, size, blocks, fun _ => prefixFilled,
          fun notRoot => absurd rfl notRoot⟩
    have refs : refsOf (vol.inodes 0) disk fileSlots =
        pointersIn (vol.inodes 0).direct (upTo 20) := by
      rw [fileSlots, refsOf_append, refsOf_append, refsOf_singleSlots_hole rootSingle,
        refsOf_doubleSlots_hole rootDouble, refsOf_directSlots, List.append_nil, List.append_nil]
    rw [ok, refs]
    constructor
    · rintro ⟨⟨claims₁, direct⟩, claimed, last⟩
      rw [claimDirect_eq_some] at claimed
      obtain ⟨passes, claimed, _⟩ := claimed
      obtain ⟨rfl, rfl⟩ := Prod.ext_iff.1 (returns_pure.1 last)
      exact ⟨fun i => (passes i (mem_upTo i)).1 rfl, claimed, rfl⟩
    · rintro ⟨passes, claimed, rfl⟩
      refine ⟨(claims', 0), claimDirect_eq_some.2 ⟨fun i _ => ⟨fun _ => passes i,
        fun notRoot => absurd rfl notRoot⟩, claimed, rfl⟩, returns_pure.2 rfl⟩
  · have ok : InodeOk vol disk ino ↔
        (∀ s : FileSlot, s.IsData → fileRef (vol.inodes ino) disk s ≠ none →
          s.logical < ((vol.inodes ino).size.toNat + 4095) / 4096) ∧
        Compact (vol.inodes ino) disk ∧
        (vol.inodes ino).blockCount.toNat = (mappedSlots (vol.inodes ino) disk).card := by
      constructor
      · rintro (⟨isFree, _⟩ | ⟨_, _, _, _, _, file⟩)
        · exact absurd isFree free
        · exact file root
      · intro file
        exact .inr ⟨free, type, size, blocks, fun isRoot => absurd isRoot root, fun _ => file⟩
    simp only [root, if_false]
    rw [ok, within_iff, compact_iff, card_mappedSlots, refsOf_dataSlots_length, fileSlots,
      refsOf_append, refsOf_append, claimAll_append, claimAll_append, refsOf_directSlots]
    constructor
    · rintro ⟨⟨claims₁, direct⟩, claimed, rest⟩
      rw [claimDirect_eq_some] at claimed
      obtain ⟨nearDirect, claimed, rfl⟩ := claimed
      obtain ⟨claims₂, single, first, double, second, counts, rfl⟩ := (claimTables_returns _ _).1 rest
      rw [claimSingle_returns layout] at first
      rw [claimDouble_returns layout] at second
      obtain ⟨nearSingle, someSingle, claimedSingle, rfl⟩ := first
      obtain ⟨nearDouble, someRoot, someChild, claimedDouble, rfl⟩ := second
      rw [if_neg root, Nat.zero_add] at counts
      refine ⟨⟨⟨fun i => (nearDirect i (mem_upTo i)).2 root, nearSingle, nearDouble⟩,
        ⟨someSingle, someRoot, someChild⟩, counts.symm⟩, ?_, rfl⟩
      rw [claimed, Option.bind_some, claimedSingle, Option.bind_some, claimedDouble]
    · rintro ⟨⟨⟨nearDirect, nearSingle, nearDouble⟩, ⟨someSingle, someRoot, someChild⟩, counts⟩,
        claimed, rfl⟩
      obtain ⟨claims₂, claimed, claimedDouble⟩ := Option.bind_eq_some_iff.1 claimed
      obtain ⟨claims₁, claimedDirect, claimedSingle⟩ := Option.bind_eq_some_iff.1 claimed
      refine ⟨(claims₁, _), claimDirect_eq_some.2 ⟨fun i _ => ⟨fun isRoot => absurd isRoot root,
        fun _ => nearDirect i⟩, claimedDirect, rfl⟩, (claimTables_returns _ _).2 ⟨claims₂, _,
          (claimSingle_returns layout).2 ⟨nearSingle, someSingle, claimedSingle, rfl⟩, _,
          (claimDouble_returns layout).2
            ⟨nearDouble, someRoot, someChild, claimedDouble, rfl⟩, ?_, rfl⟩⟩
      rw [if_neg root, Nat.zero_add]
      exact counts.symm

/-! ## All inodes -/

theorem validateInodes_returns (layout : vol.sb.Layout count)
    (rootSingle : (vol.inodes 0).indirectBlock = invalidBlock)
    (rootDouble : (vol.inodes 0).doubleIndirectBlock = invalidBlock) {inos : List (Fin 64)}
    {claims claims' : Claims} {allocated allocated' : Nat} :
    Returns count vol disk (validateInodes vol inos claims allocated) (claims', allocated') ↔
      (∀ ino ∈ inos, InodeOk vol disk ino) ∧
        claimAll vol claims (inos.flatMap fun ino => refsOf (vol.inodes ino) disk fileSlots) =
          some claims' ∧
        allocated' =
          allocated + inos.countP fun ino => decide ((vol.inodes ino).type ≠ itypeFree) := by
  induction inos generalizing claims allocated with
  | nil =>
    rw [validateInodes, returns_pure]
    simp only [Prod.mk.injEq, List.not_mem_nil, false_implies, implies_true, List.flatMap_nil,
      claimAll, Option.some.injEq, true_and, List.countP_nil, Nat.add_zero]
    exact and_congr_right fun _ => eq_comm
  | cons ino rest ih =>
    rw [validateInodes, returns_bind (validateInode_simple _ _ _ _).passive]
    simp only [List.forall_mem_cons, List.flatMap_cons, claimAll_append, List.countP_cons]
    constructor
    · rintro ⟨⟨claims₁, allocated₁⟩, first, later⟩
      rw [validateInode_returns layout rootSingle rootDouble] at first
      obtain ⟨ok, claimed, rfl⟩ := first
      rw [ih] at later
      obtain ⟨okRest, claimedRest, rfl⟩ := later
      refine ⟨⟨ok, okRest⟩, by rw [claimed, Option.bind_some, claimedRest], ?_⟩
      by_cases free : (vol.inodes ino).type = itypeFree
      · simp [free]
      · simp [free]
        omega
    · rintro ⟨⟨ok, okRest⟩, claimed, rfl⟩
      obtain ⟨claims₁, claimedFirst, claimedRest⟩ := Option.bind_eq_some_iff.1 claimed
      refine ⟨(claims₁, _), (validateInode_returns layout rootSingle rootDouble).2
        ⟨ok, claimedFirst, rfl⟩, ih.2 ⟨okRest, claimedRest, ?_⟩⟩
      by_cases free : (vol.inodes ino).type = itypeFree
      · simp [free]
      · simp [free]
        omega

end DenyFS
