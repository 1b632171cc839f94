import DenyFS.Verified.Runs
import DenyFS.Verified.WellFormed

/-! # The claim map of the validator

`claim_metadata_block` succeeds on a block that is in use and not claimed yet.  Over all loops
of the validator that makes one list of claimed blocks, in the order of the traversal: each
loop succeeds exactly where its own checks hold and the blocks it passes can be claimed one
after the other. -/

namespace DenyFS

open Packed BlockProgram Ownership

variable {count : Nat} {vol : Volume} {disk : Blocks}

/-! ## Programs that return and change nothing -/

/-- On a plain device the program returns `value`. -/
def Returns {α : Type} (count : Nat) (vol : Volume) (disk : Blocks) (program : Op α) (value : α) :
    Prop :=
  Prog.exec (plainDevice count) program (vol, disk) = (.ok value, vol, disk)

theorem plainDevice_read (block : UInt32) (disk : Blocks) :
    ((plainDevice count).read block disk).2 = disk := rfl

/-- A program that only looks leaves memory and blocks of a plain device as they were. -/
theorem exec_passive {α : Type} {program : Op α} (passive : Prog.Passive program) :
    (Prog.exec (plainDevice count) program (vol, disk)).2 = (vol, disk) :=
  Prog.exec_passive_frozen (plainDevice count) (fun block => plainDevice_read block disk) passive

theorem returns_pure {α : Type} {value result : α} :
    Returns count vol disk (pure value) result ↔ value = result := by
  simp [Returns]

theorem returns_throw {α : Type} {error : Errno} {result : α} :
    Returns count vol disk (throw error) result ↔ False := by
  simp [Returns]

theorem returns_bind {α β : Type} {program : Op α} (passive : Prog.Passive program)
    {next : α → Op β} {result : β} :
    Returns count vol disk (program >>= next) result ↔
      ∃ value, Returns count vol disk program value ∧ Returns count vol disk (next value) result := by
  have same : (Prog.exec (plainDevice count) program (vol, disk)).2 = (vol, disk) :=
    exec_passive passive
  unfold Returns
  rw [Prog.exec_bind]
  rcases run : Prog.exec (plainDevice count) program (vol, disk) with ⟨outcome, state⟩
  rw [run] at same
  obtain rfl : state = (vol, disk) := same
  cases outcome with
  | ok value =>
    constructor
    · intro returns
      exact ⟨value, rfl, returns⟩
    · rintro ⟨value', equal, returns⟩
      cases equal
      exact returns
  | error error =>
    constructor
    · intro impossible
      cases impossible
    · rintro ⟨value', impossible, _⟩
      cases impossible

/-- A check that fails with an error. -/
theorem returns_check {α : Type} {condition : Prop} [Decidable condition] {error : Errno}
    {program : Op α} {result : α} :
    Returns count vol disk (if condition then throw error else program) result ↔
      ¬condition ∧ Returns count vol disk program result := by
  by_cases fails : condition
  · rw [if_pos fails, returns_throw]
    exact ⟨False.elim, fun both => both.1 fails⟩
  · rw [if_neg fails]
    exact (and_iff_right fails).symm

theorem returns_get_bind {β : Type} {next : Volume → Op β} {result : β} :
    Returns count vol disk (get >>= next) result ↔ Returns count vol disk (next vol) result := by
  unfold Returns
  rw [Prog.exec_bind_ok (Prog.exec_get _ _)]

theorem returns_readBlock {block : UInt32} (inside : block.toNat < count) {data : Sector} :
    Returns count vol disk (readBlock block) data ↔ disk block = data := by
  simp [Returns, plainDevice, inside]

theorem returns_orInvalid {α : Type} {found : Option α} {value : α} :
    Returns count vol disk (orInvalid found) value ↔ found = some value := by
  cases found with
  | none =>
    rw [orInvalid, returns_throw]
    simp
  | some found =>
    rw [orInvalid, returns_pure, Option.some.injEq]

/-! ## Claiming a list of blocks -/

/-- The blocks are claimed one after the other. -/
def claimAll (vol : Volume) : Claims → List UInt32 → Option Claims
  | claims, [] => some claims
  | claims, block :: rest => (claimMetadataBlock vol claims block).bind fun claims =>
      claimAll vol claims rest

theorem claimAll_append (claims : Claims) (first second : List UInt32) :
    claimAll vol claims (first ++ second) =
      (claimAll vol claims first).bind fun claims => claimAll vol claims second := by
  induction first generalizing claims with
  | nil => rfl
  | cons block rest ih =>
    rw [List.cons_append, claimAll, claimAll, Option.bind_assoc]
    congr 1
    funext claims
    exact ih claims

/-- The claim map holds exactly the listed blocks. -/
structure Claims.Lists (claims : Claims) (blocks : List UInt32) : Prop where
  bits : ∀ i, bitAt claims.claimed i = true ↔ ∃ block ∈ blocks, block.toNat = i
  count : claims.count = blocks.length

theorem Claims.Lists.mem_iff {claims : Claims} {blocks : List UInt32}
    (lists : claims.Lists blocks) (block : UInt32) :
    bitAt claims.claimed block.toNat = true ↔ block ∈ blocks := by
  rw [lists.bits]
  constructor
  · rintro ⟨other, member, same⟩
    rwa [← UInt32.toNat_inj.1 same]
  · exact fun member => ⟨block, member, rfl⟩

theorem noClaims_lists : Claims.Lists { claimed := fun _ => 0, count := 0 } [] where
  bits i := by simp [bitAt]
  count := rfl

/-- A block of the volume has its bit inside the claim map. -/
theorem bitmapBytes_lt (layout : vol.sb.Layout count) {block : UInt32}
    (inUse : vol.allocated block) : block.toNat / 8 < vol.bitmapBytes := by
  have inside := UInt32.lt_iff_toNat_lt.1 inUse.2.1
  have total := layout.totalBlocks
  have size := layout.bitmapBlocks
  unfold Volume.bitmapBytes
  omega

/-- A claim succeeds on a block in use that is not claimed yet, and adds it. -/
theorem claimMetadataBlock_some (layout : vol.sb.Layout count) {claims : Claims}
    {blocks : List UInt32} (lists : claims.Lists blocks) (block : UInt32) :
    (vol.allocated block ∧ block ∉ blocks ∧
        ∃ claims', claimMetadataBlock vol claims block = some claims' ∧
          claims'.Lists (blocks ++ [block])) ∨
      (¬(vol.allocated block ∧ block ∉ blocks) ∧ claimMetadataBlock vol claims block = none) := by
  unfold claimMetadataBlock
  by_cases inUse : vol.allocated block
  · have byte := bitmapBytes_lt layout inUse
    by_cases claimed : block ∈ blocks
    · have set : bitAt claims.claimed block.toNat = true := (lists.mem_iff block).2 claimed
      refine .inr ⟨fun both => both.2 claimed, ?_⟩
      rw [if_pos (.inr (.inr set))]
    · have unset : ¬bitAt claims.claimed block.toNat = true := fun set =>
        claimed ((lists.mem_iff block).1 set)
      refine .inl ⟨inUse, claimed,
        { claimed := setBit claims.claimed block.toNat, count := claims.count + 1 }, ?_, ?_⟩
      · rw [if_neg]
        rintro (free | outside | set)
        · exact free inUse
        · omega
        · exact unset set
      · refine ⟨fun i => ?_, ?_⟩
        · dsimp only
          rw [bitAt_setBit, Bool.or_eq_true, lists.bits, decide_eq_true_eq]
          constructor
          · rintro (⟨other, member, same⟩ | rfl)
            · exact ⟨other, List.mem_append_left _ member, same⟩
            · exact ⟨block, List.mem_append_right _ List.mem_cons_self, rfl⟩
          · rintro ⟨other, member, same⟩
            rcases List.mem_append.1 member with before | now
            · exact .inl ⟨other, before, same⟩
            · cases List.mem_singleton.1 now
              exact .inr same.symm
        · rw [List.length_append, lists.count]
          rfl
  · refine .inr ⟨fun both => inUse both.1, ?_⟩
    rw [if_pos (.inl inUse)]

/-- A list of blocks can be claimed where they are in use and all different. -/
theorem claimAll_iff (layout : vol.sb.Layout count) {claims : Claims} {claimed : List UInt32}
    (lists : claims.Lists claimed) (once : claimed.Nodup) (blocks : List UInt32) :
    (∃ claims', claimAll vol claims blocks = some claims' ∧ claims'.Lists (claimed ++ blocks) ∧
        (claimed ++ blocks).Nodup ∧ ∀ block ∈ blocks, vol.allocated block) ∨
      (¬((claimed ++ blocks).Nodup ∧ ∀ block ∈ blocks, vol.allocated block) ∧
        claimAll vol claims blocks = none) := by
  induction blocks generalizing claims claimed with
  | nil =>
    refine .inl ⟨claims, rfl, by rwa [List.append_nil], by rwa [List.append_nil], ?_⟩
    intro block member
    cases member
  | cons block rest ih =>
    have split : claimed ++ block :: rest = claimed ++ [block] ++ rest := by simp
    rw [claimAll]
    rcases claimMetadataBlock_some layout lists block with
      ⟨inUse, fresh, claims', claims_block, lists'⟩ | ⟨refused, fails⟩
    · have once' : (claimed ++ [block]).Nodup := by
        rw [List.nodup_append]
        refine ⟨once, List.nodup_singleton block, fun c member d single => ?_⟩
        cases List.mem_singleton.1 single
        rintro rfl
        exact fresh member
      rw [claims_block, Option.bind_some, split]
      rcases ih lists' once' with ⟨final, claims_rest, listsAll, onceAll, owned⟩ | ⟨refused, fails⟩
      · refine .inl ⟨final, claims_rest, listsAll, onceAll, fun c member => ?_⟩
        rcases List.mem_cons.1 member with rfl | later
        · exact inUse
        · exact owned c later
      · refine .inr ⟨fun both => refused ⟨both.1, fun c later => ?_⟩, fails⟩
        exact both.2 c (List.mem_cons_of_mem _ later)
    · rw [fails, Option.bind_none]
      refine .inr ⟨fun both => refused ⟨both.2 block List.mem_cons_self, fun member => ?_⟩, rfl⟩
      rw [List.nodup_append] at both
      exact both.1.2.2 block member block List.mem_cons_self rfl

/-! ## The loops in memory -/

/-- The pointers of a table that are in use, in order. -/
def pointersIn {n : Nat} (table : Fin n → UInt32) (indices : List (Fin n)) : List UInt32 :=
  indices.filterMap fun i => pointer (table i)

theorem pointersIn_hole {n : Nat} {table : Fin n → UInt32} {i : Fin n} {rest : List (Fin n)}
    (hole : table i = invalidBlock) : pointersIn table (i :: rest) = pointersIn table rest :=
  List.filterMap_cons_none (pointer_eq_none.2 hole)

theorem pointersIn_cons {n : Nat} {table : Fin n → UInt32} {i : Fin n} {rest : List (Fin n)}
    (present : table i ≠ invalidBlock) :
    pointersIn table (i :: rest) = table i :: pointersIn table rest :=
  List.filterMap_cons_some (pointer_of_ne present)

/-- The check on one direct pointer: the root directory fills a prefix, a file maps nothing
past its end. -/
def DirectOk (vol : Volume) (ino : Fin 64) (fileBlocks : Nat) (i : Fin 20) : Prop :=
  (ino = 0 → (i.val < (vol.inodes 0).blockCount.toNat ↔
    (vol.inodes ino).direct i ≠ invalidBlock)) ∧
  (ino ≠ 0 → (vol.inodes ino).direct i ≠ invalidBlock → i.val < fileBlocks)

theorem claimDirect_eq_some {ino : Fin 64} {fileBlocks : Nat} {indices : List (Fin 20)}
    {claims claims' : Claims} {actual actual' : Nat} :
    claimDirect vol ino fileBlocks indices (claims, actual) = some (claims', actual') ↔
      (∀ i ∈ indices, DirectOk vol ino fileBlocks i) ∧
        claimAll vol claims (pointersIn (vol.inodes ino).direct indices) =
          some claims' ∧
        actual' = actual + if ino = 0 then 0
          else (pointersIn (vol.inodes ino).direct indices).length := by
  induction indices generalizing claims actual with
  | nil =>
    simp only [claimDirect, pointersIn, List.filterMap_nil, claimAll, Option.some.injEq, Prod.mk.injEq,
      List.not_mem_nil, false_implies, implies_true, true_and, List.length_nil, ite_self,
      Nat.add_zero]
    exact and_congr_right fun _ => eq_comm
  | cons i rest ih =>
    have here : (ino = 0 ∧ decide (i.val < (vol.inodes 0).blockCount.toNat) ≠
          decide ((vol.inodes ino).direct i ≠ invalidBlock)) ∨
        (ino ≠ 0 ∧ (vol.inodes ino).direct i ≠ invalidBlock ∧ fileBlocks ≤ i.val) ↔
        ¬DirectOk vol ino fileBlocks i := by
      unfold DirectOk
      by_cases root : ino = 0
      · simp only [root, ne_eq, decide_eq_decide, true_and, not_true_eq_false, false_and, or_false,
          forall_const, false_implies, and_true]
      · simp only [root, false_and, false_or, ne_eq, not_false_eq_true, true_and, false_implies,
          forall_const, Classical.not_imp, Nat.not_lt]
    simp only [claimDirect, List.forall_mem_cons]
    by_cases ok : DirectOk vol ino fileBlocks i
    · have passes := not_or.1 (fun bad => here.1 bad ok)
      rw [if_neg passes.1, if_neg passes.2]
      by_cases hole : (vol.inodes ino).direct i = invalidBlock
      · rw [if_pos hole, ih, pointersIn_hole hole]
        simp only [ok, true_and]
      · rw [if_neg hole, pointersIn_cons hole, claimAll]
        cases claimMetadataBlock vol claims ((vol.inodes ino).direct i) with
        | none => simp
        | some claims₁ =>
          dsimp only [Option.bind_some]
          rw [ih]
          simp only [ok, true_and, List.length_cons]
          refine and_congr_right fun _ => and_congr_right fun _ => ?_
          split <;> omega
    · have fails := here.2 ok
      constructor
      · intro found
        rcases fails with first | second
        · rw [if_pos first] at found
          cases found
        · by_cases first : ino = 0 ∧ decide (i.val < (vol.inodes 0).blockCount.toNat) ≠
              decide ((vol.inodes ino).direct i ≠ invalidBlock)
          · rw [if_pos first] at found
            cases found
          · rw [if_neg first, if_pos second] at found
            cases found
      · exact fun both => absurd both.1.1 ok

theorem claimPointers_eq_some {start fileBlocks : Nat} {pointers : Pointers}
    {indices : List (Fin 1024)} {claims claims' : Claims} {entries entries' : Nat} :
    claimPointers vol start fileBlocks pointers indices (claims, entries) =
        some (claims', entries') ↔
      (∀ i ∈ indices, pointers i ≠ invalidBlock → start + i.val < fileBlocks) ∧
        claimAll vol claims (pointersIn pointers indices) = some claims' ∧
        entries' = entries + (pointersIn pointers indices).length := by
  induction indices generalizing claims entries with
  | nil =>
    simp only [claimPointers, pointersIn, List.filterMap_nil, claimAll, Option.some.injEq, Prod.mk.injEq,
      List.not_mem_nil, false_implies, implies_true, true_and, List.length_nil, Nat.add_zero]
    exact and_congr_right fun _ => eq_comm
  | cons i rest ih =>
    simp only [claimPointers, List.forall_mem_cons]
    by_cases hole : pointers i = invalidBlock
    · rw [if_pos hole, ih, pointersIn_hole hole]
      simp only [hole, ne_eq, not_true_eq_false, false_implies, true_and]
    · rw [if_neg hole, pointersIn_cons hole, claimAll]
      by_cases far : fileBlocks ≤ start + i.val
      · rw [if_pos far]
        constructor
        · intro impossible
          cases impossible
        · intro both
          have := both.1.1 hole
          omega
      · rw [if_neg far]
        have near : start + i.val < fileBlocks := by omega
        cases claimMetadataBlock vol claims (pointers i) with
        | none => simp
        | some claims₁ =>
          dsimp only [Option.bind_some]
          rw [ih]
          simp only [near, implies_true, true_and, List.length_cons]
          refine and_congr_right fun _ => and_congr_right fun _ => ?_
          omega

end DenyFS
