import Mathlib.Data.Fintype.Card
import Mathlib.Data.List.Nodup
import Mathlib.Data.List.Pairwise

/-! # Ownership of resources

Resources `β` are handed out one by one.  A slot `σ` may point to one of them, and a client
may hold some in hand before it links them anywhere.  `Ledger ref used held` says that the
resources in use are exactly those in hand and those some slot points to, and that nothing is
owned twice.  Taking, giving back, linking and dropping keep it. -/

namespace Ownership

variable {σ β : Type}

structure Ledger (ref : σ → Option β) (used : β → Prop) (held : List β) : Prop where
  injective : ∀ {s t b}, ref s = some b → ref t = some b → s = t
  used_iff : ∀ b, used b ↔ b ∈ held ∨ ∃ s, ref s = some b
  apart : ∀ {b s}, b ∈ held → ref s ≠ some b
  nodup : held.Nodup

namespace Ledger

variable {ref ref' : σ → Option β} {used used' : β → Prop} {held : List β} {b : β}

theorem used_of_ref (ledger : Ledger ref used held) {s : σ} (points : ref s = some b) : used b :=
  (ledger.used_iff b).2 (.inr ⟨s, points⟩)

theorem used_of_held (ledger : Ledger ref used held) (inHand : b ∈ held) : used b :=
  (ledger.used_iff b).2 (.inl inHand)

/-- Nothing points to what is not in use. -/
theorem ref_ne_of_free (ledger : Ledger ref used held) (free : ¬used b) (s : σ) :
    ref s ≠ some b := fun points => free (ledger.used_of_ref points)

theorem congr (ledger : Ledger ref used held) (sameRef : ∀ s, ref' s = ref s)
    (sameUsed : ∀ c, used' c ↔ used c) : Ledger ref' used' held := by
  obtain rfl : ref' = ref := funext sameRef
  obtain rfl : used' = used := funext fun c => propext (sameUsed c)
  exact ledger

/-- A free resource is taken in hand. -/
theorem take (ledger : Ledger ref used held) (free : ¬used b)
    (grown : ∀ c, used' c ↔ used c ∨ c = b) : Ledger ref used' (b :: held) where
  injective := ledger.injective
  used_iff c := by
    rw [grown, ledger.used_iff, List.mem_cons]
    tauto
  apart := by
    intro c s inHand
    rcases List.mem_cons.1 inHand with rfl | inHand
    · exact ledger.ref_ne_of_free free s
    · exact ledger.apart inHand
  nodup := List.nodup_cons.2 ⟨fun inHand => free (ledger.used_of_held inHand), ledger.nodup⟩

/-- A resource in hand is given back unused. -/
theorem giveBack (ledger : Ledger ref used (b :: held))
    (shrunk : ∀ c, used' c ↔ used c ∧ c ≠ b) : Ledger ref used' held where
  injective := ledger.injective
  used_iff c := by
    rw [shrunk, ledger.used_iff, List.mem_cons]
    have notHeld := (List.nodup_cons.1 ledger.nodup).1
    have apart : ∀ s, ref s ≠ some b := fun s => ledger.apart List.mem_cons_self
    constructor
    · rintro ⟨(rfl | inHand) | points, other⟩
      · exact (other rfl).elim
      · exact .inl inHand
      · exact .inr points
    · rintro (inHand | ⟨s, points⟩)
      · refine ⟨.inl (.inr inHand), ?_⟩
        rintro rfl
        exact notHeld inHand
      · refine ⟨.inr ⟨s, points⟩, ?_⟩
        rintro rfl
        exact apart s points
  apart inHand := ledger.apart (List.mem_cons_of_mem _ inHand)
  nodup := (List.nodup_cons.1 ledger.nodup).2

/-- A resource in hand is linked to an empty slot. -/
theorem link [DecidableEq σ] (ledger : Ledger ref used (b :: held)) {s : σ}
    (empty : ref s = none) : Ledger (Function.update ref s (some b)) used held where
  injective {t u c} first second := by
    have apart : ∀ s, ref s ≠ some b := fun s => ledger.apart List.mem_cons_self
    rw [Function.update_apply] at first second
    split at first <;> split at second
    · simp_all
    · simp_all
    · simp_all
    · exact ledger.injective first second
  used_iff c := by
    rw [ledger.used_iff, List.mem_cons]
    constructor
    · rintro ((rfl | inHand) | ⟨t, points⟩)
      · exact .inr ⟨s, Function.update_self ..⟩
      · exact .inl inHand
      · refine .inr ⟨t, ?_⟩
        rwa [Function.update_of_ne]
        rintro rfl
        simp [empty] at points
    · rintro (inHand | ⟨t, points⟩)
      · exact .inl (.inr inHand)
      · rw [Function.update_apply] at points
        split at points
        · exact .inl (.inl (Option.some.inj points).symm)
        · exact .inr ⟨t, points⟩
  apart {c t} inHand points := by
    rw [Function.update_apply] at points
    split at points
    · obtain rfl := Option.some.inj points
      exact (List.nodup_cons.1 ledger.nodup).1 inHand
    · exact ledger.apart (List.mem_cons_of_mem _ inHand) points
  nodup := (List.nodup_cons.1 ledger.nodup).2

/-- Some slots drop what they point to, and just these resources are free again. -/
theorem drop (ledger : Ledger ref used held) (dropped : σ → Prop)
    (emptied : ∀ s, dropped s → ref' s = none) (kept : ∀ s, ¬dropped s → ref' s = ref s)
    (shrunk : ∀ c, used' c ↔ used c ∧ ∀ s, ref s = some c → ¬dropped s) :
    Ledger ref' used' held := by
  have restricted : ∀ {s c}, ref' s = some c → ¬dropped s ∧ ref s = some c := by
    intro s c points
    by_cases gone : dropped s
    · rw [emptied s gone] at points
      cases points
    · exact ⟨gone, kept s gone ▸ points⟩
  refine ⟨fun first second => ledger.injective (restricted first).2 (restricted second).2,
    fun c => ?_, fun inHand points => ledger.apart inHand (restricted points).2, ledger.nodup⟩
  rw [shrunk, ledger.used_iff]
  constructor
  · rintro ⟨inHand | ⟨s, points⟩, stays⟩
    · exact .inl inHand
    · exact .inr ⟨s, (kept s (stays s points)).trans points⟩
  · rintro (inHand | ⟨s, points⟩)
    · exact ⟨.inl inHand, fun s points => (ledger.apart inHand points).elim⟩
    · obtain ⟨stays, points⟩ := restricted points
      exact ⟨.inr ⟨s, points⟩, fun t other => ledger.injective other points ▸ stays⟩

/-- No more resources are in use than there are slots and hands. -/
theorem card_le [Fintype σ] [DecidableEq β] (ledger : Ledger ref used held) (resources : Finset β)
    (inUse : ∀ c ∈ resources, used c) :
    resources.card ≤ held.length + Fintype.card σ := by
  classical
  have covered : resources.image some ⊆ (held.map some).toFinset ∪ Finset.univ.image ref := by
    intro c image
    obtain ⟨resource, member, rfl⟩ := Finset.mem_image.1 image
    rcases (ledger.used_iff resource).1 (inUse resource member) with inHand | ⟨s, points⟩
    · exact Finset.mem_union_left _ (List.mem_toFinset.2 (List.mem_map_of_mem inHand))
    · exact Finset.mem_union_right _ (Finset.mem_image.2 ⟨s, Finset.mem_univ s, points⟩)
  calc resources.card
      = (resources.image some).card :=
        (Finset.card_image_of_injective resources (Option.some_injective β)).symm
    _ ≤ ((held.map some).toFinset ∪ Finset.univ.image ref).card := Finset.card_le_card covered
    _ ≤ (held.map some).toFinset.card + (Finset.univ.image ref).card := Finset.card_union_le _ _
    _ ≤ held.length + Fintype.card σ := by
      refine Nat.add_le_add ?_ Finset.card_image_le
      exact (List.toFinset_card_le _).trans_eq (List.length_map _)

/-- The slots of a list point to distinct things exactly where the things they point to are
listed once. -/
theorem nodup_filterMap_iff {slots : List σ} (distinct : slots.Nodup) :
    (slots.filterMap ref).Nodup ↔
      ∀ s ∈ slots, ∀ t ∈ slots, ∀ b, ref s = some b → ref t = some b → s = t := by
  have pairs : (slots.filterMap ref).Nodup ↔
      slots.Pairwise fun s t => ∀ b, ref s = some b → ∀ c, ref t = some c → b ≠ c :=
    List.pairwise_filterMap
  rw [pairs]
  constructor
  · intro apart s inS t inT b first second
    by_contra differ
    have symmetric : Std.Symm fun s t : σ =>
        ∀ b, ref s = some b → ∀ c, ref t = some c → b ≠ c :=
      ⟨fun _ _ oneWay b first c second equal => oneWay c second b first equal.symm⟩
    exact apart.forall inS inT differ b first b second rfl
  · intro injective
    refine distinct.imp_of_mem fun inS inT differ b first c second equal => differ ?_
    subst equal
    exact injective _ inS _ inT b first second

/-- A ledger read off a complete list of slots: everything they point to is in use, once, and
just as many resources are in use. -/
theorem of_count [DecidableEq β] {slots : List σ} (complete : ∀ s, s ∈ slots)
    (distinct : slots.Nodup) (once : (slots.filterMap ref).Nodup)
    (owned : ∀ b ∈ slots.filterMap ref, used b) {inUse : Finset β}
    (known : ∀ b, b ∈ inUse ↔ used b) (count : inUse.card = (slots.filterMap ref).length) :
    Ledger ref used [] where
  injective {s t b} := (nodup_filterMap_iff distinct).1 once s (complete s) t (complete t) b
  used_iff b := by
    have inside : (slots.filterMap ref).toFinset ⊆ inUse := fun c member =>
      (known c).2 (owned c (List.mem_toFinset.1 member))
    have same : (slots.filterMap ref).toFinset = inUse := by
      refine Finset.eq_of_subset_of_card_le inside ?_
      rw [count, List.toFinset_card_of_nodup once]
    rw [← known b, ← same, List.mem_toFinset, List.mem_filterMap]
    constructor
    · rintro ⟨s, _, points⟩
      exact .inr ⟨s, points⟩
    · rintro (impossible | ⟨s, points⟩)
      · cases impossible
      · exact ⟨s, complete s, points⟩
  apart inHand := by cases inHand
  nodup := List.nodup_nil

/-- With nothing in hand, the slots point to each resource in use once. -/
theorem count_of [DecidableEq β] (ledger : Ledger ref used []) {slots : List σ}
    (complete : ∀ s, s ∈ slots) (distinct : slots.Nodup) {inUse : Finset β}
    (known : ∀ b, b ∈ inUse ↔ used b) :
    (slots.filterMap ref).Nodup ∧ (∀ b ∈ slots.filterMap ref, used b) ∧
      inUse.card = (slots.filterMap ref).length := by
  have once : (slots.filterMap ref).Nodup :=
    (nodup_filterMap_iff distinct).2 fun s _ t _ b first second => ledger.injective first second
  have owned : ∀ b, b ∈ slots.filterMap ref ↔ used b := by
    intro b
    rw [ledger.used_iff, List.mem_filterMap]
    constructor
    · rintro ⟨s, _, points⟩
      exact .inr ⟨s, points⟩
    · rintro (impossible | ⟨s, points⟩)
      · cases impossible
      · exact ⟨s, complete s, points⟩
  refine ⟨once, fun b member => (owned b).1 member, ?_⟩
  rw [← List.toFinset_card_of_nodup once]
  congr 1
  ext b
  rw [known, List.mem_toFinset, owned]

end Ledger

/-! ## Counting -/

variable {α : Type}

/-- One element more satisfies the predicate. -/
theorem countP_of_added {items : List α} (nodup : items.Nodup) {p q : α → Bool} {a : α}
    (member : a ∈ items) (off : p a = false) (on : q a = true)
    (same : ∀ x ∈ items, x ≠ a → q x = p x) : items.countP q = items.countP p + 1 := by
  induction items with
  | nil => cases member
  | cons head rest ih =>
    obtain ⟨absent, nodup⟩ := List.nodup_cons.1 nodup
    rcases List.mem_cons.1 member with rfl | member
    · rw [List.countP_cons_of_pos on, List.countP_cons_of_neg (by simp [off])]
      refine congrArg (· + 1) (List.countP_congr fun x inRest => ?_)
      rw [same x (List.mem_cons_of_mem _ inRest) fun equal => absent (equal ▸ inRest)]
    · have here : q head = p head :=
        same head List.mem_cons_self fun equal => absent (equal ▸ member)
      have rest := ih nodup member fun x inRest => same x (List.mem_cons_of_mem _ inRest)
      rw [List.countP_cons, List.countP_cons, here, rest]
      omega

end Ownership
