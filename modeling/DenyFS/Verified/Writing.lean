import DenyFS.Verified.Frames

/-! # Write on a volume whose I/O does not fail

One round of the write loop stores one block: it finds or allocates the block and splices the
new bytes in.  A run of rounds stores a prefix of the touched blocks, and stops where the slots
that block needs are more than there are free blocks.  The slots are counted as a set, so that
tables two blocks share are counted once. -/

namespace DenyFS

open Packed BlockProgram Ownership

variable {count : Nat} {vol vol' vol'' : Volume} {disk disk' disk'' : Blocks} {ino : Fin 64}

/-! ## The slots a range needs -/

theorem self_mem_path (s : FileSlot) : s ∈ s.path := by
  cases s <;> simp [FileSlot.path]

theorem path_nodup (s : FileSlot) : s.path.Nodup := by
  cases s <;> simp [FileSlot.path]

/-- A mapped slot hangs under tables that are there. -/
theorem path_present {inode : Inode} {s t : FileSlot} (present : fileRef inode disk s ≠ none)
    (onPath : t ∈ s.path) : fileRef inode disk t ≠ none := by
  cases s with
  | direct i => rw [List.mem_singleton.1 onPath]; exact present
  | single => rw [List.mem_singleton.1 onPath]; exact present
  | root => rw [List.mem_singleton.1 onPath]; exact present
  | entry i =>
    simp only [FileSlot.path, List.mem_cons, List.not_mem_nil, or_false] at onPath
    rcases onPath with rfl | rfl
    · intro absent
      refine present ?_
      rw [fileRef, Inode.singleTable, pointer_eq_none.1 absent, tableAt_invalid, emptyPointers,
        pointer_invalid]
    · exact present
  | child outer =>
    simp only [FileSlot.path, List.mem_cons, List.not_mem_nil, or_false] at onPath
    rcases onPath with rfl | rfl
    · intro absent
      refine present ?_
      rw [fileRef, Inode.rootTable, pointer_eq_none.1 absent, tableAt_invalid, emptyPointers,
        pointer_invalid]
    · exact present
  | leaf outer inner =>
    simp only [FileSlot.path, List.mem_cons, List.not_mem_nil, or_false] at onPath
    rcases onPath with rfl | rfl | rfl
    · intro absent
      refine present ?_
      rw [fileRef, Inode.childTable, Inode.rootTable, pointer_eq_none.1 absent, tableAt_invalid]
      simp [emptyPointers]
    · intro absent
      refine present ?_
      rw [fileRef, Inode.childTable, pointer_eq_none.1 absent, tableAt_invalid, emptyPointers,
        pointer_invalid]
    · exact present

/-- The slots that must be filled before all the listed logical blocks are mapped. -/
noncomputable def neededSlots (inode : Inode) (disk : Blocks) (blocks : List Nat) :
    Finset FileSlot :=
  Finset.univ.filter fun s => fileRef inode disk s = none ∧ ∃ l ∈ blocks, s ∈ (place l).path

theorem mem_neededSlots {inode : Inode} {blocks : List Nat} {s : FileSlot} :
    s ∈ neededSlots inode disk blocks ↔
      fileRef inode disk s = none ∧ ∃ l ∈ blocks, s ∈ (place l).path := by
  rw [neededSlots, Finset.mem_filter]
  exact and_iff_right (Finset.mem_univ s)

theorem neededSlots_nil (inode : Inode) (disk : Blocks) : neededSlots inode disk [] = ∅ := by
  refine Finset.eq_empty_of_forall_notMem fun s member => ?_
  obtain ⟨_, l, impossible, _⟩ := mem_neededSlots.1 member
  cases impossible

/-- One block needs what is missing on its path. -/
theorem card_neededSlots_one (inode : Inode) (disk : Blocks) (l : Nat) :
    (neededSlots inode disk [l]).card = missing inode disk (place l) := by
  have same : neededSlots inode disk [l] =
      ((place l).path.filter fun t => (fileRef inode disk t).isNone).toFinset := by
    ext s
    rw [mem_neededSlots, List.mem_toFinset, List.mem_filter, Option.isNone_iff_eq_none]
    simp only [List.mem_singleton, exists_eq_left]
    exact and_comm
  rw [same, List.toFinset_card_of_nodup ((path_nodup _).filter _), missing,
    List.countP_eq_length_filter]

theorem missing_of_mapped {inode : Inode} {l : Nat}
    (mapped : fileRef inode disk (place l) ≠ none) : missing inode disk (place l) = 0 := by
  refine List.countP_eq_zero.2 fun t onPath => ?_
  rw [Option.isNone_iff_eq_none]
  exact path_present mapped onPath

theorem neededSlots_mono (inode : Inode) (disk : Blocks) {first second : List Nat} (sub : first ⊆ second) :
    neededSlots inode disk first ⊆ neededSlots inode disk second := by
  intro s member
  obtain ⟨empty, l, listed, onPath⟩ := mem_neededSlots.1 member
  exact mem_neededSlots.2 ⟨empty, l, sub listed, onPath⟩

/-- What is left to fill after the slots of some blocks have been. -/
theorem card_neededSlots_append {inode inode' : Inode} {first : List Nat} (second : List Nat)
    (filled : ∀ s, fileRef inode' disk' s = none ↔
      fileRef inode disk s = none ∧ ∀ l ∈ first, s ∉ (place l).path) :
    (neededSlots inode disk (first ++ second)).card =
      (neededSlots inode disk first).card + (neededSlots inode' disk' second).card := by
  have apart : Disjoint (neededSlots inode disk first) (neededSlots inode' disk' second) := by
    refine Finset.disjoint_left.2 fun s inFirst inSecond => ?_
    obtain ⟨_, l, listed, onPath⟩ := mem_neededSlots.1 inFirst
    exact ((filled s).1 (mem_neededSlots.1 inSecond).1).2 l listed onPath
  rw [← Finset.card_union_of_disjoint apart]
  congr 1
  ext s
  rw [Finset.mem_union, mem_neededSlots, mem_neededSlots, mem_neededSlots, filled]
  constructor
  · rintro ⟨empty, l, listed, onPath⟩
    by_cases early : ∃ k ∈ first, s ∈ (place k).path
    · exact .inl ⟨empty, early⟩
    · refine .inr ⟨⟨empty, fun k member on => early ⟨k, member, on⟩⟩, l, ?_, onPath⟩
      exact (List.mem_append.1 listed).resolve_left fun member => early ⟨l, member, onPath⟩
  · rintro (⟨empty, l, listed, onPath⟩ | ⟨⟨empty, _⟩, l, listed, onPath⟩)
    · exact ⟨empty, l, List.mem_append_left _ listed, onPath⟩
    · exact ⟨empty, l, List.mem_append_right _ listed, onPath⟩

/-! ## Storing blocks -/

/-- The listed logical blocks of a file have been mapped where they were not, and some bytes
replaced; `patch` holds the new bytes. -/
structure Stored (count : Nat) (vol vol' : Volume) (disk disk' : Blocks) (ino : Fin 64)
    (blocks : List Nat) (patch : Nat → Option UInt8) : Prop where
  step : FileStep count vol vol' disk disk' ino
  refs : ∀ s, fileRef (vol'.inodes ino) disk' s = none ↔
    fileRef (vol.inodes ino) disk s = none ∧ ∀ l ∈ blocks, s ∉ (place l).path
  kept : ∀ s b, fileRef (vol.inodes ino) disk s = some b →
    fileRef (vol'.inodes ino) disk' s = some b
  fresh : ∀ s b, fileRef (vol'.inodes ino) disk' s = some b →
    fileRef (vol.inodes ino) disk s = some b ∨ ¬vol.allocated b
  bytes : ∀ i, byteAt (vol'.inodes ino) disk' i =
    (patch i).getD (byteAt (vol.inodes ino) disk i)
  untouched : ∀ b, vol.allocated b →
    (∀ l ∈ blocks, fileRef (vol.inodes ino) disk (place l) ≠ some b) →
    (∀ l ∈ blocks, fileRef (vol.inodes ino) disk (place l) = none →
      ∀ t ∈ (place l).path, fileRef (vol.inodes ino) disk t ≠ some b) → disk' b = disk b
  spent : vol.sb.freeBlocks.toNat =
    vol'.sb.freeBlocks.toNat + (neededSlots (vol.inodes ino) disk blocks).card

namespace Stored

variable {blocks first second : List Nat} {patch patch' : Nat → Option UInt8}

/-- Blocks that are mapped already need nothing. -/
theorem start (accounted : Accounted count vol disk []) (counted : CountedAt vol disk ino)
    (compact : Compact (vol.inodes ino) disk)
    (mapped : ∀ l ∈ blocks, fileRef (vol.inodes ino) disk (place l) ≠ none) :
    Stored count vol vol disk disk ino blocks fun _ => none where
  step := .refl accounted counted compact
  refs s := by
    refine ⟨fun empty => ⟨empty, fun l listed onPath => ?_⟩, And.left⟩
    exact path_present (mapped l listed) onPath empty
  kept _ _ points := points
  fresh _ _ points := .inl points
  bytes _ := rfl
  untouched _ _ _ _ := rfl
  spent := by
    have none : neededSlots (vol.inodes ino) disk blocks = ∅ := by
      refine Finset.eq_empty_of_forall_notMem fun s member => ?_
      obtain ⟨empty, l, listed, onPath⟩ := mem_neededSlots.1 member
      exact path_present (mapped l listed) onPath empty
    rw [none, Finset.card_empty, Nat.add_zero]

/-- Nothing in use is given up. -/
theorem allocated_mono (stored : Stored count vol vol' disk disk' ino blocks patch)
    (accounted : Accounted count vol disk []) {b : UInt32} (inUse : vol.allocated b) :
    vol'.allocated b := by
  obtain impossible | ⟨⟨j, s⟩, points⟩ := (accounted.ledger.used_iff b).1 inUse
  · cases impossible
  by_cases here : j = ino
  · subst here
    exact stored.step.accounted.allocated_of_fileRef (stored.kept s b points)
  · have same := stored.step.others_ref accounted here
    have here : fileRef (vol'.inodes j) disk' s = some b := by
      rw [same]
      exact points
    exact stored.step.accounted.allocated_of_fileRef here

theorem trans (stored : Stored count vol vol' disk disk' ino first patch)
    (accounted : Accounted count vol disk [])
    (later : Stored count vol' vol'' disk' disk'' ino second patch') :
    Stored count vol vol'' disk disk'' ino (first ++ second) fun i => patch' i <|> patch i where
  step := stored.step.trans accounted later.step
  refs s := by
    rw [later.refs, stored.refs, and_assoc]
    refine and_congr_right fun _ => ⟨fun both l listed => ?_, fun all =>
      ⟨fun l listed => all l (List.mem_append_left _ listed),
        fun l listed => all l (List.mem_append_right _ listed)⟩⟩
    cases List.mem_append.1 listed with
    | inl early => exact both.1 l early
    | inr late => exact both.2 l late
  kept s b points := later.kept s b (stored.kept s b points)
  fresh s b points := by
    cases later.fresh s b points with
    | inl before => exact stored.fresh s b before
    | inr free => exact .inr fun inUse => free (stored.allocated_mono accounted inUse)
  bytes i := by
    rw [later.bytes, stored.bytes]
    cases patch' i <;> rfl
  untouched b inUse notData notTable := by
    -- a slot that points to `b` now, which was in use before, pointed to it before
    have before : ∀ t, fileRef (vol'.inodes ino) disk' t = some b →
        fileRef (vol.inodes ino) disk t = some b := fun t points =>
      (stored.fresh t b points).resolve_right fun free => free inUse
    rw [later.untouched b (stored.allocated_mono accounted inUse)
        (fun l listed points => notData l (List.mem_append_right _ listed) (before _ points))
        fun l listed empty t onPath points =>
          notTable l (List.mem_append_right _ listed) ((stored.refs _).1 empty).1 t onPath
            (before t points)]
    exact stored.untouched b inUse (fun l listed => notData l (List.mem_append_left _ listed))
      fun l listed => notTable l (List.mem_append_left _ listed)
  spent := by
    rw [card_neededSlots_append second stored.refs, stored.spent, later.spent]
    omega

/-- The new bytes said another way. -/
theorem with_patch (stored : Stored count vol vol' disk disk' ino blocks patch)
    (same : ∀ i, (patch' i).getD (byteAt (vol.inodes ino) disk i) =
      (patch i).getD (byteAt (vol.inodes ino) disk i)) :
    Stored count vol vol' disk disk' ino blocks patch' :=
  { stored with bytes := fun i => (stored.bytes i).trans (same i).symm }

/-- The contents of one data block are replaced. -/
theorem write (stored : Stored count vol vol' disk disk' ino blocks patch) {l : Nat} (small : l < maxFileBlocks)
    (listed : l ∈ blocks) {block : UInt32}
    (points : fileRef (vol'.inodes ino) disk' (place l) = some block) (data : Sector) :
    Stored count vol vol' disk (Function.update disk' block data) ino blocks fun i =>
      if i / 4096 = l then some (data (Fin.ofNat 4096 i)) else patch i := by
  have after := stored.step.accounted
  have only : ∀ s b, fileRef (vol'.inodes ino) disk' s = some b → s ≠ place l → b ≠ block := by
    rintro s b pointsTo other rfl
    exact other (congrArg Prod.snd (after.ledger.injective (s := (ino, s)) (t := (ino, place l))
      pointsTo points))
  have tables : ∀ slot : Slot, slot.2.IsTable → ∀ b, ref vol' disk' slot = some b →
      Function.update disk' block data b = disk' b := by
    rintro ⟨j, s⟩ isTable b pointsTo
    rw [Function.update_of_ne]
    rintro rfl
    have same := congrArg Prod.snd
      (after.ledger.injective (s := (j, s)) (t := (ino, place l)) pointsTo points)
    have isData := place_isData l
    rw [← show s = place l from same] at isData
    cases s <;> first | exact isTable.elim | exact isData.elim
  have refs : fileRef (vol'.inodes ino) (Function.update disk' block data) =
      fileRef (vol'.inodes ino) disk' :=
    funext fun s => ref_congr tables (ino, s)
  have foreign : ∀ b, vol.allocated b → (∀ s, fileRef (vol.inodes ino) disk s ≠ some b) →
      b ≠ block := by
    rintro b inUse notMine rfl
    cases stored.fresh _ _ points with
    | inl before => exact notMine _ before
    | inr free => exact free inUse
  refine ⟨⟨after.write tables, ?_, stored.step.compact.congr refs, stored.step.sb,
    stored.step.others, stored.step.inode, fun b inUse notMine => ?_⟩, ?_, ?_, ?_, fun i => ?_,
    fun b inUse notData notTable => ?_, stored.spent⟩
  · rw [CountedAt, mappedSlots_congr refs]
    exact stored.step.counted
  · rw [Function.update_of_ne (foreign b inUse notMine)]
    exact stored.step.blocks b inUse notMine
  · rw [refs]
    exact stored.refs
  · rw [refs]
    exact stored.kept
  · rw [refs]
    exact stored.fresh
  · by_cases here : i / 4096 = l
    · rw [if_pos here]
      subst here
      have pointsHere : fileRef (vol'.inodes ino) (Function.update disk' block data)
          (place (i / 4096)) = some block := by rw [refs, points]
      rw [byteAt_mapped small pointsHere, Function.update_self]
      rfl
    · rw [if_neg here, ← stored.bytes i]
      unfold byteAt
      rw [refs]
      by_cases inFile : i / 4096 < maxFileBlocks
      · rw [if_pos inFile, if_pos inFile]
        cases pointsTo : fileRef (vol'.inodes ino) disk' (place (i / 4096)) with
        | none => rfl
        | some b =>
          have other : place (i / 4096) ≠ place l :=
            fun same => here (place_injective inFile small same)
          dsimp only
          rw [Function.update_of_ne (only _ b pointsTo other)]
      · rw [if_neg inFile, if_neg inFile]
  · rw [Function.update_of_ne, stored.untouched b inUse notData notTable]
    rintro rfl
    cases stored.fresh _ _ points with
    | inl before => exact notData l listed before
    | inr free => exact free inUse

end Stored

section Paths

variable {s : FileSlot} (isData : s.IsData)
include isData

theorem single_of_path (onPath : .single ∈ s.path) : ∃ i, s = .entry i := by
  cases s <;> simp_all [FileSlot.path, FileSlot.IsData]

theorem root_of_path (onPath : .root ∈ s.path) : ∃ outer i, s = .leaf outer i := by
  cases s <;> simp_all [FileSlot.path, FileSlot.IsData]

theorem child_of_path {outer : Fin 1024} (onPath : .child outer ∈ s.path) :
    ∃ i, s = .leaf outer i := by
  cases s <;> simp_all [FileSlot.path, FileSlot.IsData]

end Paths

/-- A grown file has one more block stored. -/
theorem Grown.stored {l : Nat} {block : UInt32}
    (grown : Grown count vol vol' disk disk' ino (place l) block 1)
    (accounted : Accounted count vol disk []) (counted' : Counted vol' disk')
    (compact : Compact (vol.inodes ino) disk)
    (empty : fileRef (vol.inodes ino) disk (place l) = none) :
    Stored count vol vol' disk disk' ino [l] fun _ => none := by
  have present : fileRef (vol'.inodes ino) disk' (place l) ≠ none := by simp [grown.here]
  have refs : ∀ s, fileRef (vol'.inodes ino) disk' s = none ↔
      fileRef (vol.inodes ino) disk s = none ∧ s ∉ (place l).path := by
    intro s
    constructor
    · intro after
      refine ⟨?_, fun onPath => path_present present onPath after⟩
      cases before : fileRef (vol.inodes ino) disk s with
      | none => rfl
      | some b =>
        rw [grown.kept s b before] at after
        cases after
    · rintro ⟨before, offPath⟩
      cases after : fileRef (vol'.inodes ino) disk' s with
      | none => rfl
      | some b =>
        rcases grown.added s b after with same | ⟨onPath, _⟩
        · rw [before] at same
          cases same
        · exact absurd onPath offPath
  have compact' : Compact (vol'.inodes ino) disk' := by
    -- a table that was there keeps its entry; a new one is on the path of the new block
    have step : ∀ t, fileRef (vol'.inodes ino) disk' t ≠ none →
        fileRef (vol.inodes ino) disk t ≠ none ∨ t ∈ (place l).path := by
      intro t after
      by_contra neither
      rw [not_or, not_not] at neither
      exact after ((refs t).2 neither)
    have stays : ∀ t, fileRef (vol.inodes ino) disk t ≠ none →
        fileRef (vol'.inodes ino) disk' t ≠ none := fun t before after => before ((refs t).1 after).1
    have onPath : ∀ t ∈ (place l).path, fileRef (vol'.inodes ino) disk' t ≠ none :=
      fun t => path_present present
    refine ⟨fun after => ?_, fun after => ?_, fun outer after => ?_⟩
    · cases step _ after with
      | inl before =>
        obtain ⟨i, below⟩ := compact.single before
        exact ⟨i, stays _ below⟩
      | inr new =>
        obtain ⟨i, here⟩ := single_of_path (place_isData l) new
        exact ⟨i, here ▸ present⟩
    · cases step _ after with
      | inl before =>
        obtain ⟨outer, below⟩ := compact.root before
        exact ⟨outer, stays _ below⟩
      | inr new =>
        obtain ⟨outer, i, here⟩ := root_of_path (place_isData l) new
        refine ⟨outer, onPath _ ?_⟩
        rw [here]
        simp [FileSlot.path]
    · cases step _ after with
      | inl before =>
        obtain ⟨i, below⟩ := compact.child outer before
        exact ⟨i, stays _ below⟩
      | inr new =>
        obtain ⟨i, here⟩ := child_of_path (place_isData l) new
        exact ⟨i, here ▸ present⟩
  refine ⟨⟨grown.accounted, counted' ino, compact', grown.sb, grown.others, grown.inode,
    fun b inUse notMine => grown.blocks b inUse fun t _ _ => notMine t⟩, fun s => ?_, grown.kept,
    fun s b points => ?_, fun i => ?_, fun b inUse _ notTable => ?_, ?_⟩
  · rw [refs]
    simp only [List.mem_singleton, forall_eq]
  · cases grown.added s b points with
    | inl before => exact .inl before
    | inr new => exact .inr new.2
  · rw [Option.getD_none]
    unfold byteAt
    by_cases inFile : i / 4096 < maxFileBlocks
    · rw [if_pos inFile, if_pos inFile]
      cases before : fileRef (vol.inodes ino) disk (place (i / 4096)) with
      | some b =>
        have sameBlock : disk' b = disk b := by
          refine grown.blocks b (accounted.allocated_of_fileRef before) fun t _ isTable points => ?_
          have same := congrArg Prod.snd (accounted.ledger.injective
            (s := (ino, place (i / 4096))) (t := (ino, t)) before points)
          have isData := place_isData (i / 4096)
          rw [show place (i / 4096) = t from same] at isData
          cases t <;> first | exact isTable.elim | exact isData.elim
        rw [grown.kept _ b before]
        dsimp only
        rw [sameBlock]
      | none =>
        cases after : fileRef (vol'.inodes ino) disk' (place (i / 4096)) with
        | none => rfl
        | some b =>
          -- the only data slot that has become mapped is the new block, which is zeroed
          have here : place (i / 4096) = place l := by
            rcases grown.added _ b after with same | ⟨onPath, _⟩
            · rw [before] at same
              cases same
            · exact path_isData onPath (place_isData _)
          rw [here, grown.here] at after
          cases after
          dsimp only
          rw [grown.zero]
    · rw [if_neg inFile, if_neg inFile]
  · refine grown.blocks b inUse fun t onPath _ => ?_
    exact notTable l List.mem_cons_self empty t onPath
  · rw [card_neededSlots_one]
    exact grown.spent

/-- Where there was no room, nothing has been stored. -/
theorem Full.stored {needed : Nat} (full : Full vol vol' disk disk' needed)
    (accounted : Accounted count vol disk []) (counted : Counted vol disk)
    (compact : Compact (vol.inodes ino) disk) :
    Stored count vol vol' disk disk' ino [] fun _ => none := by
  obtain ⟨dirty, rfl⟩ := full.volume
  have alike : Alike vol { vol with bitmapDirty := dirty } disk disk' :=
    ⟨rfl, rfl, rfl, full.blocks⟩
  have refs := alike.ref_eq accounted ino
  have same : ∀ s, fileRef (vol.inodes ino) disk' s = fileRef (vol.inodes ino) disk s :=
    congrFun refs
  refine ⟨⟨alike.accounted_after accounted, ?_, compact.congr refs, rfl, fun _ _ => rfl, rfl,
    fun b inUse _ => full.blocks b inUse⟩, fun s => ?_, fun s b points => ?_,
    fun s b points => .inl ?_, fun i => ?_, fun b inUse _ _ => full.blocks b inUse, ?_⟩
  · rw [CountedAt, mappedSlots_congr refs]
    exact counted ino
  · simp [same]
  · rw [← points]
    exact same s
  · rw [← points]
    exact (same s).symm
  · rw [alike.bytes_eq accounted ino, Option.getD_none]
  · rw [neededSlots_nil, Finset.card_empty, Nat.add_zero]

/-! ## The write loop -/

theorem exec_blockForWrite (accounted : Accounted count vol disk []) (counted : Counted vol disk)
    (compact : Compact (vol.inodes ino) disk) {l : Nat} (small : l < maxFileBlocks) :
    (∃ vol' disk' block, Stored count vol vol' disk disk' ino [l] (fun _ => none) ∧
      fileRef (vol'.inodes ino) disk' (place l) = some block ∧
      Prog.exec (plainDevice count) (blockForWrite ino l) (vol, disk) =
        (.ok block, vol', disk')) ∨
    ∃ vol' disk', Stored count vol vol' disk disk' ino [] (fun _ => none) ∧
      vol.sb.freeBlocks.toNat < (neededSlots (vol.inodes ino) disk [l]).card ∧
      Prog.exec (plainDevice count) (blockForWrite ino l) (vol, disk) =
        (.error .enospc, vol', disk') := by
  unfold blockForWrite
  rw [Prog.exec_bind_ok (Prog.exec_get _ _),
    Prog.exec_bind_ok (exec_getFileDataBlock accounted rfl small)]
  cases points : fileRef (vol.inodes ino) disk (place l) with
  | some block =>
    have present : block ≠ invalidBlock := fileRef_ne_invalid points
    refine .inl ⟨vol, disk, block, .start accounted (counted ino) compact fun k listed => ?_,
      points, ?_⟩
    · rw [List.mem_singleton.1 listed, points]
      simp
    · rw [if_neg (show ¬blockNumber (some block) = invalidBlock from present)]
      rfl
  | none =>
    rw [if_pos (show blockNumber none = invalidBlock from rfl)]
    rcases exec_allocateFileDataBlock accounted counted small points with
      ⟨vol', disk', block, grown, counted', returns⟩ | ⟨vol', disk', full, fails⟩
    · exact .inl ⟨vol', disk', block, grown.stored accounted counted' compact points, grown.here,
        returns⟩
    · refine .inr ⟨vol', disk', full.stored accounted counted compact, ?_, fails⟩
      rw [card_neededSlots_one]
      exact full.full

/-- The bytes a write puts at a position of the file. -/
def chunkPatch (pos : Nat) (src : List UInt8) (i : Nat) : Option UInt8 :=
  if pos ≤ i then src[i - pos]? else none

theorem chunkPatch_nil (pos : Nat) : chunkPatch pos [] = fun _ => none := by
  funext i
  unfold chunkPatch
  simp

theorem chunkPatch_append (pos : Nat) (first second : List UInt8) (i : Nat) :
    (chunkPatch (pos + first.length) second i <|> chunkPatch pos first i) =
      chunkPatch pos (first ++ second) i := by
  unfold chunkPatch
  by_cases before : i < pos
  · rw [if_neg (by omega), if_neg (by omega), if_neg (by omega)]
    rfl
  rw [if_pos (show pos ≤ i by omega), if_pos (show pos ≤ i by omega)]
  by_cases early : i < pos + first.length
  · rw [if_neg (by omega), List.getElem?_append_left (by omega)]
    rfl
  · rw [if_pos (by omega), List.getElem?_append_right (by omega),
      List.getElem?_eq_none (show first.length ≤ i - pos by omega)]
    have index : i - (pos + first.length) = i - pos - first.length := by omega
    rw [index]
    cases second[i - pos - first.length]? <;> rfl

/-- The logical blocks a range of bytes touches. -/
def touchedBlocks (pos len : Nat) : List Nat :=
  List.range' (pos / 4096) (if len = 0 then 0 else (pos + len - 1) / 4096 - pos / 4096 + 1)

theorem touchedBlocks_zero (pos : Nat) : touchedBlocks pos 0 = [] := rfl

theorem mem_touchedBlocks {pos len l : Nat} :
    l ∈ touchedBlocks pos len ↔ ∃ i, pos ≤ i ∧ i < pos + len ∧ i / 4096 = l := by
  unfold touchedBlocks
  rw [List.mem_range'_1]
  constructor
  · rintro ⟨lower, upper⟩
    split at upper
    · omega
    · by_cases first : l = pos / 4096
      · exact ⟨pos, by omega, by omega, first.symm⟩
      · exact ⟨l * 4096, by omega, by omega, by omega⟩
  · rintro ⟨i, lower, upper, rfl⟩
    rw [if_neg (by omega)]
    omega

/-- How much of the range one round of the loop handles. -/
theorem touchedBlocks_round (pos : Nat) {len : Nat} (some : len ≠ 0) :
    touchedBlocks pos len = pos / 4096 :: touchedBlocks (pos + min (4096 - pos % 4096) len)
      (len - min (4096 - pos % 4096) len) := by
  unfold touchedBlocks
  rw [if_neg some, List.range'_succ]
  congr 1
  by_cases last : len ≤ 4096 - pos % 4096
  · rw [Nat.min_eq_right last, Nat.sub_self, if_pos rfl]
    have none : (pos + len - 1) / 4096 - pos / 4096 = 0 := by omega
    rw [none]
    rfl
  · have whole : min (4096 - pos % 4096) len = 4096 - pos % 4096 := by omega
    rw [whole, if_neg (by omega)]
    congr 1
    · omega
    · omega

/-- The part of the buffer that goes to the first `m` touched blocks. -/
def storedPart (pos m : Nat) (src : List UInt8) : List UInt8 :=
  src.take ((pos / 4096 + m) * 4096 - pos)

theorem storedPart_zero (pos : Nat) (src : List UInt8) : storedPart pos 0 src = [] := by
  have none : (pos / 4096 + 0) * 4096 - pos = 0 := by omega
  rw [storedPart, none, List.take_zero]

theorem storedPart_round (pos : Nat) (src : List UInt8) (m : Nat) :
    storedPart pos (m + 1) src = src.take (min (4096 - pos % 4096) src.length) ++
      storedPart (pos + min (4096 - pos % 4096) src.length) m
        (src.drop (min (4096 - pos % 4096) src.length)) := by
  unfold storedPart
  by_cases last : src.length ≤ 4096 - pos % 4096
  · rw [Nat.min_eq_right last, List.take_length, List.drop_length, List.take_nil, List.append_nil]
    exact List.take_of_length_le (by omega)
  · have whole : min (4096 - pos % 4096) src.length = 4096 - pos % 4096 := by omega
    rw [whole, ← List.take_add]
    congr 1
    have next : (pos + (4096 - pos % 4096)) / 4096 = pos / 4096 + 1 := by omega
    rw [next]
    omega

/-- One round on a block that is there. -/
theorem Stored.writeChunk {l pos : Nat} {block : UInt32}
    (stored : Stored count vol vol' disk disk' ino [l] fun _ => none) (part : List UInt8) (here : pos / 4096 = l)
    (small : l < maxFileBlocks) (fits : pos % 4096 + part.length ≤ 4096)
    (points : fileRef (vol'.inodes ino) disk' (place l) = some block) :
    Prog.exec (plainDevice count) (DenyFS.writeChunk block (pos % 4096) part) (vol', disk') =
        (.ok (), vol', Function.update disk' block
          (spliceSector (disk' block) (pos % 4096) part)) ∧
      Stored count vol vol' disk (Function.update disk' block
        (spliceSector (disk' block) (pos % 4096) part)) ino [l] (chunkPatch pos part) := by
  have inside := stored.step.accounted.inVolume
    (stored.step.accounted.allocated_of_fileRef points)
  constructor
  · unfold DenyFS.writeChunk
    rw [Prog.exec_bind_ok (Prog.exec_elseThrow_ok (exec_readBlock inside) _)]
    exact exec_writeBlock inside _
  · refine (stored.write small List.mem_cons_self points _).with_patch fun i => ?_
    have old : ∀ inBlock : i / 4096 = l,
        disk' block (Fin.ofNat 4096 i) = byteAt (vol.inodes ino) disk i := by
      intro inBlock
      have pointsAt : fileRef (vol'.inodes ino) disk' (place (i / 4096)) = some block := by
        rw [inBlock, points]
      rw [← byteAt_mapped (inBlock ▸ small) pointsAt, stored.bytes i, Option.getD_none]
    unfold chunkPatch
    by_cases inBlock : i / 4096 = l
    · rw [if_pos inBlock, Option.getD_some]
      unfold spliceSector
      have offset : (Fin.ofNat 4096 i).val = i % 4096 := rfl
      rw [offset]
      by_cases before : i < pos
      · rw [if_neg (by omega), if_neg (by omega), old inBlock, Option.getD_none]
      rw [if_pos (show pos ≤ i by omega)]
      by_cases within : i < pos + part.length
      · rw [if_pos (by omega)]
        have index : i % 4096 - pos % 4096 = i - pos := by omega
        rw [index, List.getElem?_eq_getElem (show i - pos < part.length by omega),
          Option.getD_some, List.getD_eq_getElem?_getD,
          List.getElem?_eq_getElem (show i - pos < part.length by omega), Option.getD_some]
      · rw [if_neg (by omega), List.getElem?_eq_none (by omega), old inBlock, Option.getD_none]
    · rw [if_neg inBlock]
      by_cases before : i < pos
      · rw [if_neg (by omega)]
      · rw [if_pos (by omega), List.getElem?_eq_none (by omega)]

/-- The loop stores the first `m` of the touched blocks: all of them, or as many as there was
room for. -/
theorem exec_writeChunks (fuel : Nat) (accounted : Accounted count vol disk [])
    (counted : Counted vol disk) (compact : Compact (vol.inodes ino) disk) (pos : Nat)
    (src : List UInt8) (enough : src.length ≤ fuel) (fits : pos + src.length ≤ maxFileSize) :
    ∃ m vol' disk', m ≤ (touchedBlocks pos src.length).length ∧
      Stored count vol vol' disk disk' ino ((touchedBlocks pos src.length).take m)
        (chunkPatch pos (storedPart pos m src)) ∧
      ((m = (touchedBlocks pos src.length).length ∧
          Prog.exec (plainDevice count) (writeChunks ino fuel pos src) (vol, disk) =
            (.ok (), vol', disk')) ∨
        (m < (touchedBlocks pos src.length).length ∧
          vol.sb.freeBlocks.toNat < (neededSlots (vol.inodes ino) disk
            ((touchedBlocks pos src.length).take (m + 1))).card ∧
          Prog.exec (plainDevice count) (writeChunks ino fuel pos src) (vol, disk) =
            (.error .enospc, vol', disk'))) := by
  have limits : maxFileSize = 1048576 * 4096 ∧ maxFileBlocks = 1049620 := ⟨rfl, rfl⟩
  induction fuel generalizing vol disk pos src with
  | zero =>
    obtain rfl : src = [] := List.length_eq_zero_iff.1 (by omega)
    refine ⟨0, vol, disk, Nat.zero_le _, ?_, .inl ⟨rfl, rfl⟩⟩
    rw [storedPart_zero, chunkPatch_nil]
    exact .start accounted (counted ino) compact fun l impossible => (nomatch impossible)
  | succ fuel ih =>
    rw [writeChunks]
    by_cases empty : src = []
    · subst empty
      refine ⟨0, vol, disk, Nat.zero_le _, ?_, .inl ⟨rfl, by rw [if_pos rfl]; rfl⟩⟩
      rw [storedPart_zero, chunkPatch_nil]
      exact .start accounted (counted ino) compact fun l impossible => (nomatch impossible)
    rw [if_neg empty]
    have positive : src.length ≠ 0 := fun zero => empty (List.length_eq_zero_iff.1 zero)
    have small : pos / 4096 < maxFileBlocks := by omega
    have split := touchedBlocks_round pos positive
    dsimp only
    generalize chunkIs : min (4096 - pos % 4096) src.length = chunk at *
    have chunkLength : (src.take chunk).length = chunk := by
      rw [List.length_take]
      omega
    rcases exec_blockForWrite accounted counted compact small with
      ⟨vol₁, disk₁, block, stored, points, returns⟩ | ⟨vol₁, disk₁, stored, full, fails⟩
    · obtain ⟨writes, stored₁⟩ := stored.writeChunk (src.take chunk) rfl small
        (by omega) points
      rw [Prog.exec_bind_ok returns, Prog.exec_bind_ok writes]
      have counted₁ := stored₁.step.counted_all accounted counted
      obtain ⟨m, vol', disk', bound, later, outcome⟩ := ih stored₁.step.accounted counted₁
        stored₁.step.compact (pos + chunk) (src.drop chunk)
        (by rw [List.length_drop]; omega) (by rw [List.length_drop]; omega)
      rw [List.length_drop] at bound later outcome
      have all := stored₁.trans accounted later
      refine ⟨m + 1, vol', disk', ?_, ?_, ?_⟩
      · rw [split, List.length_cons]
        omega
      · rw [split, List.take_succ_cons]
        refine all.with_patch fun i => ?_
        have part := storedPart_round pos src m
        rw [chunkIs] at part
        rw [part, ← chunkPatch_append, chunkLength]
      · have needs : ∀ rest, (neededSlots (vol.inodes ino) disk (pos / 4096 :: rest)).card =
            (neededSlots (vol.inodes ino) disk [pos / 4096]).card +
              (neededSlots (vol₁.inodes ino) (Function.update disk₁ block
                (spliceSector (disk₁ block) (pos % 4096) (src.take chunk))) rest).card :=
          fun rest => card_neededSlots_append rest stored₁.refs
        have spent := stored₁.spent
        rcases outcome with ⟨done, succeeds⟩ | ⟨stops, full, fails⟩
        · refine .inl ⟨?_, succeeds⟩
          rw [split, List.length_cons, done]
        · refine .inr ⟨?_, ?_, fails⟩
          · rw [split, List.length_cons]
            omega
          · rw [split, List.take_succ_cons, needs]
            omega
    · rw [Prog.exec_bind_error fails]
      refine ⟨0, vol₁, disk₁, Nat.zero_le _, ?_, .inr ⟨?_, ?_, rfl⟩⟩
      · rw [storedPart_zero, chunkPatch_nil]
        exact stored
      · rw [split]
        exact Nat.succ_pos _
      · rw [split]
        exact full

end DenyFS
