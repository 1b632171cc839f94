import DenyFS.Verified.Allocation

/-! # Releasing blocks

`truncate_file_blocks` and `free_inode` walk the block map and give blocks back one by one.
Each of their loops amounts to giving back a list of blocks and emptying the slots that pointed
to them; `Shrunk` says what that leaves of the volume. -/

namespace DenyFS

open Packed BlockProgram Ownership

variable {count : Nat} {vol vol' vol'' : Volume} {disk disk' disk'' : Blocks} {ino : Fin 64}

/-! ## Lists of blocks -/

/-- `free_block` on one block after the other. -/
def freeAll (vol : Volume) (blocks : List UInt32) : Volume := blocks.foldl freeBlock vol

theorem freeAll_append (vol : Volume) (first second : List UInt32) :
    freeAll vol (first ++ second) = freeAll (freeAll vol first) second :=
  List.foldl_append ..

/-- What giving back a list of blocks in use does. -/
structure Freed (vol vol' : Volume) (blocks : List UInt32) : Prop where
  sb : vol'.sb = { vol.sb with freeBlocks := vol'.sb.freeBlocks }
  inodes : vol'.inodes = vol.inodes
  allocated : ∀ b, vol'.allocated b ↔ vol.allocated b ∧ b ∉ blocks
  bits : ∀ i < vol.sb.dataStart.toNat, vol'.bit i = vol.bit i
  space : vol.Space → vol'.Space
  gained : vol.Space → vol'.sb.freeBlocks.toNat = vol.sb.freeBlocks.toNat + blocks.length

theorem freed_one {block : UInt32} (inUse : vol.allocated block) :
    Freed vol (freeBlock vol block) [block] := by
  obtain ⟨inData, set⟩ := (vol.allocated_iff block).1 inUse
  rw [freeBlock_of_allocated inUse]
  refine ⟨rfl, rfl, fun b => ?_, fun i below => ?_,
    fun space => (Volume.releaseBlock_space space inData set).1,
    fun space => (Volume.releaseBlock_space space inData set).2⟩
  · rw [Volume.releaseBlock_allocated block.toNat_lt, UInt32.ofNat_toNat, List.mem_singleton]
  · have := (vol.mem_dataBlocks.1 inData).1
    have other : i ≠ block.toNat := by omega
    rw [Volume.releaseBlock_bit, decide_eq_true other, Bool.and_true]

theorem Freed.trans {first second : List UInt32} (left : Freed vol vol' first)
    (right : Freed vol' vol'' second) : Freed vol vol'' (first ++ second) where
  sb := by rw [right.sb, left.sb]
  inodes := right.inodes.trans left.inodes
  allocated b := by
    rw [right.allocated, left.allocated, List.mem_append]
    tauto
  bits i below := by
    have same : vol'.sb.dataStart = vol.sb.dataStart := by rw [left.sb]
    rw [right.bits i (same ▸ below), left.bits i below]
  space start := right.space (left.space start)
  gained start := by
    have := left.gained start
    have := right.gained (left.space start)
    rw [List.length_append]
    omega

theorem freeAll_freed {blocks : List UInt32} (nodup : blocks.Nodup)
    (inUse : ∀ b ∈ blocks, vol.allocated b) : Freed vol (freeAll vol blocks) blocks := by
  induction blocks generalizing vol with
  | nil => exact ⟨rfl, rfl, fun b => by simp [freeAll], fun _ _ => rfl, id, fun _ => rfl⟩
  | cons block rest ih =>
    obtain ⟨absent, nodup⟩ := List.nodup_cons.1 nodup
    have first := freed_one (inUse block List.mem_cons_self)
    have later : ∀ b ∈ rest, (freeBlock vol block).allocated b := by
      intro b member
      rw [first.allocated]
      refine ⟨inUse b (List.mem_cons_of_mem _ member), ?_⟩
      rw [List.mem_singleton]
      rintro rfl
      exact absent member
    exact first.trans (ih nodup later)

theorem freeBlock_setInode (vol : Volume) (ino : Fin 64) (inode : Inode) (block : UInt32) :
    freeBlock (vol.setInode ino inode) block = (freeBlock vol block).setInode ino inode := by
  by_cases inUse : vol.allocated block
  · have inUse' : (vol.setInode ino inode).allocated block := inUse
    rw [freeBlock_of_allocated inUse, freeBlock_of_allocated inUse']
    rfl
  · have free' : ¬(vol.setInode ino inode).allocated block := inUse
    rw [freeBlock_of_free inUse, freeBlock_of_free free']

theorem freeBlock_inodes (vol : Volume) (block : UInt32) :
    (freeBlock vol block).inodes = vol.inodes := by
  unfold freeBlock
  split <;> rfl

theorem freeAll_setInode (vol : Volume) (ino : Fin 64) (inode : Inode) (blocks : List UInt32) :
    freeAll (vol.setInode ino inode) blocks = (freeAll vol blocks).setInode ino inode := by
  induction blocks generalizing vol with
  | nil => rfl
  | cons block rest ih =>
    unfold freeAll at ih ⊢
    rw [List.foldl_cons, List.foldl_cons, freeBlock_setInode, ih]

theorem freeAll_inodes (vol : Volume) (blocks : List UInt32) :
    (freeAll vol blocks).inodes = vol.inodes := by
  induction blocks generalizing vol with
  | nil => rfl
  | cons block rest ih => exact (ih _).trans (freeBlock_inodes vol block)

/-! ## Emptying slots -/

/-- Some slots of inode `ino` were emptied and their blocks given back. -/
structure Shrunk (count : Nat) (vol vol' : Volume) (disk disk' : Blocks) (ino : Fin 64) :
    Prop where
  accounted : Accounted count vol' disk' []
  sb : vol'.sb = { vol.sb with freeBlocks := vol'.sb.freeBlocks }
  others : ∀ j, j ≠ ino → vol'.inodes j = vol.inodes j
  inode : vol'.inodes ino = { vol.inodes ino with
    blockCount := (vol'.inodes ino).blockCount
    direct := (vol'.inodes ino).direct
    indirectBlock := (vol'.inodes ino).indirectBlock
    doubleIndirectBlock := (vol'.inodes ino).doubleIndirectBlock }
  shrinks : ∀ s b, fileRef (vol'.inodes ino) disk' s = some b →
    fileRef (vol.inodes ino) disk s = some b
  blocks : ∀ b, (∀ s : FileSlot, s.IsTable → fileRef (vol.inodes ino) disk s ≠ some b) →
    disk' b = disk b

namespace Shrunk

theorem refl (accounted : Accounted count vol disk []) (ino : Fin 64) :
    Shrunk count vol vol disk disk ino :=
  ⟨accounted, rfl, fun _ _ => rfl, rfl, fun _ _ => id, fun _ _ => rfl⟩

theorem trans (first : Shrunk count vol vol' disk disk' ino)
    (second : Shrunk count vol' vol'' disk' disk'' ino) :
    Shrunk count vol vol'' disk disk'' ino where
  accounted := second.accounted
  sb := by rw [second.sb, first.sb]
  others j away := (second.others j away).trans (first.others j away)
  inode := by rw [second.inode, first.inode]
  shrinks s b points := first.shrinks s b (second.shrinks s b points)
  blocks b noTable := by
    rw [second.blocks b fun s isTable points => noTable s isTable (first.shrinks s b points),
      first.blocks b noTable]

/-- The slots in `dropped` are emptied, and the blocks given back are those they pointed to. -/
theorem of_freed (accounted : Accounted count vol disk []) {freed : Volume} {blocks : List UInt32}
    (dropped : FileSlot → Prop) (released : Freed vol freed blocks)
    (exact : ∀ b, b ∈ blocks ↔ ∃ s, dropped s ∧ fileRef (vol.inodes ino) disk s = some b)
    (sb : vol'.sb = freed.sb) (bitmap : vol'.bitmap = freed.bitmap)
    (others : ∀ j, j ≠ ino → vol'.inodes j = vol.inodes j)
    (inode : vol'.inodes ino = { vol.inodes ino with
      blockCount := (vol'.inodes ino).blockCount
      direct := (vol'.inodes ino).direct
      indirectBlock := (vol'.inodes ino).indirectBlock
      doubleIndirectBlock := (vol'.inodes ino).doubleIndirectBlock })
    (emptied : ∀ s, dropped s → fileRef (vol'.inodes ino) disk' s = none)
    (kept : ∀ s, ¬dropped s →
      fileRef (vol'.inodes ino) disk' s = fileRef (vol.inodes ino) disk s)
    (untouched : ∀ b, (∀ s : FileSlot, s.IsTable → fileRef (vol.inodes ino) disk s ≠ some b) →
      disk' b = disk b) : Shrunk count vol vol' disk disk' ino := by
  have otherRefs : ∀ j, j ≠ ino →
      fileRef (vol.inodes j) disk' = fileRef (vol.inodes j) disk := by
    intro j away
    funext s
    refine fileRef_congr (fun t _ b points => untouched b fun u _ too => ?_) s
    exact away (congrArg Prod.fst
      (accounted.ledger.injective (s := (j, t)) (t := (ino, u)) points too))
  have ledger : Ledger (ref vol' disk') freed.allocated [] := by
    refine accounted.ledger.drop (fun slot => slot.1 = ino ∧ dropped slot.2) ?_ ?_ fun b => ?_
    · rintro ⟨j, s⟩ ⟨rfl, gone⟩
      exact emptied s gone
    · rintro ⟨j, s⟩ stays
      by_cases file : j = ino
      · subst file
        exact kept s fun gone => stays ⟨rfl, gone⟩
      · rw [ref, ref, others j file]
        exact congrFun (otherRefs j file) s
    · rw [released.allocated, exact]
      refine and_congr_right fun _ => ⟨?_, ?_⟩
      · rintro none ⟨j, s⟩ points ⟨rfl, gone⟩
        exact none ⟨s, gone, points⟩
      · rintro stays ⟨s, gone, points⟩
        exact stays (ino, s) points ⟨rfl, gone⟩
  have sameLayout : vol.sb.SameLayout vol'.sb := by
    rw [sb, released.sb]
    rfl
  have bit : ∀ i, vol'.bit i = freed.bit i := fun i => by rw [Volume.bit, bitmap, Volume.bit]
  refine ⟨⟨accounted.layout.of_same sameLayout, ledger.congr (fun _ => rfl) fun b => ?_, ?_,
    fun i below => ?_⟩, by rw [sb, released.sb], others, inode, fun s b points => ?_, untouched⟩
  · rw [Volume.allocated, Volume.allocated, sb, bit]
  · have space := released.space accounted.space
    unfold Volume.Space Volume.usedCount Volume.dataBlocks at *
    simp only [sb, bit]
    exact space
  · rw [sameLayout.dataStart] at below
    rw [bit, released.bits i below, accounted.metadataBits i below]
  · by_cases gone : dropped s
    · rw [emptied s gone] at points
      cases points
    · rwa [kept s gone] at points

end Shrunk

/-! ## Single steps -/

/-- `block_count` of one inode is the number of its mapped data blocks. -/
def CountedAt (vol : Volume) (disk : Blocks) (ino : Fin 64) : Prop :=
  (vol.inodes ino).blockCount.toNat = (mappedSlots (vol.inodes ino) disk).card

/-- One slot is emptied and its block given back. -/
theorem Shrunk.of_slot (accounted : Accounted count vol disk []) {s : FileSlot} {block : UInt32}
    (points : fileRef (vol.inodes ino) disk s = some block)
    (sb : vol'.sb = (freeBlock vol block).sb) (bitmap : vol'.bitmap = (freeBlock vol block).bitmap)
    (others : ∀ j, j ≠ ino → vol'.inodes j = vol.inodes j)
    (inode : vol'.inodes ino = { vol.inodes ino with
      blockCount := (vol'.inodes ino).blockCount
      direct := (vol'.inodes ino).direct
      indirectBlock := (vol'.inodes ino).indirectBlock
      doubleIndirectBlock := (vol'.inodes ino).doubleIndirectBlock })
    (refs : fileRef (vol'.inodes ino) disk' = Function.update (fileRef (vol.inodes ino) disk) s none)
    (untouched : ∀ b, (∀ s : FileSlot, s.IsTable → fileRef (vol.inodes ino) disk s ≠ some b) →
      disk' b = disk b) : Shrunk count vol vol' disk disk' ino := by
  refine .of_freed accounted (fun t => t = s) (freed_one (accounted.allocated_of_fileRef points))
    (fun b => ?_) sb bitmap others inode (fun t here => ?_) (fun t other => ?_) untouched
  · rw [List.mem_singleton]
    constructor
    · rintro rfl
      exact ⟨s, rfl, points⟩
    · rintro ⟨t, rfl, points'⟩
      exact Option.some.inj (points'.symm.trans points)
  · rw [refs, here, Function.update_self]
  · rw [refs, Function.update_of_ne other]

/-- One mapped data slot less. -/
theorem mappedSlots_card_of_dropped {inode inode' : Inode} {s : FileSlot} {block : UInt32}
    (isData : s.IsData) (points : fileRef inode disk s = some block)
    (refs : fileRef inode' disk' = Function.update (fileRef inode disk) s none) :
    (mappedSlots inode disk).card = (mappedSlots inode' disk').card + 1 := by
  have member : s ∈ mappedSlots inode disk := mem_mappedSlots.2 ⟨isData, by simp [points]⟩
  have erased : mappedSlots inode' disk' = (mappedSlots inode disk).erase s := by
    ext t
    rw [Finset.mem_erase, mem_mappedSlots, mem_mappedSlots, refs, Function.update_apply]
    by_cases same : t = s
    · simp [same]
    · simp [same]
  rw [erased, Finset.card_erase_of_mem member]
  have := Finset.card_pos.2 ⟨s, member⟩
  omega

theorem CountedAt.drop_one {s : FileSlot} {block : UInt32} (counted : CountedAt vol disk ino)
    (isData : s.IsData) (points : fileRef (vol.inodes ino) disk s = some block)
    (refs : fileRef (vol'.inodes ino) disk' = Function.update (fileRef (vol.inodes ino) disk) s none)
    (blockCount : (vol'.inodes ino).blockCount = (vol.inodes ino).blockCount - 1) :
    CountedAt vol' disk' ino := by
  have card := mappedSlots_card_of_dropped isData points refs
  unfold CountedAt at *
  have fewer : ((vol.inodes ino).blockCount - 1).toNat = (vol.inodes ino).blockCount.toNat - 1 :=
    UInt32.toNat_sub_of_le _ _ (UInt32.le_iff_toNat_le.mpr (by
      change 1 ≤ _
      omega))
  rw [blockCount, fewer]
  omega

/-! ## The direct loop -/

/-- The direct loop of `truncate_file_blocks`. -/
theorem foldl_truncateDirectAt (newBlockCount : Nat) (indices : List (Fin 20))
    (accounted : Accounted count vol disk []) (counted : CountedAt vol disk ino) :
    let final := indices.foldl (truncateDirectAt ino newBlockCount) vol
    Shrunk count vol final disk disk ino ∧ CountedAt final disk ino ∧
      (∀ i, (final.inodes ino).direct i =
        if i ∈ indices ∧ newBlockCount ≤ i.val then invalidBlock else (vol.inodes ino).direct i) ∧
      (final.inodes ino).indirectBlock = (vol.inodes ino).indirectBlock ∧
      (final.inodes ino).doubleIndirectBlock = (vol.inodes ino).doubleIndirectBlock := by
  induction indices generalizing vol with
  | nil => exact ⟨.refl accounted ino, counted, fun i => by simp, rfl, rfl⟩
  | cons i rest ih =>
    intro final
    have unfolded : final = rest.foldl (truncateDirectAt ino newBlockCount)
        (truncateDirectAt ino newBlockCount vol i) := rfl
    rw [unfolded]
    by_cases dropped : newBlockCount ≤ i.val ∧ (vol.inodes ino).direct i ≠ invalidBlock
    · let inode' : Inode :=
        { vol.inodes ino with
          direct := Function.update (vol.inodes ino).direct i invalidBlock
          blockCount := (vol.inodes ino).blockCount - 1 }
      have step : truncateDirectAt ino newBlockCount vol i =
          (freeBlock vol ((vol.inodes ino).direct i)).setInode ino inode' := if_pos dropped
      have self : ((freeBlock vol ((vol.inodes ino).direct i)).setInode ino inode').inodes ino =
          inode' := Function.update_self ..
      have points : fileRef (vol.inodes ino) disk (.direct i) = some ((vol.inodes ino).direct i) :=
        pointer_of_ne dropped.2
      have refs : fileRef inode' disk =
          Function.update (fileRef (vol.inodes ino) disk) (.direct i) none := by
        have := fileRef_setDirect (vol.inodes ino) disk i invalidBlock
        rw [pointer_invalid] at this
        rw [← this]
        exact fileRef_blockCount { vol.inodes ino with
          direct := Function.update (vol.inodes ino).direct i invalidBlock } disk
          ((vol.inodes ino).blockCount - 1)
      have shrunk : Shrunk count vol (truncateDirectAt ino newBlockCount vol i) disk disk ino := by
        rw [step]
        refine .of_slot accounted points rfl rfl (fun j away => ?_) ?_ (by rw [self, refs])
          fun _ _ => rfl
        · rw [Volume.setInode_inodes, Function.update_of_ne away, freeBlock_inodes]
        · rw [self]
      have countedStep : CountedAt (truncateDirectAt ino newBlockCount vol i) disk ino := by
        refine counted.drop_one (s := .direct i) trivial points ?_ ?_
        · rw [step, self, refs]
        · rw [step, self]
      obtain ⟨shrunk', counted', direct, single, double⟩ := ih shrunk.accounted countedStep
      refine ⟨shrunk.trans shrunk', counted', fun j => ?_, ?_, ?_⟩
      · rw [direct, step, self]
        by_cases here : j = i
        · subst here
          simp [inode', dropped.1]
        · simp [inode', here]
      · rw [single, step, self]
      · rw [double, step, self]
    · have step : truncateDirectAt ino newBlockCount vol i = vol := if_neg dropped
      rw [step]
      obtain ⟨shrunk', counted', direct, single, double⟩ := ih accounted counted
      refine ⟨shrunk', counted', fun j => ?_, single, double⟩
      rw [direct]
      by_cases here : j = i
      · subst here
        by_cases far : newBlockCount ≤ j.val
        · have invalid : (vol.inodes ino).direct j = invalidBlock := by
            by_contra present
            exact dropped ⟨far, present⟩
          simp [far, invalid]
        · simp [far]
      · simp [here]

/-! ## The loop over one table -/

/-- The tables with data entries: the single-indirect table, and the child tables. -/
inductive EntryTable where
  | single
  | child (outer : Fin 1024)

namespace EntryTable

def slot : EntryTable → FileSlot
  | .single => .single
  | .child outer => .child outer

def entry : EntryTable → Fin 1024 → FileSlot
  | .single, i => .entry i
  | .child outer, i => .leaf outer i

/-- The logical block of the first entry. -/
def start : EntryTable → Nat
  | .single => 20
  | .child outer => 20 + 1024 + outer.val * 1024

theorem entry_isData (table : EntryTable) (i : Fin 1024) : (table.entry i).IsData := by
  cases table <;> trivial

theorem slot_isTable (table : EntryTable) : table.slot.IsTable := by
  cases table <;> trivial

theorem logical_entry (table : EntryTable) (i : Fin 1024) :
    (table.entry i).logical = table.start + i.val := by
  cases table <;> rfl

theorem entry_ne_slot (table : EntryTable) (i : Fin 1024) : table.entry i ≠ table.slot := by
  cases table <;> exact fun equal => FileSlot.noConfusion equal

theorem entry_injective (table : EntryTable) {i j : Fin 1024}
    (same : table.entry i = table.entry j) : i = j := by
  cases table with
  | single => exact FileSlot.entry.inj same
  | child outer => exact (FileSlot.leaf.inj same).2

/-- The entries of a table, read off the disk. -/
theorem fileRef_entry {inode : Inode} {table : EntryTable} {block : UInt32}
    (points : fileRef inode disk table.slot = some block) (i : Fin 1024) :
    fileRef inode disk (table.entry i) = pointer (tableAt disk block i) := by
  cases table with
  | single =>
    obtain ⟨same, _⟩ := pointer_eq_some.1 points
    simp only [entry, fileRef, Inode.singleTable, same]
  | child outer =>
    obtain ⟨same, _⟩ := pointer_eq_some.1 points
    simp only [entry, fileRef, Inode.childTable, same]

/-- Rewriting one entry of a table changes the one slot. -/
theorem fileRef_write {inode : Inode} {table : EntryTable} {block target : UInt32} {i : Fin 1024}
    (points : fileRef inode disk table.slot = some block)
    (apart : ∀ u, u ≠ table.slot → fileRef inode disk u ≠ some block) :
    fileRef inode (Function.update disk block
        (pointersSector (Function.update (tableAt disk block) i target))) =
      Function.update (fileRef inode disk) (table.entry i) (pointer target) := by
  cases table with
  | single =>
    obtain ⟨same, present⟩ := pointer_eq_some.1 points
    have written := fileRef_writeSingle i target present apart
      (show tableAt disk block = inode.singleTable disk by rw [Inode.singleTable, same])
    have unchanged : Function.update (fileRef inode disk) .single (some block) =
        fileRef inode disk := Function.update_eq_iff.2 ⟨points.symm, fun _ _ => rfl⟩
    rw [unchanged] at written
    subst same
    exact written
  | child outer => exact fileRef_writeChild points apart

end EntryTable

theorem fileRef_ne_of_apart (accounted : Accounted count vol disk []) {table : EntryTable}
    {block : UInt32} (points : fileRef (vol.inodes ino) disk table.slot = some block) (u : FileSlot)
    (other : u ≠ table.slot) : fileRef (vol.inodes ino) disk u ≠ some block :=
  accounted.apart_slot points other

/-- One entry of a table is emptied, the table being written through `pointers`. -/
theorem Shrunk.of_entry {table : EntryTable} {block : UInt32} {pointers : Pointers} {i : Fin 1024}
    (accounted : Accounted count vol (Function.update disk block (pointersSector pointers)) [])
    (points : fileRef (vol.inodes ino) (Function.update disk block (pointersSector pointers))
      table.slot = some block) (present : pointers i ≠ invalidBlock) (blockCount : UInt32) :
    let written := Function.update disk block (pointersSector pointers)
    let written' := Function.update disk block
      (pointersSector (Function.update pointers i invalidBlock))
    let vol' := (freeBlock vol (pointers i)).setInode ino { vol.inodes ino with blockCount }
    Shrunk count vol vol' written written' ino ∧
      fileRef (vol.inodes ino) written (table.entry i) = some (pointers i) ∧
      fileRef (vol'.inodes ino) written' =
        Function.update (fileRef (vol.inodes ino) written) (table.entry i) none := by
  intro written written' vol'
  have block_present := fileRef_ne_invalid points
  have contents : tableAt written block = pointers := tableAt_update_self disk pointers block_present
  have entry : fileRef (vol.inodes ino) written (table.entry i) = some (pointers i) := by
    rw [EntryTable.fileRef_entry points, contents, pointer_of_ne present]
  have self : vol'.inodes ino = { vol.inodes ino with blockCount } := Function.update_self ..
  have refs : fileRef (vol'.inodes ino) written' =
      Function.update (fileRef (vol.inodes ino) written) (table.entry i) none := by
    have cleared : fileRef (vol.inodes ino) (Function.update written block (pointersSector
        (Function.update (tableAt written block) i invalidBlock))) = _ :=
      EntryTable.fileRef_write points fun u => accounted.apart_slot points
    rw [contents, pointer_invalid, Function.update_idem] at cleared
    rw [self, fileRef_blockCount]
    exact cleared
  refine ⟨.of_slot accounted entry rfl rfl (fun j away => ?_) (by rw [self]) refs
    fun b noTable => ?_, entry, refs⟩
  · rw [Volume.setInode_inodes, Function.update_of_ne away, freeBlock_inodes]
  · have other : b ≠ block := by
      rintro rfl
      exact noTable table.slot table.slot_isTable points
    exact (Function.update_of_ne other ..).trans (Function.update_of_ne other ..).symm

theorem prunePointerAt_dropped {start newBlockCount : Nat} {s : Pruning} {i : Fin 1024}
    (far : newBlockCount ≤ start + i.val) (present : s.pointers i ≠ invalidBlock) :
    prunePointerAt ino start newBlockCount s i =
      { vol := (freeBlock s.vol (s.pointers i)).setInode ino
          { s.vol.inodes ino with blockCount := (s.vol.inodes ino).blockCount - 1 }
        pointers := Function.update s.pointers i invalidBlock
        remaining := s.remaining } := by
  have both : newBlockCount ≤ start + i.val ∧ s.pointers i ≠ invalidBlock := ⟨far, present⟩
  simp only [prunePointerAt, if_pos both, freeBlock_inodes, Function.update_self, ne_eq,
    not_true_eq_false, if_false]

theorem prunePointerAt_kept {start newBlockCount : Nat} {s : Pruning} {i : Fin 1024}
    (stays : ¬(newBlockCount ≤ start + i.val ∧ s.pointers i ≠ invalidBlock)) :
    prunePointerAt ino start newBlockCount s i =
      { s with remaining := s.remaining + if s.pointers i ≠ invalidBlock then 1 else 0 } := by
  unfold prunePointerAt
  simp only [if_neg stays]
  by_cases present : s.pointers i ≠ invalidBlock
  · rw [if_pos present, if_pos present]
  · rw [if_neg present, if_neg present, Nat.add_zero]

/-- The loop of `truncate_file_blocks` over one table. -/
theorem foldl_prunePointerAt (newBlockCount : Nat) {table : EntryTable} {block : UInt32}
    (indices : List (Fin 1024)) (nodup : indices.Nodup) (s : Pruning)
    (accounted : Accounted count s.vol
      (Function.update disk block (pointersSector s.pointers)) [])
    (points : fileRef (s.vol.inodes ino) (Function.update disk block (pointersSector s.pointers))
      table.slot = some block)
    (counted : CountedAt s.vol (Function.update disk block (pointersSector s.pointers)) ino) :
    let final := indices.foldl (prunePointerAt ino table.start newBlockCount) s
    Shrunk count s.vol final.vol (Function.update disk block (pointersSector s.pointers))
      (Function.update disk block (pointersSector final.pointers)) ino ∧
      CountedAt final.vol (Function.update disk block (pointersSector final.pointers)) ino ∧
      (∀ i, final.pointers i = if i ∈ indices ∧ newBlockCount ≤ table.start + i.val
        then invalidBlock else s.pointers i) ∧
      (∃ blockCount, final.vol.inodes ino = { s.vol.inodes ino with blockCount }) ∧
      final.remaining = s.remaining + indices.countP fun i =>
        decide (table.start + i.val < newBlockCount ∧ s.pointers i ≠ invalidBlock) := by
  induction indices generalizing s with
  | nil => exact ⟨.refl accounted ino, counted, fun i => by simp, ⟨_, rfl⟩, rfl⟩
  | cons i rest ih =>
    intro final
    have unfolded : final = rest.foldl (prunePointerAt ino table.start newBlockCount)
        (prunePointerAt ino table.start newBlockCount s i) := rfl
    obtain ⟨absent, nodup⟩ := List.nodup_cons.1 nodup
    rw [unfolded]
    by_cases dropped : newBlockCount ≤ table.start + i.val ∧ s.pointers i ≠ invalidBlock
    · rw [prunePointerAt_dropped dropped.1 dropped.2]
      obtain ⟨shrunk, entry, refs⟩ := Shrunk.of_entry accounted points dropped.2
        ((s.vol.inodes ino).blockCount - 1)
      have self : ((freeBlock s.vol (s.pointers i)).setInode ino
          { s.vol.inodes ino with blockCount := (s.vol.inodes ino).blockCount - 1 }).inodes ino =
          { s.vol.inodes ino with blockCount := (s.vol.inodes ino).blockCount - 1 } :=
        Function.update_self ..
      have counted₁ := counted.drop_one (table.entry_isData i) entry refs (by rw [self])
      generalize (freeBlock s.vol (s.pointers i)).setInode ino
        { s.vol.inodes ino with blockCount := (s.vol.inodes ino).blockCount - 1 } = vol₁ at *
      obtain ⟨shrunk', counted', pointers', ⟨blockCount, inode'⟩, remaining'⟩ := ih nodup
        ⟨vol₁, Function.update s.pointers i invalidBlock, s.remaining⟩ shrunk.accounted
        ((congrFun refs table.slot).trans
          ((Function.update_of_ne (table.entry_ne_slot i).symm ..).trans points)) counted₁
      refine ⟨shrunk.trans shrunk', counted', fun j => ?_, ⟨blockCount, ?_⟩, ?_⟩
      · rw [pointers']
        by_cases here : j = i
        · subst here
          simp [dropped.1]
        · simp [here]
      · rw [inode', self]
      · rw [remaining', List.countP_cons_of_neg (by simp [dropped.1])]
        refine congrArg (s.remaining + ·) (List.countP_congr fun j member => ?_)
        have other : j ≠ i := fun same => absent (same ▸ member)
        simp only [Function.update_of_ne other]
    · rw [prunePointerAt_kept dropped]
      obtain ⟨shrunk', counted', pointers', inode', remaining'⟩ := ih nodup
        ⟨s.vol, s.pointers, s.remaining + if s.pointers i ≠ invalidBlock then 1 else 0⟩
        accounted points counted
      refine ⟨shrunk', counted', fun j => ?_, inode', ?_⟩
      · rw [pointers']
        by_cases here : j = i
        · subst here
          by_cases far : newBlockCount ≤ table.start + j.val
          · have invalid : s.pointers j = invalidBlock := by
              by_contra present
              exact dropped ⟨far, present⟩
            simp [far, invalid]
          · simp [far]
        · simp [here]
      · rw [remaining', List.countP_cons, Nat.add_assoc, Nat.add_comm (List.countP _ _)]
        have near : s.pointers i ≠ invalidBlock → table.start + i.val < newBlockCount := by
          intro present
          by_contra far
          exact dropped ⟨Nat.not_lt.1 far, present⟩
        by_cases present : s.pointers i ≠ invalidBlock
        · simp [present, near present]
        · simp [present]

/-! ## Dropping tables -/

section Dropping

variable {inode : Inode} {written : Blocks} {block : UInt32}

/-- Slots outside a table do not depend on its contents. -/
theorem EntryTable.fileRef_other (table : EntryTable)
    (apart : ∀ u, u ≠ table.slot → fileRef inode disk u ≠ some block)
    (same : ∀ b, b ≠ block → written b = disk b) {s : FileSlot} (other : ∀ i, s ≠ table.entry i) :
    fileRef inode written s = fileRef inode disk s := by
  have unchanged : ∀ (u : FileSlot) (target : UInt32), u ≠ table.slot →
      fileRef inode disk u = pointer target → tableAt written target = tableAt disk target := by
    intro u target away reads
    have apart := apart u away
    rw [reads] at apart
    unfold tableAt
    split
    · rfl
    next present =>
      rw [same]
      rintro rfl
      exact apart (pointer_of_ne present)
  have root : table.slot ≠ .root := by cases table <;> exact fun equal => FileSlot.noConfusion equal
  have rootSame : inode.rootTable written = inode.rootTable disk := unchanged .root _ root.symm rfl
  cases s with
  | direct i => rfl
  | single => rfl
  | root => rfl
  | entry i =>
    have away : FileSlot.single ≠ table.slot := by
      cases table with
      | single => exact (other i rfl).elim
      | child outer => exact fun equal => FileSlot.noConfusion equal
    have single : inode.singleTable written = inode.singleTable disk := unchanged .single _ away rfl
    simp only [fileRef, single]
  | child outer => simp only [fileRef, rootSame]
  | leaf outer inner =>
    have away : FileSlot.child outer ≠ table.slot := by
      cases table with
      | single => exact fun equal => FileSlot.noConfusion equal
      | child outer' =>
        rintro equal
        obtain rfl := FileSlot.child.inj equal
        exact other inner rfl
    have child : inode.childTable written outer = inode.childTable disk outer := by
      unfold Inode.childTable
      rw [rootSame]
      exact unchanged (.child outer) _ away rfl
    simp only [fileRef, child]

/-- The block map without its single-indirect table, which was empty. -/
theorem fileRef_dropSingle (apart : ∀ u, u ≠ .single → fileRef inode disk u ≠ some block)
    (empty : ∀ i, fileRef inode disk (.entry i) = none)
    (same : ∀ b, b ≠ block → written b = disk b) :
    fileRef { inode with indirectBlock := invalidBlock } written =
      Function.update (fileRef inode disk) .single none := by
  have others : ∀ s, (∀ i, s ≠ .entry i) → fileRef inode written s = fileRef inode disk s :=
    fun s => EntryTable.fileRef_other .single apart same
  funext s
  by_cases here : s = .single
  · subst here
    rw [Function.update_self, fileRef, pointer_invalid]
  rw [Function.update_of_ne here]
  cases s with
  | direct i => rfl
  | single => exact (here rfl).elim
  | root => rfl
  | entry i =>
    rw [empty i]
    simp only [fileRef, Inode.singleTable, tableAt_invalid, emptyPointers, pointer_invalid]
  | child outer => exact others (.child outer) (by simp)
  | leaf outer inner => exact others (.leaf outer inner) (by simp)

/-- The block map without its double-indirect root, which was empty. -/
theorem fileRef_dropRoot (apart : ∀ u, u ≠ .root → fileRef inode disk u ≠ some block)
    (empty : ∀ outer, fileRef inode disk (.child outer) = none)
    (same : ∀ b, b ≠ block → written b = disk b) :
    fileRef { inode with doubleIndirectBlock := invalidBlock } written =
      Function.update (fileRef inode disk) .root none := by
  have noRoot : ∀ d, Inode.rootTable { inode with doubleIndirectBlock := invalidBlock } d =
      emptyPointers := fun d => tableAt_invalid d
  funext s
  by_cases here : s = .root
  · subst here
    rw [Function.update_self, fileRef, pointer_invalid]
  rw [Function.update_of_ne here]
  cases s with
  | direct i => rfl
  | single => rfl
  | root => exact (here rfl).elim
  | entry i =>
    have apart := apart .single (by simp)
    have single : tableAt written inode.indirectBlock = tableAt disk inode.indirectBlock := by
      unfold tableAt
      split
      · rfl
      next present =>
        rw [same]
        rintro rfl
        exact apart (pointer_of_ne present)
    simp only [fileRef, Inode.singleTable, single]
  | child outer =>
    rw [empty outer, fileRef, noRoot, emptyPointers, pointer_invalid]
  | leaf outer inner =>
    have child := pointer_eq_none.1 (empty outer)
    simp only [fileRef, Inode.childTable, noRoot, child]
    rw [emptyPointers, tableAt_invalid, tableAt_invalid]

/-- The block map without one child table, which was empty; the root table is rewritten. -/
theorem fileRef_dropChild {outer : Fin 1024} {root : UInt32} {roots : Pointers}
    (points : fileRef inode disk .root = some root)
    (rootApart : ∀ u, u ≠ .root → fileRef inode disk u ≠ some root)
    (apart : ∀ u, u ≠ .child outer → fileRef inode disk u ≠ some block)
    (empty : ∀ i, fileRef inode disk (.leaf outer i) = none)
    (same : ∀ b, b ≠ block → b ≠ root → written b = disk b)
    (entries : roots = tableAt disk root)
    (stored : written root = pointersSector (Function.update roots outer invalidBlock)) :
    fileRef inode written = Function.update (fileRef inode disk) (.child outer) none := by
  obtain ⟨pointsTo, present⟩ := pointer_eq_some.1 points
  have unchanged : ∀ (u : FileSlot) (target : UInt32), u ≠ .root → u ≠ .child outer →
      fileRef inode disk u = pointer target → tableAt written target = tableAt disk target := by
    intro u target notRoot notChild reads
    have apart := apart u notChild
    have rootApart := rootApart u notRoot
    rw [reads] at apart rootApart
    unfold tableAt
    split
    · rfl
    next present =>
      rw [same]
      · rintro rfl
        exact apart (pointer_of_ne present)
      · rintro rfl
        exact rootApart (pointer_of_ne present)
  have rootTable : inode.rootTable written =
      Function.update (inode.rootTable disk) outer invalidBlock := by
    rw [Inode.rootTable, Inode.rootTable, pointsTo, ← entries, tableAt_of_ne present, stored,
      Equiv.symm_apply_apply]
  funext s
  cases s with
  | direct i => rfl
  | single => rfl
  | root => rfl
  | entry i =>
    have single : inode.singleTable written = inode.singleTable disk :=
      unchanged .single _ (by simp) (by simp) rfl
    simp only [fileRef, single, ne_eq, reduceCtorEq, not_false_eq_true, Function.update_of_ne]
  | child o =>
    by_cases here : o = outer
    · subst here
      rw [Function.update_self, fileRef, rootTable, Function.update_self, pointer_invalid]
    · rw [Function.update_of_ne (by simpa using here), fileRef, rootTable,
        Function.update_of_ne here, fileRef]
  | leaf o i =>
    rw [Function.update_of_ne (by simp)]
    by_cases here : o = outer
    · subst here
      rw [empty i, fileRef, Inode.childTable, rootTable, Function.update_self, tableAt_invalid,
        emptyPointers, pointer_invalid]
    · have child : inode.childTable written o = inode.childTable disk o := by
        unfold Inode.childTable
        rw [rootTable, Function.update_of_ne here]
        exact unchanged (.child o) _ (by simp) (by simpa using here) rfl
      simp only [fileRef, child]

end Dropping

theorem rewrite_table (disk : Blocks) {block : UInt32} (present : block ≠ invalidBlock) :
    Function.update disk block (pointersSector (tableAt disk block)) = disk := by
  rw [tableAt_of_ne present, Equiv.apply_symm_apply, Function.update_eq_self]

/-! ## Pruning a table -/

/-- What one stage of `truncate_file_blocks` leaves of the slots it is about (`mine`): the data
slots below the new end. -/
structure Pruned (newBlockCount : Nat) (inode inode' : Inode) (disk disk' : Blocks)
    (mine : FileSlot → Prop) : Prop where
  data : ∀ s, mine s → s.IsData →
    fileRef inode' disk' s = if s.logical < newBlockCount then fileRef inode disk s else none
  others : ∀ s, ¬mine s → fileRef inode' disk' s = fileRef inode disk s

/-- The outcome of the loop over a table in `block`, the table being written back: the volume
after it, the shortened table and the number of entries that stay. -/
structure TablePruned (count newBlockCount : Nat) (vol vol' : Volume) (disk : Blocks)
    (ino : Fin 64) (table : EntryTable) (block : UInt32) (pointers : Pointers)
    (remaining : Nat) : Prop where
  shrunk : Shrunk count vol vol' disk
    (Function.update disk block (pointersSector pointers)) ino
  counted : CountedAt vol' (Function.update disk block (pointersSector pointers)) ino
  inode : ∃ blockCount, vol'.inodes ino = { vol.inodes ino with blockCount }
  pruned : Pruned newBlockCount (vol.inodes ino) (vol'.inodes ino) disk
    (Function.update disk block (pointersSector pointers)) fun s => ∃ i, s = table.entry i
  remaining_eq_zero : remaining = 0 ↔ ∀ i, fileRef (vol'.inodes ino)
    (Function.update disk block (pointersSector pointers)) (table.entry i) = none

theorem exec_prunePointers (newBlockCount : Nat) {table : EntryTable} {block : UInt32}
    (accounted : Accounted count vol disk []) (counted : CountedAt vol disk ino)
    (points : fileRef (vol.inodes ino) disk table.slot = some block) (real : Blocks) :
    ∃ vol' pointers remaining,
      TablePruned count newBlockCount vol vol' disk ino table block pointers remaining ∧
      Prog.exec (plainDevice count)
        (prunePointers ino table.start newBlockCount (tableAt disk block)) (vol, real) =
        (.ok (pointers, remaining), vol', real) := by
  have present := fileRef_ne_invalid points
  have same := rewrite_table disk present
  have loop := foldl_prunePointerAt newBlockCount (upTo 1024) (upTo_nodup 1024)
    ⟨vol, tableAt disk block, 0⟩
    (by rwa [same]) (by rwa [same]) (by rwa [same])
  rw [same] at loop
  rcases result : (upTo 1024).foldl (prunePointerAt ino table.start newBlockCount)
    ⟨vol, tableAt disk block, 0⟩ with ⟨vol', pointers, remaining⟩
  rw [result] at loop
  dsimp only at loop
  obtain ⟨shrunk, counted', entries, ⟨blockCount, inode⟩, left⟩ := loop
  have points' : fileRef (vol'.inodes ino)
      (Function.update disk block (pointersSector pointers)) table.slot = some block := by
    rw [inode, fileRef_blockCount, EntryTable.fileRef_other table
      (fun u => accounted.apart_slot points) (fun b away => Function.update_of_ne away ..)
      fun i => (table.entry_ne_slot i).symm, points]
  have contents : tableAt (Function.update disk block (pointersSector pointers)) block =
      pointers := tableAt_update_self disk pointers present
  have entry : ∀ i, fileRef (vol'.inodes ino)
      (Function.update disk block (pointersSector pointers)) (table.entry i) =
        if table.start + i.val < newBlockCount then fileRef (vol.inodes ino) disk (table.entry i)
        else none := by
    intro i
    rw [EntryTable.fileRef_entry points', contents, entries i, EntryTable.fileRef_entry points]
    by_cases far : newBlockCount ≤ table.start + i.val
    · rw [if_pos ⟨mem_upTo i, far⟩, if_neg (Nat.not_lt.2 far), pointer_invalid]
    · rw [if_neg fun both => far both.2, if_pos (Nat.lt_of_not_le far)]
  refine ⟨vol', pointers, remaining, ⟨shrunk, counted', ⟨blockCount, inode⟩, ⟨?_, ?_⟩, ?_⟩, ?_⟩
  · rintro s ⟨i, rfl⟩ _
    rw [entry, table.logical_entry]
  · intro s other
    rw [inode, fileRef_blockCount]
    exact EntryTable.fileRef_other table (fun u => accounted.apart_slot points)
      (fun b away => Function.update_of_ne away ..) fun i equal => other ⟨i, equal⟩
  · rw [left, Nat.zero_add, List.countP_eq_zero]
    refine forall_congr' fun i => ?_
    rw [entry, EntryTable.fileRef_entry points]
    by_cases near : table.start + i.val < newBlockCount
    · simp [near]
    · simp [near]
  · unfold prunePointers
    rw [Prog.exec_modifyGet, result]

/-- Emptying a table slot changes no data slot. -/
theorem CountedAt.drop_table {s : FileSlot} (counted : CountedAt vol disk ino)
    (noData : ¬s.IsData)
    (refs : fileRef (vol'.inodes ino) disk' = Function.update (fileRef (vol.inodes ino) disk) s none)
    (blockCount : (vol'.inodes ino).blockCount = (vol.inodes ino).blockCount) :
    CountedAt vol' disk' ino := by
  have same : mappedSlots (vol'.inodes ino) disk' = mappedSlots (vol.inodes ino) disk := by
    ext t
    rw [mem_mappedSlots, mem_mappedSlots, refs]
    refine and_congr_right fun isData => ?_
    rw [Function.update_of_ne]
    rintro rfl
    exact noData isData
  unfold CountedAt at *
  rw [blockCount, same, counted]

/-- A stage may drop one of its tables as well. -/
theorem Pruned.drop_table {newBlockCount : Nat} {inode inode₁ inode' : Inode} {disk₁ : Blocks}
    {mine mine' : FileSlot → Prop} {s : FileSlot}
    (pruned : Pruned newBlockCount inode inode₁ disk disk₁ mine) (noData : ¬s.IsData)
    (refs : fileRef inode' disk' = Function.update (fileRef inode₁ disk₁) s none)
    (wider : ∀ t, mine' t ↔ t = s ∨ mine t) :
    Pruned newBlockCount inode inode' disk disk' mine' where
  data t member isData := by
    have other : t ≠ s := by
      rintro rfl
      exact noData isData
    rw [refs, Function.update_of_ne other]
    exact pruned.data t (((wider t).1 member).resolve_left other) isData
  others t away := by
    rw [refs, Function.update_of_ne fun same => away ((wider t).2 (.inl same))]
    exact pruned.others t fun member => away ((wider t).2 (.inr member))

/-- The same where the table stays. -/
theorem Pruned.keep_table {newBlockCount : Nat} {inode inode' : Inode}
    {mine mine' : FileSlot → Prop} {s : FileSlot}
    (pruned : Pruned newBlockCount inode inode' disk disk' mine) (noData : ¬s.IsData)
    (wider : ∀ t, mine' t ↔ t = s ∨ mine t) :
    Pruned newBlockCount inode inode' disk disk' mine' where
  data t member isData := pruned.data t (((wider t).1 member).resolve_left fun same =>
    noData (same ▸ isData)) isData
  others t away := pruned.others t fun member => away ((wider t).2 (.inr member))

/-! ## The single-indirect table -/

theorem exec_truncateSingle (newBlockCount : Nat) (accounted : Accounted count vol disk [])
    (counted : CountedAt vol disk ino) :
    ∃ vol' disk', Shrunk count vol vol' disk disk' ino ∧ CountedAt vol' disk' ino ∧
      Pruned newBlockCount (vol.inodes ino) (vol'.inodes ino) disk disk'
        (fun s => s = .single ∨ ∃ i, s = .entry i) ∧
      (fileRef (vol'.inodes ino) disk' .single ≠ none →
        ∃ i, fileRef (vol'.inodes ino) disk' (.entry i) ≠ none) ∧
      Prog.exec (plainDevice count) (truncateSingle ino newBlockCount) (vol, disk) =
        (.ok (), vol', disk') := by
  unfold truncateSingle
  rw [Prog.exec_bind_ok (Prog.exec_get _ _)]
  dsimp only
  by_cases absent : (vol.inodes ino).indirectBlock = invalidBlock
  · rw [if_pos absent]
    have single : fileRef (vol.inodes ino) disk .single = none := pointer_eq_none.2 absent
    have entries : ∀ i, fileRef (vol.inodes ino) disk (.entry i) = none := fun i => by
      rw [fileRef, Inode.singleTable, absent, tableAt_invalid, emptyPointers, pointer_invalid]
    refine ⟨vol, disk, .refl accounted ino, counted, ⟨?_, fun _ _ => rfl⟩,
      fun present => (present single).elim, Prog.exec_pure _ _ _⟩
    rintro s (rfl | ⟨i, rfl⟩) isData
    · exact isData.elim
    · rw [entries, ite_self]
  · have points : fileRef (vol.inodes ino) disk EntryTable.single.slot =
        some (vol.inodes ino).indirectBlock := pointer_of_ne absent
    have inUse := accounted.allocated_of_fileRef points
    rw [if_neg absent, Prog.exec_bind_ok
      (Prog.exec_elseThrow_ok (exec_readPointerTable accounted inUse) _)]
    obtain ⟨vol₁, pointers, remaining, table, prunes⟩ :=
      exec_prunePointers newBlockCount accounted counted points disk
    generalize (vol.inodes ino).indirectBlock = block at *
    have prunes : Prog.exec (plainDevice count)
        (prunePointers ino 20 newBlockCount (tableAt disk block)) (vol, disk) =
        (.ok (pointers, remaining), vol₁, disk) := prunes
    rw [Prog.exec_bind_ok prunes]
    dsimp only
    have points₁ : fileRef (vol₁.inodes ino)
        (Function.update disk block (pointersSector pointers)) .single = some block := by
      rw [table.pruned.others .single (by rintro ⟨i, equal⟩; cases equal)]
      exact points
    by_cases empty : remaining = 0
    · -- the table is given back; what the disk holds in its block does not matter
      rw [if_pos empty, Prog.exec_bind_ok (Prog.exec_modify _ _ _), exec_modifyInode]
      have entries := table.remaining_eq_zero.1 empty
      let inode' : Inode := { (freeBlock vol₁ block).inodes ino with indirectBlock := invalidBlock }
      have self : ((freeBlock vol₁ block).setInode ino inode').inodes ino = inode' :=
        Function.update_self ..
      have refs : fileRef inode' disk = Function.update (fileRef (vol₁.inodes ino)
          (Function.update disk block (pointersSector pointers))) .single none := by
        have dropped : fileRef { vol₁.inodes ino with indirectBlock := invalidBlock } disk = _ :=
          fileRef_dropSingle (fun u => table.shrunk.accounted.apart_slot points₁) entries
            fun b away => (Function.update_of_ne away ..).symm
        rw [← dropped]
        simp only [inode', freeBlock_inodes]
      have dropped : Shrunk count vol₁ ((freeBlock vol₁ block).setInode ino inode')
          (Function.update disk block (pointersSector pointers)) disk ino := by
        refine .of_slot table.shrunk.accounted points₁ rfl rfl (fun j away => ?_) ?_
          (by rw [self, refs]) fun b noTable => ?_
        · rw [Volume.setInode_inodes, Function.update_of_ne away, freeBlock_inodes]
        · rw [self]
          simp only [inode', freeBlock_inodes]
        · rw [Function.update_of_ne]
          rintro rfl
          exact noTable .single trivial points₁
      refine ⟨_, disk, table.shrunk.trans dropped, table.counted.drop_table (s := .single) id
        (by rw [self, refs]) ?_, ?_, ?_, rfl⟩
      · rw [self]
        simp only [inode', freeBlock_inodes]
      · rw [self]
        exact table.pruned.drop_table (s := .single) id refs fun t => Iff.rfl
      · rw [self, refs, Function.update_self]
        exact fun impossible => (impossible rfl).elim
    · rw [if_neg empty]
      refine ⟨vol₁, _, table.shrunk, table.counted,
        table.pruned.keep_table (s := .single) id fun t => Iff.rfl, fun _ => ?_,
        Prog.exec_elseThrow_ok (exec_writeBlock (accounted.inVolume inUse) _) _⟩
      by_contra none
      refine empty (table.remaining_eq_zero.2 fun i => ?_)
      by_contra present
      exact none ⟨i, present⟩

/-! ## The double-indirect tree -/

/-- Two stages about different slots. -/
theorem Pruned.trans {newBlockCount : Nat} {inode inode₁ inode' : Inode} {disk₁ : Blocks}
    {first second mine : FileSlot → Prop}
    (left : Pruned newBlockCount inode inode₁ disk disk₁ first)
    (right : Pruned newBlockCount inode₁ inode' disk₁ disk' second)
    (apart : ∀ s, first s → ¬second s) (union : ∀ s, mine s ↔ first s ∨ second s) :
    Pruned newBlockCount inode inode' disk disk' mine where
  data s member isData := by
    rcases (union s).1 member with here | here
    · rw [right.others s (apart s here), left.data s here isData]
    · rw [right.data s here isData, left.others s fun too => apart s too here]
  others s away := by
    rw [right.others s fun member => away ((union s).2 (.inr member)),
      left.others s fun member => away ((union s).2 (.inl member))]

/-- The slots of one child of the double-indirect root. -/
def ofChild (outer : Fin 1024) (s : FileSlot) : Prop :=
  s = .child outer ∨ ∃ i, s = .leaf outer i

theorem ofChild_self (outer : Fin 1024) : ofChild outer (.child outer) := .inl rfl

theorem ofChild_unique {first second : Fin 1024} {s : FileSlot} (one : ofChild first s)
    (two : ofChild second s) : first = second := by
  rcases one with rfl | ⟨i, rfl⟩ <;> rcases two with equal | ⟨j, equal⟩ <;> cases equal <;> rfl

/-- One child of the double-indirect root was pruned, and given back where it became empty.  The
root table is in memory, as `roots`; `disk` holds the rest. -/
structure ChildPruned (count newBlockCount : Nat) (vol vol' : Volume) (disk disk' : Blocks)
    (ino : Fin 64) (root : UInt32) (mine : FileSlot → Prop) : Prop where
  shrunk : Shrunk count vol vol' disk disk' ino
  counted : CountedAt vol' disk' ino
  inode : ∃ blockCount, vol'.inodes ino = { vol.inodes ino with blockCount }
  pruned : Pruned newBlockCount (vol.inodes ino) (vol'.inodes ino) disk disk' mine
  points : fileRef (vol'.inodes ino) disk' .root = some root
  compact : ∀ outer, mine (.child outer) → fileRef (vol'.inodes ino) disk' (.child outer) ≠ none →
    ∃ i, fileRef (vol'.inodes ino) disk' (.leaf outer i) ≠ none

theorem ChildPruned.trans {newBlockCount : Nat} {vol₁ : Volume} {disk₁ : Blocks} {root : UInt32}
    {first second mine : FileSlot → Prop}
    (left : ChildPruned count newBlockCount vol vol₁ disk disk₁ ino root first)
    (right : ChildPruned count newBlockCount vol₁ vol' disk₁ disk' ino root second)
    (apart : ∀ s, first s → ¬second s) (union : ∀ s, mine s ↔ first s ∨ second s)
    (whole : ∀ outer i, first (.child outer) → first (.leaf outer i)) :
    ChildPruned count newBlockCount vol vol' disk disk' ino root mine where
  shrunk := left.shrunk.trans right.shrunk
  counted := right.counted
  inode := by
    obtain ⟨_, first⟩ := left.inode
    obtain ⟨blockCount, second⟩ := right.inode
    exact ⟨blockCount, by rw [second, first]⟩
  pruned := left.pruned.trans right.pruned apart union
  points := right.points
  compact outer member present := by
    rcases (union _).1 member with here | here
    · rw [right.pruned.others _ (apart _ here)] at present
      obtain ⟨i, below⟩ := left.compact outer here present
      exact ⟨i, by rwa [right.pruned.others _ (apart _ (whole outer i here))]⟩
    · exact right.compact outer here present

/-- One round of the loop over the children where there is a child table. -/
theorem exec_truncateChild (newBlockCount : Nat) {root : UInt32} {roots : Pointers}
    {outer : Fin 1024} {rest : List (Fin 1024)} {remaining : Nat}
    (accounted : Accounted count vol (Function.update disk root (pointersSector roots)) [])
    (counted : CountedAt vol (Function.update disk root (pointersSector roots)) ino)
    (points : fileRef (vol.inodes ino) (Function.update disk root (pointersSector roots)) .root =
      some root) (present : roots outer ≠ invalidBlock) :
    ∃ vol' disk' roots', ∃ kept : Bool,
      ChildPruned count newBlockCount vol vol' (Function.update disk root (pointersSector roots))
        (Function.update disk' root (pointersSector roots')) ino root (ofChild outer) ∧
      (kept = true ↔ fileRef (vol'.inodes ino)
        (Function.update disk' root (pointersSector roots')) (.child outer) ≠ none) ∧
      Prog.exec (plainDevice count)
        (truncateChildren ino newBlockCount (outer :: rest) roots remaining) (vol, disk) =
        Prog.exec (plainDevice count) (truncateChildren ino newBlockCount rest roots'
          (if kept then remaining + 1 else remaining)) (vol', disk') := by
  have root_present := fileRef_ne_invalid points
  have pointsTo := (pointer_eq_some.1 points).1
  have contents : tableAt (Function.update disk root (pointersSector roots)) root = roots :=
    tableAt_update_self disk roots root_present
  have child : fileRef (vol.inodes ino) (Function.update disk root (pointersSector roots))
      (EntryTable.child outer).slot = some (roots outer) := by
    simp only [EntryTable.slot, fileRef, Inode.rootTable, pointsTo, contents]
    exact pointer_of_ne present
  have inUse := accounted.allocated_of_fileRef child
  have distinct : roots outer ≠ root := by
    intro same
    rw [same] at child
    exact accounted.apart_slot points (u := .child outer) (by simp) child
  have table : tableAt disk (roots outer) =
      tableAt (Function.update disk root (pointersSector roots)) (roots outer) :=
    (tableAt_update_of_ne disk _ distinct).symm
  rw [truncateChildren, if_neg present, Prog.exec_bind_ok
    (Prog.exec_elseThrow_ok (exec_readPointerTable accounted inUse) _), table]
  obtain ⟨vol₁, pointers, left, pruned, prunes⟩ :=
    exec_prunePointers newBlockCount accounted counted child disk
  have prunes : Prog.exec (plainDevice count) (prunePointers ino (20 + 1024 + outer.val * 1024)
      newBlockCount (tableAt (Function.update disk root (pointersSector roots)) (roots outer)))
      (vol, disk) = (.ok (pointers, left), vol₁, disk) := prunes
  rw [Prog.exec_bind_ok prunes]
  dsimp only
  generalize hchild : roots outer = block at *
  have points₁ : fileRef (vol₁.inodes ino)
      (Function.update (Function.update disk root (pointersSector roots)) block
        (pointersSector pointers)) .root = some root := by
    rw [pruned.pruned.others .root (by rintro ⟨i, equal⟩; cases equal), points]
  have child₁ : fileRef (vol₁.inodes ino)
      (Function.update (Function.update disk root (pointersSector roots)) block
        (pointersSector pointers)) (.child outer) = some block := by
    rw [pruned.pruned.others (.child outer) (by rintro ⟨i, equal⟩; cases equal)]
    exact child
  by_cases empty : left = 0
  · rw [if_pos empty]
    have refs : fileRef ((freeBlock vol₁ block).inodes ino) (Function.update disk root
        (pointersSector (Function.update roots outer invalidBlock))) =
        Function.update (fileRef (vol₁.inodes ino) (Function.update
          (Function.update disk root (pointersSector roots)) block (pointersSector pointers)))
          (.child outer) none := by
      rw [freeBlock_inodes]
      refine fileRef_dropChild points₁
        (fun u => pruned.shrunk.accounted.apart_slot points₁)
        (fun u => pruned.shrunk.accounted.apart_slot child₁)
        (pruned.remaining_eq_zero.1 empty) (fun b away apart => ?_) ?_ (Function.update_self ..)
      · rw [Function.update_of_ne apart, Function.update_of_ne away, Function.update_of_ne apart]
      · rw [tableAt_update_of_ne _ _ distinct.symm, contents]
    have dropped : Shrunk count vol₁ (freeBlock vol₁ block)
        (Function.update (Function.update disk root (pointersSector roots)) block
          (pointersSector pointers)) (Function.update disk root
          (pointersSector (Function.update roots outer invalidBlock))) ino := by
      refine .of_slot pruned.shrunk.accounted child₁ rfl rfl (fun j _ => by rw [freeBlock_inodes])
        (by rw [freeBlock_inodes]) refs fun b noTable => ?_
      have first : b ≠ root := by
        rintro rfl
        exact noTable .root trivial points₁
      have second : b ≠ block := by
        rintro rfl
        exact noTable (.child outer) trivial child₁
      rw [Function.update_of_ne first, Function.update_of_ne second, Function.update_of_ne first]
    refine ⟨freeBlock vol₁ block, disk, Function.update roots outer invalidBlock, false,
      ⟨pruned.shrunk.trans dropped, pruned.counted.drop_table (s := .child outer) id refs
        (by rw [freeBlock_inodes]), ?_, pruned.pruned.drop_table (s := .child outer) id refs
        fun t => Iff.rfl, ?_, fun o member present => ?_⟩, ?_, ?_⟩
    · rw [freeBlock_inodes]
      exact pruned.inode
    · rw [refs, Function.update_of_ne (by simp), points₁]
    · obtain rfl := ofChild_unique (ofChild_self o) member
      rw [refs, Function.update_self] at present
      exact (present rfl).elim
    · rw [refs, Function.update_self]
      simp
    · rw [Prog.exec_bind_ok (Prog.exec_modify _ _ _)]
      rfl
  · rw [if_neg empty]
    have same : Function.update (Function.update disk block (pointersSector pointers)) root
        (pointersSector roots) = Function.update (Function.update disk root (pointersSector roots))
          block (pointersSector pointers) := Function.update_comm distinct _ _ _
    refine ⟨vol₁, Function.update disk block (pointersSector pointers), roots, true, ?_, ?_, ?_⟩
    · rw [same]
      refine ⟨pruned.shrunk, pruned.counted, pruned.inode,
        pruned.pruned.keep_table (s := .child outer) id fun t => Iff.rfl, points₁,
        fun o member _ => ?_⟩
      obtain rfl := ofChild_unique (ofChild_self o) member
      by_contra none
      refine empty (pruned.remaining_eq_zero.2 fun i => ?_)
      by_contra below
      exact none ⟨i, below⟩
    · rw [same, child₁]
      simp
    · rw [Prog.exec_bind_ok (Prog.exec_elseThrow_ok (exec_writeBlock
        (accounted.inVolume inUse) _) _)]
      rfl

/-- The loop over the children of the double-indirect root. -/
theorem exec_truncateChildren (newBlockCount : Nat) {root : UInt32} (outers : List (Fin 1024))
    (nodup : outers.Nodup) (roots : Pointers) (remaining : Nat)
    (accounted : Accounted count vol (Function.update disk root (pointersSector roots)) [])
    (counted : CountedAt vol (Function.update disk root (pointersSector roots)) ino)
    (points : fileRef (vol.inodes ino) (Function.update disk root (pointersSector roots)) .root =
      some root) :
    ∃ vol' disk' roots' remaining',
      ChildPruned count newBlockCount vol vol' (Function.update disk root (pointersSector roots))
        (Function.update disk' root (pointersSector roots')) ino root
        (fun s => ∃ outer ∈ outers, ofChild outer s) ∧
      remaining' = remaining + outers.countP (fun outer => (fileRef (vol'.inodes ino)
        (Function.update disk' root (pointersSector roots')) (.child outer)).isSome) ∧
      Prog.exec (plainDevice count)
        (truncateChildren ino newBlockCount outers roots remaining) (vol, disk) =
        (.ok (roots', remaining'), vol', disk') := by
  induction outers generalizing vol disk roots remaining with
  | nil =>
    refine ⟨vol, disk, roots, remaining, ⟨.refl accounted ino, counted, ⟨_, rfl⟩,
      ⟨?_, fun _ _ => rfl⟩, points, ?_⟩, rfl, rfl⟩
    · rintro s ⟨_, impossible, _⟩
      cases impossible
    · rintro outer ⟨_, impossible, _⟩
      cases impossible
  | cons outer rest ih =>
    obtain ⟨absent, nodup⟩ := List.nodup_cons.1 nodup
    have apart : ∀ s, ofChild outer s → ¬∃ o ∈ rest, ofChild o s := by
      rintro s here ⟨o, member, there⟩
      exact absent (ofChild_unique here there ▸ member)
    by_cases hole : roots outer = invalidBlock
    · -- no child table here: the round does nothing
      have root_present := fileRef_ne_invalid points
      have pointsTo := (pointer_eq_some.1 points).1
      have noChild : fileRef (vol.inodes ino) (Function.update disk root (pointersSector roots))
          (.child outer) = none := by
        simp only [fileRef, Inode.rootTable, pointsTo, tableAt_update_self disk roots root_present]
        exact pointer_eq_none.2 hole
      have noLeaf : ∀ i, fileRef (vol.inodes ino)
          (Function.update disk root (pointersSector roots)) (.leaf outer i) = none := by
        intro i
        rw [fileRef, Inode.childTable, pointer_eq_none.1 noChild, tableAt_invalid, emptyPointers,
          pointer_invalid]
      have here : ChildPruned count newBlockCount vol vol
          (Function.update disk root (pointersSector roots))
          (Function.update disk root (pointersSector roots)) ino root (ofChild outer) := by
        refine ⟨.refl accounted ino, counted, ⟨_, rfl⟩, ⟨?_, fun _ _ => rfl⟩, points, ?_⟩
        · rintro s (rfl | ⟨i, rfl⟩) isData
          · exact isData.elim
          · rw [noLeaf, ite_self]
        · intro o member present
          obtain rfl := ofChild_unique (ofChild_self o) member
          exact (present noChild).elim
      obtain ⟨vol', disk', roots', remaining', later, total, returns⟩ :=
        ih nodup roots remaining accounted counted points
      refine ⟨vol', disk', roots', remaining', here.trans later apart (fun s => ?_)
        (fun o i member => ?_), ?_, ?_⟩
      · simp only [List.mem_cons, exists_eq_or_imp]
      · exact .inr ⟨i, by rw [ofChild_unique (ofChild_self o) member]⟩
      · rw [List.countP_cons_of_neg, total]
        rw [later.pruned.others _ (apart _ (.inl rfl)), noChild]
        simp
      · rw [truncateChildren, if_pos hole, returns]
    · obtain ⟨vol₁, disk₁, roots₁, kept, here, stays, step⟩ := exec_truncateChild newBlockCount accounted counted points hole
      obtain ⟨vol', disk', roots', remaining', later, total, returns⟩ := ih nodup roots₁
        (if kept then remaining + 1 else remaining) here.shrunk.accounted here.counted here.points
      refine ⟨vol', disk', roots', remaining', here.trans later apart (fun s => ?_)
        (fun o i member => ?_), ?_, ?_⟩
      · simp only [List.mem_cons, exists_eq_or_imp]
      · exact .inr ⟨i, by rw [ofChild_unique (ofChild_self o) member]⟩
      · rw [List.countP_cons, later.pruned.others _ (apart _ (.inl rfl)), total]
        cases kept with
        | true =>
          rw [if_pos rfl, if_pos (Option.isSome_iff_ne_none.2 (stays.1 rfl))]
          omega
        | false =>
          have gone : ¬(fileRef (vol₁.inodes ino)
              (Function.update disk₁ root (pointersSector roots₁)) (.child outer)).isSome = true := by
            rw [Option.isSome_iff_ne_none]
            exact fun present => Bool.false_ne_true (stays.2 present)
          rw [if_neg gone, if_neg Bool.false_ne_true]
          omega
      · rw [step, returns]

/-- The slots of the double-indirect tree. -/
def inDouble (s : FileSlot) : Prop := s = .root ∨ ∃ outer, ofChild outer s

theorem exec_truncateDouble (newBlockCount : Nat) (accounted : Accounted count vol disk [])
    (counted : CountedAt vol disk ino) :
    ∃ vol' disk', Shrunk count vol vol' disk disk' ino ∧ CountedAt vol' disk' ino ∧
      Pruned newBlockCount (vol.inodes ino) (vol'.inodes ino) disk disk' inDouble ∧
      (fileRef (vol'.inodes ino) disk' .root ≠ none →
        ∃ outer, fileRef (vol'.inodes ino) disk' (.child outer) ≠ none) ∧
      (∀ outer, fileRef (vol'.inodes ino) disk' (.child outer) ≠ none →
        ∃ i, fileRef (vol'.inodes ino) disk' (.leaf outer i) ≠ none) ∧
      Prog.exec (plainDevice count) (truncateDouble ino newBlockCount) (vol, disk) =
        (.ok (), vol', disk') := by
  unfold truncateDouble
  rw [Prog.exec_bind_ok (Prog.exec_get _ _)]
  dsimp only
  by_cases absent : (vol.inodes ino).doubleIndirectBlock = invalidBlock
  · rw [if_pos absent]
    have root : fileRef (vol.inodes ino) disk .root = none := pointer_eq_none.2 absent
    have children : ∀ outer, fileRef (vol.inodes ino) disk (.child outer) = none := fun outer => by
      rw [fileRef, Inode.rootTable, absent, tableAt_invalid, emptyPointers, pointer_invalid]
    refine ⟨vol, disk, .refl accounted ino, counted, ⟨?_, fun _ _ => rfl⟩,
      fun present => (present root).elim, fun outer present => (present (children outer)).elim,
      Prog.exec_pure _ _ _⟩
    rintro s (rfl | ⟨outer, rfl | ⟨i, rfl⟩⟩) isData
    · exact isData.elim
    · exact isData.elim
    · have leaf : fileRef (vol.inodes ino) disk (.leaf outer i) = none := by
        rw [fileRef, Inode.childTable, pointer_eq_none.1 (children outer), tableAt_invalid,
          emptyPointers, pointer_invalid]
      rw [leaf, ite_self]
  · have points : fileRef (vol.inodes ino) disk .root =
        some (vol.inodes ino).doubleIndirectBlock := pointer_of_ne absent
    have inUse := accounted.allocated_of_fileRef points
    rw [if_neg absent, Prog.exec_bind_ok
      (Prog.exec_elseThrow_ok (exec_readPointerTable accounted inUse) _)]
    generalize (vol.inodes ino).doubleIndirectBlock = root at *
    have same := rewrite_table disk absent
    obtain ⟨vol₁, disk₁, roots, remaining, tree, total, returns⟩ :=
      exec_truncateChildren newBlockCount (upTo 1024) (upTo_nodup 1024) (tableAt disk root) 0
        (by rwa [same]) (by rwa [same]) (by rwa [same])
    rw [same] at tree
    rw [Prog.exec_bind_ok returns]
    dsimp only
    have points₁ := tree.points
    have all : ∀ s, inDouble s ↔ s = .root ∨ ∃ outer ∈ upTo 1024, ofChild outer s := by
      intro s
      simp [inDouble]
    have compact : ∀ outer, fileRef (vol₁.inodes ino)
        (Function.update disk₁ root (pointersSector roots)) (.child outer) ≠ none →
        ∃ i, fileRef (vol₁.inodes ino)
          (Function.update disk₁ root (pointersSector roots)) (.leaf outer i) ≠ none :=
      fun outer => tree.compact outer ⟨outer, mem_upTo outer, .inl rfl⟩
    have zero : remaining = 0 ↔ ∀ outer, fileRef (vol₁.inodes ino)
        (Function.update disk₁ root (pointersSector roots)) (.child outer) = none := by
      rw [total, Nat.zero_add, List.countP_eq_zero]
      exact forall_congr' fun outer => by simp
    by_cases empty : remaining = 0
    · rw [if_pos empty, Prog.exec_bind_ok (Prog.exec_modify _ _ _), exec_modifyInode]
      have children := zero.1 empty
      let inode' : Inode :=
        { (freeBlock vol₁ root).inodes ino with doubleIndirectBlock := invalidBlock }
      have self : ((freeBlock vol₁ root).setInode ino inode').inodes ino = inode' :=
        Function.update_self ..
      have refs : fileRef inode' disk₁ = Function.update (fileRef (vol₁.inodes ino)
          (Function.update disk₁ root (pointersSector roots))) .root none := by
        have dropped : fileRef { vol₁.inodes ino with doubleIndirectBlock := invalidBlock } disk₁ =
            _ :=
          fileRef_dropRoot (fun u => tree.shrunk.accounted.apart_slot points₁) children
            fun b away => (Function.update_of_ne away ..).symm
        rw [← dropped]
        simp only [inode', freeBlock_inodes]
      have dropped : Shrunk count vol₁ ((freeBlock vol₁ root).setInode ino inode')
          (Function.update disk₁ root (pointersSector roots)) disk₁ ino := by
        refine .of_slot tree.shrunk.accounted points₁ rfl rfl (fun j away => ?_) ?_
          (by rw [self, refs]) fun b noTable => ?_
        · rw [Volume.setInode_inodes, Function.update_of_ne away, freeBlock_inodes]
        · rw [self]
          simp only [inode', freeBlock_inodes]
        · rw [Function.update_of_ne]
          rintro rfl
          exact noTable .root trivial points₁
      refine ⟨_, disk₁, tree.shrunk.trans dropped, tree.counted.drop_table (s := .root) id
        (by rw [self, refs]) ?_, ?_, ?_, ?_, rfl⟩
      · rw [self]
        simp only [inode', freeBlock_inodes]
      · rw [self]
        exact tree.pruned.drop_table (s := .root) id refs all
      · rw [self, refs, Function.update_self]
        exact fun impossible => (impossible rfl).elim
      · intro outer
        rw [self, refs, Function.update_of_ne (by simp), children outer]
        exact fun impossible => (impossible rfl).elim
    · rw [if_neg empty]
      refine ⟨vol₁, _, tree.shrunk, tree.counted, tree.pruned.keep_table (s := .root) id all,
        fun _ => ?_, compact,
        Prog.exec_elseThrow_ok (exec_writeBlock (accounted.inVolume inUse) _) _⟩
      by_contra none
      refine empty (zero.2 fun outer => ?_)
      by_contra present
      exact none ⟨outer, present⟩

/-! ## Truncating the block map -/

/-- What `truncate_file_blocks` leaves of a file: the data slots below the new end, and no empty
table. -/
structure Trimmed (count newBlockCount : Nat) (vol vol' : Volume) (disk disk' : Blocks)
    (ino : Fin 64) : Prop where
  shrunk : Shrunk count vol vol' disk disk' ino
  counted : CountedAt vol' disk' ino
  data : ∀ s : FileSlot, s.IsData → fileRef (vol'.inodes ino) disk' s =
    if s.logical < newBlockCount then fileRef (vol.inodes ino) disk s else none
  compact : Compact (vol'.inodes ino) disk'

theorem exec_truncateFileBlocks (newBlockCount : Nat) (accounted : Accounted count vol disk [])
    (counted : CountedAt vol disk ino) :
    ∃ vol' disk', Trimmed count newBlockCount vol vol' disk disk' ino ∧
      Prog.exec (plainDevice count) (truncateFileBlocks ino newBlockCount) (vol, disk) =
        (.ok (), vol', disk') := by
  obtain ⟨shrunk₁, counted₁, direct, single, double⟩ :=
    foldl_truncateDirectAt newBlockCount (upTo 20) accounted counted
  unfold truncateFileBlocks
  rw [Prog.exec_bind_ok (Prog.exec_modify _ _ _)]
  dsimp only
  generalize (upTo 20).foldl (truncateDirectAt ino newBlockCount) vol = vol₁ at *
  have pruned₁ : Pruned newBlockCount (vol.inodes ino) (vol₁.inodes ino) disk disk
      (fun s => ∃ i, s = .direct i) := by
    constructor
    · rintro s ⟨i, rfl⟩ _
      rw [logical_direct]
      simp only [fileRef, direct i]
      by_cases far : newBlockCount ≤ i.val
      · rw [if_pos ⟨mem_upTo i, far⟩, if_neg (Nat.not_lt.2 far), pointer_invalid]
      · rw [if_neg fun both => far both.2, if_pos (Nat.lt_of_not_le far)]
    · intro s other
      cases s with
      | direct i => exact (other ⟨i, rfl⟩).elim
      | single => simp only [fileRef, single]
      | entry i => simp only [fileRef, Inode.singleTable, single]
      | root => simp only [fileRef, double]
      | child outer => simp only [fileRef, Inode.rootTable, double]
      | leaf outer inner => simp only [fileRef, Inode.childTable, Inode.rootTable, double]
  obtain ⟨vol₂, disk₂, shrunk₂, counted₂, pruned₂, compact₂, returns₂⟩ :=
    exec_truncateSingle newBlockCount shrunk₁.accounted counted₁
  obtain ⟨vol₃, disk₃, shrunk₃, counted₃, pruned₃, compactRoot, compactChild, returns₃⟩ :=
    exec_truncateDouble newBlockCount shrunk₂.accounted counted₂
  have singleKept : ∀ s, (s = .single ∨ ∃ i, s = .entry i) →
      fileRef (vol₃.inodes ino) disk₃ s = fileRef (vol₂.inodes ino) disk₂ s := by
    intro s here
    refine pruned₃.others s ?_
    rcases here with rfl | ⟨i, rfl⟩ <;> simp [inDouble, ofChild]
  refine ⟨vol₃, disk₃, ⟨(shrunk₁.trans shrunk₂).trans shrunk₃, counted₃, fun s isData => ?_,
    ⟨fun present => ?_, compactRoot, compactChild⟩⟩, ?_⟩
  · cases s with
    | direct i =>
      rw [pruned₃.others _ (by simp [inDouble, ofChild]), pruned₂.others _ (by simp),
        pruned₁.data _ ⟨i, rfl⟩ trivial]
    | entry i =>
      rw [singleKept _ (.inr ⟨i, rfl⟩), pruned₂.data _ (.inr ⟨i, rfl⟩) trivial,
        pruned₁.others _ (by simp)]
    | leaf outer i =>
      rw [pruned₃.data _ (.inr ⟨outer, .inr ⟨i, rfl⟩⟩) trivial, pruned₂.others _ (by simp),
        pruned₁.others _ (by simp)]
    | single => exact isData.elim
    | root => exact isData.elim
    | child outer => exact isData.elim
  · rw [singleKept _ (.inl rfl)] at present
    obtain ⟨i, below⟩ := compact₂ present
    exact ⟨i, by rwa [singleKept _ (.inr ⟨i, rfl⟩)]⟩
  · rw [Prog.exec_bind_ok returns₂, returns₃]

end DenyFS
