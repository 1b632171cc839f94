import DenyFS.Verified.Accounting

/-! # Looking up and allocating file blocks

On a volume whose I/O does not fail, `get_file_data_block` reads the block map and
`allocate_file_data_block` either maps the block together with the tables on its path, or
leaves everything it found as it was. -/

namespace DenyFS

open Packed BlockProgram Ownership

variable {count : Nat} {vol : Volume} {disk : Blocks} {held : List UInt32}

/-! ## Single requests -/

theorem exec_readBlock {block : UInt32} (inside : block.toNat < count) :
    Prog.exec (plainDevice count) (readBlock block) (vol, disk) = (.ok (disk block), vol, disk) := by
  simp only [Prog.exec_readAt, plainDevice, if_pos inside]

theorem exec_writeBlock {block : UInt32} (inside : block.toNat < count) (data : Sector) :
    Prog.exec (plainDevice count) (writeBlock block data) (vol, disk) =
      (.ok (), vol, Function.update disk block data) := by
  simp only [Prog.exec_writeAt, plainDevice, if_pos inside]

theorem exec_modifyInode {δ : Type} {device : Device δ UInt32 Sector Errno} {store : δ}
    (ino : Fin 64) (f : Inode → Inode) :
    Prog.exec device (modifyInode ino f) (vol, store) =
      (.ok (), vol.setInode ino (f (vol.inodes ino)), store) := rfl

theorem exec_when_true {condition : Prop} [Decidable condition] (holds : condition)
    (program : Op Unit) (state : Volume × Blocks) :
    Prog.exec (plainDevice count) (Prog.when condition program) state =
      Prog.exec (plainDevice count) program state := by
  rw [Prog.when, if_pos holds]

theorem exec_when_false {condition : Prop} [Decidable condition] (fails : ¬condition)
    (program : Op Unit) (state : Volume × Blocks) :
    Prog.exec (plainDevice count) (Prog.when condition program) state = (.ok (), state) := by
  rw [Prog.when, if_neg fails, Prog.exec_pure]

/-! ## Lookup -/

theorem exec_readPointerTable (accounted : Accounted count vol disk held) {table : UInt32}
    (inUse : vol.allocated table) {real : Blocks} :
    Prog.exec (plainDevice count) (readPointerTable table) (vol, real) =
      (.ok (tableAt real table), vol, real) := by
  have inside := accounted.inVolume inUse
  unfold readPointerTable
  rw [Prog.exec_bind_ok (Prog.exec_get _ _), if_neg (not_not_intro inUse),
    Prog.exec_bind_ok (exec_readBlock inside), tableAt_of_ne (accounted.ne_invalid inside)]
  rfl

theorem exec_checkMapped {block : UInt32}
    (mapped : ∀ b, pointer block = some b → vol.allocated b) :
    Prog.exec (plainDevice count) (checkMapped block) (vol, disk) = (.ok block, vol, disk) := by
  have sound : ¬(block ≠ invalidBlock ∧ ¬vol.allocated block) := by
    rintro ⟨present, free⟩
    exact free (mapped block (pointer_of_ne present))
  unfold checkMapped
  rw [Prog.exec_bind_ok (Prog.exec_get _ _), if_neg sound]
  rfl

/-- The block number the source has for a slot: `DENYFS_INVALID_BLOCK` for an empty one. -/
def blockNumber (slot : Option UInt32) : UInt32 := slot.getD invalidBlock

@[simp] theorem blockNumber_pointer (block : UInt32) : blockNumber (pointer block) = block := by
  unfold pointer
  split
  next invalid => exact invalid.symm
  · rfl

theorem blockNumber_eq_invalid {inode : Inode} {s : FileSlot} :
    blockNumber (fileRef inode disk s) = invalidBlock ↔ fileRef inode disk s = none := by
  cases points : fileRef inode disk s with
  | none => simp [blockNumber]
  | some block => simpa [blockNumber] using fileRef_ne_invalid points

theorem exec_getFileDataBlock (accounted : Accounted count vol disk held) {inode : Inode}
    {ino : Fin 64} (current : vol.inodes ino = inode) {logicalBlock : Nat}
    (small : logicalBlock < maxFileBlocks) :
    Prog.exec (plainDevice count) (getFileDataBlock inode logicalBlock) (vol, disk) =
      (.ok (blockNumber (fileRef inode disk (place logicalBlock))), vol, disk) := by
  subst current
  have inUse : ∀ s b, fileRef (vol.inodes ino) disk s = some b → vol.allocated b :=
    fun s b => accounted.allocated_of_fileRef
  unfold getFileDataBlock place
  rw [if_neg (Nat.not_le.2 small)]
  split
  · rw [exec_checkMapped (inUse (.direct _))]
    simp only [fileRef, blockNumber_pointer]
  split
  · by_cases absent : (vol.inodes ino).indirectBlock = invalidBlock
    · simp only [if_true, fileRef, Inode.singleTable, absent, tableAt_invalid, emptyPointers,
        blockNumber_pointer, Prog.exec_pure]
    · rw [if_neg absent, Prog.exec_bind_ok (Prog.exec_elseThrow_ok
        (exec_readPointerTable accounted (inUse .single _ (pointer_of_ne absent))) _)]
      have table : tableAt disk (vol.inodes ino).indirectBlock =
          (vol.inodes ino).singleTable disk := rfl
      rw [table, exec_checkMapped (inUse (.entry _))]
      simp only [fileRef, blockNumber_pointer]
  · by_cases absent : (vol.inodes ino).doubleIndirectBlock = invalidBlock
    · simp only [if_true, fileRef, Inode.childTable, Inode.rootTable, absent, tableAt_invalid,
        emptyPointers, blockNumber_pointer, Prog.exec_pure]
    · rw [if_neg absent, Prog.exec_bind_ok (Prog.exec_elseThrow_ok
        (exec_readPointerTable accounted (inUse .root _ (pointer_of_ne absent))) _)]
      have table : tableAt disk (vol.inodes ino).doubleIndirectBlock =
          (vol.inodes ino).rootTable disk := rfl
      rw [table]
      generalize hOuter : Fin.ofNat 1024 ((logicalBlock - 20 - 1024) / 1024) = outer
      by_cases empty : (vol.inodes ino).rootTable disk outer = invalidBlock
      · simp only [if_true, fileRef, Inode.childTable, empty, tableAt_invalid,
          emptyPointers, blockNumber_pointer, Prog.exec_pure]
      · rw [if_neg empty, Prog.exec_bind_ok (Prog.exec_elseThrow_ok
          (exec_readPointerTable accounted (inUse (.child outer) _ (pointer_of_ne empty))) _)]
        have child : tableAt disk ((vol.inodes ino).rootTable disk outer) =
            (vol.inodes ino).childTable disk outer := rfl
        rw [child, exec_checkMapped (inUse (.leaf outer _))]
        simp only [fileRef, blockNumber_pointer]

/-! ## Taking blocks -/

/-- A block was taken from the free ones and filled. -/
structure Took (count : Nat) (vol vol' : Volume) (disk disk' : Blocks) (held : List UInt32)
    (block : UInt32) (contents : Sector) : Prop where
  fresh : ¬vol.allocated block
  clear : vol.bit block.toNat = false
  volume : vol' = vol.takeBlock block.toNat
  blocks : disk' = Function.update disk block contents
  accounted : Accounted count vol' disk' (block :: held)
  spent : vol.sb.freeBlocks.toNat = vol'.sb.freeBlocks.toNat + 1

theorem exec_allocateFilled (accounted : Accounted count vol disk held) (few : held.length ≤ 2)
    (contents : Sector) :
    (vol.sb.freeBlocks.toNat = 0 ∧
      Prog.exec (plainDevice count) (allocateFilled contents) (vol, disk) =
        (.error .enospc, vol, disk)) ∨
    ∃ block vol' disk', Took count vol vol' disk disk' held block contents ∧
      Prog.exec (plainDevice count) (allocateFilled contents) (vol, disk) =
        (.ok block, vol', disk') := by
  rcases accounted.allocBlock_cases few with ⟨full, stays⟩ | ⟨block, takes, inData, clear⟩
  · refine .inl ⟨full, ?_⟩
    have allocated : Prog.exec (plainDevice count) (modifyGet allocBlock : Op Int) (vol, disk) =
        (.ok (-1), vol, disk) := by
      rw [Prog.exec_modifyGet, stays]
    unfold allocateFilled
    rw [Prog.exec_bind_ok allocated, if_pos (by decide)]
    rfl
  · obtain ⟨after, fewer⟩ := accounted.take inData clear contents
    refine .inr ⟨block, _, _, ⟨?_, clear, rfl, rfl, after, fewer⟩, ?_⟩
    · rw [Volume.allocated_iff, clear]
      exact fun both => Bool.false_ne_true both.2
    have allocated : Prog.exec (plainDevice count) (modifyGet allocBlock : Op Int) (vol, disk) =
        (.ok (block.toNat : Int), vol.takeBlock block.toNat, disk) := by
      rw [Prog.exec_modifyGet, takes]
    have inside := accounted.inVolume_of_data inData
    have number : UInt32.ofNat (Int.toNat (block.toNat : Int)) = block := by
      rw [Int.toNat_natCast, UInt32.ofNat_toNat]
    unfold allocateFilled
    rw [Prog.exec_bind_ok allocated, if_neg (by omega), number, Prog.exec_bind_ok
      (Prog.exec_rollback_ok (Prog.exec_elseThrow_ok (exec_writeBlock inside contents) _) _)]
    rfl

namespace Took

variable {vol' : Volume} {disk' : Blocks} {block : UInt32} {contents : Sector}

theorem undo (took : Took count vol vol' disk disk' held block contents) :
    ∃ dirty, freeBlock vol' block = { vol with bitmapDirty := dirty } := by
  have inUse := took.accounted.ledger.used_of_held (b := block) List.mem_cons_self
  rw [freeBlock_of_allocated inUse, took.volume]
  exact Volume.release_take took.clear

/-- Two blocks given back in the order they were taken. -/
theorem undo_two {vol'' : Volume} {disk'' : Blocks} {block' : UInt32} {contents' : Sector}
    (took : Took count vol vol' disk disk' held block contents)
    (took' : Took count vol' vol'' disk' disk'' (block :: held) block' contents') :
    ∃ dirty, freeBlock (freeBlock vol'' block) block' = { vol with bitmapDirty := dirty } := by
  have clear' : vol.bit block'.toNat = false := by
    have := took'.clear
    rw [took.volume, Volume.takeBlock_bit, Bool.or_eq_false_iff] at this
    exact this.1
  have inUse := took'.accounted.ledger.used_of_held (b := block) (by simp)
  have inUse' := took'.accounted.ledger.used_of_held (b := block') (by simp)
  have distinct : block' ≠ block := by
    rintro rfl
    have := took'.accounted.ledger.nodup
    simp at this
  have later : (vol''.releaseBlock block.toNat).allocated block' := by
    rw [Volume.releaseBlock_allocated block.toNat_lt, UInt32.ofNat_toNat]
    exact ⟨inUse', distinct⟩
  rw [freeBlock_of_allocated inUse, freeBlock_of_allocated later, took'.volume, took.volume]
  exact Volume.release_take_two took.clear clear'

theorem allocated_iff (took : Took count vol vol' disk disk' held block contents) (b : UInt32) :
    vol'.allocated b ↔ vol.allocated b ∨ b = block := by
  have inData := ((vol'.allocated_iff block).1
    (took.accounted.ledger.used_of_held List.mem_cons_self)).1
  rw [took.volume, Volume.takeBlock_dataBlocks] at inData
  rw [took.volume, Volume.takeBlock_allocated inData block.toNat_lt, UInt32.ofNat_toNat]

end Took

/-- Some free blocks have been taken and filled; nothing in use has changed, and nothing points
to the new blocks yet. -/
structure Prepared (count : Nat) (vol vol' : Volume) (disk disk' : Blocks)
    (held : List UInt32) : Prop where
  accounted : Accounted count vol' disk' held
  inodes : vol'.inodes = vol.inodes
  sb : vol'.sb = { vol.sb with freeBlocks := vol'.sb.freeBlocks }
  allocated : ∀ b, vol'.allocated b ↔ vol.allocated b ∨ b ∈ held
  fresh : ∀ b ∈ held, ¬vol.allocated b
  blocks : ∀ b, vol.allocated b → disk' b = disk b
  spent : vol.sb.freeBlocks.toNat = vol'.sb.freeBlocks.toNat + held.length

namespace Prepared

variable {vol' vol'' : Volume} {disk' disk'' : Blocks} {block : UInt32} {contents : Sector}

theorem start (accounted : Accounted count vol disk []) : Prepared count vol vol disk disk [] :=
  ⟨accounted, rfl, rfl, fun b => by simp, fun b inHand => (List.not_mem_nil inHand).elim,
    fun _ _ => rfl, rfl⟩

theorem take (prepared : Prepared count vol vol' disk disk' held)
    (took : Took count vol' vol'' disk' disk'' held block contents) :
    Prepared count vol vol'' disk disk'' (block :: held) where
  accounted := took.accounted
  inodes := by rw [took.volume, Volume.takeBlock_inodes, prepared.inodes]
  sb := by
    rw [took.volume]
    change { vol'.sb with freeBlocks := vol'.sb.freeBlocks - 1 } = _
    rw [prepared.sb]
    rfl
  allocated b := by
    rw [took.allocated_iff, prepared.allocated, List.mem_cons]
    tauto
  fresh b inHand inUse := by
    rcases List.mem_cons.1 inHand with rfl | inHand
    · exact took.fresh ((prepared.allocated b).2 (.inl inUse))
    · exact prepared.fresh b inHand inUse
  blocks b inUse := by
    rw [took.blocks, Function.update_of_ne, prepared.blocks b inUse]
    rintro rfl
    exact took.fresh ((prepared.allocated b).2 (.inl inUse))
  spent := by
    have := prepared.spent
    have := took.spent
    rw [List.length_cons]
    omega

/-- A block in hand is filled anew. -/
theorem write (prepared : Prepared count vol vol' disk disk' held) (inHand : block ∈ held)
    (contents : Sector) :
    Prepared count vol vol' disk (Function.update disk' block contents) held :=
  { prepared with
    accounted := prepared.accounted.writeHeld inHand contents
    blocks := fun b inUse => by
      rw [Function.update_of_ne, prepared.blocks b inUse]
      rintro rfl
      exact prepared.fresh b inHand inUse }

theorem inVolume (prepared : Prepared count vol vol' disk disk' held) (inHand : block ∈ held) :
    block.toNat < count :=
  prepared.accounted.inVolume (prepared.accounted.ledger.used_of_held inHand)

theorem ne_invalid (prepared : Prepared count vol vol' disk disk' held) (inHand : block ∈ held) :
    block ≠ invalidBlock := prepared.accounted.ne_invalid (prepared.inVolume inHand)

/-- No block map has changed. -/
theorem fileRef_eq (prepared : Prepared count vol vol' disk disk' held)
    (accounted : Accounted count vol disk []) (ino : Fin 64) :
    fileRef (vol.inodes ino) disk' = fileRef (vol.inodes ino) disk :=
  funext fun s => fileRef_congr (fun _ _ _ points =>
    prepared.blocks _ (accounted.allocated_of_fileRef points)) s

/-- Writing a block in hand, or one that a slot of `ino` points to, leaves the block maps of the
other inodes alone. -/
theorem others_of_write (prepared : Prepared count vol vol' disk disk' held)
    (accounted : Accounted count vol disk []) {ino : Fin 64}
    (own : block ∈ held ∨ ∃ s, fileRef (vol.inodes ino) disk s = some block) (data : Sector)
    {j : Fin 64} (other : j ≠ ino) :
    fileRef (vol.inodes j) (Function.update disk' block data) = fileRef (vol.inodes j) disk := by
  rw [← prepared.fileRef_eq accounted, ← prepared.inodes]
  have own' : block ∈ held ∨ ∃ s, fileRef (vol'.inodes ino) disk' s = some block := by
    rw [prepared.inodes, prepared.fileRef_eq accounted]
    exact own
  exact prepared.accounted.others_of_write own' data other

/-- No slot points to a block in hand. -/
theorem apart (prepared : Prepared count vol vol' disk disk' held)
    (accounted : Accounted count vol disk []) (inHand : block ∈ held) (ino : Fin 64)
    (s : FileSlot) : fileRef (vol.inodes ino) disk s ≠ some block := fun points =>
  prepared.fresh block inHand (accounted.allocated_of_fileRef points)

end Prepared

/-! ## Mapping a block -/

/-- The slots that must be filled before a slot can be: the tables above it, and itself. -/
def FileSlot.path : FileSlot → List FileSlot
  | .direct i => [.direct i]
  | .single => [.single]
  | .entry i => [.single, .entry i]
  | .root => [.root]
  | .child outer => [.root, .child outer]
  | .leaf outer inner => [.root, .child outer, .leaf outer inner]

/-- How many blocks it takes to fill a slot. -/
def missing (inode : Inode) (disk : Blocks) (s : FileSlot) : Nat :=
  s.path.countP fun t => (fileRef inode disk t).isNone

/-- An empty slot `s` of inode `ino` was filled with a new block, together with the tables on
its path, and `block_count` grew by `n`; nothing else has changed. -/
structure Grown (count : Nat) (vol vol' : Volume) (disk disk' : Blocks) (ino : Fin 64)
    (s : FileSlot) (block n : UInt32) : Prop where
  accounted : Accounted count vol' disk' []
  sb : vol'.sb = { vol.sb with freeBlocks := vol'.sb.freeBlocks }
  others : ∀ j, j ≠ ino → vol'.inodes j = vol.inodes j
  inode : vol'.inodes ino = { vol.inodes ino with
    blockCount := (vol'.inodes ino).blockCount
    direct := (vol'.inodes ino).direct
    indirectBlock := (vol'.inodes ino).indirectBlock
    doubleIndirectBlock := (vol'.inodes ino).doubleIndirectBlock }
  blockCount : (vol'.inodes ino).blockCount = (vol.inodes ino).blockCount + n
  here : fileRef (vol'.inodes ino) disk' s = some block
  kept : ∀ t b, fileRef (vol.inodes ino) disk t = some b →
    fileRef (vol'.inodes ino) disk' t = some b
  added : ∀ t b, fileRef (vol'.inodes ino) disk' t = some b →
    fileRef (vol.inodes ino) disk t = some b ∨ t ∈ s.path ∧ ¬vol.allocated b
  fresh : ¬vol.allocated block
  zero : disk' block = fun _ => 0
  blocks : ∀ b, vol.allocated b →
    (∀ t ∈ s.path, t.IsTable → fileRef (vol.inodes ino) disk t ≠ some b) → disk' b = disk b
  spent : vol.sb.freeBlocks.toNat = vol'.sb.freeBlocks.toNat + missing (vol.inodes ino) disk s

/-- Part of the way from the slots of `vol` to those of a grown file: `g` are the slots of inode
`ino` so far, filled on the path of `s` only. -/
structure Linking (vol : Volume) (disk : Blocks) (ino : Fin 64) (s : FileSlot)
    (used : UInt32 → Prop) (g : FileSlot → Option UInt32) (held : List UInt32) : Prop where
  ledger : Ledger (setFile (ref vol disk) ino g) used held
  kept : ∀ t b, fileRef (vol.inodes ino) disk t = some b → g t = some b
  added : ∀ t b, g t = some b →
    fileRef (vol.inodes ino) disk t = some b ∨ t ∈ s.path ∧ ¬vol.allocated b

namespace Linking

variable {vol' : Volume} {disk' : Blocks} {ino : Fin 64} {s t : FileSlot} {block : UInt32}
  {used : UInt32 → Prop} {g : FileSlot → Option UInt32}

theorem start (accounted : Accounted count vol disk [])
    (prepared : Prepared count vol vol' disk disk' held) (ino : Fin 64) (s : FileSlot) :
    Linking vol disk ino s vol'.allocated (fileRef (vol.inodes ino) disk) held where
  ledger := by
    rw [setFile_self]
    refine prepared.accounted.ledger.congr (fun slot => ?_) fun _ => Iff.rfl
    rw [ref, ref, prepared.inodes, prepared.fileRef_eq accounted]
  kept _ _ points := points
  added _ _ points := .inl points

theorem link (linking : Linking vol disk ino s used g (block :: held)) (empty : g t = none)
    (onPath : t ∈ s.path) (fresh : ¬vol.allocated block) :
    Linking vol disk ino s used (Function.update g t (some block)) held where
  ledger := linkFile linking.ledger empty
  kept u b points := by
    rw [Function.update_of_ne, linking.kept u b points]
    rintro rfl
    rw [linking.kept u b points] at empty
    cases empty
  added u b points := by
    rw [Function.update_apply] at points
    split at points
    next same =>
      obtain rfl := Option.some.inj points
      exact .inr ⟨same ▸ onPath, fresh⟩
    · exact linking.added u b points

end Linking

/-- There were too few free blocks, and nothing in use has changed. -/
structure Full (vol vol' : Volume) (disk disk' : Blocks) (needed : Nat) : Prop where
  volume : ∃ dirty, vol' = { vol with bitmapDirty := dirty }
  blocks : ∀ b, vol.allocated b → disk' b = disk b
  full : vol.sb.freeBlocks.toNat < needed

/-- A table that no slot on the way points to is not touched by a write. -/
theorem tableAt_write (disk : Blocks) {table block : UInt32} (apart : pointer table ≠ some block)
    (data : Sector) : tableAt (Function.update disk block data) table = tableAt disk table := by
  by_cases absent : table = invalidBlock
  · rw [absent, tableAt_invalid, tableAt_invalid]
  · refine tableAt_update_of_ne disk data ?_
    rintro rfl
    exact apart (pointer_of_ne absent)

section Mapping

variable {vol' : Volume} {disk' : Blocks} {ino : Fin 64} {block : UInt32}

/-- Assembles the description of a grown file from its last step: a file whose slots are `g`
after all blocks in hand have been linked. -/
theorem Grown.of_linking {vol₂ : Volume} {disk₂ : Blocks} {s : FileSlot}
    {g : FileSlot → Option UInt32}
    (prepared : Prepared count vol vol' disk disk' held)
    (linking : Linking vol disk ino s vol'.allocated g [])
    (sb : vol₂.sb = vol'.sb) (bitmap : vol₂.bitmap = vol'.bitmap)
    (others : ∀ j, j ≠ ino → vol₂.inodes j = vol.inodes j ∧
      fileRef (vol.inodes j) disk₂ = fileRef (vol.inodes j) disk)
    (inode : vol₂.inodes ino = { vol.inodes ino with
      direct := (vol₂.inodes ino).direct
      indirectBlock := (vol₂.inodes ino).indirectBlock
      doubleIndirectBlock := (vol₂.inodes ino).doubleIndirectBlock })
    (refs : fileRef (vol₂.inodes ino) disk₂ = g) (here : g s = some block)
    (fresh : ¬vol.allocated block) (zero : disk₂ block = fun _ => 0)
    (blocks : ∀ b, vol.allocated b →
      (∀ t ∈ s.path, t.IsTable → fileRef (vol.inodes ino) disk t ≠ some b) → disk₂ b = disk b)
    (spent : held.length = missing (vol.inodes ino) disk s) :
    Grown count vol vol₂ disk disk₂ ino s block 0 where
  accounted := by
    have otherFiles : ∀ j, j ≠ ino →
        fileRef (vol₂.inodes j) disk₂ = fileRef (vol.inodes j) disk := by
      intro j away
      rw [(others j away).1, (others j away).2]
    refine prepared.accounted.relink sb bitmap ?_
    rw [ref_eq_setFile otherFiles, refs]
    exact linking.ledger
  sb := by rw [sb, prepared.sb]
  others j away := (others j away).1
  inode := by
    rw [inode]
  blockCount := by
    rw [inode]
    exact (UInt32.add_zero _).symm
  here := by rw [refs, here]
  kept := by
    rw [refs]
    exact linking.kept
  added := by
    rw [refs]
    exact linking.added
  fresh := fresh
  zero := zero
  blocks := blocks
  spent := by
    have := prepared.spent
    rw [sb]
    omega

/-- The first case: a direct pointer. -/
theorem exec_mapDirect (accounted : Accounted count vol disk [])
    (prepared : Prepared count vol vol' disk disk' [block]) (zero : disk' block = fun _ => 0)
    {i : Fin 20} (empty : fileRef (vol.inodes ino) disk (.direct i) = none) :
    ∃ vol₂, Grown count vol vol₂ disk disk' ino (.direct i) block 0 ∧
      Prog.exec (plainDevice count) (mapDirect ino i block) (vol', disk') =
        (.ok (), vol₂, disk') := by
  let inode' : Inode :=
    { vol'.inodes ino with direct := Function.update (vol'.inodes ino).direct i block }
  have inHand : block ∈ [block] := List.mem_singleton_self block
  have self : (vol'.setInode ino inode').inodes ino = inode' := Function.update_self ..
  refine ⟨vol'.setInode ino inode', ?_, exec_modifyInode _ _⟩
  refine Grown.of_linking prepared ((Linking.start accounted prepared ino (.direct i)).link empty
    (by simp [FileSlot.path]) (prepared.fresh block inHand)) rfl rfl
    (fun j away => ⟨?_, prepared.fileRef_eq accounted j⟩) ?_ ?_
    (Function.update_self ..) (prepared.fresh block inHand) zero
    (fun b inUse _ => prepared.blocks b inUse) ?_
  · rw [Volume.setInode_inodes, Function.update_of_ne away, prepared.inodes]
  · rw [self, ← prepared.inodes]
  · rw [self, fileRef_setDirect, prepared.inodes, prepared.fileRef_eq accounted,
      pointer_of_ne (prepared.ne_invalid inHand)]
  · simp [missing, FileSlot.path, empty]

theorem exec_tableOrNew_present {table : UInt32} (present : table ≠ invalidBlock)
    (undo : Volume → Volume) :
    Prog.exec (plainDevice count) (tableOrNew table undo) (vol, disk) =
      (.ok (table, false), vol, disk) := by
  rw [tableOrNew, if_neg present, Prog.exec_pure]

theorem exec_tableOrNew_absent (accounted : Accounted count vol disk held)
    (few : held.length ≤ 2) :
    (vol.sb.freeBlocks.toNat = 0 ∧ ∀ undo,
      Prog.exec (plainDevice count) (tableOrNew invalidBlock undo) (vol, disk) =
        (.error .enospc, undo vol, disk)) ∨
    ∃ table vol' disk',
      Took count vol vol' disk disk' held table (pointersSector emptyPointers) ∧ ∀ undo,
      Prog.exec (plainDevice count) (tableOrNew invalidBlock undo) (vol, disk) =
        (.ok (table, true), vol', disk') := by
  have creates : ∀ undo : Volume → Volume, tableOrNew invalidBlock undo = (do
      let table ← allocatePointerTable.rollback undo
      return (table, true)) := fun _ => if_pos rfl
  simp only [creates]
  rcases exec_allocateFilled accounted few (pointersSector emptyPointers) with ⟨full, fails⟩ |
    ⟨table, vol', disk', took, returns⟩
  · exact .inl ⟨full, fun undo => Prog.exec_bind_error (Prog.exec_rollback_error fails undo)⟩
  · exact .inr ⟨table, vol', disk', took,
      fun undo => Prog.exec_bind_ok (Prog.exec_rollback_ok returns undo)⟩

theorem exec_pointersOf (accounted : Accounted count vol disk held) {table : UInt32}
    (inUse : vol.allocated table) (undo : Volume → Volume) :
    Prog.exec (plainDevice count) (pointersOf table false undo) (vol, disk) =
      (.ok (tableAt disk table), vol, disk) := by
  unfold pointersOf
  exact Prog.exec_rollback_ok
    (Prog.exec_elseThrow_ok (exec_readPointerTable accounted inUse) _) undo

theorem exec_pointersOf_new (table : UInt32) (undo : Volume → Volume) :
    Prog.exec (plainDevice count) (pointersOf table true undo) (vol, disk) =
      (.ok emptyPointers, vol, disk) := rfl

theorem exec_storePointers {table : UInt32} (inside : table.toNat < count) (pointers : Pointers)
    (undo : Volume → Volume) :
    Prog.exec (plainDevice count) (storePointers table pointers undo) (vol, disk) =
      (.ok (), vol, Function.update disk table (pointersSector pointers)) :=
  Prog.exec_rollback_ok (Prog.exec_elseThrow_ok (exec_writeBlock inside _) _) undo

/-- No other slot points to the block of a slot. -/
theorem Accounted.apart_slot (accounted : Accounted count vol disk held) {t u : FileSlot}
    (points : fileRef (vol.inodes ino) disk t = some block) (other : u ≠ t) :
    fileRef (vol.inodes ino) disk u ≠ some block := fun too =>
  other (congrArg Prod.snd
    (accounted.ledger.injective (s := (ino, u)) (t := (ino, t)) too points))

/-- The block map after an entry of the single-indirect table in `table` has been rewritten. -/
theorem fileRef_writeSingle {inode : Inode} {table : UInt32} {pointers : Pointers}
    (i : Fin 1024) (block : UInt32) (present : table ≠ invalidBlock)
    (apart : ∀ u, u ≠ .single → fileRef inode disk u ≠ some table)
    (entries : pointers = inode.singleTable disk) :
    fileRef { inode with indirectBlock := table } (Function.update disk table
        (pointersSector (Function.update pointers i block))) =
      Function.update (Function.update (fileRef inode disk) .single (some table)) (.entry i)
        (pointer block) := by
  subst entries
  generalize written : pointersSector (Function.update (inode.singleTable disk) i block) = data
  have root := tableAt_write disk (apart .root (by simp)) data
  have table_eq : tableAt (Function.update disk table data) table =
      Function.update (inode.singleTable disk) i block := by
    rw [← written]
    exact tableAt_update_self disk _ present
  have children : Inode.childTable { inode with indirectBlock := table }
      (Function.update disk table data) = inode.childTable disk := by
    funext outer
    unfold Inode.childTable Inode.rootTable
    dsimp only
    rw [root]
    exact tableAt_write disk (apart (.child outer) (by simp)) _
  rw [fileRef_setEntry inode { inode with indirectBlock := table } disk i block rfl rfl table_eq root children, pointer_of_ne present]

theorem missing_entry {inode : Inode} {i : Fin 1024}
    (empty : fileRef inode disk (.entry i) = none) :
    missing inode disk (.entry i) = if inode.indirectBlock = invalidBlock then 2 else 1 := by
  unfold missing FileSlot.path
  by_cases absent : inode.indirectBlock = invalidBlock
  · have single : fileRef inode disk .single = none := pointer_eq_none.2 absent
    simp [absent, single, empty]
  · have single : fileRef inode disk .single = some inode.indirectBlock := pointer_of_ne absent
    simp [absent, single, empty]

theorem missing_leaf {inode : Inode} {outer inner : Fin 1024}
    (empty : fileRef inode disk (.leaf outer inner) = none) :
    missing inode disk (.leaf outer inner) =
      if inode.doubleIndirectBlock = invalidBlock then 3
      else if inode.rootTable disk outer = invalidBlock then 2 else 1 := by
  unfold missing FileSlot.path
  by_cases absent : inode.doubleIndirectBlock = invalidBlock
  · have root : fileRef inode disk .root = none := pointer_eq_none.2 absent
    have child : fileRef inode disk (.child outer) = none := by
      simp [fileRef, Inode.rootTable, absent, emptyPointers]
    simp [absent, root, child, empty]
  have root : fileRef inode disk .root = some inode.doubleIndirectBlock := pointer_of_ne absent
  by_cases absent' : inode.rootTable disk outer = invalidBlock
  · have child : fileRef inode disk (.child outer) = none := pointer_eq_none.2 absent'
    simp [absent, absent', root, child, empty]
  · have child : fileRef inode disk (.child outer) = some (inode.rootTable disk outer) :=
      pointer_of_ne absent'
    simp [absent, absent', root, child, empty]

/-- The block map after an entry of an existing child table has been rewritten. -/
theorem fileRef_writeChild {inode : Inode} {outer inner : Fin 1024} {child : UInt32}
    (points : fileRef inode disk (.child outer) = some child)
    (apart : ∀ u, u ≠ .child outer → fileRef inode disk u ≠ some child) :
    fileRef inode (Function.update disk child
        (pointersSector (Function.update (tableAt disk child) inner block))) =
      Function.update (fileRef inode disk) (.leaf outer inner) (pointer block) := by
  obtain ⟨entry, child_present⟩ := pointer_eq_some.1 points
  have table : tableAt disk child = inode.childTable disk outer := by
    rw [Inode.childTable, entry]
  rw [table]
  generalize written :
    pointersSector (Function.update (inode.childTable disk outer) inner block) = data
  have root : inode.rootTable (Function.update disk child data) = inode.rootTable disk :=
    tableAt_write disk (apart .root (by simp)) data
  have single : inode.singleTable (Function.update disk child data) = inode.singleTable disk :=
    tableAt_write disk (apart .single (by simp)) data
  have roots : inode.rootTable (Function.update disk child data) =
      Function.update (inode.rootTable disk) outer child := by
    rw [root, ← entry, Function.update_eq_self]
  have children : inode.childTable (Function.update disk child data) =
      Function.update (inode.childTable disk) outer
        (Function.update (inode.childTable disk outer) inner block) := by
    funext o
    by_cases same : o = outer
    · subst same
      rw [Function.update_self, Inode.childTable, root, entry, ← written]
      exact tableAt_update_self disk _ child_present
    · rw [Function.update_of_ne same, Inode.childTable, root]
      exact tableAt_write disk (apart (.child o) (by simpa using same)) data
  rw [fileRef_setLeaf inode inode disk outer inner child block
    rfl rfl single roots children, pointer_of_ne child_present]
  have unchanged : fileRef inode disk .root = pointer inode.doubleIndirectBlock := rfl
  rw [← unchanged, Function.update_eq_self, ← points, Function.update_eq_self]

/-- The block map after a new child table has been filled and entered in the root table. -/
theorem fileRef_writeRoot {inode : Inode} {child root : UInt32} (outer inner : Fin 1024)
    (block : UInt32) (pointers roots : Pointers) (present : root ≠ invalidBlock)
    (child_present : child ≠ invalidBlock) (block_present : block ≠ invalidBlock)
    (fresh : ∀ u, fileRef inode disk u ≠ some child)
    (apart : ∀ u, u ≠ .root → fileRef inode disk u ≠ some root) (distinct : root ≠ child)
    (entries : pointers = inode.childTable disk outer) (rootEntries : roots = inode.rootTable disk) :
    fileRef { inode with doubleIndirectBlock := root }
        (Function.update (Function.update disk child
          (pointersSector (Function.update pointers inner block))) root
          (pointersSector (Function.update roots outer child))) =
      Function.update (Function.update (Function.update (fileRef inode disk) .root (some root))
        (.child outer) (some child)) (.leaf outer inner) (some block) := by
  subst entries rootEntries
  generalize written :
    pointersSector (Function.update (inode.childTable disk outer) inner block) = data
  generalize writtenRoot :
    pointersSector (Function.update (inode.rootTable disk) outer child) = rootData
  have untouched : ∀ table, pointer table ≠ some child → pointer table ≠ some root →
      tableAt (Function.update (Function.update disk child data) root rootData) table =
        tableAt disk table := by
    intro table first second
    rw [tableAt_write _ second, tableAt_write _ first]
  have rootTable : tableAt (Function.update (Function.update disk child data) root rootData) root =
      Function.update (inode.rootTable disk) outer child := by
    rw [← writtenRoot]
    exact tableAt_update_self _ _ present
  have childTable : tableAt (Function.update (Function.update disk child data) root rootData)
      child = Function.update (inode.childTable disk outer) inner block := by
    rw [tableAt_update_of_ne _ _ distinct.symm, ← written]
    exact tableAt_update_self disk _ child_present
  have children : Inode.childTable { inode with doubleIndirectBlock := root }
      (Function.update (Function.update disk child data) root rootData) =
      Function.update (inode.childTable disk) outer
        (Function.update (inode.childTable disk outer) inner block) := by
    funext o
    unfold Inode.childTable
    rw [show Inode.rootTable { inode with doubleIndirectBlock := root }
      (Function.update (Function.update disk child data) root rootData) =
        Function.update (inode.rootTable disk) outer child from rootTable]
    by_cases same : o = outer
    · subst same
      rw [Function.update_self, Function.update_self]
      exact childTable
    · rw [Function.update_of_ne same, Function.update_of_ne same]
      exact untouched _ (fresh (.child o)) (apart (.child o) (by simp))
  have single : tableAt (Function.update (Function.update disk child data) root rootData)
      inode.indirectBlock = tableAt disk inode.indirectBlock :=
    untouched _ (fresh .single) (apart .single (by simp))
  rw [fileRef_setLeaf inode { inode with doubleIndirectBlock := root } disk outer inner child block
      rfl rfl single rootTable children,
    pointer_of_ne present, pointer_of_ne child_present, pointer_of_ne block_present]

section Single

variable {i : Fin 1024}

/-- An entry of a single-indirect table that is there. -/
theorem exec_mapSingle_present (accounted : Accounted count vol disk [])
    (prepared : Prepared count vol vol' disk disk' [block]) (zero : disk' block = fun _ => 0)
    (empty : fileRef (vol.inodes ino) disk (.entry i) = none)
    (present : (vol.inodes ino).indirectBlock ≠ invalidBlock) :
    ∃ disk₂, Grown count vol vol' disk disk₂ ino (.entry i) block 0 ∧
      Prog.exec (plainDevice count) (mapSingle ino i block) (vol', disk') =
        (.ok (), vol', disk₂) := by
  have inHand : block ∈ [block] := List.mem_singleton_self block
  have needs := missing_entry empty
  rw [if_neg present] at needs
  have single : fileRef (vol.inodes ino) disk .single = some (vol.inodes ino).indirectBlock :=
    pointer_of_ne present
  have inUse : vol.allocated (vol.inodes ino).indirectBlock :=
    accounted.allocated_of_fileRef single
  have inUse' : vol'.allocated (vol.inodes ino).indirectBlock :=
    (prepared.allocated _).2 (.inl inUse)
  have apart : ∀ u, u ≠ .single →
      fileRef (vol.inodes ino) disk' u ≠ some (vol.inodes ino).indirectBlock := by
    rw [prepared.fileRef_eq accounted]
    exact fun u => accounted.apart_slot single
  refine ⟨Function.update disk' (vol.inodes ino).indirectBlock (pointersSector
    (Function.update (tableAt disk' (vol.inodes ino).indirectBlock) i block)),
    Grown.of_linking prepared ((Linking.start accounted prepared ino (.entry i)).link empty
      (by simp [FileSlot.path]) (prepared.fresh block inHand)) rfl rfl
      (fun j away => ⟨by rw [prepared.inodes],
        prepared.others_of_write accounted (.inr ⟨.single, single⟩) _ away⟩)
      (by rw [prepared.inodes]) ?_
      (Function.update_self ..) (prepared.fresh block inHand) ?_ (fun b used away => ?_) ?_, ?_⟩
  · have written := fileRef_writeSingle i block present apart
      (show tableAt disk' (vol.inodes ino).indirectBlock = (vol.inodes ino).singleTable disk'
        from rfl)
    rw [prepared.inodes, written, prepared.fileRef_eq accounted, ← single,
      Function.update_eq_self, pointer_of_ne (prepared.ne_invalid inHand)]
  · rw [Function.update_of_ne, zero]
    rintro rfl
    exact prepared.fresh _ inHand inUse
  · rw [Function.update_of_ne, prepared.blocks b used]
    rintro rfl
    exact away .single (by simp [FileSlot.path]) trivial single
  · rw [needs]
    rfl
  · unfold mapSingle
    rw [Prog.exec_bind_ok (Prog.exec_get _ _)]
    dsimp only
    rw [prepared.inodes, Prog.exec_bind_ok (exec_tableOrNew_present present _)]
    dsimp only
    rw [Prog.exec_bind_ok (exec_pointersOf prepared.accounted inUse' _),
      Prog.exec_bind_ok (exec_storePointers (prepared.accounted.inVolume inUse') _ _),
      exec_when_false (by decide)]

/-- The file after a new single-indirect table has been filled and linked. -/
theorem Grown.of_newSingle {table : UInt32} {vol₁ : Volume} {disk₁ : Blocks}
    (accounted : Accounted count vol disk [])
    (prepared : Prepared count vol vol₁ disk disk₁ [table, block])
    (zero : disk₁ block = fun _ => 0)
    (empty : fileRef (vol.inodes ino) disk (.entry i) = none)
    (absent : (vol.inodes ino).indirectBlock = invalidBlock) :
    Grown count vol (vol₁.setInode ino { vol₁.inodes ino with indirectBlock := table }) disk
      (Function.update disk₁ table (pointersSector (Function.update emptyPointers i block))) ino
      (.entry i) block 0 := by
  have needs := missing_entry empty
  rw [if_pos absent] at needs
  have tableInHand : table ∈ [table, block] := List.mem_cons_self
  have blockInHand : block ∈ [table, block] := by simp
  have single : fileRef (vol.inodes ino) disk .single = none := pointer_eq_none.2 absent
  have stored := prepared.write tableInHand
    (pointersSector (Function.update emptyPointers i block))
  have self : (vol₁.setInode ino { vol₁.inodes ino with indirectBlock := table }).inodes ino =
      { vol₁.inodes ino with indirectBlock := table } := Function.update_self ..
  refine Grown.of_linking stored
    (((Linking.start accounted stored ino (.entry i)).link single (by simp [FileSlot.path])
      (prepared.fresh table tableInHand)).link (t := .entry i) ?_ (by simp [FileSlot.path])
      (prepared.fresh block blockInHand)) rfl rfl
    (fun j away => ⟨?_, stored.fileRef_eq accounted j⟩) ?_ ?_
    (Function.update_self ..) (prepared.fresh block blockInHand) ?_
    (fun b inUse _ => stored.blocks b inUse) ?_
  · rw [Function.update_of_ne (by simp), empty]
  · rw [Volume.setInode_inodes, Function.update_of_ne away, prepared.inodes]
  · rw [self, ← prepared.inodes]
  · rw [self, prepared.inodes, ← prepared.fileRef_eq accounted,
      ← pointer_of_ne (prepared.ne_invalid blockInHand)]
    refine fileRef_writeSingle i block (prepared.ne_invalid tableInHand) (fun u _ => ?_) ?_
    · rw [prepared.fileRef_eq accounted]
      exact prepared.apart accounted tableInHand ino u
    · rw [Inode.singleTable, absent, tableAt_invalid]
  · have distinct := prepared.accounted.ledger.nodup
    rw [Function.update_of_ne, zero]
    rintro rfl
    simp at distinct
  · rw [needs]
    rfl

/-- The second case: an entry of the single-indirect table. -/
theorem exec_mapSingle (accounted : Accounted count vol disk [])
    (took : Took count vol vol' disk disk' [] block fun _ => 0)
    (empty : fileRef (vol.inodes ino) disk (.entry i) = none) :
    (∃ vol₂ disk₂, Grown count vol vol₂ disk disk₂ ino (.entry i) block 0 ∧
      Prog.exec (plainDevice count) (mapSingle ino i block) (vol', disk') =
        (.ok (), vol₂, disk₂)) ∨
    ∃ vol₂ disk₂, Full vol vol₂ disk disk₂ (missing (vol.inodes ino) disk (.entry i)) ∧
      Prog.exec (plainDevice count) (mapSingle ino i block) (vol', disk') =
        (.error .enospc, vol₂, disk₂) := by
  have prepared : Prepared count vol vol' disk disk' [block] := (Prepared.start accounted).take took
  have zero : disk' block = fun _ => 0 := by rw [took.blocks, Function.update_self]
  by_cases absent : (vol.inodes ino).indirectBlock = invalidBlock
  · have needs := missing_entry empty
    rw [if_pos absent] at needs
    unfold mapSingle
    rw [Prog.exec_bind_ok (Prog.exec_get _ _)]
    dsimp only
    rw [prepared.inodes, absent]
    rcases exec_tableOrNew_absent took.accounted (by simp) with
      ⟨full, fails⟩ | ⟨table, vol₁, disk₁, took₁, returns⟩
    · refine .inr ⟨freeBlock vol' block, disk', ⟨took.undo, prepared.blocks, ?_⟩,
        Prog.exec_bind_error (fails _)⟩
      have := took.spent
      omega
    · have prepared₁ := prepared.take took₁
      have kept : disk₁ block = fun _ => 0 := by
        rw [took₁.blocks, Function.update_of_ne, zero]
        rintro rfl
        exact took₁.fresh (took.accounted.ledger.used_of_held List.mem_cons_self)
      refine .inl ⟨_, _, Grown.of_newSingle accounted prepared₁ kept empty absent, ?_⟩
      rw [Prog.exec_bind_ok (returns _)]
      dsimp only
      rw [Prog.exec_bind_ok (exec_pointersOf_new table _),
        Prog.exec_bind_ok (exec_storePointers (prepared₁.inVolume List.mem_cons_self) _ _),
        exec_when_true rfl, exec_modifyInode]
  · obtain ⟨disk₂, grown, returns⟩ := exec_mapSingle_present accounted prepared zero empty absent
    exact .inl ⟨vol', disk₂, grown, returns⟩

end Single

section Double

variable {outer inner : Fin 1024}

/-- An entry of a child table that is there. -/
theorem Grown.of_child {child : UInt32} (accounted : Accounted count vol disk [])
    (prepared : Prepared count vol vol' disk disk' [block]) (zero : disk' block = fun _ => 0)
    (empty : fileRef (vol.inodes ino) disk (.leaf outer inner) = none)
    (points : fileRef (vol.inodes ino) disk (.child outer) = some child) :
    Grown count vol vol' disk (Function.update disk' child (pointersSector
      (Function.update (tableAt disk' child) inner block))) ino (.leaf outer inner) block 0 := by
  have inHand : block ∈ [block] := List.mem_singleton_self block
  have needs := missing_leaf empty
  obtain ⟨entry, present⟩ := pointer_eq_some.1 points
  have rootPresent : (vol.inodes ino).doubleIndirectBlock ≠ invalidBlock := by
    intro absent
    rw [Inode.rootTable, absent, tableAt_invalid] at entry
    exact present entry.symm
  rw [if_neg rootPresent, entry, if_neg present] at needs
  have inUse : vol.allocated child := accounted.allocated_of_fileRef points
  refine Grown.of_linking prepared ((Linking.start accounted prepared ino (.leaf outer inner)).link
    empty (by simp [FileSlot.path]) (prepared.fresh block inHand)) rfl rfl
    (fun j away => ⟨by rw [prepared.inodes],
      prepared.others_of_write accounted (.inr ⟨.child outer, points⟩) _ away⟩)
    (by rw [prepared.inodes]) ?_
    (Function.update_self ..) (prepared.fresh block inHand) ?_ (fun b used away => ?_) ?_
  · rw [prepared.inodes, ← prepared.fileRef_eq accounted,
      ← pointer_of_ne (prepared.ne_invalid inHand)]
    refine fileRef_writeChild ?_ fun u other => ?_
    · rw [prepared.fileRef_eq accounted, points]
    · rw [prepared.fileRef_eq accounted]
      exact accounted.apart_slot points other
  · rw [Function.update_of_ne, zero]
    rintro rfl
    exact prepared.fresh _ inHand inUse
  · rw [Function.update_of_ne, prepared.blocks b used]
    rintro rfl
    exact away (.child outer) (by simp [FileSlot.path]) trivial points
  · rw [needs]
    rfl

/-- The file after a new child table has been filled and entered in the root table. -/
theorem Grown.of_newChild {child root : UInt32} {vol₁ : Volume} {disk₁ : Blocks} {roots : Pointers}
    (accounted : Accounted count vol disk [])
    (prepared : Prepared count vol vol₁ disk disk₁ [child, block]) (zero : disk₁ block = fun _ => 0)
    (empty : fileRef (vol.inodes ino) disk (.leaf outer inner) = none)
    (points : fileRef (vol.inodes ino) disk .root = some root)
    (emptyChild : fileRef (vol.inodes ino) disk (.child outer) = none)
    (entries : roots = (vol.inodes ino).rootTable disk) :
    Grown count vol vol₁ disk
      (Function.update (Function.update disk₁ child
        (pointersSector (Function.update emptyPointers inner block))) root
        (pointersSector (Function.update roots outer child))) ino (.leaf outer inner) block 0 := by
  have childInHand : child ∈ [child, block] := List.mem_cons_self
  have blockInHand : block ∈ [child, block] := by simp
  have needs := missing_leaf empty
  obtain ⟨pointsTo, present⟩ := pointer_eq_some.1 points
  have absent : (vol.inodes ino).rootTable disk outer = invalidBlock := pointer_eq_none.1 emptyChild
  rw [if_neg (pointsTo ▸ present), if_pos absent] at needs
  have inUse : vol.allocated root := accounted.allocated_of_fileRef points
  have stored := prepared.write childInHand
    (pointersSector (Function.update emptyPointers inner block))
  have rootTable : roots = (vol.inodes ino).rootTable disk₁ := by
    rw [entries, Inode.rootTable, Inode.rootTable, pointsTo, tableAt_of_ne present,
      tableAt_of_ne present, prepared.blocks root inUse]
  have distinct : root ≠ child := by
    rintro rfl
    exact prepared.fresh _ childInHand inUse
  refine Grown.of_linking stored
    (((Linking.start accounted stored ino (.leaf outer inner)).link emptyChild
      (by simp [FileSlot.path]) (prepared.fresh child childInHand)).link (t := .leaf outer inner) ?_
      (by simp [FileSlot.path]) (prepared.fresh block blockInHand)) rfl rfl
    (fun j away => ⟨by rw [prepared.inodes],
      stored.others_of_write accounted (.inr ⟨.root, points⟩) _ away⟩)
    (by rw [prepared.inodes]) ?_
    (Function.update_self ..) (prepared.fresh block blockInHand) ?_ (fun b used away => ?_) ?_
  · rw [Function.update_of_ne (by simp), empty]
  · have written := fileRef_writeRoot outer inner block emptyPointers roots present
      (prepared.ne_invalid childInHand) (prepared.ne_invalid blockInHand)
      (fun u => by
        rw [prepared.fileRef_eq accounted]
        exact prepared.apart accounted childInHand ino u)
      (fun u other => by
        rw [prepared.fileRef_eq accounted]
        exact accounted.apart_slot points other)
      distinct
      (by
        have : fileRef (vol.inodes ino) disk₁ (.child outer) = none := by
          rw [prepared.fileRef_eq accounted, emptyChild]
        rw [Inode.childTable, pointer_eq_none.1 this, tableAt_invalid])
      rootTable
    rw [prepared.fileRef_eq accounted, ← points, Function.update_eq_self, ← pointsTo] at written
    rw [prepared.inodes, ← pointsTo]
    exact written
  · have nodup := prepared.accounted.ledger.nodup
    rw [Function.update_of_ne, Function.update_of_ne, zero]
    · rintro rfl
      simp at nodup
    · rintro rfl
      exact prepared.fresh _ blockInHand inUse
  · rw [Function.update_of_ne, stored.blocks b used]
    rintro rfl
    exact away .root (by simp [FileSlot.path]) trivial points
  · rw [needs]
    rfl

/-- The file after a new root table and a new child table have been filled and linked. -/
theorem Grown.of_newRoot {child root : UInt32} {vol₁ : Volume} {disk₁ : Blocks}
    (accounted : Accounted count vol disk [])
    (prepared : Prepared count vol vol₁ disk disk₁ [child, root, block])
    (zero : disk₁ block = fun _ => 0)
    (empty : fileRef (vol.inodes ino) disk (.leaf outer inner) = none)
    (absent : (vol.inodes ino).doubleIndirectBlock = invalidBlock) :
    Grown count vol (vol₁.setInode ino { vol₁.inodes ino with doubleIndirectBlock := root }) disk
      (Function.update (Function.update disk₁ child
        (pointersSector (Function.update emptyPointers inner block))) root
        (pointersSector (Function.update emptyPointers outer child))) ino
      (.leaf outer inner) block 0 := by
  have childInHand : child ∈ [child, root, block] := List.mem_cons_self
  have rootInHand : root ∈ [child, root, block] := by simp
  have blockInHand : block ∈ [child, root, block] := by simp
  have nodup := prepared.accounted.ledger.nodup
  have needs := missing_leaf empty
  rw [if_pos absent] at needs
  have emptyRoot : fileRef (vol.inodes ino) disk .root = none := pointer_eq_none.2 absent
  have noRoots : ∀ d, (vol.inodes ino).rootTable d = emptyPointers := fun d => by
    rw [Inode.rootTable, absent, tableAt_invalid]
  have emptyChild : fileRef (vol.inodes ino) disk (.child outer) = none := by
    rw [fileRef, noRoots, emptyPointers, pointer_invalid]
  have stored := (prepared.write childInHand
    (pointersSector (Function.update emptyPointers inner block))).write rootInHand
    (pointersSector (Function.update emptyPointers outer child))
  have self : (vol₁.setInode ino
      { vol₁.inodes ino with doubleIndirectBlock := root }).inodes ino =
      { vol₁.inodes ino with doubleIndirectBlock := root } := Function.update_self ..
  have distinct : root ≠ child := by
    rintro rfl
    simp at nodup
  refine Grown.of_linking stored
    ((((Linking.start accounted stored ino (.leaf outer inner)).link emptyChild
      (by simp [FileSlot.path]) (prepared.fresh child childInHand)).link (t := .root) ?_
      (by simp [FileSlot.path]) (prepared.fresh root rootInHand)).link (t := .leaf outer inner) ?_
      (by simp [FileSlot.path]) (prepared.fresh block blockInHand)) rfl rfl
    (fun j away => ⟨?_, stored.fileRef_eq accounted j⟩)
    (by rw [self, ← prepared.inodes]) ?_
    (Function.update_self ..) (prepared.fresh block blockInHand) ?_
    (fun b used _ => stored.blocks b used) ?_
  · rw [Function.update_of_ne (by simp), emptyRoot]
  · rw [Function.update_of_ne (by simp), Function.update_of_ne (by simp), empty]
  · rw [Volume.setInode_inodes, Function.update_of_ne away, prepared.inodes]
  · have written := fileRef_writeRoot outer inner block emptyPointers emptyPointers
      (prepared.ne_invalid rootInHand)
      (prepared.ne_invalid childInHand) (prepared.ne_invalid blockInHand)
      (fun u => by
        rw [prepared.fileRef_eq accounted]
        exact prepared.apart accounted childInHand ino u)
      (fun u _ => by
        rw [prepared.fileRef_eq accounted]
        exact prepared.apart accounted rootInHand ino u)
      distinct
      (by
        rw [Inode.childTable, noRoots]
        exact (tableAt_invalid disk₁).symm)
      (noRoots disk₁).symm
    rw [self, prepared.inodes, written, prepared.fileRef_eq accounted]
    rw [Function.update_comm (show FileSlot.root ≠ .child outer by simp)]
  · rw [Function.update_of_ne, Function.update_of_ne, zero]
    · rintro rfl
      simp at nodup
    · rintro rfl
      simp at nodup
  · rw [needs]
    rfl

/-- The third case where the root table is there. -/
theorem exec_mapDouble_present (accounted : Accounted count vol disk [])
    (took : Took count vol vol' disk disk' [] block fun _ => 0)
    (empty : fileRef (vol.inodes ino) disk (.leaf outer inner) = none)
    (present : (vol.inodes ino).doubleIndirectBlock ≠ invalidBlock) :
    (∃ vol₂ disk₂, Grown count vol vol₂ disk disk₂ ino (.leaf outer inner) block 0 ∧
      Prog.exec (plainDevice count) (mapDouble ino outer inner block) (vol', disk') =
        (.ok (), vol₂, disk₂)) ∨
    ∃ vol₂ disk₂, Full vol vol₂ disk disk₂ (missing (vol.inodes ino) disk (.leaf outer inner)) ∧
      Prog.exec (plainDevice count) (mapDouble ino outer inner block) (vol', disk') =
        (.error .enospc, vol₂, disk₂) := by
  have prepared : Prepared count vol vol' disk disk' [block] := (Prepared.start accounted).take took
  have zero : disk' block = fun _ => 0 := by rw [took.blocks, Function.update_self]
  have points : fileRef (vol.inodes ino) disk .root = some (vol.inodes ino).doubleIndirectBlock :=
    pointer_of_ne present
  have needs := missing_leaf empty
  rw [if_neg present] at needs
  have inUse : vol.allocated (vol.inodes ino).doubleIndirectBlock :=
    accounted.allocated_of_fileRef points
  have inUse' : vol'.allocated (vol.inodes ino).doubleIndirectBlock :=
    (prepared.allocated _).2 (.inl inUse)
  have roots : tableAt disk' (vol.inodes ino).doubleIndirectBlock =
      (vol.inodes ino).rootTable disk := by
    rw [Inode.rootTable, tableAt_of_ne present, tableAt_of_ne present, prepared.blocks _ inUse]
  unfold mapDouble
  rw [Prog.exec_bind_ok (Prog.exec_get _ _)]
  dsimp only
  rw [prepared.inodes, Prog.exec_bind_ok (exec_tableOrNew_present present _)]
  dsimp only
  rw [Prog.exec_bind_ok (exec_pointersOf prepared.accounted inUse' _), roots]
  by_cases absent : (vol.inodes ino).rootTable disk outer = invalidBlock
  · -- a new child table is needed
    rw [if_pos absent] at needs
    have emptyChild : fileRef (vol.inodes ino) disk (.child outer) = none := pointer_eq_none.2 absent
    rw [absent]
    rcases exec_tableOrNew_absent took.accounted (by simp) with
      ⟨full, fails⟩ | ⟨child, vol₁, disk₁, took₁, returns⟩
    · refine .inr ⟨freeBlock vol' block, disk', ⟨took.undo, prepared.blocks, ?_⟩,
        Prog.exec_bind_error (fails _)⟩
      have := took.spent
      omega
    · have prepared₁ := prepared.take took₁
      have kept : disk₁ block = fun _ => 0 := by
        rw [took₁.blocks, Function.update_of_ne, zero]
        rintro rfl
        exact took₁.fresh (took.accounted.ledger.used_of_held List.mem_cons_self)
      refine .inl ⟨_, _, Grown.of_newChild accounted prepared₁ kept empty points emptyChild rfl, ?_⟩
      rw [Prog.exec_bind_ok (returns _)]
      dsimp only
      rw [Prog.exec_bind_ok (exec_pointersOf_new child _),
        Prog.exec_bind_ok (exec_storePointers (prepared₁.inVolume List.mem_cons_self) _ _),
        Prog.exec_bind_ok ((exec_when_true rfl _ _).trans
          (exec_storePointers (accounted.inVolume inUse) _ _)), exec_when_false (by decide)]
  · -- the child table is there
    have child : fileRef (vol.inodes ino) disk (.child outer) =
        some ((vol.inodes ino).rootTable disk outer) := pointer_of_ne absent
    have childInUse' : vol'.allocated ((vol.inodes ino).rootTable disk outer) :=
      (prepared.allocated _).2 (.inl (accounted.allocated_of_fileRef child))
    refine .inl ⟨_, _, Grown.of_child accounted prepared zero empty child, ?_⟩
    rw [Prog.exec_bind_ok (exec_tableOrNew_present absent _)]
    dsimp only
    rw [Prog.exec_bind_ok (exec_pointersOf prepared.accounted childInUse' _),
      Prog.exec_bind_ok (exec_storePointers (prepared.accounted.inVolume childInUse') _ _),
      Prog.exec_bind_ok (exec_when_false (by decide) _ _), exec_when_false (by decide)]

/-- The third case where a new root table is needed, and with it a new child table. -/
theorem exec_mapDouble_absent (accounted : Accounted count vol disk [])
    (took : Took count vol vol' disk disk' [] block fun _ => 0)
    (empty : fileRef (vol.inodes ino) disk (.leaf outer inner) = none)
    (absent : (vol.inodes ino).doubleIndirectBlock = invalidBlock) :
    (∃ vol₂ disk₂, Grown count vol vol₂ disk disk₂ ino (.leaf outer inner) block 0 ∧
      Prog.exec (plainDevice count) (mapDouble ino outer inner block) (vol', disk') =
        (.ok (), vol₂, disk₂)) ∨
    ∃ vol₂ disk₂, Full vol vol₂ disk disk₂ (missing (vol.inodes ino) disk (.leaf outer inner)) ∧
      Prog.exec (plainDevice count) (mapDouble ino outer inner block) (vol', disk') =
        (.error .enospc, vol₂, disk₂) := by
  have prepared : Prepared count vol vol' disk disk' [block] := (Prepared.start accounted).take took
  have zero : disk' block = fun _ => 0 := by rw [took.blocks, Function.update_self]
  have blockUsed := took.accounted.ledger.used_of_held (b := block) List.mem_cons_self
  have needs := missing_leaf empty
  rw [if_pos absent] at needs
  have spent := took.spent
  unfold mapDouble
  rw [Prog.exec_bind_ok (Prog.exec_get _ _)]
  dsimp only
  rw [prepared.inodes, absent]
  rcases exec_tableOrNew_absent took.accounted (by simp) with
    ⟨full, fails⟩ | ⟨root, vol₁, disk₁, took₁, returns⟩
  · refine .inr ⟨freeBlock vol' block, disk', ⟨took.undo, prepared.blocks, by omega⟩,
      Prog.exec_bind_error (fails _)⟩
  have prepared₁ := prepared.take took₁
  have kept₁ : disk₁ block = fun _ => 0 := by
    rw [took₁.blocks, Function.update_of_ne, zero]
    rintro rfl
    exact took₁.fresh blockUsed
  have spent₁ := took₁.spent
  have blockUsed₁ := took₁.accounted.ledger.used_of_held (b := block) (by simp)
  rw [Prog.exec_bind_ok (returns _)]
  dsimp only
  rw [Prog.exec_bind_ok (exec_pointersOf_new root _)]
  rw [show emptyPointers outer = invalidBlock from rfl]
  rcases exec_tableOrNew_absent took₁.accounted (by simp) with
    ⟨full, fails⟩ | ⟨child, vol₂, disk₂, took₂, returns₂⟩
  · refine .inr ⟨freeBlock (freeBlock vol₁ block) root, disk₁,
      ⟨took.undo_two took₁, prepared₁.blocks, by omega⟩, Prog.exec_bind_error (fails _)⟩
  have prepared₂ := prepared₁.take took₂
  have kept₂ : disk₂ block = fun _ => 0 := by
    rw [took₂.blocks, Function.update_of_ne, kept₁]
    rintro rfl
    exact took₂.fresh blockUsed₁
  refine .inl ⟨_, _, Grown.of_newRoot accounted prepared₂ kept₂ empty absent, ?_⟩
  rw [Prog.exec_bind_ok (returns₂ _)]
  dsimp only
  rw [Prog.exec_bind_ok (exec_pointersOf_new child _),
    Prog.exec_bind_ok (exec_storePointers (prepared₂.inVolume List.mem_cons_self) _ _),
    Prog.exec_bind_ok ((exec_when_true rfl _ _).trans
      (exec_storePointers (prepared₂.inVolume (by simp)) _ _)),
    exec_when_true rfl, exec_modifyInode]

end Double

/-- `mapBlock` fills the slot of the logical block, or finds too little space. -/
theorem exec_mapBlock (accounted : Accounted count vol disk [])
    (took : Took count vol vol' disk disk' [] block fun _ => 0) {logicalBlock : Nat}
    (empty : fileRef (vol.inodes ino) disk (place logicalBlock) = none) :
    (∃ vol₂ disk₂, Grown count vol vol₂ disk disk₂ ino (place logicalBlock) block 0 ∧
      Prog.exec (plainDevice count) (mapBlock ino logicalBlock block) (vol', disk') =
        (.ok (), vol₂, disk₂)) ∨
    ∃ vol₂ disk₂, Full vol vol₂ disk disk₂ (missing (vol.inodes ino) disk (place logicalBlock)) ∧
      Prog.exec (plainDevice count) (mapBlock ino logicalBlock block) (vol', disk') =
        (.error .enospc, vol₂, disk₂) := by
  unfold place at empty ⊢
  unfold mapBlock
  by_cases inDirect : logicalBlock < 20
  · simp only [if_pos inDirect] at empty ⊢
    obtain ⟨vol₂, grown, returns⟩ := exec_mapDirect accounted
      ((Prepared.start accounted).take took) (by rw [took.blocks, Function.update_self]) empty
    exact .inl ⟨vol₂, disk', grown, returns⟩
  by_cases inSingle : logicalBlock - 20 < 1024
  · simp only [if_neg inDirect, if_pos inSingle] at empty ⊢
    exact exec_mapSingle accounted took empty
  · simp only [if_neg inDirect, if_neg inSingle] at empty ⊢
    by_cases absent : (vol.inodes ino).doubleIndirectBlock = invalidBlock
    · exact exec_mapDouble_absent accounted took empty absent
    · exact exec_mapDouble_present accounted took empty absent

end Mapping

/-! ## Allocating a file block -/

theorem fileRef_blockCount (inode : Inode) (disk : Blocks) (blockCount : UInt32) :
    fileRef { inode with blockCount } disk = fileRef inode disk := by
  funext s
  cases s <;> rfl

theorem path_isData {s t : FileSlot} (onPath : t ∈ s.path) (isData : t.IsData) : t = s := by
  cases s with
  | direct i => simpa [FileSlot.path] using onPath
  | single => simpa [FileSlot.path] using onPath
  | root => simpa [FileSlot.path] using onPath
  | entry i =>
    rcases (by simpa [FileSlot.path] using onPath : t = .single ∨ t = .entry i) with rfl | rfl
    · exact isData.elim
    · rfl
  | child outer =>
    rcases (by simpa [FileSlot.path] using onPath : t = .root ∨ t = .child outer) with rfl | rfl
    · exact isData.elim
    · rfl
  | leaf outer inner =>
    rcases (by simpa [FileSlot.path] using onPath :
      t = .root ∨ t = .child outer ∨ t = .leaf outer inner) with rfl | rfl | rfl
    · exact isData.elim
    · exact isData.elim
    · rfl

theorem mappedSlots_card_le (inode : Inode) (disk : Blocks) :
    (mappedSlots inode disk).card ≤ 2 ^ 21 := by
  have bound := Finset.card_le_univ (mappedSlots inode disk)
  have := card_fileSlot_le
  omega

section Growing

variable {vol' : Volume} {disk' : Blocks} {ino : Fin 64} {s : FileSlot} {block n : UInt32}

/-- A grown file has one mapped data slot more. -/
theorem Grown.mappedSlots_card (grown : Grown count vol vol' disk disk' ino s block n)
    (isData : s.IsData) (empty : fileRef (vol.inodes ino) disk s = none) :
    (mappedSlots (vol'.inodes ino) disk').card =
      (mappedSlots (vol.inodes ino) disk).card + 1 := by
  have absent : s ∉ mappedSlots (vol.inodes ino) disk := by
    rw [mem_mappedSlots]
    exact fun both => both.2 empty
  rw [← Finset.card_insert_of_notMem absent]
  congr 1
  ext t
  rw [Finset.mem_insert, mem_mappedSlots, mem_mappedSlots]
  constructor
  · rintro ⟨data, points⟩
    obtain ⟨b, points⟩ := Option.ne_none_iff_exists'.1 points
    rcases grown.added t b points with before | ⟨onPath, _⟩
    · exact .inr ⟨data, by simp [before]⟩
    · exact .inl (path_isData onPath data)
  · rintro (rfl | ⟨data, points⟩)
    · exact ⟨isData, by simp [grown.here]⟩
    · obtain ⟨b, points⟩ := Option.ne_none_iff_exists'.1 points
      exact ⟨data, by simp [grown.kept t b points]⟩

/-- Only the slots of the grown file have changed. -/
theorem Grown.others_eq (grown : Grown count vol vol' disk disk' ino s block n)
    (accounted : Accounted count vol disk []) {j : Fin 64} (other : j ≠ ino) :
    fileRef (vol.inodes j) disk' = fileRef (vol.inodes j) disk := by
  funext t
  refine fileRef_congr (fun u _ b points => ?_) t
  refine grown.blocks b (accounted.allocated_of_fileRef points) fun v _ _ too => ?_
  exact other (congrArg Prod.fst
    (accounted.ledger.injective (s := (j, u)) (t := (ino, v)) points too))

/-- Counting the new block. -/
theorem Grown.count_block (grown : Grown count vol vol' disk disk' ino s block 0) :
    Grown count vol (vol'.setInode ino
      { vol'.inodes ino with blockCount := (vol'.inodes ino).blockCount + 1 }) disk disk' ino s
      block 1 := by
  let vol₂ := vol'.setInode ino
    { vol'.inodes ino with blockCount := (vol'.inodes ino).blockCount + 1 }
  have self : vol₂.inodes ino =
      { vol'.inodes ino with blockCount := (vol'.inodes ino).blockCount + 1 } :=
    Function.update_self ..
  have other : ∀ j, j ≠ ino → vol₂.inodes j = vol'.inodes j :=
    fun j away => Function.update_of_ne away ..
  have refs : fileRef (vol₂.inodes ino) disk' = fileRef (vol'.inodes ino) disk' := by
    rw [self, fileRef_blockCount]
  have inode := grown.inode
  have blockCount := grown.blockCount
  refine ⟨grown.accounted.relink rfl rfl ?_, grown.sb, fun j away => ?_, ?_, ?_, ?_, ?_, ?_, grown.fresh, grown.zero, grown.blocks,
    grown.spent⟩
  · refine grown.accounted.ledger.congr (fun slot => ?_) fun _ => Iff.rfl
    by_cases file : slot.1 = ino
    · rw [ref, ref, file]
      exact congrFun refs slot.2
    · rw [ref, ref]
      exact congrArg (fileRef · disk' slot.2) (other slot.1 file)
  · rw [← grown.others j away]
    exact other j away
  · change vol₂.inodes ino = { vol.inodes ino with
      blockCount := (vol₂.inodes ino).blockCount
      direct := (vol₂.inodes ino).direct
      indirectBlock := (vol₂.inodes ino).indirectBlock
      doubleIndirectBlock := (vol₂.inodes ino).doubleIndirectBlock }
    rw [self, inode]
  · change (vol₂.inodes ino).blockCount = _
    rw [self]
    dsimp only
    rw [blockCount, UInt32.add_zero]
  · exact (congrFun refs s).trans grown.here
  · intro t b points
    exact (congrFun refs t).trans (grown.kept t b points)
  · intro t b points
    exact grown.added t b ((congrFun refs t).symm.trans points)

theorem Grown.counted (grown : Grown count vol vol' disk disk' ino s block 1)
    (accounted : Accounted count vol disk []) (counted : Counted vol disk) (isData : s.IsData)
    (empty : fileRef (vol.inodes ino) disk s = none) : Counted vol' disk' := by
  intro j
  by_cases file : j = ino
  · subst file
    have bound := mappedSlots_card_le (vol.inodes j) disk
    have sum : ((vol.inodes j).blockCount + 1).toNat = (vol.inodes j).blockCount.toNat + 1 := by
      have before := counted j
      have wraps : ((vol.inodes j).blockCount + 1).toNat =
          ((vol.inodes j).blockCount.toNat + 1) % 2 ^ 32 := UInt32.toNat_add _ _
      omega
    rw [grown.mappedSlots_card isData empty, grown.blockCount, sum, counted j]
  · have same : mappedSlots (vol.inodes j) disk' = mappedSlots (vol.inodes j) disk := by
      unfold mappedSlots
      rw [grown.others_eq accounted file]
    rw [grown.others j file, same, counted j]

/-- `allocate_file_data_block` on a hole: the block and the tables it needs are mapped, or there
is too little space for them and nothing in use changes. -/
theorem exec_allocateFileDataBlock (accounted : Accounted count vol disk [])
    (counted : Counted vol disk) {logicalBlock : Nat} (small : logicalBlock < maxFileBlocks)
    (empty : fileRef (vol.inodes ino) disk (place logicalBlock) = none) :
    (∃ vol' disk' block, Grown count vol vol' disk disk' ino (place logicalBlock) block 1 ∧
      Counted vol' disk' ∧
      Prog.exec (plainDevice count) (allocateFileDataBlock ino logicalBlock) (vol, disk) =
        (.ok block, vol', disk')) ∨
    ∃ vol' disk', Full vol vol' disk disk'
        (missing (vol.inodes ino) disk (place logicalBlock)) ∧
      Prog.exec (plainDevice count) (allocateFileDataBlock ino logicalBlock) (vol, disk) =
        (.error .enospc, vol', disk') := by
  have positive : 0 < missing (vol.inodes ino) disk (place logicalBlock) := by
    refine List.countP_pos_iff.2 ⟨place logicalBlock, ?_, by rw [empty]; rfl⟩
    cases place logicalBlock <;> simp [FileSlot.path]
  unfold allocateFileDataBlock
  rw [Prog.exec_bind_ok (Prog.exec_get _ _),
    Prog.exec_bind_ok (exec_getFileDataBlock accounted rfl small), empty]
  rw [if_neg (show ¬blockNumber none ≠ invalidBlock from not_not_intro rfl)]
  rcases exec_allocateFilled accounted (by simp) fun _ => 0 with
    ⟨full, fails⟩ | ⟨block, vol₁, disk₁, took, returns⟩
  · exact .inr ⟨vol, disk, ⟨⟨vol.bitmapDirty, rfl⟩, fun _ _ => rfl, by omega⟩,
      Prog.exec_bind_error fails⟩
  have returns : Prog.exec (plainDevice count) allocateZeroedDataBlock (vol, disk) =
      (.ok block, vol₁, disk₁) := returns
  rw [Prog.exec_bind_ok returns]
  rcases exec_mapBlock accounted took empty with
    ⟨vol₂, disk₂, grown, maps⟩ | ⟨vol₂, disk₂, full, fails⟩
  · refine .inl ⟨_, disk₂, block, grown.count_block,
      grown.count_block.counted accounted counted (place_isData logicalBlock) empty, ?_⟩
    rw [Prog.exec_bind_ok maps, Prog.exec_bind_ok (exec_modifyInode _ _)]
    rfl
  · exact .inr ⟨vol₂, disk₂, full, Prog.exec_bind_error fails⟩

end Growing

end DenyFS
