import DenyFS.Library.Settles
import DenyFS.Verified.BlockMapLaw

/-! # Failed allocations

`allocate_file_data_block` takes up to three blocks before it links the first of them, and any
of its reads and writes may fail.  The blocks it has taken are lent to it: every exit gives back
just those, whatever was written into them. -/

namespace DenyFS

open Packed BlockProgram Ownership

variable {count : Nat} {vol vol' : Volume} {blocks blocks' : Blocks} {held : List UInt32}
  {block : UInt32}

/-- Free blocks of `vol` have been taken, no other bit has changed and nothing in use was
written. -/
structure Lent (count : Nat) (vol : Volume) (blocks : Blocks) (held : List UInt32)
    (vol' : Volume) (blocks' : Blocks) : Prop extends
    Prepared count vol vol' blocks blocks' held where
  bits : ∀ i, vol'.bit i = (vol.bit i || decide (i ∈ held.map UInt32.toNat))

namespace Lent

theorem start (accounted : Accounted count vol blocks []) : Lent count vol blocks [] vol blocks :=
  { Prepared.start accounted with bits := by simp }

/-- A free block is taken; what it contains stays for now. -/
theorem take (lent : Lent count vol blocks held vol' blocks')
    (inData : block.toNat ∈ vol'.dataBlocks) (clear : vol'.bit block.toNat = false) :
    Lent count vol blocks (block :: held) (vol'.takeBlock block.toNat) blocks' := by
  have same : Function.update blocks' block (blocks' block) = blocks' :=
    Function.update_eq_self block blocks'
  obtain ⟨accounted, spent⟩ := lent.accounted.take inData clear (blocks' block)
  rw [same] at accounted
  have fresh : ¬vol'.allocated block := by
    rw [Volume.allocated_iff, clear]
    simp
  have took : Took count vol' (vol'.takeBlock block.toNat) blocks' blocks' held block
      (blocks' block) := ⟨fresh, clear, rfl, same.symm, accounted, spent⟩
  refine { lent.toPrepared.take took with bits := fun i => ?_ }
  rw [Volume.takeBlock_bit, lent.bits, List.map_cons, Bool.or_assoc]
  simp [Bool.or_comm]

/-- A block on loan is filled. -/
theorem write (lent : Lent count vol blocks held vol' blocks') (inHand : block ∈ held)
    (data : Sector) : Lent count vol blocks held vol' (Function.update blocks' block data) :=
  { lent.toPrepared.write inHand data with bits := lent.bits }

theorem perm (lent : Lent count vol blocks held vol' blocks') {held' : List UInt32}
    (reordered : held'.Perm held) : Lent count vol blocks held' vol' blocks' :=
  { lent with
    accounted := lent.accounted.perm reordered
    allocated := fun b => by rw [lent.allocated, reordered.mem_iff]
    fresh := fun b inHand => lent.fresh b (reordered.mem_iff.1 inHand)
    spent := by rw [reordered.length_eq]; exact lent.spent
    bits := fun i => by simp only [lent.bits, (reordered.map UInt32.toNat).mem_iff] }

/-- The block on top is given back. -/
theorem giveBack (lent : Lent count vol blocks (block :: held) vol' blocks') :
    Lent count vol blocks held (freeBlock vol' block) blocks' := by
  obtain ⟨accounted, more⟩ := lent.accounted.giveBack
  have inUse := lent.accounted.ledger.used_of_held (b := block) List.mem_cons_self
  have once := (List.nodup_cons.1 lent.accounted.ledger.nodup).1
  have own : ¬vol.allocated block := lent.fresh block List.mem_cons_self
  have clear : vol.bit block.toNat = false := by
    -- its range is that of `vol`, so it is the bit that is off
    obtain ⟨lower, upper, _⟩ := inUse
    rw [lent.sb] at lower upper
    cases bit : vol.bit block.toNat with
    | false => rfl
    | true => exact absurd ⟨lower, upper, bit⟩ own
  rw [freeBlock_of_allocated inUse] at accounted more ⊢
  constructor
  · constructor
    · exact accounted
    · exact lent.inodes
    · have before := lent.sb
      change { vol'.sb with freeBlocks := vol'.sb.freeBlocks + 1 } = _
      rw [before]
      rfl
    · intro b
      rw [Volume.releaseBlock_allocated block.toNat_lt, UInt32.ofNat_toNat, lent.allocated,
        List.mem_cons]
      constructor
      · intro both
        exact both.1.imp_right fun inHand => inHand.resolve_left both.2
      · intro either
        apply And.intro (either.imp_right .inr)
        intro same
        subst same
        exact either.elim own once
    · intro b inHand
      exact lent.fresh b (List.mem_cons_of_mem block inHand)
    · exact lent.blocks
    · have before := lent.spent
      rw [List.length_cons] at before
      omega
  · intro i
    rw [Volume.releaseBlock_bit, lent.bits, List.map_cons]
    by_cases here : i = block.toNat
    · subst here
      have apart : block.toNat ∉ held.map UInt32.toNat := by
        intro member
        obtain ⟨b, inHand, same⟩ := List.mem_map.1 member
        exact once (UInt32.toNat_inj.1 same ▸ inHand)
      simp [clear, apart]
    · simp [here]

/-- All blocks on loan are given back, in any order. -/
theorem giveBackAll (lent : Lent count vol blocks held vol' blocks') {order : List UInt32}
    (all : order.Perm held) : Lent count vol blocks [] (order.foldl freeBlock vol') blocks' := by
  have ordered := lent.perm all
  clear lent all
  induction order generalizing vol' with
  | nil => exact ordered
  | cons block rest ih => exact ih ordered.giveBack

/-- How the allocator undoes its loans: the data block, which it took first, and then the
tables. -/
theorem undo (tables : List UInt32) {dataBlock : UInt32}
    (lent : Lent count vol blocks (tables ++ [dataBlock]) vol' blocks') :
    Lent count vol blocks [] (tables.foldl freeBlock (freeBlock vol' dataBlock)) blocks' :=
  lent.giveBackAll (List.perm_append_comm : ([dataBlock] ++ tables).Perm (tables ++ [dataBlock]))

/-- With nothing on loan the volume is as it was, but for what is marked dirty. -/
theorem settled (lent : Lent count vol blocks [] vol' blocks') :
    vol'.bitmap = vol.bitmap ∧ vol'.sb = vol.sb ∧ vol'.inodes = vol.inodes := by
  have free : vol'.sb.freeBlocks = vol.sb.freeBlocks := by
    have same := lent.spent
    exact UInt32.toNat_inj.1 same.symm
  refine ⟨bitmap_ext fun i => ?_, ?_, lent.inodes⟩
  · have same := lent.bits i
    simp at same
    exact same
  · rw [lent.sb, free]

end Lent

/-! ## The steps of the allocator -/

section Steps

variable {δ : Type} {device : Device δ UInt32 Sector Errno} {inside : UInt32 → Prop}
  {sound : δ → Prop} {view : δ → UInt32 → Sector}
  (storage : Storage device inside sound view)
include storage

/-- A block is taken and filled, or the loans are what they were. -/
theorem settles_allocateFilled (few : held.length ≤ 2) (contents : Sector) :
    Settles device sound view (Lent count vol blocks held) (allocateFilled contents)
      (fun block => Lent count vol blocks (block :: held)) fun _ => Lent count vol blocks held := by
  have takes : Settles device sound view (Lent count vol blocks held) (modifyGet allocBlock : Op Int)
      (fun number vol' blocks' => (number < 0 ∧ Lent count vol blocks held vol' blocks') ∨
        ∃ block : UInt32, number = (block.toNat : Int) ∧
          Lent count vol blocks (block :: held) vol' blocks')
      fun _ => Lent count vol blocks held := by
    apply Settles.modifyGet
    intro vol' blocks' lent
    cases lent.accounted.allocBlock_cases few with
    | inl full =>
      rw [full.2]
      exact .inl ⟨Int.negSucc_lt_zero 0, lent⟩
    | inr some =>
      obtain ⟨block, takes, inData, clear⟩ := some
      rw [takes]
      exact .inr ⟨block, rfl, lent.take inData clear⟩
  apply takes.bind
  intro number
  split
  next negative =>
    apply Settles.throw
    intro vol' blocks' outcome
    cases outcome with
    | inl full => exact full.2
    | inr some =>
      obtain ⟨block, same, _⟩ := some
      omega
  next taken =>
    -- the block is in hand until the write has failed
    have fills : Settles device sound view
        (Lent count vol blocks (UInt32.ofNat number.toNat :: held))
        ((writeBlock (UInt32.ofNat number.toNat) contents).elseThrow .eio)
        (fun _ => Lent count vol blocks (UInt32.ofNat number.toNat :: held))
        fun _ => Lent count vol blocks (UInt32.ofNat number.toNat :: held) := by
      apply Settles.elseThrow _ fun _ _ _ lent => lent
      apply Settles.writeAt storage
      · intro vol' blocks' lent _
        exact lent.write List.mem_cons_self contents
      · intro _ _ _ lent
        exact lent
    apply Settles.bind
    · apply (fills.rollback fun _ _ _ lent => lent.giveBack).given
      intro vol' blocks' outcome
      cases outcome with
      | inl full => exact absurd full.1 taken
      | inr some =>
        obtain ⟨block, same, lent⟩ := some
        rw [same, Int.toNat_natCast, UInt32.ofNat_toNat]
        exact lent
    · intro _
      exact Settles.pure fun _ _ lent => lent

/-- A new table is on loan as well; where none could be had, the loans are undone. -/
theorem settles_tableOrNew (few : held.length ≤ 2) (table : UInt32) {undo : Volume → Volume}
    (undone : ∀ vol' blocks', Lent count vol blocks held vol' blocks' →
      Lent count vol blocks [] (undo vol') blocks') :
    Settles device sound view (Lent count vol blocks held) (tableOrNew table undo)
      (fun outcome => Lent count vol blocks (if outcome.2 then outcome.1 :: held else held))
      fun _ => Lent count vol blocks [] := by
  unfold tableOrNew
  split
  · apply Settles.bind ((settles_allocateFilled storage few _).rollback fun _ => undone)
    intro block
    exact Settles.pure fun _ _ lent => lent
  · exact Settles.pure fun _ _ lent => lent

variable (held) in
/-- Where a table cannot be read the loans are undone; a new one is not read. -/
theorem settles_pointersOf (table : UInt32) (fresh : Bool) {undo : Volume → Volume}
    (undone : fresh = false → ∀ vol' blocks', Lent count vol blocks held vol' blocks' →
      Lent count vol blocks [] (undo vol') blocks') :
    Settles device sound view (Lent count vol blocks held) (pointersOf table fresh undo)
      (fun _ => Lent count vol blocks held) fun _ => Lent count vol blocks [] := by
  unfold pointersOf
  cases fresh with
  | true => exact Settles.pure fun _ _ lent => lent
  | false =>
    have reads := Settles.ofPassive (Lent count vol blocks held) storage
      ((readPointerTable_simple table).passive.elseThrow .eio)
    exact reads.rollback fun _ => undone rfl

/-- A table is written, or the loans are undone.  The table may be one in use: a write that fails
has changed nothing. -/
theorem settles_storePointers (table : UInt32) (pointers : Pointers) {undo : Volume → Volume}
    (undone : ∀ vol' blocks', Lent count vol blocks held vol' blocks' →
      Lent count vol blocks [] (undo vol') blocks') :
    Settles device sound view (Lent count vol blocks held) (storePointers table pointers undo)
      (fun _ vol' blocks' => table ∈ held → Lent count vol blocks held vol' blocks')
      fun _ => Lent count vol blocks [] := by
  have stores : Settles device sound view (Lent count vol blocks held)
      ((writeBlock table (pointersSector pointers)).elseThrow .eio)
      (fun _ vol' blocks' => table ∈ held → Lent count vol blocks held vol' blocks')
      fun _ => Lent count vol blocks held := by
    apply Settles.elseThrow _ fun _ _ _ lent => lent
    apply Settles.writeAt storage
    · intro vol' blocks' lent _ inHand
      exact lent.write inHand _
    · intro _ _ _ lent
      exact lent
  exact stores.rollback fun _ => undone

/-- The second case of the allocator, with the data block in hand. -/
theorem settles_mapSingle (ino : Fin 64) (i : Fin 1024) (dataBlock : UInt32) :
    Settles device sound view (Lent count vol blocks [dataBlock]) (mapSingle ino i dataBlock)
      (fun _ _ _ => True) fun _ => Lent count vol blocks [] := by
  apply Settles.get_bind
  intro vol₀
  have undoData : ∀ vol' blocks', Lent count vol blocks [dataBlock] vol' blocks' →
      Lent count vol blocks [] (freeBlock vol' dataBlock) blocks' := fun _ _ lent => lent.giveBack
  have tables := settles_tableOrNew storage (by simp)
    (vol₀.inodes ino).indirectBlock undoData
  apply Settles.bind (tables.given fun _ _ same => same.2)
  intro table
  obtain ⟨tableBlock, newTable⟩ := table
  cases newTable with
  | false =>
    apply Settles.bind (settles_pointersOf [dataBlock] storage tableBlock false fun _ => undoData)
    intro pointers
    apply Settles.bind (settles_storePointers storage tableBlock _ undoData)
    intro _
    exact Settles.when (fun new => by cases new) fun _ _ _ _ => trivial
  | true =>
    -- the new table is given back after the data block
    have undoBoth : ∀ vol' blocks', Lent count vol blocks [tableBlock, dataBlock] vol' blocks' →
        Lent count vol blocks [] (freeBlock (freeBlock vol' dataBlock) tableBlock) blocks' :=
      fun _ _ => .undo [tableBlock]
    apply Settles.bind (settles_pointersOf [tableBlock, dataBlock] storage tableBlock true
      fun impossible => by cases impossible)
    intro pointers
    apply Settles.bind (settles_storePointers storage tableBlock _ undoBoth)
    intro _
    exact Settles.when (fun _ => Settles.modify fun _ _ _ => trivial) fun _ _ _ _ => trivial

/-- The third case: the tables taken are those of `new`, the root below the child. -/
theorem settles_mapDouble (ino : Fin 64) (outer inner : Fin 1024) (dataBlock : UInt32) :
    Settles device sound view (Lent count vol blocks [dataBlock])
      (mapDouble ino outer inner dataBlock) (fun _ _ _ => True) fun _ => Lent count vol blocks [] := by
  apply Settles.get_bind
  intro vol₀
  have undoData : ∀ vol' blocks', Lent count vol blocks [dataBlock] vol' blocks' →
      Lent count vol blocks [] (freeBlock vol' dataBlock) blocks' := fun _ _ lent => lent.giveBack
  have rootTables := settles_tableOrNew storage (by simp)
    (vol₀.inodes ino).doubleIndirectBlock undoData
  apply Settles.bind (rootTables.given fun _ _ same => same.2)
  intro table
  obtain ⟨rootBlock, newRoot⟩ := table
  have few : (if newRoot then [rootBlock, dataBlock] else [dataBlock]).length ≤ 2 := by
    cases newRoot <;> simp
  have undoRoot : ∀ vol' blocks',
      Lent count vol blocks (if newRoot then [rootBlock, dataBlock] else [dataBlock]) vol' blocks' →
      Lent count vol blocks [] (if newRoot then freeBlock (freeBlock vol' dataBlock) rootBlock
        else freeBlock vol' dataBlock) blocks' := by
    intro vol' blocks' lent
    cases newRoot with
    | true => exact .undo [rootBlock] lent
    | false => exact .undo [] lent
  apply Settles.bind (settles_pointersOf
    (if newRoot then [rootBlock, dataBlock] else [dataBlock]) storage rootBlock newRoot
    fun present _ _ lent => undoData _ _ (by simpa [present] using lent))
  intro roots
  apply Settles.bind (settles_tableOrNew storage few (roots outer) undoRoot)
  intro table
  obtain ⟨childBlock, newChild⟩ := table
  generalize taken : (if newChild then childBlock :: _ else _) = held
  apply Settles.bind (settles_pointersOf held storage childBlock newChild fun present _ _ lent =>
    undoRoot _ _ (by simpa [← taken, present] using lent))
  intro pointers
  -- the source gives back the data block first, then the child and the root
  have undoChild : ∀ vol' blocks', Lent count vol blocks held vol' blocks' →
      Lent count vol blocks []
        (if newRoot then
          freeBlock (if newChild then freeBlock (freeBlock vol' dataBlock) childBlock
            else freeBlock vol' dataBlock) rootBlock
        else if newChild then freeBlock (freeBlock vol' dataBlock) childBlock
        else freeBlock vol' dataBlock) blocks' := by
    intro vol' blocks' lent
    subst taken
    cases newRoot with
    | true =>
      cases newChild with
      | true => exact .undo [childBlock, rootBlock] lent
      | false => exact .undo [rootBlock] lent
    | false =>
      cases newChild with
      | true => exact .undo [childBlock] lent
      | false => exact .undo [] lent
  apply Settles.bind (settles_storePointers storage childBlock _ undoChild)
  intro _
  have linked : ∀ pointers : Pointers, Settles device sound view
      (fun vol' blocks' => childBlock ∈ held → Lent count vol blocks held vol' blocks')
      (Prog.when (newChild = true) (storePointers rootBlock pointers fun vol =>
        let vol := freeBlock (freeBlock vol dataBlock) childBlock
        if newRoot then freeBlock vol rootBlock else vol))
      (fun _ _ _ => True) fun _ => Lent count vol blocks [] := by
    intro pointers
    apply Settles.when
    · intro new
      subst new
      have inHand : childBlock ∈ held := by simp [← taken]
      apply (settles_storePointers storage rootBlock _ undoChild).mono
      · intro _ _ lent
        exact lent inHand
      · intro _ _ _ _
        trivial
      · intro _ _ _ lent
        exact lent
    · intro _ _ _ _
      trivial
  apply Settles.bind (linked _)
  intro _
  exact Settles.when (fun _ => Settles.modify fun _ _ _ => trivial) fun _ _ _ _ => trivial

/-- A failure leaves nothing on loan, wherever it happens. -/
theorem settles_allocateFileDataBlock (ino : Fin 64) (l : Nat) :
    Settles device sound view (Lent count vol blocks []) (allocateFileDataBlock ino l)
      (fun _ _ _ => True) fun _ => Lent count vol blocks [] := by
  apply Settles.get_bind
  intro vol₀
  have looks := Settles.ofPassive (Lent count vol blocks []) storage
    (getFileDataBlock_simple (vol₀.inodes ino) l).passive
  apply Settles.bind (looks.given fun _ _ same => same.2)
  intro existing
  split
  · exact Settles.pure fun _ _ _ => trivial
  · apply Settles.bind (settles_allocateFilled storage (by simp) _)
    intro dataBlock
    have maps : Settles device sound view (Lent count vol blocks [dataBlock])
        (mapBlock ino l dataBlock) (fun _ _ _ => True) fun _ => Lent count vol blocks [] := by
      unfold mapBlock
      split
      · exact Settles.modify fun _ _ _ => trivial
      split
      · exact settles_mapSingle storage ino _ dataBlock
      · exact settles_mapDouble storage ino _ _ dataBlock
    apply Settles.bind maps
    intro _
    have counts : Settles device sound view (fun _ _ => True)
        (modifyInode ino fun inode => { inode with blockCount := inode.blockCount + 1 })
        (fun _ _ _ => True) fun _ => Lent count vol blocks [] := Settles.modify fun _ _ _ => trivial
    exact counts.bind fun _ => Settles.pure fun _ _ _ => trivial

end Steps

/-! ## On the container -/

variable {crypto : Crypto} {mount : Mount} {disk disk' : Disk} {ino : Fin 64} {l : Nat}

/-- Where `allocate_file_data_block` fails, for want of space or because a read or a write
failed, the bitmap, the superblock and every inode are what they were, and every lookup finds
what it found before. -/
theorem failed_allocation_leaves_no_trace (roundTrip : crypto.SectorRoundTrip)
    (holds : Holds crypto mount vol disk) {error : Errno}
    (fails : Prog.exec (volumeDevice crypto mount) (allocateFileDataBlock ino l) (vol, disk) =
      (.error error, vol', disk')) :
    vol'.bitmap = vol.bitmap ∧ vol'.sb = vol.sb ∧ vol'.inodes = vol.inodes ∧
      ∀ j l', foundBlock crypto mount vol' disk' j l' = foundBlock crypto mount vol disk j l' := by
  have accounted := holds.sound.accounted
  obtain ⟨_, lent⟩ :=
    (settles_allocateFileDataBlock (volumeDevice_storage mount roundTrip) ino l).of_error
      holds.placed (Lent.start accounted) fails
  obtain ⟨bitmap, sb, inodes⟩ := lent.settled
  refine ⟨bitmap, sb, inodes, fun j l' => ?_⟩
  apply foundBlock_congr accounted lent.accounted
  intro _
  unfold Inode.mapped
  rw [inodes, lent.fileRef_eq accounted]

variable (crypto mount) in
/-- No write succeeds where the next I/O call fails. -/
theorem write_faulty (faulty : disk.ioFails = true) (block : UInt32) (data : Sector) :
    ∃ error, ((volumeDevice crypto mount).write block data disk).1 = .error error := by
  simp only [volumeDevice, writeBlockAt]
  split
  · exact ⟨_, rfl⟩
  split
  · exact ⟨_, rfl⟩
  split
  · exact ⟨_, rfl⟩
  · simp [writeStatus, Disk.fwrite, faulty]

variable (crypto mount) in
/-- So no block is allocated there. -/
theorem allocateFilled_faulty (faulty : disk.ioFails = true) (vol : Volume) (contents : Sector) :
    ∃ error state, Prog.exec (volumeDevice crypto mount) (allocateFilled contents) (vol, disk) =
      (.error error, state) := by
  have taken : Prog.exec (volumeDevice crypto mount) (modifyGet allocBlock : Op Int) (vol, disk) =
      (.ok (allocBlock vol).1, (allocBlock vol).2, disk) := rfl
  unfold allocateFilled
  rw [Prog.exec_bind_ok taken]
  split
  · exact ⟨_, _, rfl⟩
  next index =>
    obtain ⟨error, refused⟩ :=
      write_faulty crypto mount faulty (UInt32.ofNat (allocBlock vol).1.toNat) contents
    have request := Prog.exec_writeAt (volumeDevice crypto mount) ((allocBlock vol).2, disk)
      (UInt32.ofNat (allocBlock vol).1.toNat) contents
    rw [refused] at request
    exact ⟨_, _, Prog.exec_bind_error
      (Prog.exec_rollback_error (Prog.exec_elseThrow_error request _) _)⟩

/-- The first block of the first file of a small container, where the next I/O call fails. -/
theorem failed_allocation_leaves_no_trace_small :
    ∃ disk vol, ∃ ino : Fin 64, ∃ error vol' disk',
      Prog.exec (volumeDevice transparentCrypto (outerMount zeroRandomness 4))
        (allocateFileDataBlock ino 20) (vol, disk) = (.error error, vol', disk') ∧
      vol'.bitmap = vol.bitmap := by
  obtain ⟨disk, vol, ino, reached, _, _, blank, _⟩ := smallContainer_file
  have shows := reached.shows transparentCrypto_sectors
  let faulty : Disk := { disk with faults := [true] }
  have holds : Holds transparentCrypto (outerMount zeroRandomness 4) vol faulty :=
    ⟨shows.holds.placed, shows.holds.sound⟩
  have hole : (vol.inodes ino).indirectBlock = invalidBlock := by
    have refs := (of_fileView blank).2.1
    exact pointer_eq_none.1 (congrFun refs .single)
  have looks : Prog.exec (volumeDevice transparentCrypto (outerMount zeroRandomness 4))
      (getFileDataBlock (vol.inodes ino) 20) (vol, faulty) = (.ok invalidBlock, vol, faulty) := by
    unfold getFileDataBlock
    simp [hole, maxFileBlocks]
  have fault : faulty.ioFails = true := rfl
  obtain ⟨error, state, refused⟩ :=
    allocateFilled_faulty transparentCrypto (outerMount zeroRandomness 4) fault vol fun _ => 0
  have fails : Prog.exec (volumeDevice transparentCrypto (outerMount zeroRandomness 4))
      (allocateFileDataBlock ino 20) (vol, faulty) = (.error error, state) := by
    unfold allocateFileDataBlock
    rw [Prog.exec_bind_ok (Prog.exec_get _ _), Prog.exec_bind_ok looks]
    simp only [ne_eq, not_true_eq_false, if_false]
    exact Prog.exec_bind_error refused
  have law := failed_allocation_leaves_no_trace transparentCrypto_sectors holds fails
  exact ⟨faulty, vol, ino, error, state.1, state.2, fails, law.1⟩

end DenyFS
