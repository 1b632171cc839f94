import DenyFS.Verified.Steady
import DenyFS.Verified.FreshRuns

/-! # The update law of the block map

`get_file_data_block` and `allocate_file_data_block` split a logical block into table positions
each on its own.  What the one stores the other finds: where the allocator returns, a lookup of
the same block finds what it returned, and every other lookup finds what it found before. -/

namespace DenyFS

open Packed BlockProgram Ownership

variable {crypto : Crypto} {mount : Mount} {vol vol' : Volume} {disk disk' : Disk}
  {ino : Fin 64} {l : Nat} {b : UInt32}

/-! ## Programs that fail only where a request fails -/

open Prog.Strict in
theorem allocateFilled_strict (contents : Sector) : Prog.Strict (allocateFilled contents) := by
  apply bind (ofModifyGet allocBlock)
  intro block
  split
  · exact ofThrow _
  · exact bind (rollback (elseThrow (ofWriteAt _ _) _) _) fun _ => ofPure _

open Prog.Strict in
theorem tableOrNew_strict (block : UInt32) (undo : Volume → Volume) :
    Prog.Strict (tableOrNew block undo) := by
  unfold tableOrNew
  split
  · exact bind (rollback (allocateFilled_strict _) undo) fun _ => ofPure _
  · exact ofPure _

open Prog.Strict in
theorem pointersOf_strict (table : UInt32) (fresh : Bool) (undo : Volume → Volume) :
    Prog.Strict (pointersOf table fresh undo) := by
  unfold pointersOf
  split
  · exact ofPure _
  · exact rollback (elseThrow (readPointerTable_simple table).strict _) undo

open Prog.Strict in
theorem storePointers_strict (table : UInt32) (pointers : Pointers) (undo : Volume → Volume) :
    Prog.Strict (storePointers table pointers undo) :=
  rollback (elseThrow (ofWriteAt _ _) _) undo

theorem modifyInode_strict (ino : Fin 64) (f : Inode → Inode) : Prog.Strict (modifyInode ino f) :=
  .ofModify _

open Prog.Strict in
theorem mapSingle_strict (ino : Fin 64) (i : Fin 1024) (dataBlock : UInt32) :
    Prog.Strict (mapSingle ino i dataBlock) := by
  apply get_bind
  intro vol
  apply bind (tableOrNew_strict _ _)
  intro table
  apply bind (pointersOf_strict _ _ _)
  intro pointers
  exact bind (storePointers_strict _ _ _) fun _ => when (modifyInode_strict _ _) _

open Prog.Strict in
theorem mapDouble_strict (ino : Fin 64) (outer inner : Fin 1024) (dataBlock : UInt32) :
    Prog.Strict (mapDouble ino outer inner dataBlock) := by
  apply get_bind
  intro vol
  apply bind (tableOrNew_strict _ _)
  intro root
  apply bind (pointersOf_strict _ _ _)
  intro roots
  apply bind (tableOrNew_strict _ _)
  intro child
  apply bind (pointersOf_strict _ _ _)
  intro pointers
  apply bind (storePointers_strict _ _ _)
  intro _
  exact bind (when (storePointers_strict _ _ _) _) fun _ => when (modifyInode_strict _ _) _

theorem mapBlock_strict (ino : Fin 64) (l : Nat) (dataBlock : UInt32) :
    Prog.Strict (mapBlock ino l dataBlock) := by
  unfold mapBlock
  split
  · exact modifyInode_strict _ _
  split
  · exact mapSingle_strict _ _ _
  · exact mapDouble_strict _ _ _ _

open Prog.Strict in
theorem allocateFileDataBlock_strict (ino : Fin 64) (l : Nat) :
    Prog.Strict (allocateFileDataBlock ino l) := by
  apply get_bind
  intro vol
  apply bind (getFileDataBlock_simple _ l).strict
  intro existing
  split
  · exact ofPure _
  · apply bind (allocateFilled_strict _)
    intro dataBlock
    exact bind (mapBlock_strict ino l dataBlock) fun _ =>
      bind (modifyInode_strict _ _) fun _ => ofPure _

/-! ## Lookups -/

/-- What `get_file_data_block` returns where no request fails. -/
def foundBlock (crypto : Crypto) (mount : Mount) (vol : Volume) (disk : Disk) (ino : Fin 64)
    (l : Nat) : Except Errno UInt32 :=
  (Prog.exec (plainDevice mount.blockCount) (getFileDataBlock (vol.inodes ino) l)
    (vol, mount.blocks crypto disk.container)).1

/-- On the container itself a lookup finds the same, as long as its requests are served. -/
theorem foundBlock_served (roundTrip : crypto.SectorRoundTrip)
    (placed : mount.Placed disk.container.size)
    (served : mount.Serves crypto (getFileDataBlock (vol.inodes ino) l) vol disk) :
    (Prog.exec (volumeDevice crypto mount) (getFileDataBlock (vol.inodes ino) l) (vol, disk)).1 =
      foundBlock crypto mount vol disk ino l :=
  (exec_steady roundTrip placed served).1

section Lookup

variable {held : List UInt32}
  (accounted : Accounted mount.blockCount vol (mount.blocks crypto disk.container) held)
include accounted

/-- A lookup reads the slot of the logical block. -/
theorem foundBlock_eq (ino : Fin 64) (small : l < maxFileBlocks) :
    foundBlock crypto mount vol disk ino l =
      .ok (blockNumber ((vol.inodes ino).mapped (mount.blocks crypto disk.container) l)) := by
  unfold foundBlock
  rw [exec_getFileDataBlock accounted rfl small]
  rfl

omit accounted in
/-- Past the last block a file can have, every lookup fails. -/
theorem foundBlock_beyond (large : maxFileBlocks ≤ l) :
    foundBlock crypto mount vol disk ino l = .error .einval := by
  unfold foundBlock getFileDataBlock
  rw [if_pos large]
  rfl

/-- Lookups in a file depend on its slots alone. -/
theorem foundBlock_congr {held' : List UInt32}
    (accounted' : Accounted mount.blockCount vol' (mount.blocks crypto disk'.container) held')
    (same : l < maxFileBlocks →
      (vol'.inodes ino).mapped (mount.blocks crypto disk'.container) l =
        (vol.inodes ino).mapped (mount.blocks crypto disk.container) l) :
    foundBlock crypto mount vol' disk' ino l = foundBlock crypto mount vol disk ino l := by
  cases Nat.lt_or_ge l maxFileBlocks with
  | inl small => rw [foundBlock_eq accounted ino small, foundBlock_eq accounted' ino small, same small]
  | inr large => rw [foundBlock_beyond large, foundBlock_beyond large]

end Lookup

/-! ## Mapped already -/

/-- Where the block is mapped the allocator only looks: it returns what the lookup found. -/
theorem exec_allocate_mapped {δ : Type} (device : Device δ UInt32 Sector Errno) {store : δ}
    {old : UInt32} (present : old ≠ invalidBlock) {state' : Volume × δ}
    (finds : Prog.exec device (getFileDataBlock (vol.inodes ino) l) (vol, store) =
      (.ok old, state')) :
    Prog.exec device (allocateFileDataBlock ino l) (vol, store) = (.ok old, state') := by
  unfold allocateFileDataBlock
  rw [Prog.exec_bind_ok (Prog.exec_get _ _), Prog.exec_bind_ok finds, if_pos present]
  rfl

/-- A lookup on the container writes nothing, whatever it returns. -/
theorem getFileDataBlock_unchanged (crypto : Crypto) (mount : Mount) (inode : Inode) (l : Nat)
    (vol : Volume) (disk : Disk) :
    let after := Prog.exec (volumeDevice crypto mount) (getFileDataBlock inode l) (vol, disk)
    after.2.1 = vol ∧ after.2.2.container = disk.container := by
  have passive := (getFileDataBlock_simple inode l).passive
  constructor
  · exact passive.exec_memory (volumeDevice crypto mount) (vol, disk)
  · exact Prog.exec_readOnly (volumeDevice crypto mount)
      (fun before after : Disk => after.container = before.container) (fun _ => rfl)
      (fun first second => second.trans first) (readBlockAt_container crypto mount)
      passive.readOnly (vol, disk)

/-- An allocation that returned although the block was mapped returned that block, and changed
nothing. -/
theorem allocate_mapped (roundTrip : crypto.SectorRoundTrip)
    (holds : Holds crypto mount vol disk) (small : l < maxFileBlocks) {old : UInt32}
    (mapped : (vol.inodes ino).mapped (mount.blocks crypto disk.container) l = some old)
    (returns : Prog.exec (volumeDevice crypto mount) (allocateFileDataBlock ino l) (vol, disk) =
      (.ok b, vol', disk')) :
    b = old ∧ vol' = vol ∧ disk'.container = disk.container := by
  have present : old ≠ invalidBlock := fileRef_ne_invalid mapped
  have same := getFileDataBlock_unchanged crypto mount (vol.inodes ino) l vol disk
  unfold allocateFileDataBlock at returns
  rw [Prog.exec_bind_ok (Prog.exec_get _ _)] at returns
  cases looked : Prog.exec (volumeDevice crypto mount) (getFileDataBlock (vol.inodes ino) l)
      (vol, disk) with
  | mk result state =>
    rw [looked] at same
    cases result with
    | error error =>
      rw [Prog.exec_bind_error looked] at returns
      cases returns
    | ok found =>
      -- a lookup that returned found what it finds when nothing fails
      obtain ⟨plain, _⟩ := exec_returned roundTrip holds.placed
        (getFileDataBlock_simple _ l).strict looked
      rw [exec_getFileDataBlock holds.sound.accounted rfl small] at plain
      have finds : found = old := by
        have equal := congrArg Prod.fst plain
        unfold Inode.mapped at mapped
        rw [mapped] at equal
        exact (Except.ok.inj equal).symm
      subst finds
      have done := exec_allocate_mapped (volumeDevice crypto mount) present looked
      unfold allocateFileDataBlock at done
      rw [Prog.exec_bind_ok (Prog.exec_get _ _), returns] at done
      cases done
      exact ⟨rfl, same⟩

/-! ## A hole -/

/-- An allocation in a hole that returned has grown the file. -/
theorem allocate_hole (roundTrip : crypto.SectorRoundTrip) (holds : Holds crypto mount vol disk)
    (small : l < maxFileBlocks)
    (hole : (vol.inodes ino).mapped (mount.blocks crypto disk.container) l = none)
    (returns : Prog.exec (volumeDevice crypto mount) (allocateFileDataBlock ino l) (vol, disk) =
      (.ok b, vol', disk')) :
    Grown mount.blockCount vol vol' (mount.blocks crypto disk.container)
      (mount.blocks crypto disk'.container) ino (place l) b 1 := by
  obtain ⟨plain, _⟩ := exec_returned roundTrip holds.placed (allocateFileDataBlock_strict ino l)
    returns
  cases exec_allocateFileDataBlock holds.sound.accounted holds.sound.counted small hole with
  | inl grows =>
    obtain ⟨vol₁, blocks₁, block, grown, _, same⟩ := grows
    rw [plain] at same
    cases same
    exact grown
  | inr full =>
    obtain ⟨vol₁, blocks₁, _, fails⟩ := full
    rw [plain] at fails
    cases fails

section Grown

variable {count : Nat} {blocks blocks' : Blocks} {n : UInt32}

/-- A grown file finds at every other logical block what it found there. -/
theorem Grown.mapped_other {l' : Nat}
    (grown : Grown count vol vol' blocks blocks' ino (place l) b n) (small : l < maxFileBlocks)
    (small' : l' < maxFileBlocks) (other : l' ≠ l) :
    (vol'.inodes ino).mapped blocks' l' = (vol.inodes ino).mapped blocks l' := by
  unfold Inode.mapped
  cases before : fileRef (vol.inodes ino) blocks (place l') with
  | some block => exact grown.kept _ _ before
  | none =>
    cases after : fileRef (vol'.inodes ino) blocks' (place l') with
    | none => rfl
    | some block =>
      -- a slot that was filled lies on the path, whose only data slot is the block's own
      cases grown.added _ _ after with
      | inl old =>
        rw [before] at old
        cases old
      | inr filled =>
        have same := path_isData filled.1 (place_isData l')
        exact absurd (place_injective small' small same) other

/-- So do all other files. -/
theorem Grown.mapped_others (grown : Grown count vol vol' blocks blocks' ino (place l) b n)
    (accounted : Accounted count vol blocks []) {j : Fin 64} (other : j ≠ ino) (l' : Nat) :
    (vol'.inodes j).mapped blocks' l' = (vol.inodes j).mapped blocks l' := by
  unfold Inode.mapped
  rw [grown.others j other, grown.others_eq accounted other]

/-- The new block was a clear bit of the data region. -/
theorem Grown.was_clear (grown : Grown count vol vol' blocks blocks' ino (place l) b n) :
    vol.sb.dataStart ≤ b ∧ b < vol.sb.totalBlocks ∧ vol.bit b.toNat = false ∧
      vol'.bit b.toNat = true := by
  have inUse := grown.accounted.allocated_of_fileRef grown.here
  obtain ⟨lower, upper, set⟩ := inUse
  rw [grown.sb] at lower upper
  have clear : vol.bit b.toNat = false := by
    cases bit : vol.bit b.toNat with
    | false => rfl
    | true => exact absurd ⟨lower, upper, bit⟩ grown.fresh
  exact ⟨lower, upper, clear, set⟩

end Grown

/-! ## The law -/

/-- Where `allocate_file_data_block` returns a block for logical block `l`, a lookup finds it
there and nothing else has moved.  A block that was mapped is returned as it is; a new one was
free, has no other owner, reads as zeros and is counted. -/
theorem allocate_updates_one (roundTrip : crypto.SectorRoundTrip)
    (holds : Holds crypto mount vol disk) (small : l < maxFileBlocks)
    (returns : Prog.exec (volumeDevice crypto mount) (allocateFileDataBlock ino l) (vol, disk) =
      (.ok b, vol', disk')) :
    let before := mount.blocks crypto disk.container
    let after := mount.blocks crypto disk'.container
    foundBlock crypto mount vol' disk' ino l = .ok b ∧
    (∀ j l', j ≠ ino ∨ l' ≠ l →
      foundBlock crypto mount vol' disk' j l' = foundBlock crypto mount vol disk j l') ∧
    (∀ old, foundBlock crypto mount vol disk ino l = .ok old → old ≠ invalidBlock →
      b = old ∧ vol' = vol ∧ disk'.container = disk.container) ∧
    (foundBlock crypto mount vol disk ino l = .ok invalidBlock →
      (vol.sb.dataStart ≤ b ∧ b < vol.sb.totalBlocks ∧ vol.bit b.toNat = false ∧
        vol'.bit b.toNat = true) ∧
      (∀ slot, ref vol before slot ≠ some b) ∧
      (∀ slot, ref vol' after slot = some b ↔ slot = (ino, place l)) ∧
      after b = (fun _ => 0) ∧
      (vol'.inodes ino).blockCount.toNat = (vol.inodes ino).blockCount.toNat + 1) := by
  intro before after
  have accounted := holds.sound.accounted
  have found := foundBlock_eq accounted ino small
  cases mapped : (vol.inodes ino).mapped before l with
  | some old =>
    rw [mapped] at found
    have present : old ≠ invalidBlock := fileRef_ne_invalid mapped
    obtain ⟨same, volume, container⟩ := allocate_mapped roundTrip holds small mapped returns
    subst same volume
    have sameFound : foundBlock crypto mount vol' disk' = foundBlock crypto mount vol' disk := by
      funext j l'
      unfold foundBlock
      rw [container]
    refine ⟨?_, ?_, ?_, ?_⟩
    · rw [sameFound, found]
      rfl
    · intro j l' _
      rw [sameFound]
    · intro old finds _
      rw [found] at finds
      exact ⟨Except.ok.inj finds, rfl, container⟩
    · intro hole
      rw [found] at hole
      exact absurd (Except.ok.inj hole) present
  | none =>
    rw [mapped] at found
    have grown := allocate_hole roundTrip holds small mapped returns
    have accounted' := grown.accounted
    refine ⟨?_, ?_, ?_, ?_⟩
    · rw [foundBlock_eq accounted' ino small]
      exact congrArg (fun slot => Except.ok (blockNumber slot)) grown.here
    · intro j l' other
      apply foundBlock_congr accounted accounted'
      intro small'
      by_cases here : j = ino
      · subst here
        exact grown.mapped_other small small' (other.resolve_left fun away => away rfl)
      · exact grown.mapped_others accounted here l'
    · intro old finds present
      rw [found] at finds
      exact absurd (Except.ok.inj finds).symm present
    · intro _
      refine ⟨grown.was_clear, accounted.ref_free grown.fresh, ?_, grown.zero, ?_⟩
      · intro slot
        constructor
        · intro points
          exact accounted'.ledger.injective (t := (ino, place l)) points grown.here
        · intro same
          rw [same]
          exact grown.here
      · have more := grown.mappedSlots_card (place_isData l) mapped
        have counted := grown.counted accounted holds.sound.counted (place_isData l) mapped ino
        rw [counted, more, holds.sound.counted ino]

/-- With room for a block and two tables the allocator returns. -/
theorem Shows.allocates (roundTrip : crypto.SectorRoundTrip) (shows : Shows crypto mount vol disk)
    (ino : Fin 64) (small : l < maxFileBlocks) (room : 3 ≤ vol.sb.freeBlocks.toNat) :
    ∃ b vol' disk', Prog.exec (volumeDevice crypto mount) (allocateFileDataBlock ino l)
      (vol, disk) = (.ok b, vol', disk') := by
  obtain ⟨outcome, _⟩ := Prog.exec_simulation
    (volumeDevice_simulates roundTrip shows.unprotected) (allocateFileDataBlock ino l) vol
    shows.decrypts
  have returns : ∃ b, (Prog.exec (plainDevice mount.blockCount) (allocateFileDataBlock ino l)
      (vol, mount.blocks crypto disk.container)).1 = .ok b := by
    have current : vol.inodes ino = vol.inodes ino := rfl
    have looks := exec_getFileDataBlock shows.sound.accounted current small
    cases mapped : fileRef (vol.inodes ino) (mount.blocks crypto disk.container) (place l) with
    | some old =>
      rw [mapped] at looks
      have present : blockNumber (some old) ≠ invalidBlock := fileRef_ne_invalid mapped
      rw [exec_allocate_mapped _ present looks]
      exact ⟨old, rfl⟩
    | none =>
      cases exec_allocateFileDataBlock shows.sound.accounted shows.sound.counted small mapped with
      | inl grows =>
        obtain ⟨_, _, block, _, _, same⟩ := grows
        rw [same]
        exact ⟨block, rfl⟩
      | inr fails =>
        -- no path has more than three slots
        obtain ⟨_, _, full, _⟩ := fails
        have needed : missing (vol.inodes ino) (mount.blocks crypto disk.container) (place l) ≤
            (place l).path.length := List.countP_le_length
        have short : (place l).path.length ≤ 3 := by
          cases place l <;> simp [FileSlot.path]
        have few := full.full
        omega
  obtain ⟨b, same⟩ := returns
  refine ⟨b, _, _, Prod.ext ?_ rfl⟩
  rw [outcome, same]

/-- The first block past the direct pointers of the first file of a small container. -/
theorem allocate_updates_one_small :
    ∃ disk vol, ∃ ino : Fin 64, ∃ b vol' disk',
      Reached transparentCrypto (outerMount zeroRandomness 4) vol disk ∧
      Prog.exec (volumeDevice transparentCrypto (outerMount zeroRandomness 4))
        (allocateFileDataBlock ino 20) (vol, disk) = (.ok b, vol', disk') ∧
      foundBlock transparentCrypto (outerMount zeroRandomness 4) vol' disk' ino 20 = .ok b := by
  obtain ⟨disk, vol, ino, reached, _, _, _, free⟩ := smallContainer_file
  have shows := reached.shows transparentCrypto_sectors
  have small : 20 < maxFileBlocks := by decide
  obtain ⟨b, vol', disk', returns⟩ :=
    shows.allocates transparentCrypto_sectors ino small (by omega)
  have law := allocate_updates_one transparentCrypto_sectors shows.holds small returns
  exact ⟨disk, vol, ino, b, vol', disk', reached, returns, law.1⟩

end DenyFS
