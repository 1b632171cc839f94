import DenyFS.Verified.DirectoryCheck
import DenyFS.Verified.Validation

/-! # The validator accepts exactly the well-formed images

`validate_superblock` fixes the layout; on a volume with that layout `validate_loaded_metadata`
returns exactly where the image is well formed.  Its claim map becomes the ledger of all slots
by counting: as many blocks are claimed as there are bits set. -/

namespace DenyFS

open Packed BlockProgram Ownership

variable {count : Nat} {vol : Volume} {disk : Blocks}

/-! ## The superblock -/

/-- What `validate_superblock` accepts. -/
structure Superblock.Plausible (sb : Superblock) (volumeSize : UInt64) : Prop where
  aligned : volumeSize.toNat % 4096 = 0
  blocks : 4 ≤ volumeSize.toNat / 4096
  layout : sb.Layout (volumeSize.toNat / 4096)
  freeBlocks : sb.freeBlocks.toNat ≤ sb.totalBlocks.toNat - sb.dataStart.toNat
  freeInodes : sb.freeInodes.toNat < 64

theorem validateSuperblock_iff (sb : Superblock) (volumeSize : UInt64) :
    validateSuperblock sb volumeSize = true ↔ sb.Plausible volumeSize := by
  have aligned : volumeSize % 4096 = 0 ↔ volumeSize.toNat % 4096 = 0 := by
    rw [← UInt64.toNat_inj, UInt64.toNat_mod]
    rfl
  have zero : volumeSize = 0 ↔ volumeSize.toNat = 0 := by
    rw [← UInt64.toNat_inj]
    rfl
  have spare : ∀ ordered : ¬sb.totalBlocks ≤ sb.dataStart,
      (sb.totalBlocks - sb.dataStart < sb.freeBlocks ↔
        sb.totalBlocks.toNat - sb.dataStart.toNat < sb.freeBlocks.toNat) := by
    intro ordered
    have below : sb.dataStart ≤ sb.totalBlocks := UInt32.le_of_lt (UInt32.not_le.1 ordered)
    rw [UInt32.lt_iff_toNat_lt, UInt32.toNat_sub_of_le _ _ below]
  have inodeBlocks : sb.inodeBlocks = 2 → sb.inodeBlocks.toNat = 2 := by
    intro two
    rw [two]
    rfl
  have inodes : ¬64 ≤ sb.freeInodes ↔ sb.freeInodes.toNat < 64 := by
    rw [UInt32.not_le, UInt32.lt_iff_toNat_lt]
    rfl
  unfold validateSuperblock
  constructor
  · intro accepted
    split at accepted
    · cases accepted
    next sized =>
    dsimp only at accepted
    split at accepted
    · cases accepted
    next first =>
    split at accepted
    · cases accepted
    next second =>
      simp only [not_or, not_not, aligned] at sized first second
      obtain ⟨_, whole⟩ := sized
      obtain ⟨_, four, magic, blockSize, total, inodeCount, bitmapStart, two⟩ := first
      obtain ⟨_, bitmapBlocks, inodeStart, dataStart, ordered, freeBlocks, freeInodes⟩ := second
      have atTwo := inodeBlocks two
      have room := UInt32.lt_iff_toNat_lt.1 (UInt32.not_le.1 ordered)
      rw [spare ordered] at freeBlocks
      refine ⟨whole, by omega, ⟨magic, blockSize, inodeCount, total, bitmapStart, bitmapBlocks,
        by omega, two, by omega, by omega⟩, by omega, inodes.1 freeInodes⟩
  · rintro ⟨whole, four, layout, freeBlocks, freeInodes⟩
    have atTwo := inodeBlocks layout.inodeBlocks
    have small := layout.count_lt
    have ordered : ¬sb.totalBlocks ≤ sb.dataStart := by
      rw [UInt32.not_le, UInt32.lt_iff_toNat_lt, layout.totalBlocks]
      exact layout.room
    have bitmapBlocks := layout.bitmapBlocks
    have inodeStart := layout.inodeStart
    have dataStart := layout.dataStart
    rw [if_neg (by simp only [not_or, not_not, zero, aligned]; omega)]
    dsimp only
    rw [if_neg, if_neg]
    · simp only [not_or, not_not, spare ordered]
      exact ⟨by omega, by omega, by omega, by omega, ordered, by omega, inodes.2 freeInodes⟩
    · simp only [not_or, not_not]
      exact ⟨by omega, by omega, layout.magic, layout.blockSize, layout.totalBlocks,
        layout.inodeCount, layout.bitmapStart, layout.inodeBlocks⟩

/-! ## All slots of the volume -/

/-- Every slot of every inode, in the order of the traversal. -/
def allSlots : List Slot := (upTo 64).flatMap fun ino => fileSlots.map fun s => (ino, s)

theorem mem_allSlots (slot : Slot) : slot ∈ allSlots := by
  obtain ⟨ino, s⟩ := slot
  exact List.mem_flatMap.2 ⟨ino, mem_upTo ino, List.mem_map_of_mem (mem_fileSlots s)⟩

theorem allSlots_nodup : allSlots.Nodup := by
  refine List.nodup_flatMap.2 ⟨fun ino _ => ?_, ?_⟩
  · exact fileSlots_nodup.map fun s t equal => congrArg Prod.snd equal
  · refine (upTo_nodup 64).imp fun {first second} differ slot inFirst inSecond => differ ?_
    obtain ⟨_, _, rfl⟩ := List.mem_map.1 inFirst
    obtain ⟨_, _, equal⟩ := List.mem_map.1 inSecond
    exact (congrArg Prod.fst equal).symm

/-- The blocks the traversal claims. -/
theorem claimed_eq (vol : Volume) (disk : Blocks) :
    ((upTo 64).flatMap fun ino => refsOf (vol.inodes ino) disk fileSlots) =
      allSlots.filterMap (ref vol disk) := by
  rw [allSlots, List.filterMap_flatMap]
  refine List.flatMap_congr fun ino _ => ?_
  rw [List.filterMap_map]
  rfl

/-- The blocks in use, as a set. -/
def Volume.usedBlocks (vol : Volume) : Finset UInt32 :=
  ((vol.dataBlocks.filter fun i => vol.bit i).map UInt32.ofNat).toFinset

theorem Volume.ofNat_toNat_of_data {i : Nat} (inData : i ∈ vol.dataBlocks) :
    (UInt32.ofNat i).toNat = i := by
  have upper := (vol.mem_dataBlocks.1 inData).2
  have := vol.sb.totalBlocks.toNat_lt
  exact UInt32.toNat_ofNat_of_lt' (show i < UInt32.size by simp only [UInt32.size]; omega)

theorem Volume.mem_usedBlocks (vol : Volume) (block : UInt32) :
    block ∈ vol.usedBlocks ↔ vol.allocated block := by
  unfold usedBlocks
  rw [List.mem_toFinset, List.mem_map, allocated_iff]
  constructor
  · rintro ⟨i, member, rfl⟩
    obtain ⟨inData, set⟩ := List.mem_filter.1 member
    rw [ofNat_toNat_of_data inData]
    exact ⟨inData, set⟩
  · rintro ⟨inData, set⟩
    exact ⟨block.toNat, List.mem_filter.2 ⟨inData, set⟩, UInt32.ofNat_toNat⟩

theorem Volume.card_usedBlocks (vol : Volume) : vol.usedBlocks.card = vol.usedCount := by
  unfold usedBlocks usedCount
  rw [List.toFinset_card_of_nodup, List.length_map, List.countP_eq_length_filter]
  refine (vol.dataBlocks_nodup.filter _).map_on fun i first j second equal => ?_
  rw [← ofNat_toNat_of_data (List.mem_of_mem_filter first),
    ← ofNat_toNat_of_data (List.mem_of_mem_filter second), equal]

/-- The blocks of the traversal can be claimed, and are as many as there are bits, exactly where
the bitmap is the ledger of the slots. -/
theorem ledger_iff :
    ((allSlots.filterMap (ref vol disk)).Nodup ∧
        (∀ block ∈ allSlots.filterMap (ref vol disk), vol.allocated block) ∧
        vol.usedCount = (allSlots.filterMap (ref vol disk)).length) ↔
      Ledger (ref vol disk) vol.allocated [] := by
  rw [← vol.card_usedBlocks]
  constructor
  · rintro ⟨once, owned, total⟩
    exact Ledger.of_count mem_allSlots allSlots_nodup once owned vol.mem_usedBlocks total
  · intro ledger
    exact ledger.count_of mem_allSlots allSlots_nodup vol.mem_usedBlocks

/-! ## The positions of the directory -/

/-- The entries of the first `n` blocks. -/
def positions (n : Nat) : List DirentSlot :=
  ((upTo 20).take n).flatMap fun b => (upTo 16).map fun i => (b, i)

theorem mem_take_upTo {n k : Nat} (i : Fin n) : i ∈ (upTo n).take k ↔ i.val < k := by
  rw [upTo_eq, List.mem_take_iff_getElem]
  constructor
  · rintro ⟨j, bound, equal⟩
    rw [List.getElem_finRange] at equal
    have value := congrArg Fin.val equal
    simp only [Fin.val_cast] at value
    omega
  · intro small
    have inRange : i.val < min k (List.finRange n).length := by
      rw [List.length_finRange]
      omega
    exact ⟨i.val, inRange, by simp⟩

theorem mem_positions {n : Nat} (p : DirentSlot) : p ∈ positions n ↔ p.1.val < n := by
  obtain ⟨b, i⟩ := p
  unfold positions
  rw [List.mem_flatMap]
  constructor
  · rintro ⟨b', inBlocks, member⟩
    obtain ⟨_, _, equal⟩ := List.mem_map.1 member
    cases equal
    exact (mem_take_upTo b).1 inBlocks
  · intro small
    exact ⟨b, (mem_take_upTo b).2 small, List.mem_map_of_mem (mem_upTo i)⟩

theorem positions_nodup (n : Nat) : (positions n).Nodup := by
  refine List.nodup_flatMap.2 ⟨fun b _ => ?_, ?_⟩
  · exact (upTo_nodup 16).map fun i j equal => congrArg Prod.snd equal
  · refine ((upTo_nodup 20).sublist (List.take_sublist n _)).imp
      fun {first second} differ p inFirst inSecond => differ ?_
    obtain ⟨_, _, rfl⟩ := List.mem_map.1 inFirst
    obtain ⟨_, _, equal⟩ := List.mem_map.1 inSecond
    exact (congrArg Prod.fst equal).symm

/-- The validator reads the entries in the order of the positions. -/
theorem entries_eq {n : Nat}
    (present : ∀ i : Fin 20, i.val < n → (vol.inodes 0).direct i ≠ invalidBlock) :
    (vol.rootBlocks.take n).flatMap (blockEntries disk) =
      (positions n).map (entryAt vol disk) := by
  have blocks : vol.rootBlocks = (upTo 20).map (vol.inodes 0).direct := by
    rw [Volume.rootBlocks, upTo_eq, List.ofFn_eq_map]
  rw [blocks, ← List.map_take, List.flatMap_map, positions, List.map_flatMap]
  refine List.flatMap_congr fun b member => ?_
  rw [List.map_map, blockEntries]
  refine List.map_congr_left fun i _ => ?_
  simp only [Function.comp, entryAt, if_neg (present b ((mem_take_upTo b).1 member))]

theorem liveIno_entryAt (vol : Volume) (disk : Blocks) (places : List DirentSlot) :
    (places.map (entryAt vol disk)).filterMap Dirent.liveIno =
      places.filterMap (inodeRef vol disk) := by
  rw [List.filterMap_map]
  rfl

theorem liveName_entryAt (vol : Volume) (disk : Blocks) (places : List DirentSlot) :
    (places.map (entryAt vol disk)).filterMap Dirent.liveName =
      places.filterMap (nameRef vol disk) := by
  rw [List.filterMap_map]
  rfl

theorem directory_iff
    (filled : ∀ i, (vol.inodes 0).direct i ≠ invalidBlock ↔
      i.val < (vol.inodes 0).blockCount.toNat) :
    (EntriesOk vol ((positions (vol.inodes 0).blockCount.toNat).map (entryAt vol disk)) ∧
        ∀ ino, ino ≠ 0 → ((vol.inodes ino).type = itypeFile ↔
          ino ∈ (positions (vol.inodes 0).blockCount.toNat).filterMap (inodeRef vol disk))) ↔
      Directory vol disk := by
  have listed : ∀ p, (entryAt vol disk p).Live →
      p ∈ positions (vol.inodes 0).blockCount.toNat := by
    intro p live
    rw [mem_positions, ← filled]
    intro hole
    rw [entryAt_hole hole] at live
    exact Dirent.emptyDirent_not_live live
  have ofIno : ∀ p ino, inodeRef vol disk p = some ino →
      (entryAt vol disk p).Live ∧ (entryAt vol disk p).ino = ino := by
    intro p ino points
    unfold inodeRef at points
    split at points
    next live => exact ⟨live, Option.some.inj points⟩
    · cases points
  have ofName : ∀ p name, nameRef vol disk p = some name → (entryAt vol disk p).Live := by
    intro p name points
    unfold nameRef at points
    split at points
    next live => exact live
    · cases points
  have inoAt : ∀ p, (entryAt vol disk p).Live →
      inodeRef vol disk p = some (entryAt vol disk p).ino := fun p live => if_pos live
  constructor
  · rintro ⟨ok, covers⟩
    refine ⟨fun p => ?_, fun p q name first second => ?_, fun p q ino first second => ?_,
      fun p ino points => ?_, fun ino nonzero file => ?_⟩
    · by_cases live : (entryAt vol disk p).Live
      · exact ok.valid _ (List.mem_map_of_mem (listed p live))
      · by_cases hole : (vol.inodes 0).direct p.1 = invalidBlock
        · rw [entryAt_hole hole]
          exact Dirent.emptyDirent_valid
        · refine ok.valid _ (List.mem_map_of_mem ((mem_positions p).2 ?_))
          exact (filled p.1).1 hole
    · have names := ok.names
      rw [liveName_entryAt] at names
      exact (Ledger.nodup_filterMap_iff (positions_nodup _)).1 names p (listed p (ofName p name first)) q
        (listed q (ofName q name second)) name first second
    · have inodes := ok.inodes
      rw [liveIno_entryAt] at inodes
      exact (Ledger.nodup_filterMap_iff (positions_nodup _)).1 inodes p
        (listed p (ofIno p ino first).1) q (listed q (ofIno q ino second).1) ino first second
    · obtain ⟨live, rfl⟩ := ofIno p ino points
      exact ok.file _ (List.mem_map_of_mem (listed p live)) live
    · obtain ⟨p, _, points⟩ := List.mem_filterMap.1 ((covers ino nonzero).1 file)
      exact ⟨p, points⟩
  · intro directory
    refine ⟨⟨fun entry member => ?_, fun entry member live => ?_, ?_, ?_⟩, fun ino nonzero => ?_⟩
    · obtain ⟨p, _, rfl⟩ := List.mem_map.1 member
      exact directory.valid p
    · obtain ⟨p, _, rfl⟩ := List.mem_map.1 member
      exact directory.file p _ (inoAt p live)
    · rw [liveIno_entryAt, Ledger.nodup_filterMap_iff (positions_nodup _)]
      exact fun p _ q _ ino first second => directory.inodes p q ino first second
    · rw [liveName_entryAt, Ledger.nodup_filterMap_iff (positions_nodup _)]
      exact fun p _ q _ name first second => directory.names p q name first second
    · rw [List.mem_filterMap]
      constructor
      · intro file
        obtain ⟨p, points⟩ := directory.listed ino nonzero file
        exact ⟨p, listed p (ofIno p ino points).1, points⟩
      · rintro ⟨p, _, points⟩
        exact directory.file p ino points

/-! ## The validator -/

/-- What the loop over the inodes establishes, apart from the claims. -/
theorem inodesOk_iff (few : (vol.inodes 0).blockCount.toNat ≤ 20) :
    (∀ ino, InodeOk vol disk ino) ↔
      (vol.inodes 0).type = itypeDir ∧
      (∀ i, (vol.inodes 0).direct i ≠ invalidBlock ↔ i.val < (vol.inodes 0).blockCount.toNat) ∧
      (∀ ino, ino ≠ 0 → (vol.inodes ino).type = itypeFree ∨ (vol.inodes ino).type = itypeFile) ∧
      (∀ ino, (vol.inodes ino).type = itypeFree → (vol.inodes ino).Blank) ∧
      (∀ ino, (vol.inodes ino).size.toNat ≤ maxFileSize) ∧
      (∀ ino, ino ≠ 0 → Compact (vol.inodes ino) disk) ∧
      (∀ ino, ino ≠ 0 →
        (vol.inodes ino).blockCount.toNat = (mappedSlots (vol.inodes ino) disk).card) ∧
      WithinSize vol disk := by
  have blankMaps : ∀ ino, (vol.inodes ino).Blank → mappedSlots (vol.inodes ino) disk = ∅ := by
    intro ino blank
    refine Finset.eq_empty_of_forall_notMem fun s member => ?_
    exact (mem_mappedSlots.1 member).2 (blank.fileRef_eq_none disk s)
  have dirNotFree : itypeDir ≠ itypeFree := by decide
  have fileNotFree : itypeFile ≠ itypeFree := by decide
  constructor
  · intro ok
    refine ⟨?_, fun i => ?_, fun ino nonzero => ?_, fun ino free => ?_, fun ino => ?_,
      fun ino nonzero => ?_, fun ino nonzero => ?_, fun ino nonzero s isData mapped => ?_⟩
    · rcases ok 0 with ⟨_, nonzero, _⟩ | ⟨_, type, _⟩
      · exact absurd rfl nonzero
      · exact type
    · rcases ok 0 with ⟨_, nonzero, _⟩ | ⟨_, _, _, _, filled, _⟩
      · exact absurd rfl nonzero
      · exact (filled rfl i).symm
    · rcases ok ino with ⟨free, _⟩ | ⟨_, type, _⟩
      · exact .inl free
      · exact .inr (by rwa [if_neg nonzero] at type)
    · rcases ok ino with ⟨_, _, blank⟩ | ⟨used, _⟩
      · exact blank
      · exact absurd free used
    · rcases ok ino with ⟨_, _, blank⟩ | ⟨_, _, size, _⟩
      · rw [blank.size]
        exact Nat.zero_le _
      · exact size
    · rcases ok ino with ⟨_, _, blank⟩ | ⟨_, _, _, _, _, file⟩
      · have none := blank.fileRef_eq_none disk
        exact ⟨fun some => absurd (none _) some, fun some => absurd (none _) some,
          fun _ some => absurd (none _) some⟩
      · exact (file nonzero).2.1
    · rcases ok ino with ⟨_, _, blank⟩ | ⟨_, _, _, _, _, file⟩
      · rw [blankMaps ino blank, blank.blockCount]
        rfl
      · exact (file nonzero).2.2
    · rcases ok ino with ⟨_, _, blank⟩ | ⟨_, _, _, _, _, file⟩
      · exact absurd (blank.fileRef_eq_none disk s) mapped
      · exact (file nonzero).1 s isData mapped
  · rintro ⟨rootType, filled, types, blank, sizes, compact, counted, within⟩ ino
    by_cases free : (vol.inodes ino).type = itypeFree
    · refine .inl ⟨free, ?_, blank ino free⟩
      rintro rfl
      rw [rootType] at free
      exact dirNotFree free
    · refine .inr ⟨free, ?_, sizes ino, ?_, fun zero => ?_, fun nonzero =>
        ⟨within ino nonzero, compact ino nonzero, counted ino nonzero⟩⟩
      · by_cases zero : ino = 0
        · rw [if_pos zero, zero, rootType]
        · rw [if_neg zero]
          exact (types ino zero).resolve_left free
      · have limit : maxFileBlocks = 1049620 := rfl
        by_cases zero : ino = 0
        · rw [zero]
          omega
        · rw [counted ino zero, card_mappedSlots, refsOf]
          have bound := List.length_filterMap_le (fileRef (vol.inodes ino) disk) dataSlots
          have total : dataSlots.length = maxFileBlocks := dataSlots_length
          omega
      · exact fun i => (filled i).symm

/-- The blocks of the root directory can be read. -/
theorem rootBlocks_inside (layout : vol.sb.Layout count)
    (ledger : Ledger (ref vol disk) vol.allocated [])
    (filled : ∀ i, (vol.inodes 0).direct i ≠ invalidBlock ↔
      i.val < (vol.inodes 0).blockCount.toNat) :
    ∀ block ∈ vol.rootBlocks.take (vol.inodes 0).blockCount.toNat, block.toNat < count := by
  intro block member
  have blocks : vol.rootBlocks = (upTo 20).map (vol.inodes 0).direct := by
    rw [Volume.rootBlocks, upTo_eq, List.ofFn_eq_map]
  rw [blocks, ← List.map_take] at member
  obtain ⟨i, taken, rfl⟩ := List.mem_map.1 member
  have present := (filled i).2 ((mem_take_upTo i).1 taken)
  have points : ref vol disk (0, .direct i) = some ((vol.inodes 0).direct i) :=
    pointer_of_ne present
  have inUse := ledger.used_of_ref points
  have upper := UInt32.lt_iff_toNat_lt.1 inUse.2.1
  rwa [layout.totalBlocks] at upper

/-- The directory part of the validator. -/
theorem directory_returns (layout : vol.sb.Layout count)
    (ledger : Ledger (ref vol disk) vol.allocated [])
    (filled : ∀ i, (vol.inodes 0).direct i ≠ invalidBlock ↔
      i.val < (vol.inodes 0).blockCount.toNat) :
    (∃ seen, Returns count vol disk
        (collectBlocks vol (vol.rootBlocks.take (vol.inodes 0).blockCount.toNat)
          { referenced := fun _ => false, names := [] }) seen ∧
      ¬(upTo 64).all (fun ino =>
        ino == 0 || ((vol.inodes ino).type == itypeFile) == seen.referenced ino) = false) ↔
      Directory vol disk := by
  have none : EntriesOk vol [] :=
    ⟨fun entry member => absurd member List.not_mem_nil,
      fun entry member => absurd member List.not_mem_nil, List.nodup_nil, List.nodup_nil⟩
  have outcome := collectBlocks_iff vol disk (rootBlocks_inside layout ledger filled)
    noNames_lists none
  rw [List.nil_append, entries_eq fun i small => (filled i).2 small] at outcome
  have covers : ∀ seen : Names,
      seen.Lists ((positions (vol.inodes 0).blockCount.toNat).map (entryAt vol disk)) →
      (¬(upTo 64).all (fun ino =>
          ino == 0 || ((vol.inodes ino).type == itypeFile) == seen.referenced ino) = false ↔
        ∀ ino, ino ≠ 0 → ((vol.inodes ino).type = itypeFile ↔
          ino ∈ (positions (vol.inodes 0).blockCount.toNat).filterMap (inodeRef vol disk))) := by
    intro seen lists
    rw [Bool.not_eq_false, List.all_eq_true]
    refine ⟨fun all ino nonzero => ?_, fun all ino _ => ?_⟩
    · have here := all ino (mem_upTo ino)
      rw [Bool.or_eq_true, beq_iff_eq, beq_iff_eq] at here
      have agrees := here.resolve_left nonzero
      rw [← liveIno_entryAt, ← lists.referenced, ← agrees, beq_iff_eq]
    · rw [Bool.or_eq_true, beq_iff_eq, beq_iff_eq]
      by_cases zero : ino = 0
      · exact .inl zero
      · refine .inr ?_
        rw [Bool.eq_iff_iff, beq_iff_eq, lists.referenced, liveIno_entryAt]
        exact all ino zero
  rw [← directory_iff filled]
  cases outcome with
  | inl passes =>
    obtain ⟨seen, collects, lists, ok⟩ := passes
    constructor
    · rintro ⟨seen', collects', all⟩
      have same := collects.symm.trans collects'
      cases same
      exact ⟨ok, (covers seen lists).1 all⟩
    · rintro ⟨_, all⟩
      exact ⟨seen, collects, (covers seen lists).2 all⟩
  | inr fails =>
    constructor
    · rintro ⟨seen', collects', _⟩
      exact absurd collects' (fails.2 seen')
    · exact fun both => absurd both.1 fails.1

/-- `validate_loaded_metadata` accepts exactly the well-formed images. -/
theorem validateLoadedMetadata_returns (disk : Blocks) (layout : vol.sb.Layout count) :
    Returns count vol disk validateLoadedMetadata () ↔ WellFormed count vol disk := by
  unfold validateLoadedMetadata
  rw [returns_get_bind]
  have countZero : (vol.inodes 0).blockCount = 0 ↔ (vol.inodes 0).blockCount.toNat = 0 := by
    rw [← UInt32.toNat_inj]
    rfl
  have countLarge : 20 < (vol.inodes 0).blockCount ↔ 20 < (vol.inodes 0).blockCount.toNat :=
    UInt32.lt_iff_toNat_lt
  dsimp only
  by_cases bad : (vol.inodes 0).type ≠ itypeDir ∨ (vol.inodes 0).size ≠ 0 ∨
      (vol.inodes 0).blockCount = 0 ∨ 20 < (vol.inodes 0).blockCount ∨
      (vol.inodes 0).indirectBlock ≠ invalidBlock ∨
      (vol.inodes 0).doubleIndirectBlock ≠ invalidBlock
  · rw [if_pos bad, returns_throw, false_iff]
    intro wellFormed
    have tree := wellFormed.sound.tree
    have range := tree.rootCount
    rcases bad with type | size | none | many | single | double
    · exact type tree.rootType
    · exact size tree.rootSize
    · rw [countZero] at none
      omega
    · rw [countLarge] at many
      omega
    · exact single tree.rootSingle
    · exact double tree.rootDouble
  rw [if_neg bad]
  simp only [not_or, not_not, countZero, countLarge, Nat.not_lt] at bad
  obtain ⟨rootType, rootSize, some, few, noSingle, noDouble⟩ := bad
  rw [returns_bind (validateInodes_simple _ _ _ _).passive]
  constructor
  · rintro ⟨⟨claims, live⟩, inodes, rest⟩
    rw [validateInodes_returns layout noSingle noDouble, claimed_eq, Nat.zero_add] at inodes
    obtain ⟨ok, claimed, rfl⟩ := inodes
    obtain ⟨type, filled, types, blank, sizes, compact, counted, within⟩ :=
      (inodesOk_iff few).1 fun ino => ok ino (mem_upTo ino)
    rcases claimAll_iff layout noClaims_lists List.nodup_nil
      (allSlots.filterMap (ref vol disk)) with ⟨_, same, lists, once, owned⟩ | ⟨_, fails⟩
    case inr => rw [fails] at claimed; cases claimed
    rw [claimed] at same
    cases same
    rw [List.nil_append] at lists once
    simp only [returns_check] at rest
    obtain ⟨inodeCounts, metadata, blockCounts, directory⟩ := rest
    rw [returns_bind (collectBlocks_simple _ _ _).passive] at directory
    obtain ⟨seen, collects, last⟩ := directory
    rw [returns_check] at last
    simp only [not_or, not_not, lists.count] at inodeCounts blockCounts
    have ledger : Ledger (ref vol disk) vol.allocated [] :=
      ledger_iff.1 ⟨once, owned, blockCounts.1⟩
    have space : vol.Space := by
      have bound := vol.usedCount_le
      have counts := blockCounts.2
      change vol.sb.freeBlocks.toNat =
        vol.sb.totalBlocks.toNat - vol.sb.dataStart.toNat - vol.usedCount at counts
      unfold Volume.Space
      omega
    have metadataBits : ∀ i < vol.sb.dataStart.toNat, vol.bit i = true := by
      rw [Bool.not_eq_false, List.all_eq_true] at metadata
      exact fun i below => metadata i (List.mem_range.2 below)
    have freeInodes : vol.sb.freeInodes.toNat + vol.liveInodes = 64 := by
      have bound : vol.liveInodes ≤ (upTo 64).length := List.countP_le_length
      rw [upTo_eq, List.length_finRange] at bound
      have counts := inodeCounts.2
      change vol.sb.freeInodes.toNat = 64 - vol.liveInodes at counts
      omega
    have rootCounted : (mappedSlots (vol.inodes 0) disk).card = (vol.inodes 0).blockCount.toNat :=
      card_mappedSlots_root noSingle noDouble filled few
    refine ⟨⟨⟨layout, ledger, space, metadataBits⟩, fun ino => ?_, fun ino => ?_,
      ⟨rootType, rootSize, ⟨Nat.pos_of_ne_zero some, few⟩, filled, noSingle, noDouble, types,
        blank, sizes, freeInodes⟩,
      (directory_returns layout ledger filled).1 ⟨seen, collects, last.1⟩⟩, within⟩
    · by_cases zero : ino = 0
      · rw [zero, rootCounted]
      · exact counted ino zero
    · by_cases zero : ino = 0
      · rw [zero]
        exact compact_of_no_tables noSingle noDouble
      · exact compact ino zero
  · rintro ⟨⟨⟨_, ledger, space, metadataBits⟩, counted, compact, tree, directory⟩, within⟩
    obtain ⟨once, owned, total⟩ := ledger_iff.2 ledger
    have ok := (inodesOk_iff few).2 ⟨rootType, tree.rootDirect, tree.types, tree.blank, tree.sizes,
      fun ino _ => compact ino, fun ino _ => counted ino, within⟩
    rcases claimAll_iff layout noClaims_lists List.nodup_nil
      (allSlots.filterMap (ref vol disk)) with ⟨claims, claimed, lists, _⟩ | ⟨refused, _⟩
    case inr => exact absurd ⟨by rwa [List.nil_append], owned⟩ refused
    rw [List.nil_append] at lists
    refine ⟨(claims, vol.liveInodes), ?_, ?_⟩
    · rw [validateInodes_returns layout noSingle noDouble, claimed_eq, Nat.zero_add]
      exact ⟨fun ino _ => ok ino, claimed, rfl⟩
    obtain ⟨seen, collects, covers⟩ := (directory_returns layout ledger tree.rootDirect).2 directory
    have freeInodes := tree.freeInodes
    have positive : 0 < vol.liveInodes := by
      refine List.countP_pos_iff.2 ⟨0, mem_upTo 0, decide_eq_true ?_⟩
      rw [rootType]
      decide
    have bound := vol.usedCount_le
    simp only [returns_check, not_or, not_not]
    refine ⟨⟨by omega, by omega⟩, ?_, ⟨?_, ?_⟩, ?_⟩
    · rw [Bool.not_eq_false, List.all_eq_true]
      exact fun i member => metadataBits i (List.mem_range.1 member)
    · rw [lists.count]
      exact total
    · change vol.sb.freeBlocks.toNat =
        vol.sb.totalBlocks.toNat - vol.sb.dataStart.toNat - vol.usedCount
      unfold Volume.Space at space
      omega
    · rw [returns_bind (collectBlocks_simple _ _ _).passive]
      exact ⟨seen, collects, returns_check.2 ⟨covers, returns_pure.2 rfl⟩⟩

/-- For every superblock that passes `validate_superblock`, and whatever the bitmap, the inode
table and the data blocks hold: the check of the loaded metadata returns 0 exactly where the
image is well formed. -/
theorem validate_loaded_metadata_iff (vol : Volume) (disk : Blocks) (volumeSize : UInt64)
    (valid : validateSuperblock vol.sb volumeSize = true) :
    (Prog.exec (plainDevice (volumeSize.toNat / 4096)) validateLoadedMetadata (vol, disk)).1 =
        .ok () ↔
      WellFormed (volumeSize.toNat / 4096) vol disk := by
  have layout := ((validateSuperblock_iff vol.sb volumeSize).1 valid).layout
  rw [← validateLoadedMetadata_returns disk layout]
  constructor
  · intro succeeds
    exact Prod.ext succeeds (exec_passive validateLoadedMetadata_simple.passive)
  · intro returns
    rw [returns]

theorem validate_loaded_metadata_iff_six :
    let sb : Superblock :=
      { magic := superblockMagic, blockSize := 4096, totalBlocks := 6, inodeCount := 64
        bitmapStart := 1, bitmapBlocks := 1, inodeStart := 2, inodeBlocks := 2, dataStart := 4
        freeBlocks := 1, freeInodes := 63, bitmapHmac := fun _ => 0, reserved := fun _ => 0 }
    let root : Inode :=
      { type := itypeDir, size := 0, blockCount := 1
        direct := fun i => if i = 0 then 4 else invalidBlock, indirectBlock := invalidBlock
        doubleIndirectBlock := invalidBlock, mtime := 0, reserved := fun _ => 0 }
    let vol : Volume :=
      { sb, bitmap := fun i => if i = 0 then 31 else 0, bitmapDirty := fun _ => false
        inodes := fun ino => if ino = 0 then root else
          { root with type := itypeFree, blockCount := 0, direct := fun _ => invalidBlock } }
    let disk : Blocks := fun _ => direntsSector fun _ => emptyDirent
    (Prog.exec (plainDevice 6) validateLoadedMetadata (vol, disk)).1 = .ok () ↔
      WellFormed 6 vol disk :=
  validate_loaded_metadata_iff _ _ 24576 (by decide)

end DenyFS
