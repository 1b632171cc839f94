import DenyFS.Verified.BlockMapLaw
import DenyFS.Verified.Tails

/-! # Truncation gives back exactly the tail

`truncate_file_blocks` prunes three levels of tables in place, and `free_inode` walks them in an
order of its own.  What the first gives back is said in terms of logical blocks alone: the data
at or past the new end, and every table on the way to nothing but such data. -/

namespace DenyFS

open Packed BlockProgram Ownership

variable {crypto : Crypto} {mount : Mount} {vol vol' : Volume} {disk disk' : Disk}
  {count n : Nat} {ino : Fin 64} {blocks blocks' : Blocks} {s : FileSlot} {b : UInt32}

/-! ## The slots that are emptied -/

/-- Whatever is mapped through the slot lies at or past block `n`. -/
def EmptiedBy (n : Nat) (inode : Inode) (blocks : Blocks) (s : FileSlot) : Prop :=
  ∀ l < maxFileBlocks, s ∈ (place l).path → inode.mapped blocks l ≠ none → n ≤ l

/-- A mapped data slot is emptied where its block lies at or past the new end. -/
theorem emptiedBy_data {inode : Inode} (isData : s.IsData)
    (mapped : fileRef inode blocks s ≠ none) :
    EmptiedBy n inode blocks s ↔ n ≤ s.logical := by
  have own := place_logical isData
  constructor
  · intro emptied
    apply emptied s.logical (logical_lt isData)
    · rw [own]
      exact self_mem_path s
    · unfold Inode.mapped
      rwa [own]
  · intro far l small onPath _
    rw [path_isData onPath isData, logical_place small] at far
    exact far

namespace Trimmed

variable (trimmed : Trimmed count n vol vol' blocks blocks' ino)
include trimmed

theorem data_kept (isData : s.IsData) (present : fileRef (vol'.inodes ino) blocks' s ≠ none) :
    s.logical < n ∧ fileRef (vol.inodes ino) blocks s ≠ none := by
  rw [trimmed.data s isData] at present
  split at present
  next near => exact ⟨near, present⟩
  · exact absurd rfl present

/-- A slot that is left has data below the new end under it. -/
theorem not_emptied (present : fileRef (vol'.inodes ino) blocks' s ≠ none) :
    ¬EmptiedBy n (vol.inodes ino) blocks s := by
  -- below every table left some data slot is left, which lies before the end
  have below : ∃ d : FileSlot, d.IsData ∧ s ∈ d.path ∧
      fileRef (vol'.inodes ino) blocks' d ≠ none := by
    cases s with
    | direct i => exact ⟨.direct i, trivial, self_mem_path _, present⟩
    | entry i => exact ⟨.entry i, trivial, self_mem_path _, present⟩
    | leaf outer i => exact ⟨.leaf outer i, trivial, self_mem_path _, present⟩
    | single =>
      obtain ⟨i, mapped⟩ := trimmed.compact.single present
      exact ⟨.entry i, trivial, by simp [FileSlot.path], mapped⟩
    | child outer =>
      obtain ⟨i, mapped⟩ := trimmed.compact.child outer present
      exact ⟨.leaf outer i, trivial, by simp [FileSlot.path], mapped⟩
    | root =>
      obtain ⟨outer, child⟩ := trimmed.compact.root present
      obtain ⟨i, mapped⟩ := trimmed.compact.child outer child
      exact ⟨.leaf outer i, trivial, by simp [FileSlot.path], mapped⟩
  obtain ⟨d, isData, onPath, mapped⟩ := below
  obtain ⟨near, before⟩ := trimmed.data_kept isData mapped
  intro emptied
  have far := emptied d.logical (logical_lt isData)
  unfold Inode.mapped at far
  rw [place_logical isData] at far
  exact absurd (far onPath before) (Nat.not_le.2 near)

/-- A slot with data below the new end under it is left as it was. -/
theorem kept_of_not_emptied (stays : ¬EmptiedBy n (vol.inodes ino) blocks s) :
    fileRef (vol'.inodes ino) blocks' s = fileRef (vol.inodes ino) blocks s := by
  unfold EmptiedBy at stays
  push Not at stays
  obtain ⟨l, small, onPath, mapped, near⟩ := stays
  have after : fileRef (vol'.inodes ino) blocks' (place l) ≠ none := by
    rw [trimmed.data _ (place_isData l), logical_place small, if_pos near]
    exact mapped
  obtain ⟨block, points⟩ := Option.ne_none_iff_exists'.1 (path_present after onPath)
  rw [points, trimmed.shrunk.shrinks s block points]

/-- Exactly the emptied slots are empty, and the others are as they were. -/
theorem points_iff : fileRef (vol'.inodes ino) blocks' s = some b ↔
    fileRef (vol.inodes ino) blocks s = some b ∧ ¬EmptiedBy n (vol.inodes ino) blocks s := by
  constructor
  · intro points
    refine ⟨trimmed.shrunk.shrinks s b points, trimmed.not_emptied ?_⟩
    rw [points]
    simp
  · rintro ⟨points, stays⟩
    rw [trimmed.kept_of_not_emptied stays, points]

end Trimmed

/-! ## Counting blocks in use -/

/-- When the blocks of a set, all in use, are given back, that many fewer are in use. -/
theorem Volume.usedCount_drop {dropped : Finset UInt32} (inUse : ∀ b ∈ dropped, vol.allocated b)
    (left : ∀ b, vol'.allocated b ↔ vol.allocated b ∧ b ∉ dropped) :
    vol.usedCount = vol'.usedCount + dropped.card := by
  have inside : dropped ⊆ vol.usedBlocks := by
    intro b member
    exact (vol.mem_usedBlocks b).2 (inUse b member)
  have rest : vol'.usedBlocks = vol.usedBlocks \ dropped := by
    ext b
    rw [Finset.mem_sdiff, vol.mem_usedBlocks, vol'.mem_usedBlocks, left]
  have fewer := Finset.card_sdiff_of_subset inside
  have bound := Finset.card_le_card inside
  rw [← rest] at fewer
  rw [← vol.card_usedBlocks, ← vol'.card_usedBlocks, fewer]
  omega

/-! ## The blocks that are given back -/

/-- The slots of a file that point to a block and are emptied. -/
noncomputable def emptiedSlots (n : Nat) (inode : Inode) (blocks : Blocks) : Finset FileSlot :=
  open Classical in
  Finset.univ.filter fun s => fileRef inode blocks s ≠ none ∧ EmptiedBy n inode blocks s

/-- The blocks they point to. -/
noncomputable def emptiedBlocks (n : Nat) (inode : Inode) (blocks : Blocks) : Finset UInt32 :=
  (emptiedSlots n inode blocks).image fun s => blockNumber (fileRef inode blocks s)

theorem mem_emptiedBlocks {inode : Inode} : b ∈ emptiedBlocks n inode blocks ↔
    ∃ s, fileRef inode blocks s = some b ∧ EmptiedBy n inode blocks s := by
  unfold emptiedBlocks emptiedSlots
  simp only [Finset.mem_image, Finset.mem_filter, Finset.mem_univ, true_and]
  constructor
  · rintro ⟨s, ⟨present, emptied⟩, same⟩
    obtain ⟨block, points⟩ := Option.ne_none_iff_exists'.1 present
    rw [points] at same
    exact ⟨s, points.trans (congrArg some same), emptied⟩
  · rintro ⟨s, points, emptied⟩
    exact ⟨s, ⟨by simp [points], emptied⟩, by rw [points]; rfl⟩

/-- In terms of logical blocks: the data at or past the new end, and the tables on the way to
nothing but such data. -/
theorem mem_emptiedBlocks_iff {inode : Inode} : b ∈ emptiedBlocks n inode blocks ↔
    (∃ l < maxFileBlocks, n ≤ l ∧ inode.mapped blocks l = some b) ∨
      ∃ t : FileSlot, t.IsTable ∧ fileRef inode blocks t = some b ∧
        ∀ l < maxFileBlocks, t ∈ (place l).path → inode.mapped blocks l ≠ none → n ≤ l := by
  rw [mem_emptiedBlocks]
  constructor
  · rintro ⟨s, points, emptied⟩
    have data : s.IsData → (∃ l < maxFileBlocks, n ≤ l ∧ inode.mapped blocks l = some b) := by
      intro isData
      refine ⟨s.logical, logical_lt isData, (emptiedBy_data isData (by simp [points])).1 emptied, ?_⟩
      unfold Inode.mapped
      rw [place_logical isData, points]
    cases s with
    | direct i => exact .inl (data trivial)
    | entry i => exact .inl (data trivial)
    | leaf outer i => exact .inl (data trivial)
    | single => exact .inr ⟨.single, trivial, points, emptied⟩
    | root => exact .inr ⟨.root, trivial, points, emptied⟩
    | child outer => exact .inr ⟨.child outer, trivial, points, emptied⟩
  · intro either
    cases either with
    | inl data =>
      obtain ⟨l, small, far, points⟩ := data
      have mapped : fileRef inode blocks (place l) ≠ none := by
        unfold Inode.mapped at points
        simp [points]
      refine ⟨place l, points, (emptiedBy_data (place_isData l) mapped).2 ?_⟩
      rwa [logical_place small]
    | inr table =>
      obtain ⟨t, _, points, emptied⟩ := table
      exact ⟨t, points, emptied⟩

namespace Trimmed

variable (trimmed : Trimmed count n vol vol' blocks blocks' ino)
  (accounted : Accounted count vol blocks [])
include trimmed accounted

/-- The slots of the other inodes point where they pointed. -/
theorem others_ref {j : Fin 64} (other : j ≠ ino) :
    fileRef (vol'.inodes j) blocks' = fileRef (vol.inodes j) blocks := by
  rw [trimmed.shrunk.others j other]
  funext s
  apply fileRef_congr
  intro t _ block points
  exact trimmed.shrunk.blocks block fun u _ => FileStep.apart accounted other points u

/-- A block stays in use unless it is one of the emptied ones. -/
theorem allocated_iff : vol'.allocated b ↔
    vol.allocated b ∧ b ∉ emptiedBlocks n (vol.inodes ino) blocks := by
  have owned := accounted.ledger.used_iff b
  have owned' := trimmed.shrunk.accounted.ledger.used_iff b
  simp only [List.not_mem_nil, false_or] at owned owned'
  rw [owned, owned', mem_emptiedBlocks]
  constructor
  · rintro ⟨⟨j, s⟩, points⟩
    by_cases here : j = ino
    · subst here
      obtain ⟨before, stays⟩ := trimmed.points_iff.1 points
      refine ⟨⟨(j, s), before⟩, ?_⟩
      rintro ⟨t, too, emptied⟩
      -- only one slot points to a block
      cases accounted.ledger.injective (s := (j, s)) (t := (j, t)) before too
      exact stays emptied
    · have before : ref vol blocks (j, s) = some b := by
        unfold ref at points ⊢
        rwa [trimmed.others_ref accounted here] at points
      refine ⟨⟨(j, s), before⟩, ?_⟩
      rintro ⟨t, too, _⟩
      exact FileStep.apart accounted here before t too
  · rintro ⟨⟨⟨j, s⟩, points⟩, notEmptied⟩
    by_cases here : j = ino
    · subst here
      refine ⟨(j, s), trimmed.points_iff.2 ⟨points, ?_⟩⟩
      exact fun emptied => notEmptied ⟨s, points, emptied⟩
    · refine ⟨(j, s), ?_⟩
      unfold ref at points ⊢
      rwa [trimmed.others_ref accounted here]

/-- The bits of the volume's blocks: those of the emptied blocks are cleared, no other changes. -/
theorem bits (inside : b < vol.sb.totalBlocks) : vol'.bit b.toNat =
    (vol.bit b.toNat && !decide (b ∈ emptiedBlocks n (vol.inodes ino) blocks)) := by
  have sb := trimmed.shrunk.sb
  have start : vol'.sb.dataStart = vol.sb.dataStart := by rw [sb]
  have total : vol'.sb.totalBlocks = vol.sb.totalBlocks := by rw [sb]
  by_cases inData : vol.sb.dataStart ≤ b
  · have used : vol.allocated b ↔ vol.bit b.toNat = true :=
      ⟨fun inUse => inUse.2.2, fun set => ⟨inData, inside, set⟩⟩
    have used' : vol'.allocated b ↔ vol'.bit b.toNat = true := by
      refine ⟨fun inUse => inUse.2.2, fun set => ⟨?_, ?_, set⟩⟩
      · rwa [start]
      · rwa [total]
    rw [Bool.eq_iff_iff, ← used', trimmed.allocated_iff accounted, used, Bool.and_eq_true,
      Bool.not_eq_true', decide_eq_false_iff_not]
  · -- the blocks of the metadata are marked before and after, and no slot points there
    have before : b.toNat < vol.sb.dataStart.toNat := by
      rw [UInt32.le_iff_toNat_le] at inData
      omega
    have absent : b ∉ emptiedBlocks n (vol.inodes ino) blocks := by
      intro member
      obtain ⟨s, points, _⟩ := mem_emptiedBlocks.1 member
      exact inData (accounted.allocated_of_fileRef points).1
    rw [accounted.metadataBits _ before,
      trimmed.shrunk.accounted.metadataBits _ (start ▸ before), decide_eq_false absent]
    rfl

/-- `free_blocks` grows by the number of emptied blocks. -/
theorem free_grows : vol'.sb.freeBlocks.toNat =
    vol.sb.freeBlocks.toNat + (emptiedBlocks n (vol.inodes ino) blocks).card := by
  have space := accounted.space
  have space' := trimmed.shrunk.accounted.space
  have fewer : vol.usedCount =
      vol'.usedCount + (emptiedBlocks n (vol.inodes ino) blocks).card := by
    apply Volume.usedCount_drop
    · intro b member
      obtain ⟨s, points, _⟩ := mem_emptiedBlocks.1 member
      exact accounted.allocated_of_fileRef points
    · exact fun b => trimmed.allocated_iff accounted
  have start : vol'.sb.dataStart = vol.sb.dataStart := by rw [trimmed.shrunk.sb]
  have total : vol'.sb.totalBlocks = vol.sb.totalBlocks := by rw [trimmed.shrunk.sb]
  unfold Volume.Space at space space'
  rw [start, total] at space'
  omega

end Trimmed

/-! ## Truncating to `n` blocks -/

/-- On the container, as long as the requests are served, truncation is what it is on the
decrypted blocks. -/
theorem exec_truncate_served (roundTrip : crypto.SectorRoundTrip)
    (holds : Holds crypto mount vol disk) (ino : Fin 64) (n : Nat)
    (served : mount.Serves crypto (truncateFileBlocks ino n) vol disk) :
    ∃ vol' disk', Trimmed mount.blockCount n vol vol' (mount.blocks crypto disk.container)
        (mount.blocks crypto disk'.container) ino ∧
      Prog.exec (volumeDevice crypto mount) (truncateFileBlocks ino n) (vol, disk) =
        (.ok (), vol', disk') := by
  obtain ⟨vol', blocks', trimmed, returns⟩ :=
    exec_truncateFileBlocks n holds.sound.accounted (holds.sound.counted ino)
  obtain ⟨outcome, memory, _, image⟩ := exec_steady roundTrip holds.placed served
  rw [returns] at outcome memory image
  refine ⟨vol', _, ?_, Prod.ext outcome (Prod.ext memory rfl)⟩
  rw [image]
  exact trimmed

/-- `truncate_file_blocks` keeps what lies below the new end and gives back exactly the rest: the
data at or past it and the tables that became empty. -/
theorem truncate_frees_tail (roundTrip : crypto.SectorRoundTrip)
    (holds : Holds crypto mount vol disk) (ino : Fin 64) (n : Nat)
    (served : mount.Serves crypto (truncateFileBlocks ino n) vol disk) :
    ∃ (vol' : Volume) (disk' : Disk) (released : Finset UInt32),
      let before := mount.blocks crypto disk.container
      let after := mount.blocks crypto disk'.container
      Prog.exec (volumeDevice crypto mount) (truncateFileBlocks ino n) (vol, disk) =
        (.ok (), vol', disk') ∧
      (∀ l < n, foundBlock crypto mount vol' disk' ino l = foundBlock crypto mount vol disk ino l) ∧
      (∀ l < maxFileBlocks, n ≤ l → foundBlock crypto mount vol' disk' ino l = .ok invalidBlock) ∧
      (∀ b, b ∈ released ↔
        (∃ l < maxFileBlocks, n ≤ l ∧ (vol.inodes ino).mapped before l = some b) ∨
          ∃ t : FileSlot, t.IsTable ∧ fileRef (vol.inodes ino) before t = some b ∧
            ∀ l < maxFileBlocks, t ∈ (place l).path →
              (vol.inodes ino).mapped before l ≠ none → n ≤ l) ∧
      (∀ b < vol.sb.totalBlocks,
        (vol.bit b.toNat = true ∧ vol'.bit b.toNat = false ↔ b ∈ released) ∧
          (vol.bit b.toNat = false → vol'.bit b.toNat = false)) ∧
      vol'.sb.freeBlocks.toNat = vol.sb.freeBlocks.toNat + released.card ∧
      Compact (vol'.inodes ino) after ∧
      (vol'.inodes ino).blockCount.toNat = (mappedSlots (vol'.inodes ino) after).card := by
  have accounted := holds.sound.accounted
  obtain ⟨vol', disk', trimmed, returns⟩ := exec_truncate_served roundTrip holds ino n served
  have accounted' := trimmed.shrunk.accounted
  have mapped : ∀ l < maxFileBlocks, (vol'.inodes ino).mapped
      (mount.blocks crypto disk'.container) l =
        if l < n then (vol.inodes ino).mapped (mount.blocks crypto disk.container) l
        else none := by
    intro l small
    unfold Inode.mapped
    rw [trimmed.data _ (place_isData l), logical_place small]
  refine ⟨vol', disk', emptiedBlocks n (vol.inodes ino) (mount.blocks crypto disk.container),
    returns, ?_, ?_, fun b => mem_emptiedBlocks_iff, ?_, trimmed.free_grows accounted,
    trimmed.compact, trimmed.counted⟩
  · intro l near
    apply foundBlock_congr accounted accounted'
    intro small
    rw [mapped l small, if_pos near]
  · intro l small far
    rw [foundBlock_eq accounted' ino small, mapped l small, if_neg (Nat.not_lt.2 far)]
    rfl
  · intro b inside
    rw [trimmed.bits accounted inside]
    constructor
    · constructor
      · rintro ⟨set, cleared⟩
        simpa [set] using cleared
      · intro member
        obtain ⟨s, points, _⟩ := mem_emptiedBlocks.1 member
        have set := (accounted.allocated_of_fileRef points).2.2
        simp [set, member]
    · intro clear
      simp [clear]

/-- A small container in which a write has run out of space: its file has no size, but blocks. -/
theorem smallContainer_overfull :
    ∃ disk vol, ∃ ino : Fin 64, Reached transparentCrypto (outerMount zeroRandomness 4) vol disk ∧
      (vol.inodes ino).type = itypeFile ∧ (vol.inodes ino).size = 0 ∧
      fileRef (vol.inodes ino) ((outerMount zeroRandomness 4).blocks transparentCrypto
        disk.container) (.direct 0) ≠ none := by
  obtain ⟨disk, vol, ino, reached, _, file, blank, free⟩ := smallContainer_file
  have shows := reached.shows transparentCrypto_sectors
  have same : inodeOf (UInt32.ofNat ino.val) = ino := ofNat_ino ino
  have small := ofNat_ino_lt ino
  generalize UInt32.ofNat ino.val = number at small same
  subst same
  let overflowing : Call := .write 0 number (List.replicate 2097152 1) 0
  obtain ⟨_, memory, image, _⟩ := call_plain transparentCrypto_sectors shows.unprotected
    shows.decrypts overflowing vol
  obtain ⟨_, type, size, mapped, _⟩ := shows.sound.write_overflows small file blank free
  rw [← memory] at type size mapped
  rw [← image] at mapped
  exact ⟨_, _, _, reached.called overflowing, type, size, mapped⟩

/-- Truncating that file to nothing. -/
theorem truncate_frees_tail_small :
    ∃ disk vol, ∃ ino : Fin 64, ∃ vol' disk',
      Reached transparentCrypto (outerMount zeroRandomness 4) vol disk ∧
      fileRef (vol.inodes ino) ((outerMount zeroRandomness 4).blocks transparentCrypto
        disk.container) (.direct 0) ≠ none ∧
      Prog.exec (volumeDevice transparentCrypto (outerMount zeroRandomness 4))
        (truncateFileBlocks ino 0) (vol, disk) = (.ok (), vol', disk') ∧
      foundBlock transparentCrypto (outerMount zeroRandomness 4) vol' disk' ino 0 =
        .ok invalidBlock := by
  obtain ⟨disk, vol, ino, reached, _, _, mapped⟩ := smallContainer_overfull
  have shows := reached.shows transparentCrypto_sectors
  obtain ⟨vol', disk', _, returns, _, unmapped, _⟩ := truncate_frees_tail transparentCrypto_sectors
    shows.holds ino 0 (shows.serves transparentCrypto_sectors _)
  exact ⟨disk, vol, ino, vol', disk', reached, mapped, returns,
    unmapped 0 (by decide) (Nat.zero_le 0)⟩

/-! ## Releasing an inode -/

/-- The inode has no pointers and counts no blocks. -/
structure Inode.Unmapped (inode : Inode) : Prop where
  direct : ∀ i, inode.direct i = invalidBlock
  indirectBlock : inode.indirectBlock = invalidBlock
  doubleIndirectBlock : inode.doubleIndirectBlock = invalidBlock
  blockCount : inode.blockCount = 0

/-- A file truncated to nothing. -/
theorem Trimmed.unmappedInode (trimmed : Trimmed count 0 vol vol' blocks blocks' ino) :
    (vol'.inodes ino).Unmapped where
  direct i := pointer_eq_none.1 (trimmed.unmapped (.direct i))
  indirectBlock := pointer_eq_none.1 (trimmed.unmapped .single)
  doubleIndirectBlock := pointer_eq_none.1 (trimmed.unmapped .root)
  blockCount := by
    have none : mappedSlots (vol'.inodes ino) blocks' = ∅ := by
      apply Finset.eq_empty_of_forall_notMem
      intro s member
      exact (mem_mappedSlots.1 member).2 (trimmed.unmapped s)
    have counted := trimmed.counted
    unfold CountedAt at counted
    rw [none, Finset.card_empty] at counted
    exact UInt32.toNat_inj.1 counted

/-- `free_inode` and `truncate_file_blocks(inode, 0)` give back the same blocks: from the same
state they leave the same bitmap and the same `free_blocks`, and the bits of all blocks the inode
did not own are as they were.  Nothing is asked of the size of the file. -/
theorem release_is_truncation (roundTrip : crypto.SectorRoundTrip)
    (holds : Holds crypto mount vol disk) (ino : Fin 64)
    (served : mount.Serves crypto (truncateFileBlocks ino 0) vol disk) :
    ∃ (freed cut : Volume) (freedDisk cutDisk : Disk),
      Prog.exec (volumeDevice crypto mount) (freeInode ino) (vol, disk) =
        (.ok (), freed, freedDisk) ∧
      Prog.exec (volumeDevice crypto mount) (truncateFileBlocks ino 0) (vol, disk) =
        (.ok (), cut, cutDisk) ∧
      freed.bitmap = cut.bitmap ∧ freed.sb.freeBlocks = cut.sb.freeBlocks ∧
      (freed.inodes ino).Unmapped ∧ (cut.inodes ino).Unmapped ∧
      ∀ b < vol.sb.totalBlocks,
        (∀ s, fileRef (vol.inodes ino) (mount.blocks crypto disk.container) s ≠ some b) →
          freed.bit b.toNat = vol.bit b.toNat ∧ cut.bit b.toNat = vol.bit b.toNat := by
  obtain ⟨cut, cutDisk, trimmed, truncates⟩ :=
    exec_truncate_served roundTrip holds ino 0 served
  have frees : Prog.exec (volumeDevice crypto mount) (freeInode ino) (vol, disk) = _ :=
    exec_freeInode_eq (volumeDevice crypto mount) vol disk
  rw [truncates] at frees
  have unmapped := trimmed.unmappedInode
  have bits : ∀ b < vol.sb.totalBlocks,
      (∀ s, fileRef (vol.inodes ino) (mount.blocks crypto disk.container) s ≠ some b) →
        cut.bit b.toNat = vol.bit b.toNat := by
    intro b inside foreign
    have absent : b ∉ emptiedBlocks 0 (vol.inodes ino) (mount.blocks crypto disk.container) := by
      intro member
      obtain ⟨s, points, _⟩ := mem_emptiedBlocks.1 member
      exact foreign s points
    rw [trimmed.bits holds.sound.accounted inside, decide_eq_false absent]
    simp
  refine ⟨cut.blankInode ino, cut, cutDisk, cutDisk, frees, truncates, rfl, rfl, ?_, unmapped, ?_⟩
  · rw [blankInode_self]
    exact ⟨unmapped.direct, unmapped.indirectBlock, unmapped.doubleIndirectBlock, rfl⟩
  · intro b inside foreign
    exact ⟨bits b inside foreign, bits b inside foreign⟩

/-- A file that a failed write left with blocks past its end. -/
theorem release_is_truncation_small :
    ∃ disk vol, ∃ ino : Fin 64, ∃ freed cut freedDisk cutDisk,
      Reached transparentCrypto (outerMount zeroRandomness 4) vol disk ∧
      (vol.inodes ino).size = 0 ∧
      fileRef (vol.inodes ino) ((outerMount zeroRandomness 4).blocks transparentCrypto
        disk.container) (.direct 0) ≠ none ∧
      Prog.exec (volumeDevice transparentCrypto (outerMount zeroRandomness 4)) (freeInode ino)
        (vol, disk) = (.ok (), freed, freedDisk) ∧
      Prog.exec (volumeDevice transparentCrypto (outerMount zeroRandomness 4))
        (truncateFileBlocks ino 0) (vol, disk) = (.ok (), cut, cutDisk) ∧
      freed.bitmap = cut.bitmap := by
  obtain ⟨disk, vol, ino, reached, _, size, mapped⟩ := smallContainer_overfull
  have shows := reached.shows transparentCrypto_sectors
  obtain ⟨freed, cut, freedDisk, cutDisk, frees, truncates, same, _⟩ :=
    release_is_truncation transparentCrypto_sectors shows.holds ino
      (shows.serves transparentCrypto_sectors _)
  exact ⟨disk, vol, ino, freed, cut, freedDisk, cutDisk, reached, size, mapped, frees, truncates,
    same⟩

end DenyFS
