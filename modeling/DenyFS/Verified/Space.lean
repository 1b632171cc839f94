import DenyFS.Verified.Ownership

/-! # How much room a write needs

`blocksNeeded` counts, as a reader of the sources would, the blocks a write has to take: one for
every block of the range that is not mapped, and the pointer tables these need and the file does
not have.  It is the number of empty slots the write fills. -/

namespace DenyFS

open Packed BlockProgram Ownership

variable {inode : Inode} {disk : Blocks}

/-- The logical blocks of a range that are not mapped. -/
def unmappedBlocks (inode : Inode) (disk : Blocks) (offset len : Nat) : List Nat :=
  (touchedBlocks offset len).filter fun l => (fileRef inode disk (place l)).isNone

/-- The children of the double-indirect root that blocks need and the file does not have. -/
def missingChildren (inode : Inode) (disk : Blocks) (unmapped : List Nat) : Finset Nat :=
  ((unmapped.filter fun l => 1044 ≤ l).map fun l => (l - 1044) / 1024).toFinset.filter
    fun outer => inode.rootTable disk (Fin.ofNat 1024 outer) = invalidBlock

/-- The blocks a write of `len` bytes at `offset` has to take. -/
def blocksNeeded (inode : Inode) (disk : Blocks) (offset len : Nat) : Nat :=
  let unmapped := unmappedBlocks inode disk offset len
  unmapped.length
    + (if inode.indirectBlock = invalidBlock ∧ ∃ l ∈ unmapped, 20 ≤ l ∧ l < 1044 then 1 else 0)
    + (if inode.doubleIndirectBlock = invalidBlock ∧ ∃ l ∈ unmapped, 1044 ≤ l then 1 else 0)
    + (missingChildren inode disk unmapped).card

/-! ## Paths of logical blocks -/

theorem unmappedBlocks_le (inode : Inode) (disk : Blocks) (offset len : Nat) :
    (unmappedBlocks inode disk offset len).length ≤ blocksNeeded inode disk offset len := by
  simp only [blocksNeeded]
  omega

theorem place_direct {l : Nat} (small : l < 20) : place l = .direct (Fin.ofNat 20 l) := if_pos small

theorem place_entry {l : Nat} (lower : 20 ≤ l) (upper : l < 1044) :
    place l = .entry (Fin.ofNat 1024 (l - 20)) := by
  rw [place, if_neg (by omega), if_pos (by omega)]

theorem place_leaf {l : Nat} (lower : 1044 ≤ l) :
    place l = .leaf (Fin.ofNat 1024 ((l - 1044) / 1024)) (Fin.ofNat 1024 ((l - 1044) % 1024)) := by
  rw [place, if_neg (by omega), if_neg (by omega), show l - 20 - 1024 = l - 1044 by omega]

theorem single_mem_path {l : Nat} : .single ∈ (place l).path ↔ 20 ≤ l ∧ l < 1044 := by
  by_cases lower : l < 20
  · rw [place_direct lower]
    simp only [FileSlot.path, List.mem_singleton, reduceCtorEq, false_iff]
    omega
  by_cases upper : l < 1044
  · rw [place_entry (by omega) upper]
    simp only [FileSlot.path, List.mem_cons, true_or, true_iff]
    omega
  · rw [place_leaf (by omega)]
    simp only [FileSlot.path, List.mem_cons, reduceCtorEq, List.mem_nil_iff, or_false, false_iff]
    omega

theorem root_mem_path {l : Nat} : .root ∈ (place l).path ↔ 1044 ≤ l := by
  by_cases lower : l < 20
  · rw [place_direct lower]
    simp only [FileSlot.path, List.mem_singleton, reduceCtorEq, false_iff]
    omega
  by_cases upper : l < 1044
  · rw [place_entry (by omega) upper]
    simp only [FileSlot.path, List.mem_cons, reduceCtorEq, List.mem_nil_iff, or_false, false_iff]
    omega
  · rw [place_leaf (by omega)]
    simp only [FileSlot.path, List.mem_cons, true_or, true_iff]
    omega

theorem child_mem_path {l : Nat} {outer : Fin 1024} :
    .child outer ∈ (place l).path ↔ 1044 ≤ l ∧ Fin.ofNat 1024 ((l - 1044) / 1024) = outer := by
  by_cases lower : l < 20
  · rw [place_direct lower]
    simp only [FileSlot.path, List.mem_singleton, reduceCtorEq, false_iff]
    omega
  by_cases upper : l < 1044
  · rw [place_entry (by omega) upper]
    simp only [FileSlot.path, List.mem_cons, reduceCtorEq, List.mem_nil_iff, or_false, false_iff]
    omega
  · rw [place_leaf (by omega)]
    simp only [FileSlot.path, List.mem_cons, reduceCtorEq, List.mem_nil_iff, or_false, false_or,
      FileSlot.child.injEq]
    constructor
    · intro same
      exact ⟨by omega, same.symm⟩
    · intro same
      exact same.2.symm

/-! ## The count -/

theorem touchedBlocks_nodup (offset len : Nat) : (touchedBlocks offset len).Nodup :=
  List.nodup_range'

theorem unmappedBlocks_nodup (offset len : Nat) : (unmappedBlocks inode disk offset len).Nodup :=
  (touchedBlocks_nodup offset len).filter _

theorem mem_unmappedBlocks {offset len l : Nat} :
    l ∈ unmappedBlocks inode disk offset len ↔
      l ∈ touchedBlocks offset len ∧ fileRef inode disk (place l) = none := by
  unfold unmappedBlocks
  rw [List.mem_filter, Option.isNone_iff_eq_none]

/-- A range below the size limit touches only blocks the block map has places for. -/
theorem touchedBlocks_small {offset len l : Nat} (fits : offset + len ≤ maxFileSize)
    (touched : l ∈ touchedBlocks offset len) : l < 1048576 := by
  obtain ⟨i, _, upper, rfl⟩ := mem_touchedBlocks.1 touched
  have limit : maxFileSize = 1048576 * 4096 := rfl
  omega

/-- A block below a missing table is not mapped. -/
theorem unmapped_of_path {l : Nat} {t : FileSlot} (onPath : t ∈ (place l).path)
    (missing : fileRef inode disk t = none) : fileRef inode disk (place l) = none := by
  by_contra mapped
  exact path_present mapped onPath missing

section Parts

variable (inode disk) (offset len : Nat)

/-- The empty data slots of the range. -/
def dataPart : Finset FileSlot := (unmappedBlocks inode disk offset len).toFinset.image place

def singlePart : Finset FileSlot :=
  if inode.indirectBlock = invalidBlock ∧
      ∃ l ∈ unmappedBlocks inode disk offset len, 20 ≤ l ∧ l < 1044 then {.single} else ∅

def rootPart : Finset FileSlot :=
  if inode.doubleIndirectBlock = invalidBlock ∧
      ∃ l ∈ unmappedBlocks inode disk offset len, 1044 ≤ l then {.root} else ∅

def childPart : Finset FileSlot :=
  (missingChildren inode disk (unmappedBlocks inode disk offset len)).image fun outer =>
    .child (Fin.ofNat 1024 outer)

end Parts

variable {offset len : Nat}

theorem mem_missingChildren {unmapped : List Nat} {outer : Nat} :
    outer ∈ missingChildren inode disk unmapped ↔
      (∃ l ∈ unmapped, 1044 ≤ l ∧ (l - 1044) / 1024 = outer) ∧
        inode.rootTable disk (Fin.ofNat 1024 outer) = invalidBlock := by
  unfold missingChildren
  rw [Finset.mem_filter, List.mem_toFinset, List.mem_map]
  simp only [List.mem_filter, decide_eq_true_eq, and_assoc]

theorem touches {l : Nat} {t : FileSlot} (touched : l ∈ touchedBlocks offset len)
    (onPath : t ∈ (place l).path) (missing : fileRef inode disk t = none) :
    l ∈ unmappedBlocks inode disk offset len :=
  mem_unmappedBlocks.2 ⟨touched, unmapped_of_path onPath missing⟩

theorem mem_needed_data {s : FileSlot} (isData : s.IsData) :
    s ∈ neededSlots inode disk (touchedBlocks offset len) ↔
      s ∈ dataPart inode disk offset len := by
  rw [mem_neededSlots, dataPart, Finset.mem_image]
  constructor
  · rintro ⟨missing, l, touched, onPath⟩
    have same := path_isData onPath isData
    exact ⟨l, List.mem_toFinset.2 (touches touched onPath missing), same.symm⟩
  · rintro ⟨l, listed, rfl⟩
    obtain ⟨touched, missing⟩ := mem_unmappedBlocks.1 (List.mem_toFinset.1 listed)
    exact ⟨missing, l, touched, self_mem_path _⟩

theorem mem_needed_single : .single ∈ neededSlots inode disk (touchedBlocks offset len) ↔
    inode.indirectBlock = invalidBlock ∧
      ∃ l ∈ unmappedBlocks inode disk offset len, 20 ≤ l ∧ l < 1044 := by
  rw [mem_neededSlots]
  constructor
  · rintro ⟨missing, l, touched, onPath⟩
    exact ⟨pointer_eq_none.1 missing, l, touches touched onPath missing, single_mem_path.1 onPath⟩
  · rintro ⟨missing, l, listed, range⟩
    exact ⟨pointer_eq_none.2 missing, l, (mem_unmappedBlocks.1 listed).1, single_mem_path.2 range⟩

theorem mem_needed_root : .root ∈ neededSlots inode disk (touchedBlocks offset len) ↔
    inode.doubleIndirectBlock = invalidBlock ∧
      ∃ l ∈ unmappedBlocks inode disk offset len, 1044 ≤ l := by
  rw [mem_neededSlots]
  constructor
  · rintro ⟨missing, l, touched, onPath⟩
    exact ⟨pointer_eq_none.1 missing, l, touches touched onPath missing, root_mem_path.1 onPath⟩
  · rintro ⟨missing, l, listed, range⟩
    exact ⟨pointer_eq_none.2 missing, l, (mem_unmappedBlocks.1 listed).1, root_mem_path.2 range⟩

theorem mem_needed_child {outer : Fin 1024} :
    .child outer ∈ neededSlots inode disk (touchedBlocks offset len) ↔
      .child outer ∈ childPart inode disk offset len := by
  rw [mem_neededSlots, childPart, Finset.mem_image]
  constructor
  · rintro ⟨missing, l, touched, onPath⟩
    obtain ⟨lower, same⟩ := child_mem_path.1 onPath
    refine ⟨(l - 1044) / 1024, mem_missingChildren.2 ⟨⟨l, touches touched onPath missing, lower,
      rfl⟩, ?_⟩, by rw [same]⟩
    rw [same]
    exact pointer_eq_none.1 missing
  · rintro ⟨n, member, same⟩
    obtain ⟨⟨l, listed, lower, rfl⟩, missing⟩ := mem_missingChildren.1 member
    have outerEq := FileSlot.child.inj same
    rw [outerEq] at missing
    exact ⟨pointer_eq_none.2 missing, l, (mem_unmappedBlocks.1 listed).1,
      child_mem_path.2 ⟨lower, outerEq⟩⟩

theorem not_mem_dataPart {s : FileSlot} (table : ¬s.IsData) : s ∉ dataPart inode disk offset len := by
  intro member
  obtain ⟨l, _, rfl⟩ := Finset.mem_image.1 member
  exact table (place_isData l)

theorem mem_singlePart {s : FileSlot} : s ∈ singlePart inode disk offset len ↔
    s = .single ∧ inode.indirectBlock = invalidBlock ∧
      ∃ l ∈ unmappedBlocks inode disk offset len, 20 ≤ l ∧ l < 1044 := by
  unfold singlePart
  split
  next holds => simp only [Finset.mem_singleton, holds, and_true]
  next fails => simp only [Finset.notMem_empty, fails, and_false]

theorem mem_rootPart {s : FileSlot} : s ∈ rootPart inode disk offset len ↔
    s = .root ∧ inode.doubleIndirectBlock = invalidBlock ∧
      ∃ l ∈ unmappedBlocks inode disk offset len, 1044 ≤ l := by
  unfold rootPart
  split
  next holds => simp only [Finset.mem_singleton, holds, and_true]
  next fails => simp only [Finset.notMem_empty, fails, and_false]

theorem childPart_child {s : FileSlot} (member : s ∈ childPart inode disk offset len) :
    ∃ outer, s = .child outer := by
  obtain ⟨outer, _, rfl⟩ := Finset.mem_image.1 member
  exact ⟨_, rfl⟩

/-- Every empty slot of the range is of one of the four kinds. -/
theorem neededSlots_eq :
    neededSlots inode disk (touchedBlocks offset len) =
      dataPart inode disk offset len ∪ singlePart inode disk offset len ∪
        rootPart inode disk offset len ∪ childPart inode disk offset len := by
  ext s
  simp only [Finset.mem_union, mem_singlePart, mem_rootPart]
  by_cases isData : s.IsData
  · rw [mem_needed_data isData]
    constructor
    · exact fun member => .inl (.inl (.inl member))
    · rintro (((member | ⟨rfl, _⟩) | ⟨rfl, _⟩) | member)
      · exact member
      · exact isData.elim
      · exact isData.elim
      · obtain ⟨outer, rfl⟩ := childPart_child member
        exact isData.elim
  have noData : s ∉ dataPart inode disk offset len := not_mem_dataPart isData
  cases s with
  | single =>
    rw [mem_needed_single]
    constructor
    · exact fun holds => .inl (.inl (.inr ⟨rfl, holds⟩))
    · rintro (((member | holds) | ⟨impossible, _⟩) | member)
      · exact absurd member noData
      · exact holds.2
      · cases impossible
      · obtain ⟨outer, impossible⟩ := childPart_child member
        cases impossible
  | root =>
    rw [mem_needed_root]
    constructor
    · exact fun holds => .inl (.inr ⟨rfl, holds⟩)
    · rintro (((member | ⟨impossible, _⟩) | holds) | member)
      · exact absurd member noData
      · cases impossible
      · exact holds.2
      · obtain ⟨outer, impossible⟩ := childPart_child member
        cases impossible
  | child outer =>
    rw [mem_needed_child]
    constructor
    · exact .inr
    · rintro (((member | ⟨impossible, _⟩) | ⟨impossible, _⟩) | member)
      · exact absurd member noData
      · cases impossible
      · cases impossible
      · exact member
  | direct i => exact absurd trivial isData
  | entry i => exact absurd trivial isData
  | leaf outer i => exact absurd trivial isData

variable (inode disk) in
/-- The empty slots of the range are as many as the blocks the write has to take. -/
theorem card_neededSlots (fits : offset + len ≤ maxFileSize) :
    (neededSlots inode disk (touchedBlocks offset len)).card =
      blocksNeeded inode disk offset len := by
  have small : ∀ l ∈ unmappedBlocks inode disk offset len, l < 1048576 := fun l listed =>
    touchedBlocks_small fits (mem_unmappedBlocks.1 listed).1
  have limit : maxFileBlocks = 1049620 := rfl
  have data : (dataPart inode disk offset len).card =
      (unmappedBlocks inode disk offset len).length := by
    rw [dataPart, Finset.card_image_of_injOn, List.toFinset_card_of_nodup
      (unmappedBlocks_nodup offset len)]
    intro l listed k listed' same
    have first := small l (List.mem_toFinset.1 listed)
    have second := small k (List.mem_toFinset.1 listed')
    exact place_injective (by omega) (by omega) same
  have children : (childPart inode disk offset len).card =
      (missingChildren inode disk (unmappedBlocks inode disk offset len)).card := by
    rw [childPart, Finset.card_image_of_injOn]
    intro n member m member' same
    obtain ⟨⟨l, listed, _, rfl⟩, _⟩ := mem_missingChildren.1 member
    obtain ⟨⟨k, listed', _, rfl⟩, _⟩ := mem_missingChildren.1 member'
    have first := small l listed
    have second := small k listed'
    have values := congrArg Fin.val (FileSlot.child.inj same)
    simp only [Fin.ofNat] at values
    omega
  have single : (singlePart inode disk offset len).card =
      if inode.indirectBlock = invalidBlock ∧
        ∃ l ∈ unmappedBlocks inode disk offset len, 20 ≤ l ∧ l < 1044 then 1 else 0 := by
    unfold singlePart
    split <;> rfl
  have root : (rootPart inode disk offset len).card =
      if inode.doubleIndirectBlock = invalidBlock ∧
        ∃ l ∈ unmappedBlocks inode disk offset len, 1044 ≤ l then 1 else 0 := by
    unfold rootPart
    split <;> rfl
  have apartSingle : Disjoint (dataPart inode disk offset len)
      (singlePart inode disk offset len) := by
    refine Finset.disjoint_left.2 fun s inData inSingle => ?_
    rw [(mem_singlePart.1 inSingle).1] at inData
    exact not_mem_dataPart (s := .single) id inData
  have apartRoot : Disjoint (dataPart inode disk offset len ∪ singlePart inode disk offset len)
      (rootPart inode disk offset len) := by
    refine Finset.disjoint_left.2 fun s inFirst inRoot => ?_
    obtain rfl := (mem_rootPart.1 inRoot).1
    cases Finset.mem_union.1 inFirst with
    | inl inData => exact not_mem_dataPart (s := .root) id inData
    | inr inSingle => cases (mem_singlePart.1 inSingle).1
  have apartChild : Disjoint (dataPart inode disk offset len ∪ singlePart inode disk offset len ∪
      rootPart inode disk offset len) (childPart inode disk offset len) := by
    refine Finset.disjoint_left.2 fun s inFirst inChild => ?_
    obtain ⟨outer, rfl⟩ := childPart_child inChild
    cases Finset.mem_union.1 inFirst with
    | inl inFirst =>
      cases Finset.mem_union.1 inFirst with
      | inl inData => exact not_mem_dataPart (s := .child outer) id inData
      | inr inSingle => cases (mem_singlePart.1 inSingle).1
    | inr inRoot => cases (mem_rootPart.1 inRoot).1
  rw [neededSlots_eq, Finset.card_union_of_disjoint apartChild,
    Finset.card_union_of_disjoint apartRoot, Finset.card_union_of_disjoint apartSingle, data,
    single, root, children]
  rfl

/-! ## The write -/

theorem writeError_eq_none {vol : Volume} {number : UInt32} {len : Nat} {offset : UInt64}
    (small : number < 64) (file : (vol.inodes (inodeOf number)).type = itypeFile)
    (sized : len ≤ intMax) (fits : offset.toNat + len ≤ maxFileSize) :
    writeError vol number len offset = none := by
  have notLarge : ¬64 ≤ number := UInt32.not_le.2 small
  unfold inodeOf at file
  unfold writeError
  rw [if_neg (not_or.2 ⟨notLarge, Nat.not_lt.2 sized⟩), if_neg (not_not_intro file), if_neg (by omega)]

/-- A write whose arguments are accepted stores everything where its blocks are free, and takes
exactly these; where they are not it fails with `-ENOSPC`. -/
theorem write_fails_iff_full {crypto : Crypto} {mount : Mount} {vol : Volume} {disk : Disk}
    (roundTrip : crypto.SectorRoundTrip) (reached : Reached crypto mount vol disk) (now : UInt64)
    (number : UInt32) (buf : List UInt8) (offset : UInt64) (small : number < 64)
    (file : (vol.inodes (inodeOf number)).type = itypeFile) (sized : buf.length ≤ intMax)
    (fits : offset.toNat + buf.length ≤ maxFileSize) :
    let needed := blocksNeeded (vol.inodes (inodeOf number)) (mount.blocks crypto disk.container)
      offset.toNat buf.length
    let after := call crypto mount (volumeDevice crypto mount) (.write now number buf offset)
      (vol, disk)
    (needed ≤ vol.sb.freeBlocks.toNat →
      after.1 = .ok (.count buf.length) ∧
        after.2.1.sb.freeBlocks.toNat = vol.sb.freeBlocks.toNat - needed) ∧
    (vol.sb.freeBlocks.toNat < needed → after.1 = .error .enospc) := by
  intro needed after
  have shows := reached.shows roundTrip
  obtain ⟨outcome, memory, _⟩ := call_plain roundTrip shows.unprotected shows.decrypts
    (.write now number buf offset) vol
  have ends := shows.sound.exec_volWrite crypto mount now number buf offset
  have count := card_neededSlots (vol.inodes (inodeOf number))
    (mount.blocks crypto disk.container) fits
  have plain : call crypto mount (plainDevice mount.blockCount) (.write now number buf offset)
      (vol, mount.blocks crypto disk.container) =
      ((Prog.exec (plainDevice mount.blockCount) (volWrite crypto mount now number buf offset)
          (vol, mount.blocks crypto disk.container)).1.map .count,
        (Prog.exec (plainDevice mount.blockCount) (volWrite crypto mount now number buf offset)
          (vol, mount.blocks crypto disk.container)).2) := by
    unfold call
    rw [perform, Prog.exec_bind_pure]
  dsimp only [after]
  rw [outcome, memory, plain]
  generalize Prog.exec (plainDevice mount.blockCount) (volWrite crypto mount now number buf offset)
    (vol, mount.blocks crypto disk.container) = result at ends
  cases ends with
  | rejected error rejected =>
    rw [writeError_eq_none small file sized fits] at rejected
    cases rejected
  | written vol₁ disk₁ disk' accepted stored flushed =>
    have spent := stored.spent
    rw [count] at spent
    refine ⟨fun _ => ⟨rfl, ?_⟩, fun full => ?_⟩
    · have same : ((vol₁.setMeta (inodeOf number) (writtenSize (vol.inodes (inodeOf number)).size
          offset.toNat buf.length) now).flushed crypto mount).sb.freeBlocks =
          vol₁.sb.freeBlocks := rfl
      dsimp only
      rw [same]
      omega
    · omega
  | full m vol₁ disk₁ accepted stops stored full =>
    have grows := Finset.card_le_card (neededSlots_mono (vol.inodes (inodeOf number))
      (mount.blocks crypto disk.container)
      (List.take_subset (m + 1) (touchedBlocks offset.toNat buf.length)))
    refine ⟨fun room => ?_, fun _ => rfl⟩
    omega

theorem write_fails_iff_full_small :
    ∃ disk vol, ∃ ino : Fin 64, Reached transparentCrypto (outerMount zeroRandomness 4) vol disk ∧
      (vol.inodes ino).type = itypeFile ∧ vol.sb.freeBlocks.toNat = 507 ∧
      let after := call transparentCrypto (outerMount zeroRandomness 4)
        (volumeDevice transparentCrypto (outerMount zeroRandomness 4))
        (.write 0 (UInt32.ofNat ino.val) [1, 2, 3] 8192) (vol, disk)
      after.1 = .ok (.count 3) ∧ after.2.1.sb.freeBlocks.toNat = 506 := by
  obtain ⟨disk, vol, ino, reached, _, file, blank, free⟩ := smallContainer_file
  have small := ofNat_ino_lt ino
  have same : inodeOf (UInt32.ofNat ino.val) = ino := ofNat_ino ino
  have sized : ([1, 2, 3] : List UInt8).length ≤ intMax := by decide
  have fits : (8192 : UInt64).toNat + ([1, 2, 3] : List UInt8).length ≤ maxFileSize := by decide
  have space := write_fails_iff_full transparentCrypto_sectors reached 0 (UInt32.ofNat ino.val)
    [1, 2, 3] 8192 small (by rw [same]; exact file) sized fits
  rw [same] at space
  have refs : fileRef (vol.inodes ino) ((outerMount zeroRandomness 4).blocks transparentCrypto
      disk.container) = fun _ => none := congrArg FileView.refs blank
  have one : blocksNeeded (vol.inodes ino) ((outerMount zeroRandomness 4).blocks transparentCrypto
      disk.container) (8192 : UInt64).toNat ([1, 2, 3] : List UInt8).length = 1 := by
    have unmapped : unmappedBlocks (vol.inodes ino) ((outerMount zeroRandomness 4).blocks
        transparentCrypto disk.container) (8192 : UInt64).toNat
        ([1, 2, 3] : List UInt8).length = [2] := by
      unfold unmappedBlocks
      rw [refs]
      decide
    unfold blocksNeeded missingChildren
    rw [unmapped]
    simp
  rw [one, free] at space
  exact ⟨disk, vol, ino, reached, file, free, space.1 (by decide)⟩

end DenyFS
