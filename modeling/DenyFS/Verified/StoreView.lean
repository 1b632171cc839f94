import DenyFS.Verified.FailedUnlink
import DenyFS.Verified.FileStore
import DenyFS.Verified.Recovery

/-! # The files of a volume

A sound volume stores a file for each entry of its root directory.  Its sparse image has the
blocks the inode maps; the operations do to it what they do to any sparse file. -/

namespace DenyFS

open Packed BlockProgram SparseFile

variable {count : Nat} {crypto : Crypto} {mount : Mount} {vol vol' : Volume} {disk disk' : Blocks}
  {ino j : Fin 64}

/-! ## Images -/

/-- The image of a file, one unit a block. -/
noncomputable def FileView.image (view : FileView) : Image UInt8 4096 where
  size := view.size.toNat
  mapped := (Finset.range maxFileBlocks).filter fun l => view.refs (place l) ≠ none
  bytes i := if i / 4096 < maxFileBlocks ∧ view.refs (place (i / 4096)) ≠ none then view.bytes i else 0
  hole i outside := by
    apply if_neg
    intro mapped
    exact outside (Finset.mem_filter.2 ⟨Finset.mem_range.2 mapped.1, mapped.2⟩)

@[simp] theorem mem_mapped {view : FileView} {l : Nat} :
    l ∈ view.image.mapped ↔ l < maxFileBlocks ∧ view.refs (place l) ≠ none := by
  unfold FileView.image
  rw [Finset.mem_filter, Finset.mem_range]

@[simp] theorem image_size (view : FileView) : view.image.size = view.size.toNat := rfl

theorem image_bytes (inode : Inode) (disk : Blocks) : (fileView inode disk).image.bytes = byteAt inode disk := by
  funext i
  show (if i / 4096 < maxFileBlocks ∧ fileRef inode disk (place (i / 4096)) ≠ none then
    byteAt inode disk i else 0) = byteAt inode disk i
  split
  next mapped => rfl
  next hole =>
    rw [not_and_or, not_not] at hole
    cases hole with
    | inl past => exact (if_neg past).symm
    | inr unmapped => exact (byteAt_hole unmapped).symm

/-- A view whose bytes are zero where nothing is mapped has those bytes. -/
theorem image_bytes_of {view : FileView}
    (holes : ∀ i, ¬(i / 4096 < maxFileBlocks ∧ view.refs (place (i / 4096)) ≠ none) →
      view.bytes i = 0) : view.image.bytes = view.bytes := by
  funext i
  show (if _ then view.bytes i else 0) = view.bytes i
  split
  next mapped => rfl
  next hole => exact (holes i hole).symm

theorem blankView_image : blankView.image = (Image.blank : Image UInt8 4096) := by
  apply Image.ext
  · rfl
  · ext l
    simp [blankView, Image.blank]
  · funext i
    simp [FileView.image, blankView, Image.blank]

theorem chunkPatch_eq (pos : Nat) (src : List UInt8) : chunkPatch pos src = patch pos src := rfl

theorem mem_touched_iff {offset len l : Nat} :
    l ∈ touched 4096 offset len ↔ l ∈ touchedBlocks offset len := by
  simp [mem_touchedBlocks, and_assoc]

/-! ## Images of the views after a call -/

section Views

variable {inode : Inode} {after : FileView} {offset : Nat} {data : List UInt8}

/-- Storing data maps the blocks it touches and no others. -/
theorem image_stored (fits : offset + data.length ≤ maxFileSize)
    (refs : ∀ s, after.refs s = none ↔ fileRef inode disk s = none ∧
      ∀ l ∈ touchedBlocks offset data.length, s ∉ (place l).path)
    (bytes : ∀ i, after.bytes i = (chunkPatch offset data i).getD (byteAt inode disk i)) :
    after.image.mapped = ((fileView inode disk).image.store offset data).mapped ∧
      after.image.bytes = ((fileView inode disk).image.store offset data).bytes := by
  have limit : maxFileBlocks = 1049620 := rfl
  have mapped : ∀ l, l ∈ after.image.mapped ↔
      l ∈ ((fileView inode disk).image.store offset data).mapped := by
    intro l
    show _ ↔ l ∈ (fileView inode disk).image.mapped ∪ touched 4096 offset data.length
    rw [Finset.mem_union, mem_touched_iff, mem_mapped, mem_mapped, ne_eq, refs, not_and_or]
    constructor
    · rintro ⟨small, before | touches⟩
      · exact .inl ⟨small, before⟩
      · simp only [not_forall, not_not] at touches
        obtain ⟨k, listed, onPath⟩ := touches
        have smallK := touchedBlocks_small fits listed
        rw [place_injective small (by omega) (path_isData onPath (place_isData l))]
        exact .inr listed
    · rintro (before | touches)
      · exact ⟨before.1, .inl before.2⟩
      · have small := touchedBlocks_small fits touches
        exact ⟨by omega, .inr fun clear => clear l touches (self_mem_path _)⟩
  constructor
  · ext l
    exact mapped l
  · have same : after.image.bytes = after.bytes := by
      apply image_bytes_of
      intro i hole
      have outside : i / 4096 ∉ ((fileView inode disk).image.store offset data).mapped := by
        rw [← mapped, mem_mapped]
        exact hole
      have zero := ((fileView inode disk).image.store offset data).hole i outside
      change (patch offset data i).getD ((fileView inode disk).image.bytes i) = 0 at zero
      rwa [image_bytes, ← chunkPatch_eq, ← bytes] at zero
    rw [same]
    funext i
    show after.bytes i = (patch offset data i).getD ((fileView inode disk).image.bytes i)
    rw [image_bytes, bytes, chunkPatch_eq]

/-- The image after a write that stored everything. -/
theorem image_written (fits : offset + data.length ≤ maxFileSize)
    (size : after.size = writtenSize inode.size offset data.length)
    (refs : ∀ s, after.refs s = none ↔ fileRef inode disk s = none ∧
      ∀ l ∈ touchedBlocks offset data.length, s ∉ (place l).path)
    (bytes : ∀ i, after.bytes i = (chunkPatch offset data i).getD (byteAt inode disk i)) :
    after.image = (fileView inode disk).image.write offset data := by
  obtain ⟨mapped, stored⟩ := image_stored fits refs bytes
  apply Image.ext
  · show after.size.toNat = max inode.size.toNat (offset + data.length)
    rw [size, writtenSize_toNat fits]
  · exact mapped
  · exact stored

/-- The image after a write that ran out of space. -/
theorem image_partly (fits : offset + data.length ≤ maxFileSize) (size : after.size = inode.size)
    (refs : ∀ s, after.refs s = none ↔ fileRef inode disk s = none ∧
      ∀ l ∈ touchedBlocks offset data.length, s ∉ (place l).path)
    (bytes : ∀ i, after.bytes i = (chunkPatch offset data i).getD (byteAt inode disk i)) :
    after.image = (fileView inode disk).image.store offset data := by
  obtain ⟨mapped, stored⟩ := image_stored fits refs bytes
  apply Image.ext
  · show after.size.toNat = inode.size.toNat
    rw [size]
  · exact mapped
  · exact stored

/-- The image of a file that was cut. -/
theorem image_cut {newSize : UInt64} (shorter : newSize < inode.size) (size : after.size = newSize)
    (refs : ∀ s : FileSlot, s.IsData → after.refs s =
      if s.logical < (newSize.toNat + 4095) / 4096 then fileRef inode disk s else none)
    (bytes : ∀ i, after.bytes i = if i < newSize.toNat then byteAt inode disk i else 0) :
    after.image = (fileView inode disk).image.resize newSize.toNat := by
  have order : newSize.toNat < (fileView inode disk).image.size := UInt64.lt_iff_toNat_lt.1 shorter
  have mapped : ∀ l, l ∈ after.image.mapped ↔
      l ∈ ((fileView inode disk).image.cut newSize.toNat).mapped := by
    intro l
    show _ ↔ l ∈ (fileView inode disk).image.mapped.filter (· < (newSize.toNat + 4095) / 4096)
    rw [Finset.mem_filter, mem_mapped, mem_mapped, and_assoc]
    apply and_congr_right
    intro small
    rw [refs _ (place_isData l), logical_place small]
    split
    next inside => simp [inside, fileView]
    next past => simp [past]
  rw [Image.resize, if_pos order]
  apply Image.ext
  · show after.size.toNat = newSize.toNat
    rw [size]
  · ext l
    exact mapped l
  · have same : after.image.bytes = after.bytes := by
      apply image_bytes_of
      intro i hole
      have outside : i / 4096 ∉ ((fileView inode disk).image.cut newSize.toNat).mapped := by
        rw [← mapped, mem_mapped]
        exact hole
      have zero := ((fileView inode disk).image.cut newSize.toNat).hole i outside
      change (if i < newSize.toNat then (fileView inode disk).image.bytes i else 0) = 0 at zero
      rwa [image_bytes, ← bytes] at zero
    rw [same]
    funext i
    show after.bytes i = if i < newSize.toNat then (fileView inode disk).image.bytes i else 0
    rw [image_bytes, bytes]

/-- The image of a file that was made longer. -/
theorem image_grown {newSize : UInt64} (longer : inode.size ≤ newSize) :
    (FileView.mk newSize (fileRef inode disk) (byteAt inode disk)).image =
      (fileView inode disk).image.resize newSize.toNat := by
  have order : inode.size.toNat ≤ newSize.toNat := UInt64.le_iff_toNat_le.1 longer
  have notShorter : ¬newSize.toNat < (fileView inode disk).image.size := Nat.not_lt.2 order
  rw [Image.resize, if_neg notShorter]
  rfl

/-- The block count of a sound volume is the number of units its image has. -/
theorem Sound.card_mapped (sound : Sound count vol disk) (ino : Fin 64) :
    (fileView (vol.inodes ino) disk).image.mapped.card = (vol.inodes ino).blockCount.toNat := by
  rw [sound.counted ino]
  apply Finset.card_bij fun l _ => place l
  · intro l mapped
    exact mem_mappedSlots.2 ⟨place_isData l, (mem_mapped.1 mapped).2⟩
  · intro l mapped k mapped' same
    exact place_injective (mem_mapped.1 mapped).1 (mem_mapped.1 mapped').1 same
  · intro s mapped
    obtain ⟨isData, points⟩ := mem_mappedSlots.1 mapped
    refine ⟨s.logical, mem_mapped.2 ⟨logical_lt isData, ?_⟩, place_logical isData⟩
    rw [place_logical isData]
    exact points

end Views

/-! ## Files by name -/

noncomputable def storedFile (inode : Inode) (disk : Blocks) : StoredFile (Image UInt8 4096) :=
  ⟨(fileView inode disk).image, inode.mtime⟩

/-- The files of a volume: what its directory entries lead to. -/
noncomputable def filesOf (vol : Volume) (disk : Blocks) : FileStore (Image UInt8 4096) := fun name =>
  (direntSlots.find? fun p => nameRef vol disk p == some name).map fun p =>
    storedFile (vol.inodes (entryAt vol disk p).ino) disk

theorem filesOf_eq_none {name : List UInt8} :
    filesOf vol disk name = none ↔ ∀ p, nameRef vol disk p ≠ some name := by
  unfold filesOf
  rw [Option.map_eq_none_iff, List.find?_eq_none]
  constructor
  · intro none p named
    exact none p (mem_direntSlots p) (by simp [named])
  · intro none p _ named
    exact none p (by simpa using named)

section Sound

variable (sound : Sound count vol disk)
include sound

theorem Sound.filesOf_named {name : List UInt8} {p : DirentSlot} (named : nameRef vol disk p = some name) :
    filesOf vol disk name = some (storedFile (vol.inodes (entryAt vol disk p).ino) disk) := by
  have found : direntSlots.find? (fun q => nameRef vol disk q == some name) = some p := by
    cases search : direntSlots.find? fun q => nameRef vol disk q == some name with
    | none =>
      have absent := List.find?_eq_none.1 search p (mem_direntSlots p)
      simp [named] at absent
    | some q =>
      have names : nameRef vol disk q = some name := by simpa using List.find?_some search
      rw [sound.directory.names q p name names named]
  unfold filesOf
  rw [found, Option.map_some]

/-- What the path of a request leads to is in the directory. -/
theorem Sound.find_ok {path : CString} {name : List UInt8} {file : StoredFile (Image UInt8 4096)}
    (found : (filesOf vol disk).find path = .ok (name, file)) :
    ∃ text p, pathToName path = some text ∧ text.bytes = name ∧ nameRef vol disk p = some name ∧
      file = storedFile (vol.inodes (entryAt vol disk p).ino) disk := by
  obtain ⟨text, onPath, same, stored⟩ := FileStore.find_eq_ok.1 found
  by_cases listed : ∃ p, nameRef vol disk p = some name
  · obtain ⟨p, named⟩ := listed
    rw [sound.filesOf_named named] at stored
    exact ⟨text, p, onPath, same, named, (Option.some.inj stored).symm⟩
  · rw [filesOf_eq_none.2 fun p named => listed ⟨p, named⟩] at stored
    cases stored

/-- The names a directory scan meets are the names of the files, each once. -/
theorem Sound.listing_names :
    ((listing vol disk).map Prod.fst).Nodup ∧
      ∀ name, name ∈ (listing vol disk).map Prod.fst ↔ (filesOf vol disk name).isSome := by
  have names : (listing vol disk).map Prod.fst = direntSlots.filterMap (nameRef vol disk) := by
    unfold listing
    rw [List.map_filterMap]
    apply List.filterMap_congr
    intro p _
    unfold reported nameRef
    split <;> rfl
  have slots : direntSlots.Nodup := by
    unfold direntSlots
    rw [List.nodup_flatMap]
    constructor
    · intro k _
      exact (upTo_nodup 16).map fun i l same => congrArg Prod.snd same
    · apply (upTo_nodup 20).imp
      intro k l apart p here there
      obtain ⟨_, _, rfl⟩ := List.mem_map.1 here
      obtain ⟨_, _, same⟩ := List.mem_map.1 there
      exact apart (congrArg Prod.fst same).symm
  rw [names]
  constructor
  · rw [List.Nodup, List.pairwise_filterMap]
    apply slots.imp
    intro p q apart name named name' named' same
    subst same
    exact apart (sound.directory.names p q name named named')
  · intro name
    rw [List.mem_filterMap, ← Option.ne_none_iff_isSome, ne_eq, filesOf_eq_none]
    simp [mem_direntSlots]

/-- One file changes, and every entry stays where it is. -/
theorem Sound.filesOf_update (sound' : Sound count vol' disk')
    (same : SameDirectory vol vol' disk disk') {name : List UInt8} {p : DirentSlot}
    (named : nameRef vol disk p = some name)
    (others : ∀ j, (vol.inodes j).type = itypeFile → j ≠ (entryAt vol disk p).ino →
      storedFile (vol'.inodes j) disk' = storedFile (vol.inodes j) disk) :
    filesOf vol' disk' = Function.update (filesOf vol disk) name
      (some (storedFile (vol'.inodes (entryAt vol disk p).ino) disk')) := by
  have names : ∀ q, nameRef vol' disk' q = nameRef vol disk q := fun q => by
    rw [nameRef, nameRef, same.entries]
  funext other
  by_cases here : other = name
  · subst here
    rw [Function.update_self, sound'.filesOf_named ((names p).trans named), same.entries]
  · rw [Function.update_of_ne here]
    by_cases listed : ∃ q, nameRef vol disk q = some other
    · obtain ⟨q, named'⟩ := listed
      rw [sound'.filesOf_named ((names q).trans named'), sound.filesOf_named named', same.entries,
        others _ (sound.file_of_live (nameRef_eq_some.1 named').1)]
      intro equal
      have live := (nameRef_eq_some.1 named).1
      have live' := (nameRef_eq_some.1 named').1
      have together : q = p := sound.directory.inodes q p _ (inodeRef_eq_some.2 ⟨live', equal⟩)
        (inodeRef_eq_some.2 ⟨live, rfl⟩)
      rw [together] at named'
      exact here (Option.some.inj (named'.symm.trans named))
    · rw [filesOf_eq_none.2 fun q named' => listed ⟨q, (names q).symm.trans named'⟩,
        filesOf_eq_none.2 fun q named' => listed ⟨q, named'⟩]

end Sound

end DenyFS
