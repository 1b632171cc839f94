import DenyFS.Verified.Accounting

/-! # Well-formed images

What `validate_loaded_metadata` is there to establish, said without its loops: the inodes form
a flat tree under the root directory, the directory and the files name each other, no block is
mapped past the end of a file, and the bitmap accounts for every block. -/

namespace DenyFS

open Packed BlockProgram Ownership

/-! ## The inodes -/

/-- Which inode numbers are in use. -/
def Volume.liveInodes (vol : Volume) : Nat :=
  (upTo 64).countP fun ino => decide ((vol.inodes ino).type ≠ itypeFree)

/-- An unused inode is blank. -/
structure Inode.Blank (inode : Inode) : Prop where
  size : inode.size = 0
  blockCount : inode.blockCount = 0
  direct : ∀ i, inode.direct i = invalidBlock
  indirectBlock : inode.indirectBlock = invalidBlock
  doubleIndirectBlock : inode.doubleIndirectBlock = invalidBlock

section BlockMaps

variable {disk : Blocks}

theorem rootTable_hole {inode : Inode} (hole : inode.doubleIndirectBlock = invalidBlock)
    (outer : Fin 1024) : inode.rootTable disk outer = invalidBlock := by
  rw [Inode.rootTable, hole, tableAt_invalid]
  rfl

theorem Inode.Blank.fileRef_eq_none {inode : Inode} (blank : inode.Blank) (disk : Blocks)
    (s : FileSlot) : fileRef inode disk s = none := by
  cases s with
  | direct i => exact pointer_eq_none.2 (blank.direct i)
  | single => exact pointer_eq_none.2 blank.indirectBlock
  | root => exact pointer_eq_none.2 blank.doubleIndirectBlock
  | entry i =>
    rw [fileRef, Inode.singleTable, blank.indirectBlock, tableAt_invalid, emptyPointers,
      pointer_invalid]
  | child outer => exact pointer_eq_none.2 (rootTable_hole blank.doubleIndirectBlock outer)
  | leaf outer i =>
    rw [fileRef, Inode.childTable, rootTable_hole blank.doubleIndirectBlock, tableAt_invalid,
      emptyPointers, pointer_invalid]

theorem compact_of_no_tables {inode : Inode} (noSingle : inode.indirectBlock = invalidBlock)
    (noDouble : inode.doubleIndirectBlock = invalidBlock) : Compact inode disk where
  single some := absurd (pointer_eq_none.2 noSingle) some
  root some := absurd (pointer_eq_none.2 noDouble) some
  child outer some := absurd (pointer_eq_none.2 (rootTable_hole noDouble outer)) some

/-- A root directory without tables maps as many blocks as it has direct pointers. -/
theorem card_mappedSlots_root {root : Inode} (noSingle : root.indirectBlock = invalidBlock)
    (noDouble : root.doubleIndirectBlock = invalidBlock)
    (filled : ∀ i, root.direct i ≠ invalidBlock ↔ i.val < root.blockCount.toNat)
    (few : root.blockCount.toNat ≤ 20) :
    (mappedSlots root disk).card = root.blockCount.toNat := by
  have same : mappedSlots root disk =
      (Finset.univ.filter fun i : Fin 20 => i.val < root.blockCount.toNat).image .direct := by
    ext s
    rw [mem_mappedSlots, Finset.mem_image]
    constructor
    · rintro ⟨isData, mapped⟩
      cases s with
      | direct i =>
        rw [fileRef, ne_eq, pointer_eq_none] at mapped
        exact ⟨i, Finset.mem_filter.2 ⟨Finset.mem_univ i, (filled i).1 mapped⟩, rfl⟩
      | entry i =>
        rw [fileRef, Inode.singleTable, noSingle, tableAt_invalid, emptyPointers,
          pointer_invalid] at mapped
        exact absurd rfl mapped
      | leaf outer i =>
        rw [fileRef, Inode.childTable, rootTable_hole noDouble, tableAt_invalid, emptyPointers,
          pointer_invalid] at mapped
        exact absurd rfl mapped
      | single => exact isData.elim
      | root => exact isData.elim
      | child outer => exact isData.elim
    · rintro ⟨i, member, rfl⟩
      refine ⟨trivial, ?_⟩
      rw [fileRef, ne_eq, pointer_eq_none]
      exact (filled i).2 (Finset.mem_filter.1 member).2
  rw [same, Finset.card_image_of_injective _ fun i j equal => FileSlot.direct.inj equal,
    Fin.card_filter_val_lt]
  exact Nat.min_eq_right few

end BlockMaps

/-- The root directory and the types of the inodes. -/
structure Tree (vol : Volume) : Prop where
  rootType : (vol.inodes 0).type = itypeDir
  rootSize : (vol.inodes 0).size = 0
  rootCount : 0 < (vol.inodes 0).blockCount.toNat ∧ (vol.inodes 0).blockCount.toNat ≤ 20
  rootDirect : ∀ i, (vol.inodes 0).direct i ≠ invalidBlock ↔
    i.val < (vol.inodes 0).blockCount.toNat
  rootSingle : (vol.inodes 0).indirectBlock = invalidBlock
  rootDouble : (vol.inodes 0).doubleIndirectBlock = invalidBlock
  types : ∀ ino, ino ≠ 0 → (vol.inodes ino).type = itypeFree ∨ (vol.inodes ino).type = itypeFile
  blank : ∀ ino, (vol.inodes ino).type = itypeFree → (vol.inodes ino).Blank
  sizes : ∀ ino, (vol.inodes ino).size.toNat ≤ maxFileSize
  freeInodes : vol.sb.freeInodes.toNat + vol.liveInodes = 64

/-! ## The directory -/

namespace Dirent

/-- The name of an entry in use. -/
def nameBytes (entry : Dirent) : List UInt8 := entry.namePrefix entry.nameLen.toNat

def ino (entry : Dirent) : Fin 64 := Fin.ofNat 64 entry.inode.toNat

/-- The entry is in use. -/
def Live (entry : Dirent) : Prop := entry.inode ≠ invalidIno

instance (entry : Dirent) : Decidable entry.Live := inferInstanceAs (Decidable (_ ≠ _))

end Dirent

/-- Where an entry stands: a block of the directory and an index in it. -/
abbrev DirentSlot : Type := Fin 20 × Fin 16

/-- The entries of the root directory; a block it does not have holds unused ones. -/
def entryAt (vol : Volume) (disk : Blocks) (p : DirentSlot) : Dirent :=
  if (vol.inodes 0).direct p.1 = invalidBlock then emptyDirent
  else direntsSector.symm (disk ((vol.inodes 0).direct p.1)) p.2

/-- The inode an entry in use points to. -/
def inodeRef (vol : Volume) (disk : Blocks) (p : DirentSlot) : Option (Fin 64) :=
  if (entryAt vol disk p).Live then some (entryAt vol disk p).ino else none

/-- The name an entry in use carries. -/
def nameRef (vol : Volume) (disk : Blocks) (p : DirentSlot) : Option (List UInt8) :=
  if (entryAt vol disk p).Live then some (entryAt vol disk p).nameBytes else none

section Entries

variable {vol : Volume} {disk : Blocks} {p : DirentSlot}

theorem entryAt_present (present : (vol.inodes 0).direct p.1 ≠ invalidBlock) :
    entryAt vol disk p = direntsSector.symm (disk ((vol.inodes 0).direct p.1)) p.2 :=
  if_neg present

/-- Blocks the root directory does not have hold no entries in use. -/
theorem entryAt_hole (hole : (vol.inodes 0).direct p.1 = invalidBlock) :
    entryAt vol disk p = emptyDirent := if_pos hole

theorem nameRef_eq_some {name : List UInt8} :
    nameRef vol disk p = some name ↔
      (entryAt vol disk p).Live ∧ (entryAt vol disk p).nameBytes = name := by
  unfold nameRef
  split
  next live => simp [live]
  next dead => simp [dead]

theorem inodeRef_eq_some {ino : Fin 64} :
    inodeRef vol disk p = some ino ↔
      (entryAt vol disk p).Live ∧ (entryAt vol disk p).ino = ino := by
  unfold inodeRef
  split
  next live => simp [live]
  next dead => simp [dead]

end Entries

/-- Entries are valid, name every file once and nothing else, and no two share a name. -/
structure Directory (vol : Volume) (disk : Blocks) : Prop where
  valid : ∀ p, validDirent (entryAt vol disk p) = true
  names : ∀ p q name, nameRef vol disk p = some name → nameRef vol disk q = some name → p = q
  inodes : ∀ p q ino, inodeRef vol disk p = some ino → inodeRef vol disk q = some ino → p = q
  file : ∀ p ino, inodeRef vol disk p = some ino → (vol.inodes ino).type = itypeFile
  listed : ∀ ino, ino ≠ 0 → (vol.inodes ino).type = itypeFile → ∃ p, inodeRef vol disk p = some ino

/-! ## Images -/

/-- What every state of an open volume keeps. -/
structure Sound (count : Nat) (vol : Volume) (disk : Blocks) : Prop where
  accounted : Accounted count vol disk []
  counted : Counted vol disk
  compact : ∀ ino, Compact (vol.inodes ino) disk
  tree : Tree vol
  directory : Directory vol disk

/-- No file maps a block at or past its end. -/
def WithinSize (vol : Volume) (disk : Blocks) : Prop :=
  ∀ ino, ino ≠ 0 → ∀ s : FileSlot, s.IsData → fileRef (vol.inodes ino) disk s ≠ none →
    s.logical < ((vol.inodes ino).size.toNat + 4095) / 4096

/-- What the validator accepts. -/
structure WellFormed (count : Nat) (vol : Volume) (disk : Blocks) : Prop where
  sound : Sound count vol disk
  within : WithinSize vol disk

end DenyFS
