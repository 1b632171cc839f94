import DenyFS.Verified.Allocation
import DenyFS.Verified.Dirents
import DenyFS.Verified.FreeInode

/-! # Steps on one file

What an operation does to the block map of one file leaves every other file and the directory
alone: only blocks of that file, or blocks that belonged to nobody, are written.  `FileStep` is
such a step, and `Sound` is kept across it. -/

namespace DenyFS

open Packed BlockProgram Ownership

variable {count : Nat} {vol vol' vol'' : Volume} {disk disk' disk'' : Blocks} {ino : Fin 64}

/-! ## Bytes of a file -/

/-- The byte a file stores at a position; holes, and what no block can hold, read as zeros. -/
def byteAt (inode : Inode) (disk : Blocks) (i : Nat) : UInt8 :=
  if i / 4096 < maxFileBlocks then
    match fileRef inode disk (place (i / 4096)) with
    | none => 0
    | some block => disk block (Fin.ofNat 4096 i)
  else 0

theorem byteAt_hole {inode : Inode} {i : Nat} (hole : fileRef inode disk (place (i / 4096)) = none) :
    byteAt inode disk i = 0 := by
  rw [byteAt, hole]
  exact ite_self 0

theorem byteAt_mapped {inode : Inode} {i : Nat} (small : i / 4096 < maxFileBlocks)
    {block : UInt32} (points : fileRef inode disk (place (i / 4096)) = some block) :
    byteAt inode disk i = disk block (Fin.ofNat 4096 i) := by
  rw [byteAt, if_pos small, points]

/-- Distinct blocks of a file have distinct places. -/
theorem place_injective {l k : Nat} (small : l < maxFileBlocks) (small' : k < maxFileBlocks)
    (same : place l = place k) : l = k := by
  rw [← logical_place small, ← logical_place small', same]

/-- The bytes depend on the block map and the blocks it names. -/
theorem byteAt_congr {inode inode' : Inode} (refs : fileRef inode' disk' = fileRef inode disk)
    (blocks : ∀ s : FileSlot, s.IsData → ∀ b, fileRef inode disk s = some b → disk' b = disk b) :
    byteAt inode' disk' = byteAt inode disk := by
  funext i
  unfold byteAt
  rw [refs]
  cases points : fileRef inode disk (place (i / 4096)) with
  | none => rfl
  | some block =>
    dsimp only
    rw [blocks _ (place_isData _) block points]

/-- So do the tables that must not be empty, and the number of mapped blocks. -/
theorem Compact.congr {inode inode' : Inode} (compact : Compact inode disk)
    (refs : fileRef inode' disk' = fileRef inode disk) : Compact inode' disk' := by
  obtain ⟨single, root, child⟩ := compact
  rw [← refs] at single root child
  exact ⟨single, root, child⟩

theorem mappedSlots_congr {inode inode' : Inode}
    (refs : fileRef inode' disk' = fileRef inode disk) :
    mappedSlots inode' disk' = mappedSlots inode disk := by
  unfold mappedSlots
  rw [refs]

/-! ## Steps -/

structure FileStep (count : Nat) (vol vol' : Volume) (disk disk' : Blocks) (ino : Fin 64) :
    Prop where
  accounted : Accounted count vol' disk' []
  counted : CountedAt vol' disk' ino
  compact : Compact (vol'.inodes ino) disk'
  sb : vol'.sb = { vol.sb with freeBlocks := vol'.sb.freeBlocks }
  others : ∀ j, j ≠ ino → vol'.inodes j = vol.inodes j
  inode : vol'.inodes ino = { vol.inodes ino with
    blockCount := (vol'.inodes ino).blockCount
    direct := (vol'.inodes ino).direct
    indirectBlock := (vol'.inodes ino).indirectBlock
    doubleIndirectBlock := (vol'.inodes ino).doubleIndirectBlock }
  blocks : ∀ b, vol.allocated b → (∀ s, fileRef (vol.inodes ino) disk s ≠ some b) →
    disk' b = disk b

namespace FileStep

theorem refl (accounted : Accounted count vol disk []) (counted : CountedAt vol disk ino)
    (compact : Compact (vol.inodes ino) disk) : FileStep count vol vol disk disk ino :=
  ⟨accounted, counted, compact, rfl, fun _ _ => rfl, rfl, fun _ _ _ => rfl⟩

/-- A block of another inode is no block of this one. -/
theorem apart (accounted : Accounted count vol disk []) {j : Fin 64} (other : j ≠ ino)
    {t : FileSlot} {b : UInt32} (points : fileRef (vol.inodes j) disk t = some b) (s : FileSlot) :
    fileRef (vol.inodes ino) disk s ≠ some b := by
  intro too
  exact other (congrArg Prod.fst
    (accounted.ledger.injective (s := (j, t)) (t := (ino, s)) points too))

section

variable (step : FileStep count vol vol' disk disk' ino) (accounted : Accounted count vol disk [])
include step accounted

theorem others_blocks {j : Fin 64} (other : j ≠ ino) {t : FileSlot} {b : UInt32}
    (points : fileRef (vol.inodes j) disk t = some b) : disk' b = disk b :=
  step.blocks b (accounted.allocated_of_fileRef points) (apart accounted other points)

/-- The block map of every other file is the same. -/
theorem others_ref {j : Fin 64} (other : j ≠ ino) :
    fileRef (vol'.inodes j) disk' = fileRef (vol.inodes j) disk := by
  rw [step.others j other]
  funext s
  exact fileRef_congr (fun _ _ _ points => step.others_blocks accounted other points) s

/-- So are its bytes. -/
theorem others_bytes {j : Fin 64} (other : j ≠ ino) :
    byteAt (vol'.inodes j) disk' = byteAt (vol.inodes j) disk :=
  byteAt_congr (step.others_ref accounted other) fun _ _ _ points =>
    step.others_blocks accounted other points

end

theorem trans (first : FileStep count vol vol' disk disk' ino)
    (accounted : Accounted count vol disk [])
    (second : FileStep count vol' vol'' disk' disk'' ino) :
    FileStep count vol vol'' disk disk'' ino where
  accounted := second.accounted
  counted := second.counted
  compact := second.compact
  sb := by rw [second.sb, first.sb]
  others j away := (second.others j away).trans (first.others j away)
  inode := by rw [second.inode, first.inode]
  blocks b inUse notMine := by
    -- a block of somebody else is still somebody else's after the first step
    obtain impossible | ⟨⟨j, t⟩, points⟩ := (accounted.ledger.used_iff b).1 inUse
    · cases impossible
    have other : j ≠ ino := by
      rintro rfl
      exact notMine t points
    have later : fileRef (vol'.inodes j) disk' t = some b := by
      rw [first.others_ref accounted other]
      exact points
    rw [second.blocks b (first.accounted.allocated_of_fileRef later)
      (apart first.accounted other later)]
    exact first.blocks b inUse notMine

theorem counted_all (step : FileStep count vol vol' disk disk' ino)
    (accounted : Accounted count vol disk []) (counted : Counted vol disk) :
    Counted vol' disk' := by
  intro j
  by_cases here : j = ino
  · rw [here]
    exact step.counted
  · rw [mappedSlots_congr (step.others_ref accounted here), step.others j here]
    exact counted j

/-- The directory stands where it stood. -/
theorem entryAt_eq (step : FileStep count vol vol' disk disk' ino)
    (accounted : Accounted count vol disk []) (file : ino ≠ 0) (p : DirentSlot) :
    entryAt vol' disk' p = entryAt vol disk p := by
  unfold entryAt
  rw [step.others 0 (Ne.symm file)]
  split
  · rfl
  next present =>
    have points : fileRef (vol.inodes 0) disk (.direct p.1) = some ((vol.inodes 0).direct p.1) :=
      pointer_of_ne present
    rw [step.others_blocks accounted (Ne.symm file) points]

end FileStep

/-! ## The directory and the tree -/

/-- The directory depends on its entries and on the types of the inodes. -/
theorem Directory.congr (directory : Directory vol disk)
    (entries : ∀ p, entryAt vol' disk' p = entryAt vol disk p)
    (types : ∀ j, j ≠ 0 → (vol'.inodes j).type = (vol.inodes j).type) : Directory vol' disk' := by
  have inodes : inodeRef vol' disk' = inodeRef vol disk := by
    funext p
    rw [inodeRef, inodeRef, entries]
  have names : nameRef vol' disk' = nameRef vol disk := by
    funext p
    rw [nameRef, nameRef, entries]
  refine ⟨fun p => by rw [entries]; exact directory.valid p, ?_, ?_, fun p j points => ?_,
    fun j nonzero file => ?_⟩
  · rw [names]
    exact directory.names
  · rw [inodes]
    exact directory.inodes
  · rw [inodes] at points
    have nonzero : j ≠ 0 := by
      rintro rfl
      unfold inodeRef at points
      split at points
      next live =>
        exact Dirent.ino_ne_zero (directory.valid p) live (Option.some.inj points)
      · cases points
    rw [types j nonzero]
    exact directory.file p j points
  · rw [inodes]
    rw [types j nonzero] at file
    exact directory.listed j nonzero file

theorem Volume.liveInodes_congr (types : ∀ j, (vol'.inodes j).type = (vol.inodes j).type) :
    vol'.liveInodes = vol.liveInodes := by
  unfold liveInodes
  simp only [types]

/-- The tree depends on the root directory, the types and sizes, and on what unused inodes
hold. -/
theorem Tree.congr (tree : Tree vol) (root : vol'.inodes 0 = vol.inodes 0)
    (types : ∀ j, (vol'.inodes j).type = (vol.inodes j).type)
    (sizes : ∀ j, (vol'.inodes j).size.toNat ≤ maxFileSize)
    (blank : ∀ j, (vol.inodes j).type = itypeFree → (vol'.inodes j).Blank)
    (freeInodes : vol'.sb.freeInodes = vol.sb.freeInodes) : Tree vol' where
  rootType := by rw [root]; exact tree.rootType
  rootSize := by rw [root]; exact tree.rootSize
  rootCount := by rw [root]; exact tree.rootCount
  rootDirect := by rw [root]; exact tree.rootDirect
  rootSingle := by rw [root]; exact tree.rootSingle
  rootDouble := by rw [root]; exact tree.rootDouble
  types j nonzero := by rw [types j]; exact tree.types j nonzero
  blank j free := blank j (types j ▸ free)
  sizes := sizes
  freeInodes := by rw [freeInodes, Volume.liveInodes_congr types]; exact tree.freeInodes

namespace Sound

theorem fileStep (sound : Sound count vol disk) (step : FileStep count vol vol' disk disk' ino)
    (file : ino ≠ 0) (live : (vol.inodes ino).type ≠ itypeFree) : Sound count vol' disk' := by
  have types : ∀ j, (vol'.inodes j).type = (vol.inodes j).type := by
    intro j
    by_cases here : j = ino
    · rw [here, step.inode]
    · rw [step.others j here]
  refine ⟨step.accounted, step.counted_all sound.accounted sound.counted, fun j => ?_, ?_, ?_⟩
  · by_cases here : j = ino
    · rw [here]
      exact step.compact
    · exact (sound.compact j).congr (step.others_ref sound.accounted here)
  · refine sound.tree.congr (step.others 0 (Ne.symm file)) types (fun j => ?_) (fun j free => ?_) ?_
    · by_cases here : j = ino
      · rw [here, step.inode]
        exact sound.tree.sizes ino
      · rw [step.others j here]
        exact sound.tree.sizes j
    · have here : j ≠ ino := by
        rintro rfl
        exact live free
      rw [step.others j here]
      exact sound.tree.blank j free
    · rw [step.sb]
  · exact sound.directory.congr (step.entryAt_eq sound.accounted file) fun j _ => types j

/-- Size and time of an inode may change, but an unused one stays blank. -/
theorem setFields (sound : Sound count vol disk) (file : ino ≠ 0) {size mtime : UInt64}
    (small : size.toNat ≤ maxFileSize)
    (blank : (vol.inodes ino).type = itypeFree → size = 0) :
    Sound count (vol.setInode ino { vol.inodes ino with size, mtime }) disk := by
  have self : (vol.setInode ino { vol.inodes ino with size, mtime }).inodes ino =
      { vol.inodes ino with size, mtime } := Function.update_self ..
  have other : ∀ j, j ≠ ino →
      (vol.setInode ino { vol.inodes ino with size, mtime }).inodes j = vol.inodes j :=
    fun j away => Function.update_of_ne away ..
  have refs : ∀ j, fileRef ((vol.setInode ino { vol.inodes ino with size, mtime }).inodes j) disk =
      fileRef (vol.inodes j) disk := by
    intro j
    by_cases here : j = ino
    · rw [here, self]
      funext s
      cases s <;> rfl
    · rw [other j here]
  have types : ∀ j, ((vol.setInode ino { vol.inodes ino with size, mtime }).inodes j).type =
      (vol.inodes j).type := by
    intro j
    by_cases here : j = ino
    · rw [here, self]
    · rw [other j here]
  have ledger : Ledger (ref (vol.setInode ino { vol.inodes ino with size, mtime }) disk)
      vol.allocated [] :=
    sound.accounted.ledger.congr (fun slot => congrFun (refs slot.1) slot.2) fun _ => Iff.rfl
  refine ⟨sound.accounted.relink rfl rfl ledger, fun j => ?_, fun j => ?_, ?_, ?_⟩
  · rw [mappedSlots_congr (refs j), ← sound.counted j]
    by_cases here : j = ino
    · rw [here, self]
    · rw [other j here]
  · exact (sound.compact j).congr (refs j)
  · refine sound.tree.congr (other 0 (Ne.symm file)) types (fun j => ?_) (fun j free => ?_) rfl
    · by_cases here : j = ino
      · rw [here, self]
        exact small
      · rw [other j here]
        exact sound.tree.sizes j
    · have before := sound.tree.blank j free
      by_cases here : j = ino
      · subst here
        rw [self]
        exact ⟨blank free, before.blockCount, before.direct, before.indirectBlock,
          before.doubleIndirectBlock⟩
      · rw [other j here]
        exact before
  · refine sound.directory.congr (fun p => ?_) fun j _ => types j
    unfold entryAt
    rw [other 0 (Ne.symm file)]

/-- Size and time of a file may change. -/
theorem setMeta (sound : Sound count vol disk) (file : ino ≠ 0)
    (live : (vol.inodes ino).type ≠ itypeFree) {size mtime : UInt64}
    (small : size.toNat ≤ maxFileSize) :
    Sound count (vol.setInode ino { vol.inodes ino with size, mtime }) disk :=
  sound.setFields file small fun free => absurd free live

/-- So may the time of an unused inode. -/
theorem setMtime (sound : Sound count vol disk) (file : ino ≠ 0)
    (free : (vol.inodes ino).type = itypeFree) (mtime : UInt64) :
    Sound count (vol.setInode ino { vol.inodes ino with mtime }) disk :=
  sound.setFields file (sound.tree.sizes ino) fun _ => (sound.tree.blank ino free).size

end Sound

/-! ## Bookkeeping -/

/-- The dirty flags, the stored HMAC and blocks that are not in use may differ. -/
structure Alike (vol vol' : Volume) (disk disk' : Blocks) : Prop where
  sb : vol'.sb = { vol.sb with bitmapHmac := vol'.sb.bitmapHmac }
  bitmap : vol'.bitmap = vol.bitmap
  inodes : vol'.inodes = vol.inodes
  blocks : ∀ b, vol.allocated b → disk' b = disk b

namespace Alike

theorem refl (vol : Volume) (disk : Blocks) : Alike vol vol disk disk :=
  ⟨rfl, rfl, rfl, fun _ _ => rfl⟩

theorem allocated_iff (alike : Alike vol vol' disk disk') (b : UInt32) :
    vol'.allocated b ↔ vol.allocated b := by
  unfold Volume.allocated Volume.bit
  rw [alike.sb, alike.bitmap]

theorem trans (first : Alike vol vol' disk disk') (second : Alike vol' vol'' disk' disk'') :
    Alike vol vol'' disk disk'' where
  sb := by rw [second.sb, first.sb]
  bitmap := second.bitmap.trans first.bitmap
  inodes := second.inodes.trans first.inodes
  blocks b inUse := by
    rw [second.blocks b ((first.allocated_iff b).2 inUse), first.blocks b inUse]

section

variable (alike : Alike vol vol' disk disk') (accounted : Accounted count vol disk [])
include alike accounted

theorem ref_eq (j : Fin 64) : fileRef (vol'.inodes j) disk' = fileRef (vol.inodes j) disk := by
  rw [alike.inodes]
  funext s
  exact fileRef_congr (fun _ _ b points =>
    alike.blocks b (accounted.allocated_of_fileRef points)) s

theorem bytes_eq (j : Fin 64) : byteAt (vol'.inodes j) disk' = byteAt (vol.inodes j) disk :=
  byteAt_congr (alike.ref_eq accounted j) fun _ _ b points =>
    alike.blocks b (accounted.allocated_of_fileRef points)

theorem entryAt_eq (p : DirentSlot) : entryAt vol' disk' p = entryAt vol disk p := by
  unfold entryAt
  rw [alike.inodes]
  split
  · rfl
  next present =>
    have points : fileRef (vol.inodes 0) disk (.direct p.1) = some ((vol.inodes 0).direct p.1) :=
      pointer_of_ne present
    rw [alike.blocks _ (accounted.allocated_of_fileRef points)]

theorem accounted_after : Accounted count vol' disk' [] := by
  have bit : ∀ i, vol'.bit i = vol.bit i := fun i => by rw [Volume.bit, alike.bitmap, Volume.bit]
  refine ⟨?_, ?_, ?_, fun i below => ?_⟩
  · refine accounted.layout.of_same ?_
    rw [Superblock.SameLayout, alike.sb]
  · exact accounted.ledger.congr (fun slot => congrFun (alike.ref_eq accounted slot.1) slot.2)
      alike.allocated_iff
  · have space := accounted.space
    unfold Volume.Space Volume.usedCount Volume.dataBlocks at *
    rw [alike.sb]
    simp only [bit]
    exact space
  · rw [bit]
    rw [alike.sb] at below
    exact accounted.metadataBits i below

end

end Alike

theorem Sound.alike (sound : Sound count vol disk) (alike : Alike vol vol' disk disk') :
    Sound count vol' disk' := by
  have refs := alike.ref_eq sound.accounted
  refine ⟨alike.accounted_after sound.accounted, fun j => ?_, fun j => ?_, ?_, ?_⟩
  · rw [mappedSlots_congr (refs j), alike.inodes]
    exact sound.counted j
  · exact (sound.compact j).congr (refs j)
  · refine sound.tree.congr (by rw [alike.inodes]) (fun j => by rw [alike.inodes]) (fun j => ?_)
      (fun j free => ?_) (by rw [alike.sb])
    · rw [alike.inodes]
      exact sound.tree.sizes j
    · rw [alike.inodes]
      exact sound.tree.blank j free
  · exact sound.directory.congr (alike.entryAt_eq sound.accounted) fun j _ => by rw [alike.inodes]

end DenyFS
