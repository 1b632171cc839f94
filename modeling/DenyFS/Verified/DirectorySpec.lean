import DenyFS.Model.Session
import DenyFS.Verified.WriteSpec

/-! # Directory scans on a sound volume

Where every entry is valid, a scan finds the wanted entry or passes over all of them; the
positions of the scan are the slots of the directory. -/

namespace DenyFS

open Packed BlockProgram Ownership

variable {count : Nat} {vol : Volume} {disk : Blocks}

/-! ## One block -/

theorem scanEntries_valid (wanted : Dirent → Bool) {entries : Fin 16 → Dirent}
    (valid : ∀ i, validDirent (entries i) = true) (indices : List (Fin 16)) :
    (∃ i ∈ indices, wanted (entries i) = true ∧
        scanEntries wanted entries indices = .ok (some i)) ∨
      ((∀ i ∈ indices, wanted (entries i) = false) ∧
        scanEntries wanted entries indices = .ok none) := by
  induction indices with
  | nil => exact .inr ⟨fun i impossible => (nomatch impossible), rfl⟩
  | cons i rest ih =>
    have ok : ¬(!validDirent (entries i)) = true := by simp [valid i]
    rw [scanEntries, if_neg ok]
    by_cases here : wanted (entries i) = true
    · rw [if_pos here]
      exact .inl ⟨i, List.mem_cons_self, here, rfl⟩
    · rw [if_neg here]
      cases ih with
      | inl found =>
        obtain ⟨j, listed, wants, scan⟩ := found
        exact .inl ⟨j, List.mem_cons_of_mem _ listed, wants, scan⟩
      | inr none =>
        refine .inr ⟨fun j listed => ?_, none.2⟩
        cases List.mem_cons.1 listed with
        | inl same => rw [same]; exact Bool.not_eq_true _ ▸ here
        | inr later => exact none.1 j later

/-- A directory block that can be read and holds valid entries. -/
structure GoodBlock (count : Nat) (disk : Blocks) (block : UInt32) : Prop where
  inside : block.toNat < count
  valid : ∀ i, validDirent (direntsSector.symm (disk block) i) = true

theorem exec_findInBlock (vol : Volume) (wanted : Dirent → Bool) {block : UInt32}
    (good : GoodBlock count disk block) :
    (∃ i, wanted (direntsSector.symm (disk block) i) = true ∧
        Prog.exec (plainDevice count) (findInBlock wanted block) (vol, disk) =
          (.ok (some ⟨block, direntsSector.symm (disk block), i⟩), vol, disk)) ∨
      ((∀ i, wanted (direntsSector.symm (disk block) i) = false) ∧
        Prog.exec (plainDevice count) (findInBlock wanted block) (vol, disk) =
          (.ok none, vol, disk)) := by
  unfold findInBlock
  rw [Prog.exec_bind_ok (Prog.exec_elseThrow_ok (exec_readBlock good.inside) _)]
  dsimp only
  cases scanEntries_valid wanted good.valid (upTo 16) with
  | inl found =>
    obtain ⟨i, _, wants, scan⟩ := found
    refine .inl ⟨i, wants, ?_⟩
    rw [scan]
    rfl
  | inr none =>
    refine .inr ⟨fun i => none.1 i (mem_upTo i), ?_⟩
    rw [none.2]
    rfl

/-- The scan over a list of blocks.  Where it stops at the first missing block, there must be
none behind it. -/
theorem exec_findDirent (stopAtHole : Bool) (wanted : Dirent → Bool) {blocks : List UInt32}
    (good : ∀ block ∈ blocks, block ≠ invalidBlock → GoodBlock count disk block)
    (filled : stopAtHole = true →
      blocks.Pairwise fun first second => first = invalidBlock → second = invalidBlock) :
    (∃ block ∈ blocks, block ≠ invalidBlock ∧ ∃ i,
        wanted (direntsSector.symm (disk block) i) = true ∧
        Prog.exec (plainDevice count) (findDirent stopAtHole wanted blocks) (vol, disk) =
          (.ok (some ⟨block, direntsSector.symm (disk block), i⟩), vol, disk)) ∨
      ((∀ block ∈ blocks, block ≠ invalidBlock →
          ∀ i, wanted (direntsSector.symm (disk block) i) = false) ∧
        Prog.exec (plainDevice count) (findDirent stopAtHole wanted blocks) (vol, disk) =
          (.ok none, vol, disk)) := by
  induction blocks with
  | nil => exact .inr ⟨fun block impossible => (nomatch impossible), rfl⟩
  | cons block rest ih =>
    have later := ih (fun b listed => good b (List.mem_cons_of_mem _ listed))
      fun stops => (List.pairwise_cons.1 (filled stops)).2
    rw [findDirent]
    by_cases hole : block = invalidBlock
    · rw [if_pos hole]
      cases stopAtHole with
      | true =>
        have holes := (List.pairwise_cons.1 (filled rfl)).1
        refine .inr ⟨fun b listed present => ?_, by rw [if_pos rfl]; rfl⟩
        cases List.mem_cons.1 listed with
        | inl same => exact absurd (same.trans hole) present
        | inr inRest => exact absurd (holes b inRest hole) present
      | false =>
        rw [if_neg Bool.false_ne_true]
        cases later with
        | inl found =>
          obtain ⟨b, listed, rest⟩ := found
          exact .inl ⟨b, List.mem_cons_of_mem _ listed, rest⟩
        | inr none =>
          refine .inr ⟨fun b listed present => ?_, none.2⟩
          cases List.mem_cons.1 listed with
          | inl same => exact absurd (same.trans hole) present
          | inr inRest => exact none.1 b inRest present
    · rw [if_neg hole]
      cases exec_findInBlock vol wanted (good block List.mem_cons_self hole) with
      | inl found =>
        obtain ⟨i, wants, returns⟩ := found
        refine .inl ⟨block, List.mem_cons_self, hole, i, wants, ?_⟩
        rw [Prog.exec_bind_ok returns]
        rfl
      | inr none =>
        rw [Prog.exec_bind_ok none.2]
        dsimp only
        cases later with
        | inl found =>
          obtain ⟨b, listed, rest⟩ := found
          exact .inl ⟨b, List.mem_cons_of_mem _ listed, rest⟩
        | inr noneLater =>
          refine .inr ⟨fun b listed present => ?_, noneLater.2⟩
          cases List.mem_cons.1 listed with
          | inl same => rw [same]; exact none.1
          | inr inRest => exact noneLater.1 b inRest present

/-! ## The root directory -/

/-- Where a scan of the root directory stopped. -/
def positionOf (vol : Volume) (disk : Blocks) (p : DirentSlot) : DirentPosition :=
  ⟨(vol.inodes 0).direct p.1, direntsSector.symm (disk ((vol.inodes 0).direct p.1)), p.2⟩

/-- What the directory scans and `add_dirent` rely on. -/
structure RootDirectory (count : Nat) (vol : Volume) (disk : Blocks) : Prop where
  accounted : Accounted count vol disk []
  counted : Counted vol disk
  blockCount : 0 < (vol.inodes 0).blockCount.toNat ∧ (vol.inodes 0).blockCount.toNat ≤ 20
  direct : ∀ i, (vol.inodes 0).direct i ≠ invalidBlock ↔
    i.val < (vol.inodes 0).blockCount.toNat
  single : (vol.inodes 0).indirectBlock = invalidBlock
  double : (vol.inodes 0).doubleIndirectBlock = invalidBlock
  valid : ∀ p, validDirent (entryAt vol disk p) = true

theorem Sound.rootDirectory (sound : Sound count vol disk) : RootDirectory count vol disk :=
  ⟨sound.accounted, sound.counted, sound.tree.rootCount, sound.tree.rootDirect,
    sound.tree.rootSingle, sound.tree.rootDouble, sound.directory.valid⟩

namespace RootDirectory

variable (root : RootDirectory count vol disk)
include root

theorem inVolume {k : Fin 20} (present : (vol.inodes 0).direct k ≠ invalidBlock) :
    ((vol.inodes 0).direct k).toNat < count := by
  have points : fileRef (vol.inodes 0) disk (.direct k) = some ((vol.inodes 0).direct k) :=
    pointer_of_ne present
  exact root.accounted.inVolume (root.accounted.allocated_of_fileRef points)

theorem goodBlock (block : UInt32) (listed : block ∈ vol.rootBlocks)
    (present : block ≠ invalidBlock) : GoodBlock count disk block := by
  obtain ⟨k, rfl⟩ := List.mem_ofFn.1 listed
  refine ⟨root.inVolume present, fun i => ?_⟩
  have valid := root.valid (k, i)
  rwa [entryAt_present present] at valid

theorem rootBlocks_filled : vol.rootBlocks.Pairwise fun first second =>
    first = invalidBlock → second = invalidBlock := by
  rw [Volume.rootBlocks, List.pairwise_ofFn]
  intro i j before hole
  by_contra present
  have upper := (root.direct j).1 present
  refine (root.direct i).2 ?_ hole
  have := Fin.lt_def.1 before
  omega

/-- A scan of the root directory finds a wanted entry, or there is none. -/
theorem exec_scan (stopAtHole : Bool) (wanted : Dirent → Bool) :
    (∃ p, (vol.inodes 0).direct p.1 ≠ invalidBlock ∧ wanted (entryAt vol disk p) = true ∧
        Prog.exec (plainDevice count) (findDirent stopAtHole wanted vol.rootBlocks) (vol, disk) =
          (.ok (some (positionOf vol disk p)), vol, disk)) ∨
      ((∀ p : DirentSlot, (vol.inodes 0).direct p.1 ≠ invalidBlock →
          wanted (entryAt vol disk p) = false) ∧
        Prog.exec (plainDevice count) (findDirent stopAtHole wanted vol.rootBlocks) (vol, disk) =
          (.ok none, vol, disk)) := by
  cases exec_findDirent stopAtHole wanted root.goodBlock (fun _ => root.rootBlocks_filled) with
  | inl found =>
    obtain ⟨block, listed, present, i, wants, returns⟩ := found
    obtain ⟨k, rfl⟩ := List.mem_ofFn.1 listed
    exact .inl ⟨(k, i), present, by rw [entryAt_present present]; exact wants, returns⟩
  | inr none =>
    refine .inr ⟨fun p present => ?_, none.2⟩
    rw [entryAt_present present]
    exact none.1 _ (List.mem_ofFn.2 ⟨p.1, rfl⟩) present p.2

end RootDirectory

/-! ## Lookup -/

/-- An entry in use stands in a block of the directory. -/
theorem present_of_live {p : DirentSlot} (live : (entryAt vol disk p).Live) :
    (vol.inodes 0).direct p.1 ≠ invalidBlock := by
  intro hole
  rw [entryAt_hole hole] at live
  exact Dirent.emptyDirent_not_live live

/-- A scan for a name finds an entry that carries it, or no entry does. -/
theorem RootDirectory.exec_scanName (root : RootDirectory count vol disk) {name : List UInt8}
    {wanted : Dirent → Bool} (meaning : ∀ entry, validDirent entry = true →
      (wanted entry = true ↔ entry.Live ∧ entry.nameBytes = name)) :
    (∃ p, nameRef vol disk p = some name ∧
        Prog.exec (plainDevice count) (findDirent false wanted vol.rootBlocks) (vol, disk) =
          (.ok (some (positionOf vol disk p)), vol, disk)) ∨
      ((∀ p, nameRef vol disk p ≠ some name) ∧
        Prog.exec (plainDevice count) (findDirent false wanted vol.rootBlocks) (vol, disk) =
          (.ok none, vol, disk)) := by
  cases root.exec_scan false wanted with
  | inl found =>
    obtain ⟨p, _, wants, returns⟩ := found
    exact .inl ⟨p, nameRef_eq_some.2 ((meaning _ (root.valid p)).1 wants), returns⟩
  | inr none =>
    refine .inr ⟨fun p names => ?_, none.2⟩
    have named := nameRef_eq_some.1 names
    have wants := (meaning _ (root.valid p)).2 named
    rw [none.1 p (present_of_live named.1)] at wants
    cases wants

/-- `denyfs_vol_lookup` finds exactly the names of the directory. -/
theorem RootDirectory.exec_volLookup (root : RootDirectory count vol disk) {name : CString}
    (nonempty : 0 < name.bytes.length) (short : name.bytes.length < 251) :
    (∃ p, nameRef vol disk p = some name.bytes ∧
        Prog.exec (plainDevice count) (volLookup name) (vol, disk) =
          (.ok (UInt32.ofNat (entryAt vol disk p).ino.val), vol, disk)) ∨
      ((∀ p, nameRef vol disk p ≠ some name.bytes) ∧
        Prog.exec (plainDevice count) (volLookup name) (vol, disk) =
          (.error .enoent, vol, disk)) := by
  unfold volLookup
  rw [if_neg (by omega), Prog.exec_bind_ok (Prog.exec_get _ _)]
  cases root.exec_scanName fun entry valid => Dirent.lookupMatches_iff valid short with
  | inl found =>
    obtain ⟨p, names, returns⟩ := found
    have live := (nameRef_eq_some.1 names).1
    have inode := Dirent.inode_eq_ino (root.valid p) live
    rw [entryAt_present (present_of_live live)] at inode
    refine .inl ⟨p, names, ?_⟩
    rw [Prog.exec_bind_ok returns, entryAt_present (present_of_live live), ← inode]
    rfl
  | inr none =>
    refine .inr ⟨none.1, ?_⟩
    rw [Prog.exec_bind_ok none.2]
    rfl

/-! ## Readdir -/

/-- What `denyfs_vol_readdir` reports for one entry. -/
def reported (entry : Dirent) : Option (List UInt8 × UInt32) :=
  if entry.Live then some (entry.nameBytes, entry.inode) else none

/-- All slots of the directory, in the order of the scan. -/
def direntSlots : List DirentSlot := (upTo 20).flatMap fun k => (upTo 16).map fun i => (k, i)

theorem mem_direntSlots (p : DirentSlot) : p ∈ direntSlots :=
  List.mem_flatMap.2 ⟨p.1, mem_upTo p.1, List.mem_map.2 ⟨p.2, mem_upTo p.2, rfl⟩⟩

/-- The entries in use, in order. -/
def listing (vol : Volume) (disk : Blocks) : List (List UInt8 × UInt32) :=
  direntSlots.filterMap fun p => reported (entryAt vol disk p)

theorem readdirEntries_collect {entries : Fin 16 → Dirent}
    (valid : ∀ i, validDirent (entries i) = true) (indices : List (Fin 16))
    (seen : List (List UInt8 × UInt32)) :
    readdirEntries collectEntries entries indices seen =
      .ok (seen ++ indices.filterMap fun i => reported (entries i), false) := by
  induction indices generalizing seen with
  | nil => rw [readdirEntries, List.filterMap_nil, List.append_nil]
  | cons i rest ih =>
    have ok : ¬(!validDirent (entries i)) = true := by simp [valid i]
    rw [readdirEntries, if_neg ok]
    by_cases live : (entries i).inode ≠ invalidIno
    · have report : reported (entries i) = some ((entries i).nameBytes, (entries i).inode) :=
        if_pos live
      rw [if_pos live, List.filterMap_cons_some (f := fun j => reported (entries j)) report,
        Dirent.cName_eq (valid i) live]
      dsimp only [collectEntries]
      rw [ih, List.append_assoc]
      rfl
    · have report : reported (entries i) = none := if_neg live
      rw [if_neg live, List.filterMap_cons_none (f := fun j => reported (entries j)) report]
      exact ih seen

theorem exec_readdirBlocks {blocks : List UInt32}
    (good : ∀ block ∈ blocks, block ≠ invalidBlock → GoodBlock count disk block)
    (seen : List (List UInt8 × UInt32)) :
    Prog.exec (plainDevice count) (readdirBlocks collectEntries blocks seen) (vol, disk) =
      (.ok (seen ++ blocks.flatMap fun block => if block = invalidBlock then [] else
        (upTo 16).filterMap fun i => reported (direntsSector.symm (disk block) i)), vol, disk) := by
  induction blocks generalizing seen with
  | nil => rw [readdirBlocks, List.flatMap_nil, List.append_nil]; rfl
  | cons block rest ih =>
    have later := fun b listed => good b (List.mem_cons_of_mem block listed)
    rw [readdirBlocks, List.flatMap_cons]
    by_cases hole : block = invalidBlock
    · rw [if_pos hole, if_pos hole, List.nil_append]
      exact ih later seen
    · have here := good block List.mem_cons_self hole
      have reads : Prog.exec (plainDevice count) (readdirBlock collectEntries block seen)
          (vol, disk) = (.ok (seen ++ (upTo 16).filterMap fun i =>
            reported (direntsSector.symm (disk block) i), false), vol, disk) := by
        unfold readdirBlock
        rw [Prog.exec_bind_ok (Prog.exec_elseThrow_ok (exec_readBlock here.inside) _),
          readdirEntries_collect here.valid]
        rfl
      rw [if_neg hole, if_neg hole, Prog.exec_bind_ok reads]
      dsimp only
      rw [if_neg Bool.false_ne_true, ih later, List.append_assoc]

/-- `denyfs_vol_readdir` lists the entries in use. -/
theorem Sound.exec_volReaddir (sound : Sound count vol disk) :
    Prog.exec (plainDevice count) (volReaddir collectEntries []) (vol, disk) =
      (.ok (listing vol disk), vol, disk) := by
  unfold volReaddir
  rw [Prog.exec_bind_ok (Prog.exec_get _ _), exec_readdirBlocks sound.rootDirectory.goodBlock]
  have blocks : vol.rootBlocks = (upTo 20).map (vol.inodes 0).direct := by
    rw [Volume.rootBlocks, upTo_eq, List.ofFn_eq_map]
  rw [List.nil_append, blocks, List.flatMap_map, listing, direntSlots, List.filterMap_flatMap]
  congr 2
  refine List.flatMap_congr fun k _ => ?_
  rw [List.filterMap_map]
  by_cases hole : (vol.inodes 0).direct k = invalidBlock
  · rw [if_pos hole, eq_comm, List.filterMap_eq_nil_iff]
    intro i _
    have dead : entryAt vol disk (k, i) = emptyDirent := entryAt_hole hole
    simp only [Function.comp, dead]
    rfl
  · rw [if_neg hole]
    refine List.filterMap_congr fun i _ => ?_
    have entry : entryAt vol disk (k, i) = _ := entryAt_present hole
    simp only [Function.comp, entry]

end DenyFS
