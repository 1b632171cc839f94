import DenyFS.Library.Faulty
import DenyFS.Verified.DirectorySpec
import DenyFS.Verified.Runs

/-! # Create

`denyfs_vol_create` takes the first unused inode and adds an entry for it: in the first unused
slot of the directory, or in a block of its own where all slots are taken. -/

namespace DenyFS

open Packed BlockProgram Ownership

variable {count : Nat} {vol vol' : Volume} {disk disk' : Blocks} {ino : Fin 64}

/-- Reads leave a plain store as it is. -/
theorem plainDevice_readsAs (count : Nat) (disk : Blocks) :
    ReadsAs (plainDevice count) disk (plainDevice count) disk := fun _ => ⟨rfl, rfl⟩

/-! ## The directory with one entry more -/

theorem Directory.insert (directory : Directory vol disk) (p : DirentSlot) (entry : Dirent)
    (entries : ∀ q, entryAt vol' disk' q = if q = p then entry else entryAt vol disk q)
    (dead : ¬(entryAt vol disk p).Live) (valid : validDirent entry = true) (live : entry.Live)
    (unused : ∀ q, nameRef vol disk q ≠ some entry.nameBytes)
    (free : (vol.inodes entry.ino).type ≠ itypeFile)
    (types : ∀ j, j ≠ 0 → (vol'.inodes j).type =
      if j = entry.ino then itypeFile else (vol.inodes j).type) : Directory vol' disk' := by
  have here : entryAt vol' disk' p = entry := by rw [entries, if_pos rfl]
  have away : ∀ q, q ≠ p → entryAt vol' disk' q = entryAt vol disk q := fun q other => by
    rw [entries, if_neg other]
  have names : ∀ q, nameRef vol' disk' q =
      if q = p then some entry.nameBytes else nameRef vol disk q := by
    intro q
    by_cases same : q = p
    · rw [if_pos same, nameRef, same, here, if_pos live]
    · rw [if_neg same, nameRef, nameRef, away q same]
  have inodes : ∀ q, inodeRef vol' disk' q =
      if q = p then some entry.ino else inodeRef vol disk q := by
    intro q
    by_cases same : q = p
    · rw [if_pos same, inodeRef, same, here, if_pos live]
    · rw [if_neg same, inodeRef, inodeRef, away q same]
  have newIno : ∀ q, inodeRef vol disk q ≠ some entry.ino := fun q points =>
    free (directory.file q _ points)
  refine ⟨fun q => ?_, fun q r name first second => ?_, fun q r j first second => ?_,
    fun q j points => ?_, fun j nonzero file => ?_⟩
  · rw [entries]
    split
    · exact valid
    · exact directory.valid q
  · rw [names] at first second
    by_cases atQ : q = p
    · by_cases atR : r = p
      · rw [atQ, atR]
      · rw [if_pos atQ] at first
        rw [if_neg atR, ← first] at second
        exact absurd second (unused r)
    · by_cases atR : r = p
      · rw [if_pos atR] at second
        rw [if_neg atQ, ← second] at first
        exact absurd first (unused q)
      · rw [if_neg atQ] at first
        rw [if_neg atR] at second
        exact directory.names q r name first second
  · rw [inodes] at first second
    by_cases atQ : q = p
    · by_cases atR : r = p
      · rw [atQ, atR]
      · rw [if_pos atQ] at first
        rw [if_neg atR, ← first] at second
        exact absurd second (newIno r)
    · by_cases atR : r = p
      · rw [if_pos atR] at second
        rw [if_neg atQ, ← second] at first
        exact absurd first (newIno q)
      · rw [if_neg atQ] at first
        rw [if_neg atR] at second
        exact directory.inodes q r j first second
  · have nonzero : j ≠ 0 := by
      rintro rfl
      have zero := (inodeRef_eq_some.1 points).2
      have liveHere := (inodeRef_eq_some.1 points).1
      rw [entries] at zero liveHere
      split at zero
      · rw [if_pos ‹_›] at liveHere
        exact Dirent.ino_ne_zero valid live zero
      · rw [if_neg ‹_›] at liveHere
        exact Dirent.ino_ne_zero (directory.valid q) liveHere zero
    rw [types j nonzero]
    split
    · rfl
    next other =>
    rw [inodes] at points
    split at points
    · exact absurd (Option.some.inj points).symm other
    · exact directory.file q j points
  · rw [types j nonzero] at file
    by_cases new : j = entry.ino
    · exact ⟨p, by rw [inodes, if_pos rfl, new]⟩
    · rw [if_neg new] at file
      obtain ⟨q, points⟩ := directory.listed j nonzero file
      refine ⟨q, ?_⟩
      rw [inodes, if_neg, points]
      rintro rfl
      exact dead (inodeRef_eq_some.1 points).1

theorem Volume.liveInodes_add (free : (vol.inodes ino).type = itypeFree)
    (types : ∀ j, (vol'.inodes j).type = if j = ino then itypeFile else (vol.inodes j).type) :
    vol'.liveInodes = vol.liveInodes + 1 := by
  refine countP_of_added (upTo_nodup 64) (mem_upTo ino) ?_ ?_ fun j _ other => ?_
  · exact decide_eq_false (not_not_intro free)
  · refine decide_eq_true ?_
    rw [types, if_pos rfl]
    decide
  · rw [types, if_neg other]

/-! ## Taking an inode -/

/-- A new, empty file. -/
def Inode.newFile (inode : Inode) (now : UInt64) : Inode :=
  { inode with
    type := itypeFile
    size := 0
    blockCount := 0
    direct := fun _ => invalidBlock
    indirectBlock := invalidBlock
    doubleIndirectBlock := invalidBlock
    mtime := now }

theorem newFile_fileRef (inode : Inode) (now : UInt64) (s : FileSlot) :
    fileRef (inode.newFile now) disk s = none := by
  cases s <;>
    simp [fileRef, Inode.newFile, Inode.singleTable, Inode.rootTable, Inode.childTable,
      emptyPointers]

theorem newFile_byteAt (inode : Inode) (now : UInt64) (i : Nat) :
    byteAt (inode.newFile now) disk i = 0 := byteAt_hole (newFile_fileRef inode now _)

/-- Memory after `alloc_inode` and the initialisation of the inode. -/
def Volume.claimInode (vol : Volume) (ino : Fin 64) (now : UInt64) : Volume :=
  { vol with sb := { vol.sb with freeInodes := vol.sb.freeInodes - 1 } }.setInode ino
    ((vol.inodes ino).newFile now)

theorem allocInode_cases (tree : Tree vol) :
    (∃ ino, ino ≠ 0 ∧ (vol.inodes ino).type = itypeFree ∧
        allocInode vol = (some ino, { vol with sb :=
          { vol.sb with freeInodes := vol.sb.freeInodes - 1 } })) ∨
      ((∀ ino, ino ≠ 0 → (vol.inodes ino).type = itypeFile) ∧ allocInode vol = (none, vol)) := by
  unfold allocInode
  cases found : (upTo 64).find? fun i => i != 0 && (vol.inodes i).type == itypeFree with
  | some ino =>
    have meets := List.find?_some found
    rw [Bool.and_eq_true, bne_iff_ne, beq_iff_eq] at meets
    exact .inl ⟨ino, meets.1, meets.2, rfl⟩
  | none =>
    refine .inr ⟨fun ino nonzero => (tree.types ino nonzero).resolve_left fun free => ?_, rfl⟩
    have fails := List.find?_eq_none.1 found ino (mem_upTo ino)
    simp [nonzero, free] at fails

/-- The rollback of a failed create. -/
def Volume.returnInode (vol : Volume) (ino : Fin 64) : Volume :=
  let vol := vol.setInode ino { vol.inodes ino with type := itypeFree }
  { vol with sb := { vol.sb with freeInodes := vol.sb.freeInodes + 1 } }

theorem newFile_freed {inode : Inode} (blank : inode.Blank) (free : inode.type = itypeFree)
    (now : UInt64) : { inode.newFile now with type := itypeFree } = { inode with mtime := now } := by
  obtain ⟨type, size, blockCount, direct, single, double, mtime, reserved⟩ := inode
  obtain ⟨rfl, rfl, empty, rfl, rfl⟩ := blank
  obtain rfl : type = itypeFree := free
  obtain rfl : direct = fun _ => invalidBlock := funext empty
  rfl

/-- A failed create leaves an unused inode with a new time. -/
theorem returnInode_claimInode (blank : (vol.inodes ino).Blank)
    (free : (vol.inodes ino).type = itypeFree) (now : UInt64) :
    (vol.claimInode ino now).returnInode ino =
      vol.setInode ino { vol.inodes ino with mtime := now } := by
  have self : (vol.claimInode ino now).inodes ino = (vol.inodes ino).newFile now :=
    Function.update_self ..
  unfold Volume.returnInode
  rw [self, newFile_freed blank free]
  simp only [Volume.setInode, Volume.claimInode, Function.update_idem, UInt32.sub_add_cancel]

/-! ## Adding an entry -/

/-- The entry `add_dirent` stores. -/
def newEntry (ino : Fin 64) (name : CString) : Dirent :=
  emptyDirent.withName (UInt32.ofNat ino.val) name.bytes

theorem withName_eq (entry : Dirent) (ino : Fin 64) (name : CString) :
    entry.withName (UInt32.ofNat ino.val) name.bytes = newEntry ino name := rfl

/-- An unused slot of the directory, or one in a new block, was given an entry. -/
structure Added (count : Nat) (vol vol' : Volume) (disk disk' : Blocks) (p : DirentSlot)
    (entry : Dirent) : Prop where
  step : FileStep count vol vol' disk disk' 0
  root : RootDirectory count vol' disk'
  dead : ¬(entryAt vol disk p).Live
  entries : ∀ q, entryAt vol' disk' q = if q = p then entry else entryAt vol disk q

/-- The block `add_dirent` sets up where all slots are taken. -/
def newBlock (entry : Dirent) : Sector := direntsSector fun i => if i = 0 then entry else emptyDirent

/-- The next direct pointer of a directory. -/
def Inode.addDirect (inode : Inode) (block : UInt32) : Inode :=
  { inode with
    direct := Function.update inode.direct (Fin.ofNat 20 inode.blockCount.toNat) block
    blockCount := inode.blockCount + 1 }

/-- The root directory gets a block. -/
def Volume.growRoot (vol : Volume) (block : UInt32) : Volume :=
  (vol.takeBlock block.toNat).setInode 0 ((vol.inodes 0).addDirect block)

namespace RootDirectory

variable {entry : Dirent} {p : DirentSlot} (root : RootDirectory count vol disk)
include root

theorem compact : Compact (vol.inodes 0) disk := compact_of_no_tables root.single root.double

/-- The blocks of the directory are distinct. -/
theorem direct_injective {i j : Fin 20} (present : (vol.inodes 0).direct i ≠ invalidBlock)
    (same : (vol.inodes 0).direct j = (vol.inodes 0).direct i) : j = i := by
  have first : fileRef (vol.inodes 0) disk (.direct i) = some ((vol.inodes 0).direct i) :=
    pointer_of_ne present
  have second : fileRef (vol.inodes 0) disk (.direct j) = some ((vol.inodes 0).direct i) := by
    rw [← same] at present ⊢
    exact pointer_of_ne present
  have slots := congrArg Prod.snd (root.accounted.ledger.injective
    (s := (0, .direct i)) (t := (0, .direct j)) first second)
  exact (FileSlot.direct.inj slots).symm

/-- An entry is rewritten in a block the directory has. -/
theorem rewrite (present : (vol.inodes 0).direct p.1 ≠ invalidBlock)
    (valid : validDirent entry = true) :
    let disk' := Function.update disk ((vol.inodes 0).direct p.1)
      (direntsSector (Function.update (direntsSector.symm (disk ((vol.inodes 0).direct p.1))) p.2
        entry))
    FileStep count vol vol disk disk' 0 ∧ RootDirectory count vol disk' ∧
      ∀ q, entryAt vol disk' q = if q = p then entry else entryAt vol disk q := by
  intro disk'
  obtain ⟨k, i⟩ := p
  have small : k.val < maxFileBlocks := Nat.lt_trans k.isLt (by decide)
  have placed : place k.val = .direct k := by
    rw [place, if_pos k.isLt, Fin.ofNat_val_eq_self]
  have points : fileRef (vol.inodes 0) disk (place k.val) = some ((vol.inodes 0).direct k) := by
    rw [placed]
    exact pointer_of_ne present
  have mapped : ∀ l ∈ [k.val], fileRef (vol.inodes 0) disk (place l) ≠ none := by
    intro l listed
    rw [List.mem_singleton.1 listed, points]
    simp
  have stored := (Stored.start root.accounted (root.counted 0) root.compact mapped).write small
    List.mem_cons_self points (direntsSector
      (Function.update (direntsSector.symm (disk ((vol.inodes 0).direct k))) i entry))
  have entries : ∀ q, entryAt vol disk' q = if q = (k, i) then entry else entryAt vol disk q := by
    rintro ⟨k', i'⟩
    by_cases hole : (vol.inodes 0).direct k' = invalidBlock
    · rw [entryAt_hole hole, entryAt_hole hole, if_neg]
      intro same
      have block : k' = k := congrArg Prod.fst same
      rw [block] at hole
      exact present hole
    rw [entryAt_present hole, entryAt_present hole]
    by_cases block : k' = k
    · subst block
      dsimp only [disk']
      rw [Function.update_self, Equiv.symm_apply_apply]
      by_cases index : i' = i
      · rw [index, Function.update_self, if_pos rfl]
      · rw [Function.update_of_ne index, if_neg fun same => index (congrArg Prod.snd same)]
    · have apart : (vol.inodes 0).direct k' ≠ (vol.inodes 0).direct k :=
        fun same => block (root.direct_injective present same)
      dsimp only [disk']
      rw [Function.update_of_ne apart, if_neg fun same => block (congrArg Prod.fst same)]
  refine ⟨stored.step, ⟨stored.step.accounted, stored.step.counted_all root.accounted root.counted,
    root.blockCount, root.direct, root.single, root.double, fun q => ?_⟩, entries⟩
  rw [entries]
  split
  · exact valid
  · exact root.valid q

/-- The directory is extended by a block that holds one entry. -/
theorem extend (valid : validDirent entry = true) (room : (vol.inodes 0).blockCount.toNat < 20)
    {block : UInt32} (inData : block.toNat ∈ vol.dataBlocks)
    (clear : vol.bit block.toNat = false) :
    Added count vol (vol.growRoot block) disk (Function.update disk block (newBlock entry))
        (Fin.ofNat 20 (vol.inodes 0).blockCount.toNat, 0) entry ∧
      vol.sb.freeBlocks.toNat = (vol.growRoot block).sb.freeBlocks.toNat + 1 := by
  generalize index : Fin.ofNat 20 (vol.inodes 0).blockCount.toNat = k
  have last : k.val = (vol.inodes 0).blockCount.toNat := by
    rw [← index]
    exact Nat.mod_eq_of_lt room
  have hole : (vol.inodes 0).direct k = invalidBlock := by
    by_contra present
    exact absurd ((root.direct k).1 present) (by omega)
  have placed : place k.val = .direct k := by
    rw [place, if_pos k.isLt, Fin.ofNat_val_eq_self]
  have empty : fileRef (vol.inodes 0) disk (.direct k) = none := pointer_eq_none.2 hole
  -- the block is taken as an allocation of a zeroed data block would take it
  obtain ⟨taken, spent⟩ := root.accounted.take inData clear fun _ => 0
  have free : ¬vol.allocated block := by
    rw [Volume.allocated_iff, clear]
    exact fun both => Bool.false_ne_true both.2
  have took : Took count vol (vol.takeBlock block.toNat) disk
      (Function.update disk block fun _ => 0) [] block fun _ => 0 :=
    ⟨free, clear, rfl, rfl, taken, spent⟩
  obtain ⟨vol₂, grown, returns⟩ := exec_mapDirect root.accounted
    ((Prepared.start root.accounted).take took) (Function.update_self ..) empty
  have memory : vol₂ = (vol.takeBlock block.toNat).setInode 0
      { vol.inodes 0 with direct := Function.update (vol.inodes 0).direct k block } :=
    congrArg (fun outcome => outcome.2.1) (returns.symm.trans (exec_modifyInode _ _))
  have volume : vol₂.setInode 0 { vol₂.inodes 0 with
      blockCount := (vol₂.inodes 0).blockCount + 1 } = vol.growRoot block := by
    subst index
    simp [memory, Volume.growRoot, Inode.addDirect, Volume.setInode]
  have self : (vol.growRoot block).inodes 0 = (vol.inodes 0).addDirect block := by
    rw [Volume.growRoot, Volume.setInode_inodes, Function.update_self]
  have direct : ((vol.growRoot block).inodes 0).direct =
      Function.update (vol.inodes 0).direct k block := by
    rw [self, ← index]
    rfl
  have grownOne := grown.count_block
  rw [volume] at grownOne
  have counted := grownOne.counted root.accounted root.counted trivial empty
  rw [← placed] at grownOne empty
  have small : k.val < maxFileBlocks := Nat.lt_trans k.isLt (by decide)
  have stored := (grownOne.stored root.accounted counted root.compact empty).write small
    List.mem_cons_self grownOne.here (newBlock entry)
  rw [Function.update_idem] at stored
  have present : block ≠ invalidBlock := fileRef_ne_invalid grownOne.here
  have entries : ∀ q, entryAt (vol.growRoot block) (Function.update disk block (newBlock entry)) q =
      if q = (k, 0) then entry else entryAt vol disk q := by
    rintro ⟨k', i⟩
    by_cases new : k' = k
    · subst new
      have here : ((vol.growRoot block).inodes 0).direct k' = block := by
        rw [direct, Function.update_self]
      have old : entryAt vol disk (k', i) = emptyDirent := entryAt_hole hole
      rw [entryAt_present (by rw [here]; exact present), here, Function.update_self, newBlock,
        Equiv.symm_apply_apply, old]
      by_cases first : i = 0
      · rw [first, if_pos rfl, if_pos rfl]
      · rw [if_neg first, if_neg fun same => first (congrArg Prod.snd same)]
    · have same : ((vol.growRoot block).inodes 0).direct k' = (vol.inodes 0).direct k' := by
        rw [direct, Function.update_of_ne new]
      rw [if_neg fun same => new (congrArg Prod.fst same)]
      by_cases missing : (vol.inodes 0).direct k' = invalidBlock
      · have old : entryAt vol disk (k', i) = emptyDirent := entryAt_hole missing
        rw [old]
        exact entryAt_hole (same.trans missing)
      · have old : entryAt vol disk (k', i) = _ := entryAt_present missing
        rw [old, entryAt_present (by rw [same]; exact missing), same, Function.update_of_ne]
        intro taken
        have points : fileRef (vol.inodes 0) disk (.direct k') = some ((vol.inodes 0).direct k') :=
          pointer_of_ne missing
        exact free (taken ▸ root.accounted.allocated_of_fileRef points)
  have grows : ((vol.growRoot block).inodes 0).blockCount.toNat =
      (vol.inodes 0).blockCount.toNat + 1 := by
    have wraps : ((vol.inodes 0).blockCount + 1).toNat =
        ((vol.inodes 0).blockCount.toNat + 1) % 2 ^ 32 := UInt32.toNat_add _ _
    rw [self, Inode.addDirect]
    dsimp only
    omega
  refine ⟨⟨stored.step, ⟨stored.step.accounted, stored.step.counted_all root.accounted root.counted,
    by omega, fun i => ?_, by rw [self]; exact root.single, by rw [self]; exact root.double,
    fun q => ?_⟩, ?_, entries⟩, spent⟩
  · rw [grows, direct]
    by_cases new : i = k
    · subst new
      simp only [Function.update_self]
      exact ⟨fun _ => by omega, fun _ => present⟩
    · simp only [Function.update_of_ne new]
      rw [root.direct i]
      have : i.val ≠ k.val := fun same => new (Fin.ext same)
      omega
  · rw [entries]
    split
    · exact valid
    · exact root.valid q
  · rw [entryAt_hole hole]
    exact Dirent.emptyDirent_not_live

/-- What `add_dirent` stores in a block the directory has. -/
def entryStored (vol : Volume) (disk : Blocks) (p : DirentSlot) (entry : Dirent) : Sector :=
  direntsSector (Function.update (direntsSector.symm (disk ((vol.inodes 0).direct p.1))) p.2 entry)

/-- On any device that reads as the blocks say, `add_dirent` comes down to its one write: of a
block with an unused slot, or, where there is none, of a new block. -/
theorem addDirent_runs {δ : Type} {device : Device δ UInt32 Sector Errno} {store : δ}
    (alike : ReadsAs device store (plainDevice count) disk) {ino : Fin 64} {name : CString}
    (valid : ValidName name.bytes) :
    (∃ p : DirentSlot, (vol.inodes 0).direct p.1 ≠ invalidBlock ∧ ¬(entryAt vol disk p).Live ∧
        Prog.exec device (addDirent name (UInt32.ofNat ino.val)) (vol, store) =
          Prog.exec device (writeBlock ((vol.inodes 0).direct p.1)
            (entryStored vol disk p (newEntry ino name))) (vol, store)) ∨
      ((∀ q : DirentSlot, (vol.inodes 0).direct q.1 ≠ invalidBlock → (entryAt vol disk q).Live) ∧
        ((((vol.inodes 0).blockCount.toNat = 20 ∨ vol.sb.freeBlocks.toNat = 0) ∧
            Prog.exec device (addDirent name (UInt32.ofNat ino.val)) (vol, store) =
              (.error .enospc, vol, store)) ∨
          ∃ block : UInt32, (vol.inodes 0).blockCount.toNat < 20 ∧
            allocBlock vol = ((block.toNat : Int), vol.takeBlock block.toNat) ∧
            block.toNat ∈ vol.dataBlocks ∧ vol.bit block.toNat = false ∧
            Prog.exec device (addDirent name (UInt32.ofNat ino.val)) (vol, store) =
              Prog.exec device (writeBlock block (newBlock (newEntry ino name)))
                (vol.growRoot block, store))) := by
  have nonempty := valid.nonempty
  have short := valid.short
  have scans := exec_readsAs alike (findDirent_simple true
    (fun entry => entry.inode == invalidIno) vol.rootBlocks).passive vol
  unfold addDirent
  rw [if_neg (by omega), Prog.exec_bind_ok (Prog.exec_get _ _)]
  cases root.exec_scan true fun entry => entry.inode == invalidIno with
  | inl found =>
    obtain ⟨p, present, unused, returns⟩ := found
    have dead : ¬(entryAt vol disk p).Live := not_not_intro (eq_of_beq unused)
    rw [returns] at scans
    refine .inl ⟨p, present, dead, ?_⟩
    rw [Prog.exec_bind_ok scans]
    dsimp only [positionOf]
    rw [withName_eq]
    rfl
  | inr none =>
    have taken : ∀ q : DirentSlot, (vol.inodes 0).direct q.1 ≠ invalidBlock →
        (entryAt vol disk q).Live := fun q present unused => by
      have meets := none.1 q present
      rw [unused] at meets
      cases meets
    rw [none.2] at scans
    apply Or.inr
    apply And.intro taken
    rw [Prog.exec_bind_ok scans]
    dsimp only
    by_cases full : 20 ≤ (vol.inodes 0).blockCount
    · rw [if_pos full]
      have count := UInt32.le_iff_toNat_le.1 full
      exact .inl ⟨.inl (Nat.le_antisymm root.blockCount.2 count), rfl⟩
    rw [if_neg full]
    have room : (vol.inodes 0).blockCount.toNat < 20 :=
      UInt32.lt_iff_toNat_lt.1 (UInt32.not_le.1 full)
    cases root.accounted.allocBlock_cases (by decide) with
    | inl none =>
      refine .inl ⟨.inr none.1, ?_⟩
      have allocated : Prog.exec device (modifyGet allocBlock : Op Int) (vol, store) =
          (.ok (-1), vol, store) := by
        rw [Prog.exec_modifyGet, none.2]
      rw [Prog.exec_bind_ok allocated, if_pos (by decide)]
      rfl
    | inr some =>
      obtain ⟨block, takes, inData, clear⟩ := some
      refine .inr ⟨block, room, takes, inData, clear, ?_⟩
      have allocated : Prog.exec device (modifyGet allocBlock : Op Int) (vol, store) =
          (.ok (block.toNat : Int), vol.takeBlock block.toNat, store) := by
        rw [Prog.exec_modifyGet, takes]
      have number : UInt32.ofNat (Int.toNat (block.toNat : Int)) = block := by
        rw [Int.toNat_natCast, UInt32.ofNat_toNat]
      have grows : Prog.exec device (modifyInode 0 fun root =>
          { root with
            direct := Function.update root.direct (Fin.ofNat 20 root.blockCount.toNat) block
            blockCount := root.blockCount + 1 }) (vol.takeBlock block.toNat, store) =
          (.ok (), vol.growRoot block, store) := exec_modifyInode _ _
      rw [Prog.exec_bind_ok allocated, if_neg (by omega), number, Prog.exec_bind_ok grows]
      rfl

/-- `add_dirent` uses the first unused slot, or a new block, or finds no room for the entry. -/
theorem exec_addDirent {ino : Fin 64} (nonzero : ino ≠ 0) {name : CString}
    (valid : ValidName name.bytes) :
    (∃ p vol' disk', Added count vol vol' disk disk' p (newEntry ino name) ∧
        (vol' = vol ∨ (∀ q : DirentSlot, (vol.inodes 0).direct q.1 ≠ invalidBlock →
            (entryAt vol disk q).Live) ∧ 0 < vol.sb.freeBlocks.toNat ∧
          ∃ block, vol' = vol.growRoot block) ∧
        Prog.exec (plainDevice count) (addDirent name (UInt32.ofNat ino.val)) (vol, disk) =
          (.ok (), vol', disk')) ∨
      ((∀ q : DirentSlot, (vol.inodes 0).direct q.1 ≠ invalidBlock →
          (entryAt vol disk q).Live) ∧
        ((vol.inodes 0).blockCount.toNat = 20 ∨ vol.sb.freeBlocks.toNat = 0) ∧
        Prog.exec (plainDevice count) (addDirent name (UInt32.ofNat ino.val)) (vol, disk) =
          (.error .enospc, vol, disk)) := by
  have entryValid : validDirent (newEntry ino name) = true :=
    Dirent.withName_valid emptyDirent nonzero valid
  cases root.addDirent_runs (plainDevice_readsAs count disk) valid with
  | inl found =>
    obtain ⟨p, present, dead, runs⟩ := found
    obtain ⟨step, after, entries⟩ := root.rewrite present entryValid
    refine .inl ⟨p, vol, _, ⟨step, after, dead, entries⟩, .inl rfl, ?_⟩
    rw [runs]
    exact exec_writeBlock (root.inVolume present) _
  | inr taken =>
    obtain ⟨taken, either⟩ := taken
    cases either with
    | inl full => exact .inr ⟨taken, full⟩
    | inr new =>
      obtain ⟨block, room, _, inData, clear, runs⟩ := new
      obtain ⟨added, spent⟩ := root.extend entryValid room inData clear
      refine .inl ⟨_, _, _, added, .inr ⟨taken, by omega, block, rfl⟩, ?_⟩
      rw [runs]
      exact exec_writeBlock (root.accounted.inVolume_of_data inData) _

end RootDirectory

/-! ## The claimed inode -/

theorem Accounted.setFreeInodes {held : List UInt32} (accounted : Accounted count vol disk held)
    (freeInodes : UInt32) :
    Accounted count { vol with sb := { vol.sb with freeInodes } } disk held :=
  ⟨accounted.layout.of_same rfl, accounted.ledger, accounted.space, accounted.metadataBits⟩

section Claimed

variable (now : UInt64)

theorem claimInode_self (vol : Volume) (ino : Fin 64) :
    (vol.claimInode ino now).inodes ino = (vol.inodes ino).newFile now :=
  Function.update_self ..

theorem claimInode_other {j : Fin 64} (other : j ≠ ino) :
    (vol.claimInode ino now).inodes j = vol.inodes j := Function.update_of_ne other ..

variable (sound : Sound count vol disk) (free : (vol.inodes ino).type = itypeFree)
include sound free

/-- An unused inode and a new file map nothing, so nobody's block map changes. -/
theorem claimInode_ref (j : Fin 64) :
    fileRef ((vol.claimInode ino now).inodes j) disk = fileRef (vol.inodes j) disk := by
  by_cases here : j = ino
  · subst here
    rw [claimInode_self]
    funext s
    rw [newFile_fileRef, (sound.tree.blank j free).fileRef_eq_none]
  · rw [claimInode_other now here]

theorem claimInode_accounted : Accounted count (vol.claimInode ino now) disk [] := by
  refine (sound.accounted.setFreeInodes (vol.sb.freeInodes - 1)).relink rfl rfl ?_
  exact sound.accounted.ledger.congr
    (fun slot => congrFun (claimInode_ref now sound free slot.1) slot.2) fun _ => Iff.rfl

theorem claimInode_counted : Counted (vol.claimInode ino now) disk := by
  intro j
  rw [mappedSlots_congr (claimInode_ref now sound free j), ← sound.counted j]
  by_cases here : j = ino
  · subst here
    rw [claimInode_self, (sound.tree.blank j free).blockCount]
    rfl
  · rw [claimInode_other now here]

theorem claimInode_root (nonzero : ino ≠ 0) :
    RootDirectory count (vol.claimInode ino now) disk ∧
      ∀ p, entryAt (vol.claimInode ino now) disk p = entryAt vol disk p := by
  have same : (vol.claimInode ino now).inodes 0 = vol.inodes 0 :=
    claimInode_other now (Ne.symm nonzero)
  have entries : ∀ p, entryAt (vol.claimInode ino now) disk p = entryAt vol disk p := by
    intro p
    unfold entryAt
    rw [same]
  refine ⟨⟨claimInode_accounted now sound free, claimInode_counted now sound free, ?_, ?_, ?_, ?_,
    fun p => ?_⟩, entries⟩
  · rw [same]; exact sound.tree.rootCount
  · rw [same]; exact sound.tree.rootDirect
  · rw [same]; exact sound.tree.rootSingle
  · rw [same]; exact sound.tree.rootDouble
  · rw [entries]; exact sound.directory.valid p

end Claimed

/-- The types of the inodes once the new file has its entry. -/
theorem Added.types {p : DirentSlot} {name : CString} {now : UInt64}
    (added : Added count (vol.claimInode ino now) vol' disk disk' p (newEntry ino name))
    (nonzero : ino ≠ 0) (j : Fin 64) :
    (vol'.inodes j).type = if j = ino then itypeFile else (vol.inodes j).type := by
  by_cases root : j = 0
  · subst root
    rw [added.step.inode, claimInode_other now (Ne.symm nonzero), if_neg (Ne.symm nonzero)]
  · rw [added.step.others j root]
    split
    next here =>
      rw [here, claimInode_self]
      rfl
    next other => rw [claimInode_other now other]

/-- A volume with a new file that has an entry is sound again. -/
theorem Added.sound {p : DirentSlot} {name : CString} {now : UInt64}
    (added : Added count (vol.claimInode ino now) vol' disk disk' p (newEntry ino name))
    (sound : Sound count vol disk) (nonzero : ino ≠ 0) (free : (vol.inodes ino).type = itypeFree)
    (valid : ValidName name.bytes) (absent : ∀ q, nameRef vol disk q ≠ some name.bytes) :
    Sound count vol' disk' := by
  have claimed := claimInode_accounted now sound free
  have before := (claimInode_root now sound free nonzero).2
  have others := fun j (away : j ≠ 0) => added.step.others j away
  have refs := fun j (away : j ≠ 0) =>
    (added.step.others_ref claimed away).trans (claimInode_ref now sound free j)
  have types := added.types nonzero
  have rootInode : (vol.claimInode ino now).inodes 0 = vol.inodes 0 :=
    claimInode_other now (Ne.symm nonzero)
  have rootType : (vol'.inodes 0).type = (vol.inodes 0).type := by
    rw [added.step.inode, rootInode]
  refine ⟨added.step.accounted, added.root.counted, fun j => ?_, ?_, ?_⟩
  · by_cases root : j = 0
    · rw [root]
      exact added.step.compact
    · exact (sound.compact j).congr (refs j root)
  · refine ⟨rootType.trans sound.tree.rootType, ?_, added.root.blockCount, added.root.direct,
      added.root.single, added.root.double, fun j away => ?_, fun j unused => ?_, fun j => ?_, ?_⟩
    · rw [added.step.inode, rootInode]
      exact sound.tree.rootSize
    · rw [types j]
      split
      · exact .inr rfl
      · exact sound.tree.types j away
    · have away : j ≠ 0 := by
        rintro rfl
        rw [rootType, sound.tree.rootType] at unused
        exact absurd unused (by decide)
      rw [types j] at unused
      split at unused
      · exact absurd unused (by decide)
      next other =>
        rw [others j away, claimInode_other now other]
        exact sound.tree.blank j unused
    · by_cases root : j = 0
      · rw [root, added.step.inode, rootInode]
        exact sound.tree.sizes 0
      · rw [others j root]
        by_cases here : j = ino
        · rw [here, claimInode_self]
          exact Nat.zero_le _
        · rw [claimInode_other now here]
          exact sound.tree.sizes j
    · have more := Volume.liveInodes_add free types
      have total := sound.tree.freeInodes
      have fewer : vol'.sb.freeInodes = vol.sb.freeInodes - 1 := by
        rw [added.step.sb]
        rfl
      have positive : 0 < vol.sb.freeInodes.toNat := by
        have bound : vol'.liveInodes ≤ 64 := by
          have := List.countP_le_length (p := fun ino => decide ((vol'.inodes ino).type ≠ itypeFree)) (l := upTo 64)
          rwa [upTo_eq, List.length_finRange, ← upTo_eq] at this
        omega
      have one : vol.sb.freeInodes.toNat = (vol.sb.freeInodes - 1).toNat + 1 := by
        have least : (1 : UInt32) ≤ vol.sb.freeInodes := UInt32.le_iff_toNat_le.2 positive
        rw [UInt32.toNat_sub_of_le _ _ least]
        exact (Nat.sub_add_cancel positive).symm
      rw [fewer]
      omega
  · have entry := Dirent.withName_ino emptyDirent ino name.bytes
    have entryName := Dirent.nameBytes_withName emptyDirent (UInt32.ofNat ino.val) valid.short
    refine sound.directory.insert p (newEntry ino name) (fun q => ?_) ?_
      (Dirent.withName_valid emptyDirent nonzero valid) Dirent.live_of_small (fun q => ?_) ?_
      fun j away => ?_
    · rw [added.entries, before]
    · rw [← before]
      exact added.dead
    · rw [newEntry, entryName]
      exact absent q
    · rw [newEntry, entry, free]
      decide
    · rw [newEntry, entry]
      exact types j

/-! ## The call -/

/-- The name check of `denyfs_vol_create`. -/
def BadName (name : CString) : Prop :=
  name.bytes.length = 0 ∨ 251 ≤ name.bytes.length ∨ slash ∈ name.bytes ∨
    name.bytes = [dot] ∨ name.bytes = [dot, dot]

theorem validName_iff (name : CString) : ValidName name.bytes ↔ ¬BadName name := by
  constructor
  · intro valid bad
    cases bad with
    | inl empty => exact absurd empty (Nat.pos_iff_ne_zero.1 valid.nonempty)
    | inr bad =>
      cases bad with
      | inl long => exact absurd valid.short (Nat.not_lt.2 long)
      | inr bad =>
        cases bad with
        | inl slashes => exact valid.noSlash slashes
        | inr dots => exact dots.elim valid.notDot valid.notDotDot
  · intro good
    simp only [BadName, not_or] at good
    obtain ⟨nonempty, short, noSlash, notDot, notDotDot⟩ := good
    exact ⟨Nat.pos_of_ne_zero nonempty, Nat.not_le.1 short, name.noNul, noSlash, notDot, notDotDot⟩

/-- How a create ended, on a sound volume whose I/O does not fail. -/
inductive CreateOutcome (count : Nat) (crypto : Crypto) (mount : Mount) (now : UInt64)
    (name : CString) (vol : Volume) (disk : Blocks) :
    Except Errno UInt32 × (Volume × Blocks) → Prop where
  | badName : ¬ValidName name.bytes →
    CreateOutcome count crypto mount now name vol disk (.error .einval, vol, disk)
  | taken (p : DirentSlot) : ValidName name.bytes → nameRef vol disk p = some name.bytes →
    CreateOutcome count crypto mount now name vol disk (.error .eexist, vol, disk)
  | noInode : ValidName name.bytes → (∀ p, nameRef vol disk p ≠ some name.bytes) →
    (∀ ino, ino ≠ 0 → (vol.inodes ino).type = itypeFile) →
    CreateOutcome count crypto mount now name vol disk (.error .enospc, vol, disk)
  | noRoom (ino : Fin 64) : ValidName name.bytes → (∀ p, nameRef vol disk p ≠ some name.bytes) →
    ino ≠ 0 → (vol.inodes ino).type = itypeFree →
    (∀ q : DirentSlot, (vol.inodes 0).direct q.1 ≠ invalidBlock → (entryAt vol disk q).Live) →
    ((vol.inodes 0).blockCount.toNat = 20 ∨ vol.sb.freeBlocks.toNat = 0) →
    CreateOutcome count crypto mount now name vol disk
      (.error .enospc, vol.setInode ino { vol.inodes ino with mtime := now }, disk)
  | created (ino : Fin 64) (p : DirentSlot) (vol₁ : Volume) (disk₁ disk' : Blocks) :
    ValidName name.bytes → (∀ q, nameRef vol disk q ≠ some name.bytes) → ino ≠ 0 →
    (vol.inodes ino).type = itypeFree →
    Added count (vol.claimInode ino now) vol₁ disk disk₁ p (newEntry ino name) →
    (vol₁ = vol.claimInode ino now ∨
      (∀ q : DirentSlot, (vol.inodes 0).direct q.1 ≠ invalidBlock → (entryAt vol disk q).Live) ∧
        0 < vol.sb.freeBlocks.toNat ∧ ∃ block, vol₁ = (vol.claimInode ino now).growRoot block) →
    FlushedTo crypto mount vol₁ disk₁ disk' →
    CreateOutcome count crypto mount now name vol disk
      (.ok (UInt32.ofNat ino.val), vol₁.flushed crypto mount, disk')

theorem exec_volCreate_badName {δ : Type} (device : Device δ UInt32 Sector Errno)
    (crypto : Crypto) (mount : Mount) (now : UInt64) {name : CString}
    (bad : ¬ValidName name.bytes) (state : Volume × δ) :
    Prog.exec device (volCreate crypto mount now name) state = (.error .einval, state) := by
  have fails : BadName name := not_not.1 fun good => bad ((validName_iff name).2 good)
  unfold BadName at fails
  unfold volCreate
  rw [if_pos fails]
  rfl

/-- What is left of a create once it has an inode. -/
def enterFile (crypto : Crypto) (mount : Mount) (name : CString) (ino : Fin 64) : Op UInt32 := do
  (addDirent name (UInt32.ofNat ino.val)).rollback fun vol => vol.returnInode ino
  flushOrEio crypto mount
  return UInt32.ofNat ino.val

/-- On any device that reads as the blocks say, a create of a valid name is refused before it
changes anything, or it claims an unused inode and goes on. -/
theorem Sound.volCreate_runs (sound : Sound count vol disk) {δ : Type}
    {device : Device δ UInt32 Sector Errno} {store : δ}
    (alike : ReadsAs device store (plainDevice count) disk) (crypto : Crypto) (mount : Mount)
    (now : UInt64) {name : CString} (valid : ValidName name.bytes) :
    (∃ p, nameRef vol disk p = some name.bytes ∧
        Prog.exec device (volCreate crypto mount now name) (vol, store) =
          (.error .eexist, vol, store)) ∨
      ((∀ p, nameRef vol disk p ≠ some name.bytes) ∧
        (((∀ ino, ino ≠ 0 → (vol.inodes ino).type = itypeFile) ∧
            Prog.exec device (volCreate crypto mount now name) (vol, store) =
              (.error .enospc, vol, store)) ∨
          ∃ ino, ino ≠ 0 ∧ (vol.inodes ino).type = itypeFree ∧
            Prog.exec device (volCreate crypto mount now name) (vol, store) =
              Prog.exec device (enterFile crypto mount name ino) (vol.claimInode ino now, store))) := by
  have good := (validName_iff name).1 valid
  unfold BadName at good
  unfold volCreate
  rw [if_neg good, Prog.exec_bind_ok (Prog.exec_attempt _ _ _),
    exec_readsAs alike (volLookup_simple name).passive vol]
  cases sound.rootDirectory.exec_volLookup valid.nonempty valid.short with
  | inl found =>
    obtain ⟨p, names, returns⟩ := found
    rw [returns]
    exact .inl ⟨p, names, rfl⟩
  | inr absent =>
    obtain ⟨absent, fails⟩ := absent
    rw [fails]
    apply Or.inr
    apply And.intro absent
    dsimp only
    cases allocInode_cases sound.tree with
    | inr full =>
      have allocated : Prog.exec device (modifyGet allocInode) (vol, store) =
          (.ok none, vol, store) := by
        rw [Prog.exec_modifyGet, full.2]
      rw [Prog.exec_bind_ok allocated]
      exact .inl ⟨full.1, rfl⟩
    | inl some =>
      obtain ⟨ino, nonzero, free, takes⟩ := some
      have allocated : Prog.exec device (modifyGet allocInode) (vol, store) =
          (.ok (some ino), { vol with sb := { vol.sb with
            freeInodes := vol.sb.freeInodes - 1 } }, store) := by
        rw [Prog.exec_modifyGet, takes]
      rw [Prog.exec_bind_ok allocated]
      dsimp only
      rw [Prog.exec_bind_ok (exec_modifyInode _ _)]
      exact .inr ⟨ino, nonzero, free, rfl⟩

theorem Sound.exec_volCreate (sound : Sound count vol disk) (crypto : Crypto) (mount : Mount)
    (now : UInt64) (name : CString) :
    CreateOutcome count crypto mount now name vol disk
      (Prog.exec (plainDevice count) (volCreate crypto mount now name) (vol, disk)) := by
  by_cases valid : ValidName name.bytes
  case neg =>
    rw [exec_volCreate_badName _ crypto mount now valid]
    exact .badName valid
  cases sound.volCreate_runs (plainDevice_readsAs count disk) crypto mount now valid with
  | inl found =>
    obtain ⟨p, names, runs⟩ := found
    rw [runs]
    exact .taken p valid names
  | inr absent =>
    obtain ⟨absent, either⟩ := absent
    cases either with
    | inl full =>
      rw [full.2]
      exact .noInode valid absent full.1
    | inr claims =>
      obtain ⟨ino, nonzero, free, runs⟩ := claims
      rw [runs]
      obtain ⟨root, entries⟩ := claimInode_root now sound free nonzero
      have rootInode : (vol.claimInode ino now).inodes 0 = vol.inodes 0 :=
        claimInode_other now (Ne.symm nonzero)
      have taken : (∀ q : DirentSlot, ((vol.claimInode ino now).inodes 0).direct q.1 ≠ invalidBlock →
          (entryAt (vol.claimInode ino now) disk q).Live) →
          ∀ q : DirentSlot, (vol.inodes 0).direct q.1 ≠ invalidBlock →
            (entryAt vol disk q).Live := by
        intro full q present
        rw [← entries q]
        exact full q (by rw [rootInode]; exact present)
      unfold enterFile
      cases root.exec_addDirent nonzero valid with
      | inl added =>
        obtain ⟨p, vol₁, disk₁, added, how, returns⟩ := added
        obtain ⟨disk', flushes, shows⟩ := exec_flushOrEio_plain crypto mount
          added.step.accounted.layout disk₁
        rw [Prog.exec_bind_ok (Prog.exec_rollback_ok returns _), Prog.exec_bind_ok flushes]
        refine .created ino p vol₁ disk₁ disk' valid absent nonzero free added ?_ shows
        cases how with
        | inl same => exact .inl same
        | inr grown => exact .inr ⟨taken grown.1, grown.2⟩
      | inr full =>
        obtain ⟨full, why, fails⟩ := full
        rw [Prog.exec_bind_error (Prog.exec_rollback_error fails _)]
        have undone : (vol.claimInode ino now).returnInode ino =
            vol.setInode ino { vol.inodes ino with mtime := now } :=
          returnInode_claimInode (sound.tree.blank ino free) free now
        change CreateOutcome count crypto mount now name vol disk
          (.error .enospc, (vol.claimInode ino now).returnInode ino, disk)
        rw [undone]
        refine .noRoom ino valid absent nonzero free (taken full) ?_
        rw [rootInode] at why
        exact why

end DenyFS
