import Mathlib.Data.Fintype.Fin
import DenyFS.Verified.FullFlush
import DenyFS.Verified.Steady

/-! # How the root directory grows

The directory never gives a block back, and `add_dirent` takes a new one only where every entry of
the blocks it has is in use.  So it has as many blocks as the most files there ever were need, and
`denyfs_vol_create` fails for lack of an inode or of a free block, never at the limit of 20
directory blocks. -/

namespace DenyFS

open Packed BlockProgram

variable {crypto : Crypto} {mount : Mount} {count : Nat} {vol vol' : Volume} {disk disk' : Blocks}
  {ino : Fin 64}

/-! ## Files and entries -/

/-- The number of files. -/
def Volume.liveFiles (vol : Volume) : Nat :=
  (Finset.univ.filter fun ino => (vol.inodes ino).type = itypeFile).card

/-- The blocks a directory of so many entries needs. -/
def directoryBlocks (files : Nat) : Nat := (files + 15) / 16

/-- The entries in use. -/
def liveSlots (vol : Volume) (disk : Blocks) : Finset DirentSlot :=
  Finset.univ.filter fun p => (entryAt vol disk p).Live

/-- The entries of the blocks the directory has. -/
def presentSlots (vol : Volume) : Finset DirentSlot :=
  Finset.univ.filter fun p => (vol.inodes 0).direct p.1 ≠ invalidBlock

theorem mem_liveSlots {p : DirentSlot} : p ∈ liveSlots vol disk ↔ (entryAt vol disk p).Live := by
  simp [liveSlots]

theorem mem_presentSlots {p : DirentSlot} :
    p ∈ presentSlots vol ↔ (vol.inodes 0).direct p.1 ≠ invalidBlock := by
  simp [presentSlots]

theorem liveSlots_subset : liveSlots vol disk ⊆ presentSlots vol := by
  intro p live
  rw [mem_liveSlots] at live
  rw [mem_presentSlots]
  exact present_of_live live

/-- The blocks of the directory are a prefix of its pointers, sixteen entries each. -/
theorem Tree.card_presentSlots (tree : Tree vol) :
    (presentSlots vol).card = 16 * (vol.inodes 0).blockCount.toNat := by
  have split : presentSlots vol =
      (Finset.univ.filter fun i : Fin 20 => i.val < (vol.inodes 0).blockCount.toNat) ×ˢ
        (Finset.univ : Finset (Fin 16)) := by
    ext p
    simp [presentSlots, tree.rootDirect]
  have bound := tree.rootCount.2
  rw [split, Finset.card_product, Fin.card_filter_val_lt, Finset.card_univ, Fintype.card_fin,
    Nat.min_eq_right bound, Nat.mul_comm]

/-- Entries in use and files correspond. -/
theorem Sound.card_liveSlots (sound : Sound count vol disk) :
    (liveSlots vol disk).card = vol.liveFiles := by
  unfold Volume.liveFiles
  apply Finset.card_nbij fun p => (entryAt vol disk p).ino
  · intro p live
    rw [Finset.mem_coe, mem_liveSlots] at live
    simp [sound.file_of_live live]
  · intro p live q live' same
    rw [Finset.mem_coe, mem_liveSlots] at live live'
    exact sound.directory.inodes p q _ (inodeRef_eq_some.2 ⟨live, rfl⟩)
      (inodeRef_eq_some.2 ⟨live', same.symm⟩)
  · intro ino file
    rw [Finset.mem_coe, Finset.mem_filter] at file
    have file := file.2
    obtain ⟨p, points⟩ := sound.directory.listed ino (sound.tree.ne_root file) file
    obtain ⟨live, here⟩ := inodeRef_eq_some.1 points
    exact ⟨p, mem_liveSlots.2 live, here⟩

section Sound

variable (sound : Sound count vol disk)
include sound

theorem Sound.liveFiles_le : vol.liveFiles ≤ 16 * (vol.inodes 0).blockCount.toNat := by
  rw [← sound.card_liveSlots, ← sound.tree.card_presentSlots]
  exact Finset.card_le_card liveSlots_subset

/-- An unused entry leaves room for one more file. -/
theorem Sound.liveFiles_lt {p : DirentSlot} (present : (vol.inodes 0).direct p.1 ≠ invalidBlock)
    (dead : ¬(entryAt vol disk p).Live) :
    vol.liveFiles < 16 * (vol.inodes 0).blockCount.toNat := by
  rw [← sound.card_liveSlots, ← sound.tree.card_presentSlots]
  apply Finset.card_lt_card
  rw [Finset.ssubset_iff_of_subset liveSlots_subset]
  exact ⟨p, mem_presentSlots.2 present, fun live => dead (mem_liveSlots.1 live)⟩

/-- Where every entry is in use, the blocks are full. -/
theorem Sound.liveFiles_full (taken : ∀ q : DirentSlot,
    (vol.inodes 0).direct q.1 ≠ invalidBlock → (entryAt vol disk q).Live) :
    vol.liveFiles = 16 * (vol.inodes 0).blockCount.toNat := by
  rw [← sound.card_liveSlots, ← sound.tree.card_presentSlots]
  congr 1
  apply Finset.Subset.antisymm liveSlots_subset
  intro p present
  rw [mem_liveSlots]
  exact taken p (mem_presentSlots.1 present)

end Sound

/-- A file is one of the inodes behind the root directory's. -/
theorem Tree.liveFiles_subset (tree : Tree vol) :
    (Finset.univ.filter fun ino => (vol.inodes ino).type = itypeFile) ⊆ Finset.univ.erase 0 := by
  intro ino file
  rw [Finset.mem_filter] at file
  rw [Finset.mem_erase]
  exact ⟨tree.ne_root file.2, Finset.mem_univ ino⟩

theorem Tree.liveFiles_le (tree : Tree vol) : vol.liveFiles ≤ 63 :=
  Finset.card_le_card tree.liveFiles_subset

theorem Tree.liveFiles_lt (tree : Tree vol) (nonzero : ino ≠ 0)
    (free : (vol.inodes ino).type = itypeFree) : vol.liveFiles < 63 := by
  unfold Volume.liveFiles
  change _ < (Finset.univ.erase (0 : Fin 64)).card
  apply Finset.card_lt_card
  rw [Finset.ssubset_iff_of_subset tree.liveFiles_subset]
  refine ⟨ino, Finset.mem_erase.2 ⟨nonzero, Finset.mem_univ ino⟩, ?_⟩
  rw [Finset.mem_filter, free]
  simp [itypeFree, itypeFile]

theorem Tree.liveFiles_all (tree : Tree vol)
    (all : ∀ ino, ino ≠ 0 → (vol.inodes ino).type = itypeFile) : vol.liveFiles = 63 := by
  have same : (Finset.univ.filter fun ino => (vol.inodes ino).type = itypeFile) =
      Finset.univ.erase 0 := by
    apply Finset.Subset.antisymm tree.liveFiles_subset
    intro ino other
    rw [Finset.mem_filter]
    exact ⟨Finset.mem_univ ino, all ino (Finset.mem_erase.1 other).1⟩
  unfold Volume.liveFiles
  rw [same]
  rfl

theorem Volume.liveFiles_add (free : (vol.inodes ino).type = itypeFree)
    (types : ∀ j, (vol'.inodes j).type = if j = ino then itypeFile else (vol.inodes j).type) :
    vol'.liveFiles = vol.liveFiles + 1 := by
  have more : (Finset.univ.filter fun j => (vol'.inodes j).type = itypeFile) =
      insert ino (Finset.univ.filter fun j => (vol.inodes j).type = itypeFile) := by
    ext j
    by_cases here : j = ino
    · simp [types, here]
    · simp [types, here]
  unfold liveFiles
  rw [more, Finset.card_insert_of_notMem]
  rw [Finset.mem_filter, free]
  simp [itypeFree, itypeFile]

/-! ## What a call does to the directory -/

/-- The directory has as many blocks as before, or one more: then all entries were in use, and
there is one more file. -/
def RootGrows (vol vol' : Volume) : Prop :=
  (vol'.inodes 0).blockCount = (vol.inodes 0).blockCount ∨
    (vol'.inodes 0).blockCount.toNat = (vol.inodes 0).blockCount.toNat + 1 ∧
      vol'.liveFiles = 16 * (vol.inodes 0).blockCount.toNat + 1

theorem RootGrows.of_same (same : vol'.inodes 0 = vol.inodes 0) : RootGrows vol vol' :=
  .inl (congrArg Inode.blockCount same)

section Outcomes

variable {now : UInt64} {number : UInt32} (sound : Sound count vol disk)
include sound

theorem CreateOutcome.rootGrows {name : CString} {result : Except Errno UInt32 × (Volume × Blocks)}
    (outcome : CreateOutcome count crypto mount now name vol disk result) :
    RootGrows vol result.2.1 := by
  cases outcome with
  | badName _ => exact .of_same rfl
  | taken p _ _ => exact .of_same rfl
  | noInode _ _ _ => exact .of_same rfl
  | noRoom ino _ _ nonzero _ _ _ =>
    apply RootGrows.of_same
    exact Function.update_of_ne (Ne.symm nonzero) ..
  | created ino p vol₁ disk₁ disk' valid absent nonzero free added grows shows =>
    have claimed : (vol.claimInode ino now).inodes 0 = vol.inodes 0 :=
      claimInode_other now (Ne.symm nonzero)
    cases grows with
    | inl same =>
      subst same
      exact .of_same claimed
    | inr grown =>
      obtain ⟨taken, _, block, rfl⟩ := grown
      have bound := sound.tree.rootCount.2
      apply Or.inr
      constructor
      · have more : ((((vol.claimInode ino now).growRoot block).flushed crypto mount).inodes
            0).blockCount = (vol.inodes 0).blockCount + 1 := by
          rw [← claimed]
          rfl
        dsimp only
        rw [more, UInt32.toNat_add]
        exact Nat.mod_eq_of_lt (by change _ + 1 < _; omega)
      · have files := Volume.liveFiles_add free (added.types nonzero)
        rw [sound.liveFiles_full taken] at files
        exact files

theorem UnlinkOutcome.rootGrows {name : CString} {result : Except Errno Unit × (Volume × Blocks)}
    (outcome : UnlinkOutcome count crypto mount name vol disk result) :
    RootGrows vol result.2.1 := by
  cases outcome with
  | missing _ => exact .of_same rfl
  | removed p vol₁ disk₁ disk' named removed shows =>
    have live := (nameRef_eq_some.1 named).1
    have nonzero := sound.tree.ne_root (sound.file_of_live live)
    apply RootGrows.of_same
    exact removed.others 0 (Ne.symm nonzero)

theorem WriteOutcome.rootGrows {buf : List UInt8} {offset : UInt64}
    {result : Except Errno Nat × (Volume × Blocks)}
    (outcome : WriteOutcome count crypto mount now number buf offset vol disk result) :
    RootGrows vol result.2.1 := by
  cases outcome with
  | rejected error _ => exact .of_same rfl
  | written vol₁ disk₁ disk' accepted stored shows =>
    have nonzero := sound.tree.ne_root (of_writeError_none accepted).2.1
    apply RootGrows.of_same
    rw [← stored.step.others 0 (Ne.symm nonzero)]
    exact Function.update_of_ne (Ne.symm nonzero) ..
  | full m vol₁ disk₁ accepted stops stored full =>
    have nonzero := sound.tree.ne_root (of_writeError_none accepted).2.1
    exact .of_same (stored.step.others 0 (Ne.symm nonzero))

theorem TruncateOutcome.rootGrows {newSize : UInt64}
    {result : Except Errno Unit × (Volume × Blocks)}
    (outcome : TruncateOutcome count crypto mount now number newSize vol disk result) :
    RootGrows vol result.2.1 := by
  cases outcome with
  | rejected error _ => exact .of_same rfl
  | same _ _ => exact .of_same rfl
  | resized vol₁ disk₁ disk' accepted other cut shows =>
    have nonzero := sound.tree.ne_root (of_truncateError_none accepted).2.1
    have unset : ((vol₁.setMeta (inodeOf number) newSize now).flushed crypto mount).inodes 0 =
        vol₁.inodes 0 := Function.update_of_ne (Ne.symm nonzero) ..
    apply RootGrows.of_same
    dsimp only
    rw [unset]
    unfold CutTo at cut
    split at cut
    · exact cut.step.others 0 (Ne.symm nonzero)
    · rw [cut.1]

/-- One call. -/
theorem CallOutcome.rootGrows {c : Call} {result : Except Errno Reply × (Volume × Blocks)}
    (outcome : CallOutcome count crypto mount vol disk c result) : RootGrows vol result.2.1 := by
  cases outcome with
  | lookup ends => cases ends <;> exact .of_same rfl
  | create ends => exact ends.rootGrows sound
  | unlink ends => exact ends.rootGrows sound
  | read => exact .of_same rfl
  | write ends => exact ends.rootGrows sound
  | truncate ends => exact ends.rootGrows sound
  | readdir => exact .of_same rfl
  | flush disk' _ => exact .of_same rfl

/-- When a create succeeds. -/
theorem CreateOutcome.succeeds_iff {name : CString}
    {result : Except Errno UInt32 × (Volume × Blocks)} (valid : ValidName name.bytes)
    (absent : ∀ p, nameRef vol disk p ≠ some name.bytes)
    (outcome : CreateOutcome count crypto mount now name vol disk result) :
    ((∃ number, result.1 = .ok number) ↔ vol.liveFiles < 63 ∧
      (vol.liveFiles < 16 * (vol.inodes 0).blockCount.toNat ∨ 0 < vol.sb.freeBlocks.toNat)) ∧
    ((∃ number, result.1 = .ok number) ∨ result.1 = .error .enospc) := by
  cases outcome with
  | badName bad => exact absurd valid bad
  | taken p _ named => exact absurd named (absent p)
  | noInode _ _ all =>
    have files := sound.tree.liveFiles_all all
    constructor
    · simp [files]
    · exact .inr rfl
  | noRoom ino _ _ nonzero free taken full =>
    -- so many directory blocks would hold more files than there are inodes
    have files := sound.liveFiles_full taken
    have bound := sound.tree.liveFiles_le
    constructor
    · simp
      omega
    · exact .inr rfl
  | created ino p vol₁ disk₁ disk' _ _ nonzero free added grows shows =>
    have inodes := sound.tree.liveFiles_lt nonzero free
    have room : vol.liveFiles < 16 * (vol.inodes 0).blockCount.toNat ∨
        0 < vol.sb.freeBlocks.toNat := by
      cases grows with
      | inr grown => exact .inr grown.2.1
      | inl same =>
        subst same
        obtain ⟨root, before⟩ := claimInode_root now sound free nonzero
        have dead : ¬(entryAt vol disk p).Live := by
          rw [← before]
          exact added.dead
        have claimed : (vol.claimInode ino now).inodes 0 = vol.inodes 0 :=
          claimInode_other now (Ne.symm nonzero)
        have live : (entryAt (vol.claimInode ino now) disk₁ p).Live := by
          rw [added.entries, if_pos rfl]
          exact Dirent.live_of_small
        have present := present_of_live live
        rw [claimed] at present
        exact .inl (sound.liveFiles_lt present dead)
    constructor
    · exact ⟨fun _ => ⟨inodes, room⟩, fun _ => ⟨_, rfl⟩⟩
    · exact .inl ⟨_, rfl⟩

end Outcomes

/-! ## The root directory on disk

A directory that grew is flushed by the call that let it grow.  Nothing else a call leaves in
memory only concerns the root directory, so a volume that is opened again has the directory it was
closed with. -/

/-- The blocks say where the inode table is and how many blocks the root directory has as memory
does. -/
structure RootStored (vol : Volume) (disk : Blocks) : Prop where
  table : (loadedVolume disk).sb.inodeStart = vol.sb.inodeStart
  blockCount : ((loadedVolume disk).inodes 0).blockCount = (vol.inodes 0).blockCount

theorem loadedVolume_root (disk : Blocks) : (loadedVolume disk).inodes 0 =
    inodesSector.symm (disk ((loadedVolume disk).sb.inodeStart + UInt32.ofNat 0)) 0 := rfl

/-- Blocks from `data_start` on do not matter. -/
theorem RootStored.of_kept (layout : vol.sb.Layout count) (stored : RootStored vol disk)
    (table : vol'.sb.inodeStart = vol.sb.inodeStart)
    (root : (vol'.inodes 0).blockCount = (vol.inodes 0).blockCount)
    (kept : ∀ block : UInt32, block.toNat < vol.sb.dataStart.toNat → disk' block = disk block) :
    RootStored vol' disk' := by
  have dataStart := layout.dataStart
  have place := layout.inodeStart_add (show 0 < 2 by omega)
  have superblock : (loadedVolume disk').sb = (loadedVolume disk).sb := by
    change superblockSector.symm (disk' 0) = superblockSector.symm (disk 0)
    rw [kept 0 (by change 0 < _; omega)]
  constructor
  · rw [superblock, stored.table, table]
  · rw [loadedVolume_root, superblock, stored.table, kept _ (by omega), root,
      ← stored.blockCount, loadedVolume_root, stored.table]

/-- A flush writes the superblock and the inode table. -/
theorem FlushedTo.rootStored (layout : vol.sb.Layout count)
    (shows : FlushedTo crypto mount vol disk disk') :
    RootStored (vol.flushed crypto mount) disk' := by
  have sealedLayout : (vol.sealed crypto mount).sb.Layout count := layout.of_same rfl
  have dataStart := sealedLayout.dataStart
  have place := sealedLayout.inodeStart_add (show 0 < 2 by omega)
  have first : disk' 0 = superblockSector (vol.sealed crypto mount).sb := by
    rw [shows, if_pos]
    · rfl
    · rw [Volume.mem_flushWrites sealedLayout]
      constructor
      · change 0 < _
        omega
      · intro nonzero
        exact absurd rfl nonzero
  have table : disk' ((vol.sealed crypto mount).sb.inodeStart + UInt32.ofNat 0) =
      (vol.sealed crypto mount).inodeSector 0 := by
    rw [shows, if_pos]
    · exact Volume.metadataBlock_inode sealedLayout (show 0 < 2 by omega)
    · rw [Volume.mem_flushWrites sealedLayout]
      constructor <;> omega
  have superblock : (loadedVolume disk').sb = (vol.sealed crypto mount).sb := by
    change superblockSector.symm (disk' 0) = _
    rw [first, Equiv.symm_apply_apply]
  constructor
  · exact congrArg Superblock.inodeStart superblock
  · rw [loadedVolume_root, superblock, table, Volume.inodeSector, Equiv.symm_apply_apply]
    rfl

/-- A write that runs out of space has changed nothing before `data_start`. -/
theorem exec_acceptedWrite_failed (layout : vol.sb.Layout count)
    (flushable : Flushable vol.sb Unframed vol disk) {now : UInt64} {buf : List UInt8}
    {offset : UInt64} {error : Errno} {after : Volume × Blocks}
    (fails : Prog.exec (plainDevice count) (acceptedWrite crypto mount now ino buf offset)
      (vol, disk) = (.error error, after)) (block : UInt32)
    (metadata : block.toNat < vol.sb.dataStart.toNat) : after.2 block = disk block := by
  have region : Region vol.sb count fun blocks =>
      ∀ block : UInt32, block.toNat < vol.sb.dataStart.toNat → blocks block = disk block := by
    constructor
    case layout => exact layout
    case closed =>
      intro blocks written data inData framed block metadata
      have start := UInt32.le_iff_toNat_le.1 inData
      rw [Function.update_of_ne, framed block metadata]
      rintro rfl
      omega
  have framed : Flushable vol.sb (fun blocks => ∀ block : UInt32,
      block.toNat < vol.sb.dataStart.toNat → blocks block = disk block) vol disk :=
    ⟨flushable.layout, flushable.clean, flushable.rootType, flushable.rootBlocks, fun _ _ => rfl⟩
  have keeps := keeps_writeChunks (plainDevice_storage count) region ino buf.length offset.toNat buf
    vol disk trivial framed
  unfold acceptedWrite at fails
  cases chunks : Prog.exec (plainDevice count) (writeChunks ino buf.length offset.toNat buf)
    (vol, disk) with
  | mk result state =>
  obtain ⟨vol₁, disk₁⟩ := state
  rw [chunks] at keeps
  obtain ⟨_, kept, _⟩ := keeps
  cases result with
  | error failure =>
    rw [Prog.exec_bind_error chunks] at fails
    cases fails
    exact kept.framed block metadata
  | ok value =>
    -- after the last block only a flush is left, and that succeeds
    rw [Prog.exec_bind_ok chunks, Prog.exec_bind_ok (exec_modifyInode _ _)] at fails
    have sameLayout : ∀ inode, (vol₁.setInode ino inode).sb.Layout count :=
      fun _ => layout.of_same kept.layout
    obtain ⟨_, flushes, _⟩ := exec_flushOrEio_plain crypto mount (sameLayout _) disk₁
    rw [Prog.exec_bind_ok flushes] at fails
    cases fails

section Stored

variable (sound : Sound count vol disk) (stored : RootStored vol disk)
include sound stored

theorem RootStored.create {now : UInt64} {name : CString}
    {result : Except Errno UInt32 × (Volume × Blocks)}
    (outcome : CreateOutcome count crypto mount now name vol disk result) :
    RootStored result.2.1 result.2.2 := by
  cases outcome with
  | badName _ => exact stored
  | taken p _ _ => exact stored
  | noInode _ _ _ => exact stored
  | noRoom ino _ _ nonzero _ _ _ =>
    apply stored.of_kept sound.accounted.layout
    · rfl
    · exact congrArg Inode.blockCount (Function.update_of_ne (Ne.symm nonzero) ..)
    · exact fun _ _ => rfl
  | created ino p vol₁ disk₁ disk' _ _ _ _ added _ shows =>
    exact shows.rootStored added.step.accounted.layout

theorem RootStored.write {now : UInt64} {number : UInt32} {buf : List UInt8} {offset : UInt64}
    (flushable : Flushable vol.sb Unframed vol disk) :
    let after := Prog.exec (plainDevice count) (volWrite crypto mount now number buf offset)
      (vol, disk)
    RootStored after.2.1 after.2.2 := by
  intro after
  have failed : ∀ error, writeError vol number buf.length offset = none → after.1 = .error error →
      ∀ block : UInt32, block.toNat < vol.sb.dataStart.toNat → after.2.2 block = disk block := by
    intro error accepted fails block metadata
    have run : after = _ := exec_volWrite_accepted _ crypto mount now accepted disk
    rw [run] at fails ⊢
    exact exec_acceptedWrite_failed sound.accounted.layout flushable (Prod.ext fails rfl) block
      metadata
  have outcome : WriteOutcome count crypto mount now number buf offset vol disk after :=
    sound.exec_volWrite crypto mount now number buf offset
  generalize after = result at failed outcome ⊢
  cases outcome with
  | rejected error _ => exact stored
  | written vol₁ disk₁ disk' accepted stores shows =>
    exact FlushedTo.rootStored (stores.step.accounted.layout.of_same rfl) shows
  | full m vol₁ disk₁ accepted stops stores full =>
    have nonzero := sound.tree.ne_root (of_writeError_none accepted).2.1
    apply stored.of_kept sound.accounted.layout
    · dsimp only
      rw [stores.step.sb]
    · exact congrArg Inode.blockCount (stores.step.others 0 (Ne.symm nonzero))
    · exact failed .enospc accepted rfl

theorem RootStored.truncate {now : UInt64} {number : UInt32} {newSize : UInt64}
    {result : Except Errno Unit × (Volume × Blocks)}
    (outcome : TruncateOutcome count crypto mount now number newSize vol disk result) :
    RootStored result.2.1 result.2.2 := by
  cases outcome with
  | rejected error _ => exact stored
  | same _ _ => exact stored
  | resized vol₁ disk₁ disk' accepted other cut shows =>
    have layout : vol₁.sb.Layout count := by
      unfold CutTo at cut
      split at cut
      · exact cut.step.accounted.layout
      · rw [cut.1]
        exact sound.accounted.layout
    exact FlushedTo.rootStored (layout.of_same rfl) shows

/-- One call. -/
theorem RootStored.call (crypto : Crypto) (mount : Mount) (flushable : Flushable vol.sb Unframed vol disk) (c : Call) :
    let after := call crypto mount (plainDevice count) c (vol, disk)
    RootStored after.2.1 after.2.2 := by
  intro after
  have written : ∀ now number buf offset, c = .write now number buf offset →
      RootStored after.2.1 after.2.2 := by
    intro now number buf offset isWrite
    have run : after.2 = (Prog.exec (plainDevice count)
        (volWrite crypto mount now number buf offset) (vol, disk)).2 := by
      subst isWrite
      exact congrArg Prod.snd (Prog.exec_bind_pure (plainDevice count) (vol, disk) _ Reply.count)
    rw [run]
    exact RootStored.write sound stored flushable
  have outcome : CallOutcome count crypto mount vol disk c after := sound.call_outcome c
  generalize after = result at written outcome ⊢
  cases outcome with
  | lookup ends => cases ends <;> exact stored
  | create ends => exact RootStored.create sound stored ends
  | unlink ends =>
    cases ends with
    | missing _ => exact stored
    | removed p vol₁ disk₁ disk' named removed shows =>
      exact shows.rootStored removed.accounted.layout
  | read => exact stored
  | write ends => exact written _ _ _ _ rfl
  | truncate ends => exact RootStored.truncate sound stored ends
  | readdir => exact stored
  | flush disk' shows => exact shows.rootStored sound.accounted.layout

end Stored

/-! ## Runs -/

/-- The directory has as many blocks as the most files of any state so far needed. -/
structure Filled (most : Nat) (vol : Volume) : Prop where
  bound : most ≤ 4
  blockCount : (vol.inodes 0).blockCount.toNat = max 1 most

theorem Filled.step {most : Nat} (filled : Filled most vol) (after : Sound count vol' disk')
    (grows : RootGrows vol vol') : Filled (max most (directoryBlocks vol'.liveFiles)) vol' := by
  have bound := filled.bound
  have blocks := filled.blockCount
  have files := after.tree.liveFiles_le
  have room := after.liveFiles_le
  unfold directoryBlocks
  constructor
  · omega
  · cases grows with
    | inl same =>
      -- the files of a directory that has not grown fit into its blocks
      rw [same] at room ⊢
      omega
    | inr more =>
      obtain ⟨one, full⟩ := more
      omega

/-- The same volume, opened with or without protection. -/
structure Mount.SameVolume (mount mount' : Mount) : Prop where
  volumeKey : mount'.volumeKey = mount.volumeKey
  start : mount'.volStartOffset = mount.volStartOffset
  size : mount'.volumeSize = mount.volumeSize

theorem Mount.SameVolume.blocks {mount mount' : Mount} (same : mount.SameVolume mount')
    (container : Container) : mount'.blocks crypto container = mount.blocks crypto container := by
  unfold Mount.blocks Mount.blockCount
  rw [same.volumeKey, same.start, same.size]

/-- The states of runs from a freshly formatted volume, with the most directory blocks the files of
any state so far need.  Calls may be of any kind and have any results as long as their block
requests are served, and the volume may be closed and opened again, with or without protection. -/
inductive FormattedReached (crypto : Crypto) : Mount → Nat → Volume → Disk → Prop where
  | formatted {mount : Mount} {now : UInt64} {before after start disk : Disk} {vol : Volume}
      {password : List UInt8} {hiddenPassword : Option (List UInt8)} {protectHidden : Bool} :
    mount.Placed before.container.size →
    formatVolume crypto mount.volumeKey mount.hmacKey mount.volumeSize mount.volStartOffset now
      before = (true, after) →
    start.container = after.container →
    volOpen crypto password hiddenPassword protectHidden start = (some (mount, vol), disk) →
    FormattedReached crypto mount (directoryBlocks vol.liveFiles) vol disk
  | called {mount : Mount} {most : Nat} {vol vol' : Volume} {disk disk' : Disk}
      {result : Except Errno Reply} (c : Call) :
    FormattedReached crypto mount most vol disk →
    mount.Serves crypto (perform crypto mount c) vol disk →
    call crypto mount (volumeDevice crypto mount) c (vol, disk) = (result, vol', disk') →
    FormattedReached crypto mount (max most (directoryBlocks vol'.liveFiles)) vol' disk'
  | reopened {mount mount' : Mount} {most : Nat} {vol vol' : Volume} {disk start disk' : Disk}
      {password : List UInt8} {hiddenPassword : Option (List UInt8)} {protectHidden : Bool} :
    FormattedReached crypto mount most vol disk →
    start.container = disk.container →
    volOpen crypto password hiddenPassword protectHidden start = (some (mount', vol'), disk') →
    mount.SameVolume mount' →
    FormattedReached crypto mount' (max most (directoryBlocks vol'.liveFiles)) vol' disk'

/-- The layout an open volume started with is the one it has. -/
theorem Flushable.rebase {base : Superblock} {frame : Blocks → Prop}
    (flushable : Flushable base frame vol disk) : Flushable vol.sb frame vol disk := by
  have dataStart := flushable.layout.dataStart
  constructor
  case layout => exact .refl vol.sb
  case clean => exact flushable.clean
  case rootType => exact flushable.rootType
  case rootBlocks =>
    intro i
    have place := flushable.rootBlocks i
    unfold Superblock.InData at place ⊢
    rwa [dataStart]
  case framed => exact flushable.framed

/-- What holds in every state of such a run. -/
structure Tracked (crypto : Crypto) (mount : Mount) (most : Nat) (vol : Volume) (disk : Disk) :
    Prop where
  holds : Holds crypto mount vol disk
  filled : Filled most vol
  stored : RootStored vol (mount.blocks crypto disk.container)
  flushable : Flushable vol.sb Unframed vol (mount.blocks crypto disk.container)

section Tracked

variable {container container' : Disk} {most : Nat} (roundTrip : crypto.SectorRoundTrip)
include roundTrip

/-- Opening reads what is on disk. -/
theorem Tracked.opened {start : Disk} {password : List UInt8} {hiddenPassword : Option (List UInt8)}
    {protectHidden : Bool} (opened : volOpen crypto password hiddenPassword protectHidden start =
      (some (mount, vol), container)) (filled : Filled most vol) :
    Tracked crypto mount most vol container := by
  obtain ⟨same, _, loaded, _⟩ := volOpen_loaded roundTrip opened
  constructor
  case holds => exact (SteadyReached.opened opened).holds roundTrip
  case filled => exact filled
  case stored =>
    rw [same, loaded]
    exact ⟨rfl, rfl⟩
  case flushable => exact (opened_flushable roundTrip opened).2.2

/-- A formatted volume has one directory block and no file. -/
theorem filled_of_formatted {now : UInt64} {before after : Disk}
    (placed : mount.Placed before.container.size)
    (formats : formatVolume crypto mount.volumeKey mount.hmacKey mount.volumeSize
      mount.volStartOffset now before = (true, after)) :
    Filled (directoryBlocks (loadedVolume (mount.blocks crypto after.container)).liveFiles)
      (loadedVolume (mount.blocks crypto after.container)) := by
  have written : (formatVolume crypto mount.unguarded.volumeKey mount.hmacKey
      mount.unguarded.volumeSize mount.unguarded.volStartOffset now before).1 = true :=
    congrArg Prod.fst formats
  have ends := formatVolume_formatted roundTrip rfl placed.unguarded written
  obtain ⟨formattable, _, formatted, _⟩ := ends
  have same : (formatVolume crypto mount.unguarded.volumeKey mount.hmacKey
      mount.unguarded.volumeSize mount.unguarded.volStartOffset now before).2 = after :=
    congrArg Prod.snd formats
  rw [same] at formatted
  have agrees := formatted.stored.loaded (formatImage_layout crypto mount.hmacKey now formattable)
  have root : (loadedVolume (mount.blocks crypto after.container)).inodes 0 =
      newRoot (formatLayout mount.volumeSize).dataStart now := congrFun agrees.inodes 0
  have empty : (loadedVolume (mount.blocks crypto after.container)).liveFiles = 0 := by
    unfold Volume.liveFiles
    rw [Finset.card_eq_zero, Finset.filter_eq_empty_iff]
    intro ino _
    change ((loadedVolume (mount.unguarded.blocks crypto after.container)).inodes ino).type ≠ _
    rw [agrees.inodes]
    by_cases first : ino = 0
    · subst first
      change (newRoot (formatLayout mount.volumeSize).dataStart now).type ≠ _
      simp [newRoot, itypeDir, itypeFile]
    · rw [formatImage_blank first]
      simp [blankInodeRecord, itypeFree, itypeFile]
  rw [empty]
  constructor
  · decide
  · rw [root]
    rfl

/-- One call. -/
theorem Tracked.called {result : Except Errno Reply} (tracked : Tracked crypto mount most vol container)
    (c : Call) (served : mount.Serves crypto (perform crypto mount c) vol container)
    (ends : call crypto mount (volumeDevice crypto mount) c (vol, container) =
      (result, vol', container')) :
    Tracked crypto mount (max most (directoryBlocks vol'.liveFiles)) vol' container' := by
  have sound := tracked.holds.sound
  have layout := sound.accounted.layout
  obtain ⟨_, memory, _, blocks⟩ := call_steady roundTrip tracked.holds.placed served
  have holds := tracked.holds.called roundTrip c served
  obtain ⟨_, flushable, _⟩ := keeps_perform (volumeDevice_storage mount roundTrip)
    layout.unframed crypto mount c vol container tracked.holds.placed tracked.flushable
  have outcome : CallOutcome mount.blockCount crypto mount vol
      (mount.blocks crypto container.container) c _ := sound.call_outcome c
  have grows := outcome.rootGrows sound
  have stored := RootStored.call sound tracked.stored crypto mount tracked.flushable c
  dsimp only at stored
  rw [← memory] at grows stored
  rw [← blocks] at stored
  change Flushable vol.sb Unframed
    (call crypto mount (volumeDevice crypto mount) c (vol, container)).2.1
    (mount.blocks crypto
      (call crypto mount (volumeDevice crypto mount) c (vol, container)).2.2.container) at flushable
  rw [ends] at holds flushable grows stored
  constructor
  case holds => exact holds
  case filled => exact tracked.filled.step holds.sound grows
  case stored => exact stored
  case flushable => exact flushable.rebase

/-- Closing and opening again. -/
theorem Tracked.reopened {mount' : Mount} {start : Disk} {password : List UInt8}
    {hiddenPassword : Option (List UInt8)} {protectHidden : Bool}
    (tracked : Tracked crypto mount most vol container) (same : start.container = container.container)
    (opened : volOpen crypto password hiddenPassword protectHidden start =
      (some (mount', vol'), container')) (sameVolume : mount.SameVolume mount') :
    Tracked crypto mount' (max most (directoryBlocks vol'.liveFiles)) vol' container' := by
  have holds := (SteadyReached.opened opened).holds roundTrip
  obtain ⟨_, _, loaded, _⟩ := volOpen_loaded roundTrip opened
  rw [same, sameVolume.blocks] at loaded
  have grows : RootGrows vol vol' := by
    apply Or.inl
    rw [loaded]
    exact tracked.stored.blockCount
  exact .opened roundTrip opened (tracked.filled.step holds.sound grows)

/-- A whole run. -/
theorem FormattedReached.tracked (reached : FormattedReached crypto mount most vol container) :
    Tracked crypto mount most vol container := by
  induction reached with
  | formatted placed formats same opened =>
    obtain ⟨_, _, loaded, _⟩ := volOpen_loaded roundTrip opened
    have filled := filled_of_formatted roundTrip placed formats
    rw [← same, ← loaded] at filled
    exact .opened roundTrip opened filled
  | called c _ served ends ih => exact ih.called roundTrip c served ends
  | reopened _ same opened sameVolume ih => exact ih.reopened roundTrip same opened sameVolume

end Tracked

theorem map_ino_eq_ok {result : Except Errno UInt32} :
    (∃ number, result.map Reply.ino = .ok (.ino number)) ↔ ∃ number, result = .ok number := by
  cases result <;> simp [Except.map]

/-- `denyfs_vol_create` on the decrypted blocks. -/
theorem Sound.create_iff (sound : Sound count vol disk) (crypto : Crypto) (mount : Mount)
    (now : UInt64) {name : CString} (valid : ValidName name.bytes)
    (absent : ∀ p, nameRef vol disk p ≠ some name.bytes) :
    let result := (call crypto mount (plainDevice count) (.create now name) (vol, disk)).1
    ((∃ number, result = .ok (.ino number)) ↔ vol.liveFiles < 63 ∧
      (vol.liveFiles < 16 * (vol.inodes 0).blockCount.toNat ∨ 0 < vol.sb.freeBlocks.toNat)) ∧
    ((∃ number, result = .ok (.ino number)) ∨ result = .error .enospc) := by
  intro result
  have outcome : CallOutcome count crypto mount vol disk (.create now name) _ :=
    sound.call_outcome _
  cases ends : call crypto mount (plainDevice count) (.create now name) (vol, disk) with
  | mk reply after =>
  have here : result = reply := congrArg Prod.fst ends
  rw [ends] at outcome
  rw [here]
  cases outcome with
  | @create _ _ inner created =>
    obtain ⟨iff, either⟩ := created.succeeds_iff sound valid absent
    constructor
    · rw [map_ino_eq_ok]
      exact iff
    · cases either with
      | inl succeeds => exact .inl (map_ino_eq_ok.2 succeeds)
      | inr full =>
        rw [full]
        exact .inr rfl

/-- In every state reached from a freshly formatted volume the root directory has at most four
blocks, as many as the most files so far needed and one at the least, and they are a prefix of its
pointers.  Creating a file under a valid name that is not taken succeeds exactly where there is an
inode and either an unused entry or a free block, and returns `-ENOSPC` otherwise. -/
theorem create_succeeds_iff {most : Nat} {disk : Disk} (roundTrip : crypto.SectorRoundTrip)
    (reached : FormattedReached crypto mount most vol disk) :
    (vol.inodes 0).blockCount.toNat ≤ 4 ∧
    (vol.inodes 0).blockCount.toNat = max 1 most ∧
    (∀ i : Fin 20, (vol.inodes 0).direct i ≠ invalidBlock ↔
      i.val < (vol.inodes 0).blockCount.toNat) ∧
    ∀ (now : UInt64) (name : CString), ValidName name.bytes →
      (∀ p, nameRef vol (mount.blocks crypto disk.container) p ≠ some name.bytes) →
      mount.Serves crypto (perform crypto mount (.create now name)) vol disk →
      let result := (call crypto mount (volumeDevice crypto mount) (.create now name) (vol, disk)).1
      let room := vol.liveFiles < 63 ∧
        (vol.liveFiles < 16 * (vol.inodes 0).blockCount.toNat ∨ 0 < vol.sb.freeBlocks.toNat)
      ((∃ number, result = .ok (.ino number)) ↔ room) ∧ (¬room → result = .error .enospc) := by
  have tracked := reached.tracked roundTrip
  have sound := tracked.holds.sound
  have bound := tracked.filled.bound
  have blocks := tracked.filled.blockCount
  refine ⟨by omega, blocks, sound.tree.rootDirect, ?_⟩
  intro now name valid absent served result room
  have same : result = _ := (call_steady roundTrip tracked.holds.placed served).1
  obtain ⟨iff, either⟩ := sound.create_iff crypto mount now valid absent
  rw [same]
  constructor
  · exact iff
  · intro none
    cases either with
    | inl succeeds => exact absurd (iff.1 succeeds) none
    | inr full => exact full

/-- The first file of a small container can be created. -/
theorem create_succeeds_iff_small :
    ∃ disk vol number, smallContainer 4 = some disk ∧ (vol.inodes 0).blockCount.toNat ≤ 4 ∧
      (call transparentCrypto (outerMount zeroRandomness 4)
        (volumeDevice transparentCrypto (outerMount zeroRandomness 4)) (.create 0 nameA)
        (vol, disk)).1 = .ok (.ino number) := by
  have positive : 0 < (4 : UInt64).toNat := by decide
  have small : (4 : UInt64).toNat ≤ 1024 := by decide
  obtain ⟨disk, vol, created, fresh, asNew⟩ := smallContainer_fresh positive small
  have shows := fresh.reached.shows transparentCrypto_sectors
  have dead := asNew.dead transparentCrypto_sectors fresh.reached
  have files : vol.liveFiles = 0 := by
    rw [← shows.sound.card_liveSlots, Finset.card_eq_zero, liveSlots, Finset.filter_eq_empty_iff]
    exact fun p _ => dead p
  obtain ⟨now, before, after, placed, formats, same⟩ := fresh.formats
  obtain ⟨password, hiddenPassword, protectHidden, opened⟩ := fresh.opens
  obtain ⟨bound, blocks, _, creates⟩ := create_succeeds_iff transparentCrypto_sectors
    (.formatted placed formats same.symm opened)
  have room : vol.liveFiles < 63 ∧
      (vol.liveFiles < 16 * (vol.inodes 0).blockCount.toNat ∨ 0 < vol.sb.freeBlocks.toNat) := by
    omega
  obtain ⟨number, returns⟩ := (creates 0 nameA nameA_valid
    (fun p named => dead p (nameRef_eq_some.1 named).1)
    (shows.serves transparentCrypto_sectors _)).1.2 room
  exact ⟨disk, vol, number, created, bound, returns⟩

end DenyFS
