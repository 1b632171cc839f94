import DenyFS.Verified.CreateSpec
import DenyFS.Verified.TruncateSpec

/-! # Unlink

`denyfs_vol_unlink` clears the entry, releases every block of the file and blanks its inode. -/

namespace DenyFS

open Packed BlockProgram Ownership

variable {count : Nat} {vol vol' : Volume} {disk disk' : Blocks} {ino : Fin 64}

/-- An inode number survives its way through a directory entry. -/
theorem ofNat_ino_lt (ino : Fin 64) : UInt32.ofNat ino.val < 64 := by
  apply UInt32.lt_iff_toNat_lt.2
  rw [UInt32.toNat_ofNat_of_lt' (lt_trans ino.isLt (by decide))]
  exact ino.isLt

theorem ofNat_ino (ino : Fin 64) : Fin.ofNat 64 (UInt32.ofNat ino.val).toNat = ino := by
  have number : (UInt32.ofNat ino.val).toNat = ino.val := by
    rw [UInt32.toNat_ofNat']
    exact Nat.mod_eq_of_lt (by omega)
  rw [number, Fin.ofNat_val_eq_self]

/-! ## The directory with one entry less -/

theorem Directory.remove {p : DirentSlot} (directory : Directory vol disk)
    (entries : ∀ q, entryAt vol' disk' q =
      if q = p then (entryAt vol disk p).cleared else entryAt vol disk q)
    (live : (entryAt vol disk p).Live)
    (types : ∀ j, (vol'.inodes j).type =
      if j = (entryAt vol disk p).ino then itypeFree else (vol.inodes j).type) :
    Directory vol' disk' := by
  have here : inodeRef vol disk p = some (entryAt vol disk p).ino := inodeRef_eq_some.2 ⟨live, rfl⟩
  have away : ∀ q, q ≠ p → entryAt vol' disk' q = entryAt vol disk q := fun q other => by
    rw [entries, if_neg other]
  have gone : ∀ q, (entryAt vol' disk' q).Live → q ≠ p := by
    rintro q still rfl
    rw [entries, if_pos rfl] at still
    exact Dirent.cleared_not_live _ still
  have names : ∀ q name, nameRef vol' disk' q = some name → nameRef vol disk q = some name := by
    intro q name points
    have other := gone q (nameRef_eq_some.1 points).1
    rw [nameRef_eq_some, away q other] at points
    exact nameRef_eq_some.2 points
  have inodes : ∀ q j, inodeRef vol' disk' q = some j → q ≠ p ∧ inodeRef vol disk q = some j := by
    intro q j points
    have other := gone q (inodeRef_eq_some.1 points).1
    rw [inodeRef_eq_some, away q other] at points
    exact ⟨other, inodeRef_eq_some.2 points⟩
  refine ⟨fun q => ?_, fun q r name first second => ?_, fun q r j first second => ?_,
    fun q j points => ?_, fun j nonzero file => ?_⟩
  · rw [entries]
    split
    · exact Dirent.cleared_valid _
    · exact directory.valid q
  · exact directory.names q r name (names q name first) (names r name second)
  · exact directory.inodes q r j (inodes q j first).2 (inodes r j second).2
  · obtain ⟨other, before⟩ := inodes q j points
    rw [types, if_neg]
    · exact directory.file q j before
    · rintro rfl
      exact other (directory.inodes q p _ before here)
  · rw [types] at file
    split at file
    · exact absurd file (by decide)
    next other =>
    obtain ⟨q, before⟩ := directory.listed j nonzero file
    have elsewhere : q ≠ p := by
      rintro rfl
      exact other (Option.some.inj (before.symm.trans here))
    refine ⟨q, ?_⟩
    rw [inodeRef_eq_some, away q elsewhere]
    exact inodeRef_eq_some.1 before

theorem Volume.liveInodes_remove (live : (vol.inodes ino).type ≠ itypeFree)
    (types : ∀ j, (vol'.inodes j).type = if j = ino then itypeFree else (vol.inodes j).type) :
    vol.liveInodes = vol'.liveInodes + 1 := by
  refine countP_of_added (upTo_nodup 64) (mem_upTo ino) ?_ (decide_eq_true live) fun j _ other => ?_
  · refine decide_eq_false (not_not_intro ?_)
    rw [types, if_pos rfl]
  · rw [types, if_neg other]

/-! ## Releasing the inode -/

/-- The last two assignments of `free_inode`. -/
def Volume.blankInode (vol : Volume) (ino : Fin 64) : Volume :=
  let vol := vol.setInode ino
    { vol.inodes ino with type := itypeFree, size := 0, blockCount := 0, mtime := 0 }
  { vol with sb := { vol.sb with freeInodes := vol.sb.freeInodes + 1 } }

theorem blankInode_recount (vol : Volume) (ino : Fin 64) (c : UInt32) :
    (vol.recount ino c).blankInode ino = vol.blankInode ino := by
  simp [Volume.blankInode, Volume.recount, Volume.setInode]

/-- `free_inode` is its releasing part and the last two assignments, on any device. -/
theorem exec_freeInode_parts {δ : Type} (device : Device δ UInt32 Sector Errno)
    (state : Volume × δ) :
    Prog.exec device (freeInode ino) state = Prog.exec device (releaseInode ino >>= fun _ => do
      modifyInode ino fun inode =>
        { inode with type := itypeFree, size := 0, blockCount := 0, mtime := 0 }
      modify fun vol => { vol with sb := { vol.sb with freeInodes := vol.sb.freeInodes + 1 } })
      state := by
  unfold freeInode releaseInode
  rw [Prog.exec_bind_assoc, Prog.exec_bind_ok (Prog.exec_modify _ _ _),
    Prog.exec_bind_ok (Prog.exec_modify _ _ _), Prog.exec_bind_assoc]

/-- `free_inode` truncates to nothing and blanks the inode. -/
theorem exec_freeInode_eq {δ : Type} (device : Device δ UInt32 Sector Errno) (vol : Volume)
    (state : δ) :
    Prog.exec device (freeInode ino) (vol, state) =
      match Prog.exec device (truncateFileBlocks ino 0) (vol, state) with
      | (.ok (), vol', state') => (.ok (), vol'.blankInode ino, state')
      | (.error error, vol', state') =>
        (.error error, vol'.recount ino (vol.inodes ino).blockCount, state') := by
  have releases := exec_releaseInode device ino (vol.inodes ino).blockCount vol state
  rw [recount_self] at releases
  rw [exec_freeInode_parts, Prog.exec_bind, releases]
  rcases Prog.exec device (truncateFileBlocks ino 0) (vol, state) with ⟨outcome, vol', state'⟩
  cases outcome with
  | error error => rfl
  | ok _ =>
    change (Except.ok (), (vol'.recount ino (vol.inodes ino).blockCount).blankInode ino, state') = _
    rw [blankInode_recount]

/-- A block map trimmed to nothing maps nothing, so all of its pointers are invalid. -/
theorem Trimmed.unmapped (trimmed : Trimmed count 0 vol vol' disk disk' ino) (s : FileSlot) :
    fileRef (vol'.inodes ino) disk' s = none := by
  have data : ∀ s : FileSlot, s.IsData → fileRef (vol'.inodes ino) disk' s = none := by
    intro s isData
    rw [trimmed.data s isData, if_neg (Nat.not_lt_zero _)]
  have child : ∀ outer, fileRef (vol'.inodes ino) disk' (.child outer) = none := by
    intro outer
    by_contra present
    obtain ⟨i, mapped⟩ := trimmed.compact.child outer present
    exact mapped (data _ trivial)
  cases s with
  | direct i => exact data _ trivial
  | entry i => exact data _ trivial
  | leaf outer i => exact data _ trivial
  | child outer => exact child outer
  | single =>
    by_contra present
    obtain ⟨i, mapped⟩ := trimmed.compact.single present
    exact mapped (data _ trivial)
  | root =>
    by_contra present
    obtain ⟨outer, mapped⟩ := trimmed.compact.root present
    exact mapped (child outer)

/-! ## Removing a file -/

/-- The file of an entry is gone: the entry, the blocks and the inode. -/
structure Removed (count : Nat) (vol vol' : Volume) (disk disk' : Blocks) (p : DirentSlot) :
    Prop where
  live : (entryAt vol disk p).Live
  entries : ∀ q, entryAt vol' disk' q =
    if q = p then (entryAt vol disk p).cleared else entryAt vol disk q
  accounted : Accounted count vol' disk' []
  sb : vol'.sb = { vol.sb with
    freeBlocks := vol'.sb.freeBlocks, freeInodes := vol.sb.freeInodes + 1 }
  blank : (vol'.inodes (entryAt vol disk p).ino).Blank
  free : (vol'.inodes (entryAt vol disk p).ino).type = itypeFree
  others : ∀ j, j ≠ (entryAt vol disk p).ino → vol'.inodes j = vol.inodes j
  refs : ∀ j, j ≠ (entryAt vol disk p).ino →
    fileRef (vol'.inodes j) disk' = fileRef (vol.inodes j) disk
  bytes : ∀ j, j ≠ (entryAt vol disk p).ino → j ≠ 0 →
    byteAt (vol'.inodes j) disk' = byteAt (vol.inodes j) disk

/-- An entry in use names a file. -/
theorem Sound.file_of_live (sound : Sound count vol disk) {p : DirentSlot}
    (live : (entryAt vol disk p).Live) :
    (vol.inodes (entryAt vol disk p).ino).type = itypeFile :=
  sound.directory.file p _ (inodeRef_eq_some.2 ⟨live, rfl⟩)

theorem blankInode_self (vol : Volume) (ino : Fin 64) : (vol.blankInode ino).inodes ino =
    { vol.inodes ino with type := itypeFree, size := 0, blockCount := 0, mtime := 0 } :=
  Function.update_self ..

theorem blankInode_other (vol : Volume) {ino j : Fin 64} (other : j ≠ ino) :
    (vol.blankInode ino).inodes j = vol.inodes j := Function.update_of_ne other ..

theorem Removed.sound {p : DirentSlot} (removed : Removed count vol vol' disk disk' p)
    (sound : Sound count vol disk) : Sound count vol' disk' := by
  have file := sound.file_of_live removed.live
  have nonzero : (entryAt vol disk p).ino ≠ 0 := sound.tree.ne_root file
  have root : vol'.inodes 0 = vol.inodes 0 := removed.others 0 (Ne.symm nonzero)
  have types : ∀ j, (vol'.inodes j).type =
      if j = (entryAt vol disk p).ino then itypeFree else (vol.inodes j).type := by
    intro j
    split
    next here => rw [here, removed.free]
    next other => rw [removed.others j other]
  have live : (vol.inodes (entryAt vol disk p).ino).type ≠ itypeFree := by
    rw [file]
    decide
  refine ⟨removed.accounted, fun j => ?_, fun j => ?_, ?_,
    sound.directory.remove removed.entries removed.live types⟩
  · by_cases here : j = (entryAt vol disk p).ino
    · rw [here, removed.blank.blockCount]
      refine (Finset.card_eq_zero.2 (Finset.eq_empty_of_forall_notMem fun s mapped => ?_)).symm
      exact (mem_mappedSlots.1 mapped).2 (removed.blank.fileRef_eq_none disk' s)
    · rw [mappedSlots_congr (removed.refs j here), removed.others j here]
      exact sound.counted j
  · by_cases here : j = (entryAt vol disk p).ino
    · rw [here]
      exact compact_of_no_tables removed.blank.indirectBlock removed.blank.doubleIndirectBlock
    · exact (sound.compact j).congr (removed.refs j here)
  · refine ⟨?_, ?_, ?_, ?_, ?_, ?_, fun j away => ?_, fun j unused => ?_, fun j => ?_, ?_⟩
    · rw [root]; exact sound.tree.rootType
    · rw [root]; exact sound.tree.rootSize
    · rw [root]; exact sound.tree.rootCount
    · rw [root]; exact sound.tree.rootDirect
    · rw [root]; exact sound.tree.rootSingle
    · rw [root]; exact sound.tree.rootDouble
    · rw [types]
      split
      · exact .inl rfl
      · exact sound.tree.types j away
    · by_cases here : j = (entryAt vol disk p).ino
      · rw [here]
        exact removed.blank
      · rw [types, if_neg here] at unused
        rw [removed.others j here]
        exact sound.tree.blank j unused
    · by_cases here : j = (entryAt vol disk p).ino
      · rw [here, removed.blank.size]
        exact Nat.zero_le _
      · rw [removed.others j here]
        exact sound.tree.sizes j
    · have fewer := Volume.liveInodes_remove live types
      have total := sound.tree.freeInodes
      have more : vol'.sb.freeInodes = vol.sb.freeInodes + 1 := by rw [removed.sb]
      have wraps : (vol.sb.freeInodes + 1).toNat = (vol.sb.freeInodes.toNat + 1) % 2 ^ 32 :=
        UInt32.toNat_add _ _
      rw [more]
      omega

/-- A directory without tables has the same block map on every disk. -/
theorem Tree.rootRef (tree : Tree vol) (disk disk' : Blocks) :
    fileRef (vol.inodes 0) disk' = fileRef (vol.inodes 0) disk := by
  funext s
  refine fileRef_congr (fun t isTable b points => ?_) s
  have none : fileRef (vol.inodes 0) disk t = none := by
    cases t with
    | single => exact pointer_eq_none.2 tree.rootSingle
    | root => exact pointer_eq_none.2 tree.rootDouble
    | child outer => exact pointer_eq_none.2 (rootTable_hole tree.rootDouble outer)
    | direct i => exact isTable.elim
    | entry i => exact isTable.elim
    | leaf outer i => exact isTable.elim
  rw [none] at points
  cases points

/-- Blanking an inode that maps nothing. -/
theorem Accounted.blankInode (accounted : Accounted count vol disk [])
    (unmapped : ∀ s, fileRef (vol.inodes ino) disk s = none) :
    Accounted count (vol.blankInode ino) disk [] := by
  have relinked : Accounted count (vol.setInode ino { vol.inodes ino with
      type := itypeFree, size := 0, blockCount := 0, mtime := 0 }) disk [] := by
    refine accounted.relink rfl rfl ?_
    refine accounted.ledger.congr (fun slot => ?_) fun _ => Iff.rfl
    obtain ⟨j, s⟩ := slot
    unfold ref
    by_cases here : j = ino
    · subst here
      rw [Volume.setInode_inodes, Function.update_self, unmapped s, ← unmapped s]
      cases s <;> rfl
    · rw [Volume.setInode_inodes, Function.update_of_ne here]
  exact relinked.setFreeInodes (vol.sb.freeInodes + 1)

/-- Clearing the entry and releasing the inode remove the file. -/
theorem Sound.removed {p : DirentSlot} {disk₁ : Blocks} {vol₂ : Volume}
    (sound : Sound count vol disk) (live : (entryAt vol disk p).Live)
    (cleared : FileStep count vol vol disk disk₁ 0)
    (entries : ∀ q, entryAt vol disk₁ q =
      if q = p then (entryAt vol disk p).cleared else entryAt vol disk q)
    (trimmed : Trimmed count 0 vol vol₂ disk₁ disk' (entryAt vol disk p).ino) :
    Removed count vol (vol₂.blankInode (entryAt vol disk p).ino) disk disk' p := by
  have file := sound.file_of_live live
  have nonzero : (entryAt vol disk p).ino ≠ 0 := sound.tree.ne_root file
  have total := trimmed.shrunk
  have same : ∀ j, fileRef (vol.inodes j) disk₁ = fileRef (vol.inodes j) disk := by
    intro j
    by_cases root : j = 0
    · rw [root]
      exact sound.tree.rootRef disk disk₁
    · exact cleared.others_ref sound.accounted root
  have step := trimmed.fileStep
  have unmapped := trimmed.unmapped
  generalize inoEq : (entryAt vol disk p).ino = ino at *
  have others : ∀ j, j ≠ ino → (vol₂.blankInode ino).inodes j = vol.inodes j := fun j away =>
    (blankInode_other vol₂ away).trans (total.others j away)
  have self := blankInode_self vol₂ ino
  refine ⟨live, fun q => ?_, total.accounted.blankInode unmapped, ?_, ?_, ?_, ?_, ?_, ?_⟩
  · rw [← entries q, ← step.entryAt_eq cleared.accounted nonzero q]
    unfold entryAt
    rw [blankInode_other vol₂ (Ne.symm nonzero)]
  · have sb := total.sb
    change { vol₂.sb with freeInodes := vol₂.sb.freeInodes + 1 } = _
    rw [sb]
    rfl
  · rw [inoEq, self]
    exact ⟨rfl, rfl, fun i => pointer_eq_none.1 (unmapped (.direct i)),
      pointer_eq_none.1 (unmapped .single), pointer_eq_none.1 (unmapped .root)⟩
  · rw [inoEq, self]
  · rw [inoEq]
    exact others
  · rw [inoEq]
    intro j away
    rw [others j away, ← same j, ← step.others_ref cleared.accounted away, total.others j away]
  · rw [inoEq]
    intro j away root
    rw [others j away, ← cleared.others_bytes sound.accounted root,
      ← step.others_bytes cleared.accounted away, total.others j away]

/-! ## The call -/

theorem Sound.validName_of_named (sound : Sound count vol disk) {p : DirentSlot}
    {name : List UInt8} (named : nameRef vol disk p = some name) : ValidName name := by
  obtain ⟨live, same⟩ := nameRef_eq_some.1 named
  rw [← same]
  exact Dirent.validName (sound.directory.valid p) live

/-- A directory block with one of its entries cleared. -/
def clearedSector (vol : Volume) (disk : Blocks) (p : DirentSlot) : Sector :=
  direntsSector (Function.update (direntsSector.symm (disk ((vol.inodes 0).direct p.1))) p.2
    (entryAt vol disk p).cleared)

/-- The blocks with one directory entry cleared. -/
def clearedBlocks (vol : Volume) (disk : Blocks) (p : DirentSlot) : Blocks :=
  Function.update disk ((vol.inodes 0).direct p.1) (clearedSector vol disk p)

theorem Sound.clearEntry (sound : Sound count vol disk) {p : DirentSlot}
    (live : (entryAt vol disk p).Live) :
    FileStep count vol vol disk (clearedBlocks vol disk p) 0 ∧
      RootDirectory count vol (clearedBlocks vol disk p) ∧
      ∀ q, entryAt vol (clearedBlocks vol disk p) q =
        if q = p then (entryAt vol disk p).cleared else entryAt vol disk q :=
  sound.rootDirectory.rewrite (present_of_live live) (Dirent.cleared_valid (entryAt vol disk p))

/-- Once the scan has found the entry, `remove_dirent` writes its block back, on any device. -/
theorem exec_removeDirent_found {δ : Type} {device : Device δ UInt32 Sector Errno} {state state' : δ}
    {name : CString} {p : DirentSlot} (live : (entryAt vol disk p).Live)
    (scan : Prog.exec device (findDirent false (removeMatches name.bytes) vol.rootBlocks)
      (vol, state) = (.ok (some (positionOf vol disk p)), vol, state')) :
    Prog.exec device (removeDirent name) (vol, state) =
      Prog.exec device (writeBlock ((vol.inodes 0).direct p.1) (clearedSector vol disk p))
        (vol, state') := by
  unfold removeDirent clearedSector
  rw [Prog.exec_bind_ok (Prog.exec_get _ _), Prog.exec_bind_ok scan,
    entryAt_present (present_of_live live)]
  rfl

/-- The scan of `remove_dirent` finds the entry of the name. -/
theorem Sound.exec_scanRemove (sound : Sound count vol disk) {name : CString} {p : DirentSlot}
    (named : nameRef vol disk p = some name.bytes) :
    Prog.exec (plainDevice count) (findDirent false (removeMatches name.bytes) vol.rootBlocks)
      (vol, disk) = (.ok (some (positionOf vol disk p)), vol, disk) := by
  cases sound.rootDirectory.exec_scanName fun entry valid =>
    Dirent.removeMatches_iff name.bytes valid with
  | inr none => exact absurd named (none.1 p)
  | inl found =>
    obtain ⟨q, names, returns⟩ := found
    obtain rfl : q = p := sound.directory.names q p _ names named
    exact returns

/-- `remove_dirent` clears the entry of the name. -/
theorem Sound.exec_removeDirent (sound : Sound count vol disk) {name : CString} {p : DirentSlot}
    (named : nameRef vol disk p = some name.bytes) :
    Prog.exec (plainDevice count) (removeDirent name) (vol, disk) =
      (.ok (), vol, clearedBlocks vol disk p) := by
  have live := (nameRef_eq_some.1 named).1
  rw [exec_removeDirent_found live (sound.exec_scanRemove named)]
  exact exec_writeBlock (sound.rootDirectory.inVolume (present_of_live live)) _

/-- With the entry cleared, `free_inode` removes the rest of the file. -/
theorem Sound.exec_freeInode (sound : Sound count vol disk) {p : DirentSlot}
    (live : (entryAt vol disk p).Live) :
    ∃ vol' disk', Removed count vol vol' disk disk' p ∧
      Prog.exec (plainDevice count) (freeInode (entryAt vol disk p).ino)
        (vol, clearedBlocks vol disk p) = (.ok (), vol', disk') := by
  obtain ⟨cleared, _, entries⟩ := sound.clearEntry live
  have counted := cleared.counted_all sound.accounted sound.counted
  obtain ⟨vol₂, disk₂, trimmed, truncates⟩ := exec_truncateFileBlocks 0
    cleared.accounted (counted (entryAt vol disk p).ino)
  refine ⟨vol₂.blankInode (entryAt vol disk p).ino, disk₂,
    sound.removed live cleared entries trimmed, ?_⟩
  rw [exec_freeInode_eq, truncates]

/-- How an unlink ended, on a sound volume whose I/O does not fail. -/
inductive UnlinkOutcome (count : Nat) (crypto : Crypto) (mount : Mount) (name : CString)
    (vol : Volume) (disk : Blocks) : Except Errno Unit × (Volume × Blocks) → Prop where
  | missing : (∀ p, nameRef vol disk p ≠ some name.bytes) →
    UnlinkOutcome count crypto mount name vol disk (.error .enoent, vol, disk)
  | removed (p : DirentSlot) (vol₁ : Volume) (disk₁ disk' : Blocks) :
    nameRef vol disk p = some name.bytes → Removed count vol vol₁ disk disk₁ p →
    FlushedTo crypto mount vol₁ disk₁ disk' →
    UnlinkOutcome count crypto mount name vol disk (.ok (), vol₁.flushed crypto mount, disk')

theorem Sound.exec_volUnlink (sound : Sound count vol disk) (crypto : Crypto) (mount : Mount)
    (name : CString) :
    UnlinkOutcome count crypto mount name vol disk
      (Prog.exec (plainDevice count) (volUnlink crypto mount name) (vol, disk)) := by
  unfold volUnlink
  by_cases sized : 0 < name.bytes.length ∧ name.bytes.length < 251
  case neg =>
    have fails : Prog.exec (plainDevice count) (volLookup name) (vol, disk) =
        (.error .einval, vol, disk) := by
      unfold volLookup
      rw [if_pos (by omega)]
      rfl
    rw [Prog.exec_bind_error (Prog.exec_elseThrow_error fails _)]
    refine .missing fun p named => sized ?_
    have valid := sound.validName_of_named named
    exact ⟨valid.nonempty, valid.short⟩
  cases sound.rootDirectory.exec_volLookup sized.1 sized.2 with
  | inr absent =>
    rw [Prog.exec_bind_error (Prog.exec_elseThrow_error absent.2 _)]
    exact .missing absent.1
  | inl found =>
    obtain ⟨p, named, returns⟩ := found
    have live := (nameRef_eq_some.1 named).1
    have removes := sound.exec_removeDirent named
    obtain ⟨vol₁, disk₁, removed, releases⟩ := sound.exec_freeInode live
    obtain ⟨disk', flushes, shows⟩ := exec_flushOrEio_plain crypto mount
      removed.accounted.layout disk₁
    have number : Fin.ofNat 64 (UInt32.ofNat (entryAt vol disk p).ino.val).toNat =
        (entryAt vol disk p).ino := ofNat_ino _
    rw [Prog.exec_bind_ok (Prog.exec_elseThrow_ok returns _), Prog.exec_bind_ok removes, number,
      Prog.exec_bind_ok (Prog.exec_elseThrow_ok releases _), flushes]
    exact .removed p _ disk₁ disk' named removed shows

end DenyFS
