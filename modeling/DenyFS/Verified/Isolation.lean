import DenyFS.Verified.SoundRuns

/-! # Files a call does not name

Whatever the outcome of a call, every file it does not name keeps its entry, its inode, its
block map and its bytes. -/

namespace DenyFS

open Packed BlockProgram Ownership

variable {count : Nat} {vol vol' vol'' : Volume} {disk disk' disk'' : Blocks} {ino j : Fin 64}

/-- A file is as it was. -/
structure Untouched (vol vol' : Volume) (disk disk' : Blocks) (j : Fin 64) : Prop where
  inode : vol'.inodes j = vol.inodes j
  refs : fileRef (vol'.inodes j) disk' = fileRef (vol.inodes j) disk
  bytes : byteAt (vol'.inodes j) disk' = byteAt (vol.inodes j) disk
  entry : ∀ p, inodeRef vol disk p = some j → entryAt vol' disk' p = entryAt vol disk p

namespace Untouched

theorem refl (vol : Volume) (disk : Blocks) (j : Fin 64) : Untouched vol vol disk disk j :=
  ⟨rfl, rfl, rfl, fun _ _ => rfl⟩

theorem trans (first : Untouched vol vol' disk disk' j)
    (second : Untouched vol' vol'' disk' disk'' j) : Untouched vol vol'' disk disk'' j where
  inode := second.inode.trans first.inode
  refs := second.refs.trans first.refs
  bytes := second.bytes.trans first.bytes
  entry p points := by
    have same := first.entry p points
    have later : inodeRef vol' disk' p = some j := by
      rw [inodeRef_eq_some] at points ⊢
      rw [same]
      exact points
    exact (second.entry p later).trans same

end Untouched

/-- A step on one file leaves the others alone. -/
theorem FileStep.untouched (step : FileStep count vol vol' disk disk' ino)
    (accounted : Accounted count vol disk []) (file : ino ≠ 0) (other : j ≠ ino) :
    Untouched vol vol' disk disk' j :=
  ⟨step.others j other, step.others_ref accounted other, step.others_bytes accounted other,
    fun p _ => step.entryAt_eq accounted file p⟩

theorem Alike.untouched (alike : Alike vol vol' disk disk')
    (accounted : Accounted count vol disk []) (j : Fin 64) : Untouched vol vol' disk disk' j :=
  ⟨congrFun alike.inodes j, alike.ref_eq accounted j, alike.bytes_eq accounted j,
    fun p _ => alike.entryAt_eq accounted p⟩

/-- So does anything that replaces one inode. -/
theorem untouched_setInode (vol : Volume) (disk : Blocks) (file : ino ≠ 0) (other : j ≠ ino)
    (inode : Inode) : Untouched vol (vol.setInode ino inode) disk disk j := by
  have same : (vol.setInode ino inode).inodes j = vol.inodes j := Function.update_of_ne other ..
  have root : (vol.setInode ino inode).inodes 0 = vol.inodes 0 :=
    Function.update_of_ne (Ne.symm file) ..
  refine ⟨same, by rw [same], by rw [same], fun p _ => ?_⟩
  unfold entryAt
  rw [root]

/-- A flush leaves every file alone. -/
theorem untouched_flush {crypto : Crypto} {mount : Mount}
    (accounted : Accounted count vol disk []) (shows : FlushedTo crypto mount vol disk disk')
    (j : Fin 64) : Untouched vol (vol.flushed crypto mount) disk disk' j :=
  (flush_alike crypto mount accounted.layout shows).untouched accounted j

/-- Size and time do not enter the accounts. -/
theorem accounted_setMeta {size mtime : UInt64} (accounted : Accounted count vol disk []) :
    Accounted count (vol.setMeta ino size mtime) disk [] := by
  refine accounted.relink rfl rfl (accounted.ledger.congr (fun slot => ?_) fun _ => Iff.rfl)
  obtain ⟨k, s⟩ := slot
  unfold ref Volume.setMeta
  by_cases here : k = ino
  · rw [here, Volume.setInode_inodes, Function.update_self]
    cases s <;> rfl
  · rw [Volume.setInode_inodes, Function.update_of_ne here]

/-! ## Outcomes -/

section Outcomes

variable {crypto : Crypto} {mount : Mount} {now : UInt64} {number : UInt32}

theorem WriteOutcome.untouched {buf : List UInt8} {offset : UInt64}
    {result : Except Errno Nat × (Volume × Blocks)}
    (outcome : WriteOutcome count crypto mount now number buf offset vol disk result)
    (sound : Sound count vol disk) (other : number < 64 → j ≠ inodeOf number) :
    Untouched vol result.2.1 disk result.2.2 j := by
  cases outcome with
  | rejected error _ => exact .refl vol disk j
  | written vol₁ disk₁ disk' accepted stored shows =>
    have away := other (of_writeError_none accepted).1
    have nonzero := sound.tree.ne_root (of_writeError_none accepted).2.1
    have second := untouched_setInode vol₁ disk₁ nonzero away { vol₁.inodes (inodeOf number) with
      size := writtenSize (vol.inodes (inodeOf number)).size offset.toNat buf.length, mtime := now }
    refine (stored.step.untouched sound.accounted nonzero away).trans (second.trans ?_)
    exact untouched_flush (accounted_setMeta stored.step.accounted) shows j
  | full m vol₁ disk₁ accepted _ stored _ =>
    have nonzero := sound.tree.ne_root (of_writeError_none accepted).2.1
    exact stored.step.untouched sound.accounted nonzero (other (of_writeError_none accepted).1)

theorem TruncateOutcome.untouched {newSize : UInt64}
    {result : Except Errno Unit × (Volume × Blocks)}
    (outcome : TruncateOutcome count crypto mount now number newSize vol disk result)
    (sound : Sound count vol disk) (other : number < 64 → j ≠ inodeOf number) :
    Untouched vol result.2.1 disk result.2.2 j := by
  cases outcome with
  | rejected error _ => exact .refl vol disk j
  | same _ _ => exact .refl vol disk j
  | resized vol₁ disk₁ disk' accepted _ cut shows =>
    have away := other (of_truncateError_none accepted).1
    have nonzero := sound.tree.ne_root (of_truncateError_none accepted).2.1
    have second := untouched_setInode vol₁ disk₁ nonzero away
      { vol₁.inodes (inodeOf number) with size := newSize, mtime := now }
    have first : Untouched vol vol₁ disk disk₁ j ∧ Accounted count vol₁ disk₁ [] := by
      unfold CutTo at cut
      split at cut
      · exact ⟨cut.step.untouched sound.accounted nonzero away, cut.step.accounted⟩
      · obtain ⟨rfl, rfl⟩ := cut
        exact ⟨.refl vol₁ disk₁ j, sound.accounted⟩
    refine first.1.trans (second.trans ?_)
    exact untouched_flush (accounted_setMeta first.2) shows j

theorem CreateOutcome.untouched {name : CString} {result : Except Errno UInt32 × (Volume × Blocks)}
    (outcome : CreateOutcome count crypto mount now name vol disk result)
    (sound : Sound count vol disk) (file : (vol.inodes j).type = itypeFile) :
    Untouched vol result.2.1 disk result.2.2 j := by
  have nonzero := sound.tree.ne_root file
  have notFree : ∀ ino, (vol.inodes ino).type = itypeFree → j ≠ ino := by
    rintro ino free rfl
    rw [free] at file
    exact absurd file (by decide)
  cases outcome with
  | badName _ => exact .refl vol disk j
  | taken p _ _ => exact .refl vol disk j
  | noInode _ _ _ => exact .refl vol disk j
  | noRoom ino _ _ root free _ _ => exact untouched_setInode vol disk root (notFree ino free) _
  | created ino p vol₁ disk₁ disk' valid absent root free added _ shows =>
    have claimed := claimInode_accounted now sound free
    have same : (vol.claimInode ino now).inodes j = vol.inodes j :=
      claimInode_other now (notFree ino free)
    have entries := (claimInode_root now sound free root).2
    have first : Untouched vol (vol.claimInode ino now) disk disk j :=
      ⟨same, by rw [same], by rw [same], fun p _ => entries p⟩
    have second : Untouched (vol.claimInode ino now) vol₁ disk disk₁ j := by
      refine ⟨added.step.others j nonzero, added.step.others_ref claimed nonzero,
        added.step.others_bytes claimed nonzero, fun q points => ?_⟩
      rw [added.entries, if_neg]
      rintro rfl
      exact added.dead (inodeRef_eq_some.1 points).1
    exact first.trans (second.trans (untouched_flush added.step.accounted shows j))

theorem UnlinkOutcome.untouched {name : CString} {result : Except Errno Unit × (Volume × Blocks)}
    (outcome : UnlinkOutcome count crypto mount name vol disk result)
    (sound : Sound count vol disk) (file : (vol.inodes j).type = itypeFile)
    (other : ∀ p, nameRef vol disk p = some name.bytes → inodeRef vol disk p ≠ some j) :
    Untouched vol result.2.1 disk result.2.2 j := by
  cases outcome with
  | missing _ => exact .refl vol disk j
  | removed p vol₁ disk₁ disk' named removed shows =>
    have away : j ≠ (entryAt vol disk p).ino := by
      rintro rfl
      exact other p named (inodeRef_eq_some.2 ⟨removed.live, rfl⟩)
    have first : Untouched vol vol₁ disk disk₁ j := by
      refine ⟨removed.others j away, removed.refs j away,
        removed.bytes j away (sound.tree.ne_root file), fun q points => ?_⟩
      rw [removed.entries, if_neg]
      rintro rfl
      exact other q named points
    exact first.trans (untouched_flush removed.accounted shows j)

end Outcomes

end DenyFS
