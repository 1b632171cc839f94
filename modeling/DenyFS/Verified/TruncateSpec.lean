import DenyFS.Verified.WriteSpec

/-! # Truncate

On a sound volume whose I/O does not fail, `denyfs_vol_truncate` rejects its arguments or sets
the size; where the file gets shorter it releases the blocks past the new end and clears the
rest of the last one. -/

namespace DenyFS

open Packed BlockProgram Ownership

variable {count : Nat} {vol vol' : Volume} {disk disk' : Blocks} {ino : Fin 64}

/-- A file was cut: nothing is mapped at or past the new end, and every byte there is zero. -/
structure Cut (count : Nat) (vol vol' : Volume) (disk disk' : Blocks) (ino : Fin 64)
    (newSize : Nat) : Prop where
  step : FileStep count vol vol' disk disk' ino
  shrinks : ∀ s b, fileRef (vol'.inodes ino) disk' s = some b →
    fileRef (vol.inodes ino) disk s = some b
  data : ∀ s : FileSlot, s.IsData → fileRef (vol'.inodes ino) disk' s =
    if s.logical < (newSize + 4095) / 4096 then fileRef (vol.inodes ino) disk s else none
  bytes : ∀ i, byteAt (vol'.inodes ino) disk' i =
    if i < newSize then byteAt (vol.inodes ino) disk i else 0

theorem Trimmed.fileStep {n : Nat} (trimmed : Trimmed count n vol vol' disk disk' ino) :
    FileStep count vol vol' disk disk' ino :=
  ⟨trimmed.shrunk.accounted, trimmed.counted, trimmed.compact, trimmed.shrunk.sb,
    trimmed.shrunk.others, trimmed.shrunk.inode,
    fun b _ notMine => trimmed.shrunk.blocks b fun s _ => notMine s⟩

/-- A trimmed file keeps the bytes of the blocks it keeps. -/
theorem Trimmed.bytes {n : Nat} (trimmed : Trimmed count n vol vol' disk disk' ino)
    (accounted : Accounted count vol disk []) (i : Nat) :
    byteAt (vol'.inodes ino) disk' i =
      if i / 4096 < n then byteAt (vol.inodes ino) disk i else 0 := by
  unfold byteAt
  by_cases inFile : i / 4096 < maxFileBlocks
  · rw [if_pos inFile, if_pos inFile, trimmed.data _ (place_isData _), logical_place inFile]
    by_cases kept : i / 4096 < n
    · rw [if_pos kept, if_pos kept]
      cases points : fileRef (vol.inodes ino) disk (place (i / 4096)) with
      | none => rfl
      | some b =>
        dsimp only
        rw [trimmed.shrunk.blocks b]
        intro s isTable too
        have same := congrArg Prod.snd (accounted.ledger.injective
          (s := (ino, place (i / 4096))) (t := (ino, s)) points too)
        have isData := place_isData (i / 4096)
        rw [show place (i / 4096) = s from same] at isData
        cases s <;> first | exact isTable.elim | exact isData.elim
    · rw [if_neg kept, if_neg kept]
  · rw [if_neg inFile, if_neg inFile, ite_self]

/-- The bytes of the last block past the new end are cleared, where it is mapped. -/
theorem exec_clearTail (accounted : Accounted count vol disk [])
    (counted : Counted vol disk) (compact : Compact (vol.inodes ino) disk) (newSize : Nat)
    (small : newSize / 4096 < maxFileBlocks) :
    ∃ disk', FileStep count vol vol disk disk' ino ∧
      fileRef (vol.inodes ino) disk' = fileRef (vol.inodes ino) disk ∧
      (∀ i, byteAt (vol.inodes ino) disk' i =
        if i / 4096 = newSize / 4096 ∧ newSize ≤ i then 0 else byteAt (vol.inodes ino) disk i) ∧
      Prog.exec (plainDevice count) (clearTail ino newSize) (vol, disk) = (.ok (), vol, disk') := by
  unfold clearTail
  rw [Prog.exec_bind_ok (Prog.exec_get _ _),
    Prog.exec_bind_ok (exec_getFileDataBlock accounted rfl small)]
  cases points : fileRef (vol.inodes ino) disk (place (newSize / 4096)) with
  | none =>
    refine ⟨disk, .refl accounted (counted ino) compact, rfl, fun i => ?_, ?_⟩
    · split
      next tail =>
        refine byteAt_hole ?_
        rw [tail.1, points]
      · rfl
    · rw [if_pos (show blockNumber none = invalidBlock from rfl)]
      rfl
  | some block =>
    have present : ¬blockNumber (some block) = invalidBlock := fileRef_ne_invalid points
    have inside := accounted.inVolume (accounted.allocated_of_fileRef points)
    have mapped : ∀ l ∈ [newSize / 4096], fileRef (vol.inodes ino) disk (place l) ≠ none := by
      intro l listed
      rw [List.mem_singleton.1 listed, points]
      simp
    have stored := (Stored.start accounted (counted ino) compact mapped).write small
      List.mem_cons_self points
      (spliceSector (disk block) (newSize % 4096) (zeroBytes (4096 - newSize % 4096)))
    refine ⟨_, stored.step, ?_, fun i => ?_, ?_⟩
    · funext s
      cases before : fileRef (vol.inodes ino) disk s with
      | some b => exact stored.kept s b before
      | none =>
        refine (stored.refs s).2 ⟨before, fun l listed onPath => ?_⟩
        exact path_present (mapped l listed) onPath before
    · rw [stored.bytes i]
      by_cases here : i / 4096 = newSize / 4096
      · have pointsAt : fileRef (vol.inodes ino) disk (place (i / 4096)) = some block := by
          rw [here, points]
        have offset : (Fin.ofNat 4096 i).val = i % 4096 := rfl
        have length : (zeroBytes (4096 - newSize % 4096)).length = 4096 - newSize % 4096 :=
          List.length_replicate
        rw [if_pos here, Option.getD_some, spliceSector, offset, length]
        by_cases tail : newSize ≤ i
        · rw [if_pos (by omega), if_pos ⟨here, tail⟩, zeroBytes,
            List.getD_eq_getElem?_getD, List.getElem?_replicate]
          split <;> rfl
        · rw [if_neg (by omega), if_neg (fun both => tail both.2),
            byteAt_mapped (here ▸ small) pointsAt]
      · rw [if_neg here, if_neg fun both => here both.1, Option.getD_none]
    · rw [if_neg present]
      simp only [blockNumber, Option.getD_some]
      rw [Prog.exec_bind_ok (Prog.exec_elseThrow_ok (exec_readBlock inside) _)]
      exact Prog.exec_elseThrow_ok (exec_writeBlock inside _) _

theorem exec_shrinkFile (accounted : Accounted count vol disk []) (counted : Counted vol disk)
    (compact : Compact (vol.inodes ino) disk) {newSize : Nat} (fits : newSize ≤ maxFileSize) :
    ∃ vol' disk', Cut count vol vol' disk disk' ino newSize ∧
      Prog.exec (plainDevice count) (shrinkFile ino newSize) (vol, disk) =
        (.ok (), vol', disk') := by
  have limits : maxFileSize = 1048576 * 4096 ∧ maxFileBlocks = 1049620 := ⟨rfl, rfl⟩
  unfold shrinkFile
  by_cases partialBlock : newSize % 4096 ≠ 0
  · obtain ⟨disk₁, step₁, refs, bytes, returns₁⟩ :=
      exec_clearTail accounted counted compact newSize (by omega)
    obtain ⟨vol', disk', trimmed, returns⟩ := exec_truncateFileBlocks ((newSize + 4095) / 4096)
      step₁.accounted step₁.counted
    refine ⟨vol', disk', ⟨step₁.trans accounted trimmed.fileStep, fun s b points => ?_,
      fun s isData => ?_, fun i => ?_⟩, ?_⟩
    · rw [← refs]
      exact trimmed.shrunk.shrinks s b points
    · rw [trimmed.data s isData, refs]
    · rw [trimmed.bytes step₁.accounted, bytes]
      by_cases before : i < newSize
      · rw [if_pos (by omega), if_neg (by omega), if_pos before]
      · rw [if_neg before]
        by_cases kept : i / 4096 < (newSize + 4095) / 4096
        · rw [if_pos kept, if_pos (by omega)]
        · rw [if_neg kept]
    · rw [Prog.exec_bind_ok ((exec_when_true partialBlock _ _).trans returns₁)]
      exact Prog.exec_elseThrow_ok returns _
  · obtain ⟨vol', disk', trimmed, returns⟩ := exec_truncateFileBlocks ((newSize + 4095) / 4096)
      accounted (counted ino)
    refine ⟨vol', disk', ⟨trimmed.fileStep, trimmed.shrunk.shrinks, trimmed.data,
      fun i => ?_⟩, ?_⟩
    · rw [trimmed.bytes accounted]
      by_cases before : i < newSize
      · rw [if_pos (by omega), if_pos before]
      · rw [if_neg (by omega), if_neg before]
    · rw [Prog.exec_bind_ok (exec_when_false partialBlock _ _)]
      exact Prog.exec_elseThrow_ok returns _

/-! ## The call -/

/-- The error `denyfs_vol_truncate` returns before it looks at any block. -/
def truncateError (vol : Volume) (ino : UInt32) (newSize : UInt64) : Option Errno :=
  if 64 ≤ ino then some .einval
  else if (vol.inodes (Fin.ofNat 64 ino.toNat)).type ≠ itypeFile then some .eisdir
  else if maxFileSize < newSize.toNat then some .enospc
  else none

section Call

variable {δ : Type} (device : Device δ UInt32 Sector Errno) (crypto : Crypto) (mount : Mount)
  (now : UInt64) {number : UInt32} {newSize : UInt64}

theorem exec_volTruncate_rejected {error : Errno}
    (rejected : truncateError vol number newSize = some error) (state : δ) :
    Prog.exec device (volTruncate crypto mount now number newSize) (vol, state) =
      (.error error, vol, state) := by
  unfold truncateError at rejected
  unfold volTruncate
  split at rejected
  next large =>
    cases rejected
    rw [if_pos large]
    rfl
  next small =>
  rw [if_neg small, Prog.exec_bind_ok (Prog.exec_get _ _)]
  dsimp only
  split at rejected
  next directory =>
    cases rejected
    rw [if_pos directory]
    rfl
  next file =>
  rw [if_neg file]
  split at rejected
  next beyond =>
    cases rejected
    rw [if_pos beyond]
    rfl
  · cases rejected

/-- The part of a truncation after its arguments have been accepted. -/
def acceptedTruncate (crypto : Crypto) (mount : Mount) (now : UInt64) (ino : Fin 64)
    (size newSize : UInt64) : Op Unit :=
  if newSize = size then return ()
  else do
    Prog.when (newSize < size) (shrinkFile ino newSize.toNat)
    modifyInode ino fun inode => { inode with size := newSize, mtime := now }
    flushOrEio crypto mount

theorem exec_volTruncate_accepted (accepted : truncateError vol number newSize = none)
    (state : δ) :
    Prog.exec device (volTruncate crypto mount now number newSize) (vol, state) =
      Prog.exec device (acceptedTruncate crypto mount now (Fin.ofNat 64 number.toNat)
        (vol.inodes (Fin.ofNat 64 number.toNat)).size newSize) (vol, state) := by
  unfold truncateError at accepted
  split at accepted
  · cases accepted
  next small =>
  split at accepted
  · cases accepted
  next file =>
  split at accepted
  · cases accepted
  next within =>
  unfold volTruncate
  rw [if_neg small, Prog.exec_bind_ok (Prog.exec_get _ _)]
  dsimp only
  rw [if_neg file, if_neg within]
  rfl

theorem truncateError_eq_none (small : number < 64)
    (file : (vol.inodes (inodeOf number)).type = itypeFile) (fits : newSize.toNat ≤ maxFileSize) :
    truncateError vol number newSize = none := by
  unfold truncateError
  rw [if_neg (UInt32.not_le.2 small), if_neg, if_neg (Nat.not_lt.2 fits)]
  exact not_not_intro file

theorem of_truncateError_none (accepted : truncateError vol number newSize = none) :
    number < 64 ∧ (vol.inodes (inodeOf number)).type = itypeFile ∧
      newSize.toNat ≤ maxFileSize := by
  unfold truncateError at accepted
  split at accepted
  · cases accepted
  next small =>
  split at accepted
  · cases accepted
  next file =>
  split at accepted
  · cases accepted
  next within => exact ⟨UInt32.not_le.1 small, not_not.1 file, Nat.not_lt.1 within⟩

/-- The state of the file before its size is set: cut where it gets shorter, as it was where it
grows. -/
def CutTo (count : Nat) (vol vol' : Volume) (disk disk' : Blocks) (ino : Fin 64)
    (newSize : UInt64) : Prop :=
  if newSize < (vol.inodes ino).size then Cut count vol vol' disk disk' ino newSize.toNat
  else vol' = vol ∧ disk' = disk

theorem exec_acceptedTruncate (accounted : Accounted count vol disk [])
    (counted : Counted vol disk) (compact : Compact (vol.inodes ino) disk)
    (fits : newSize.toNat ≤ maxFileSize) :
    (newSize = (vol.inodes ino).size ∧
      Prog.exec (plainDevice count) (acceptedTruncate crypto mount now ino
        (vol.inodes ino).size newSize) (vol, disk) = (.ok (), vol, disk)) ∨
    (newSize ≠ (vol.inodes ino).size ∧ ∃ vol₁ disk₁ disk',
      CutTo count vol vol₁ disk disk₁ ino newSize ∧ vol₁.sb.Layout count ∧
      Prog.exec (plainDevice count) (acceptedTruncate crypto mount now ino
        (vol.inodes ino).size newSize) (vol, disk) =
        (.ok (), (vol₁.setMeta ino newSize now).flushed crypto mount, disk') ∧
      FlushedTo crypto mount (vol₁.setMeta ino newSize now) disk₁ disk') := by
  unfold acceptedTruncate
  by_cases same : newSize = (vol.inodes ino).size
  · refine .inl ⟨same, ?_⟩
    rw [if_pos same]
    rfl
  refine .inr ⟨same, ?_⟩
  rw [if_neg same]
  unfold CutTo
  by_cases shorter : newSize < (vol.inodes ino).size
  · obtain ⟨vol₁, disk₁, cut, returns⟩ := exec_shrinkFile accounted counted compact fits
    have layout : (vol₁.setMeta ino newSize now).sb.Layout count := cut.step.accounted.layout
    obtain ⟨disk', flushes, shows⟩ := exec_flushOrEio_plain crypto mount layout disk₁
    refine ⟨vol₁, disk₁, disk', ?_, cut.step.accounted.layout, ?_, shows⟩
    · rw [if_pos shorter]
      exact cut
    · rw [Prog.exec_bind_ok ((exec_when_true shorter _ _).trans returns),
        Prog.exec_bind_ok (exec_modifyInode _ _)]
      exact flushes
  · have layout : (vol.setMeta ino newSize now).sb.Layout count := accounted.layout
    obtain ⟨disk', flushes, shows⟩ := exec_flushOrEio_plain crypto mount layout disk
    refine ⟨vol, disk, disk', ?_, accounted.layout, ?_, shows⟩
    · rw [if_neg shorter]
      exact ⟨rfl, rfl⟩
    · rw [Prog.exec_bind_ok (exec_when_false shorter _ _),
        Prog.exec_bind_ok (exec_modifyInode _ _)]
      exact flushes

end Call

end DenyFS
