import DenyFS.Verified.ReadSpec
import DenyFS.Verified.UnlinkSpec

/-! # What a call can do

One outcome type per operation says how a call on a sound volume can end when no I/O fails, and
what memory and disk are then.  Every outcome leaves the volume sound, and none of them is
`-EIO`. -/

namespace DenyFS

open Packed BlockProgram Ownership

variable {count : Nat} {vol vol' : Volume} {disk disk' : Blocks} {ino : Fin 64}

/-! ## Write -/

/-- All blocks of the range together take the whole buffer. -/
theorem storedPart_all (pos : Nat) (src : List UInt8) :
    storedPart pos (touchedBlocks pos src.length).length src = src := by
  unfold storedPart touchedBlocks
  rw [List.length_range']
  apply List.take_of_length_le
  split
  next empty => omega
  next some => omega

inductive WriteOutcome (count : Nat) (crypto : Crypto) (mount : Mount) (now : UInt64)
    (number : UInt32) (buf : List UInt8) (offset : UInt64) (vol : Volume) (disk : Blocks) :
    Except Errno Nat × (Volume × Blocks) → Prop where
  | rejected (error : Errno) : writeError vol number buf.length offset = some error →
    WriteOutcome count crypto mount now number buf offset vol disk (.error error, vol, disk)
  | written (vol₁ : Volume) (disk₁ disk' : Blocks) :
    writeError vol number buf.length offset = none →
    Stored count vol vol₁ disk disk₁ (inodeOf number) (touchedBlocks offset.toNat buf.length)
      (chunkPatch offset.toNat buf) →
    FlushedTo crypto mount (vol₁.setMeta (inodeOf number) (writtenSize
      (vol.inodes (inodeOf number)).size offset.toNat buf.length) now) disk₁ disk' →
    WriteOutcome count crypto mount now number buf offset vol disk
      (.ok buf.length, (vol₁.setMeta (inodeOf number) (writtenSize
        (vol.inodes (inodeOf number)).size offset.toNat buf.length) now).flushed crypto mount,
        disk')
  | full (m : Nat) (vol₁ : Volume) (disk₁ : Blocks) :
    writeError vol number buf.length offset = none →
    m < (touchedBlocks offset.toNat buf.length).length →
    Stored count vol vol₁ disk disk₁ (inodeOf number)
      ((touchedBlocks offset.toNat buf.length).take m)
      (chunkPatch offset.toNat (storedPart offset.toNat m buf)) →
    vol.sb.freeBlocks.toNat < (neededSlots (vol.inodes (inodeOf number)) disk
      ((touchedBlocks offset.toNat buf.length).take (m + 1))).card →
    WriteOutcome count crypto mount now number buf offset vol disk (.error .enospc, vol₁, disk₁)

theorem Sound.exec_volWrite (sound : Sound count vol disk) (crypto : Crypto) (mount : Mount)
    (now : UInt64) (number : UInt32) (buf : List UInt8) (offset : UInt64) :
    WriteOutcome count crypto mount now number buf offset vol disk
      (Prog.exec (plainDevice count) (volWrite crypto mount now number buf offset)
        (vol, disk)) := by
  cases checked : writeError vol number buf.length offset with
  | some error =>
    rw [exec_volWrite_rejected _ crypto mount now checked]
    exact .rejected error checked
  | none =>
    obtain ⟨_, _, fits⟩ := of_writeError_none checked
    rw [exec_volWrite_accepted _ crypto mount now checked]
    obtain ⟨m, vol₁, disk₁, bound, stored, outcome⟩ := exec_acceptedWrite crypto mount now
      sound.accounted sound.counted (sound.compact (inodeOf number)) fits
    cases outcome with
    | inl succeeds =>
      obtain ⟨rfl, disk', returns, shows⟩ := succeeds
      rw [List.take_length, storedPart_all] at stored
      rw [← inodeOf, returns]
      exact .written vol₁ disk₁ disk' checked stored shows
    | inr fails =>
      obtain ⟨stops, full, returns⟩ := fails
      rw [← inodeOf, returns]
      exact .full m vol₁ disk₁ checked stops stored full

/-! ## Truncate -/

inductive TruncateOutcome (count : Nat) (crypto : Crypto) (mount : Mount) (now : UInt64)
    (number : UInt32) (newSize : UInt64) (vol : Volume) (disk : Blocks) :
    Except Errno Unit × (Volume × Blocks) → Prop where
  | rejected (error : Errno) : truncateError vol number newSize = some error →
    TruncateOutcome count crypto mount now number newSize vol disk (.error error, vol, disk)
  | same : truncateError vol number newSize = none →
    newSize = (vol.inodes (inodeOf number)).size →
    TruncateOutcome count crypto mount now number newSize vol disk (.ok (), vol, disk)
  | resized (vol₁ : Volume) (disk₁ disk' : Blocks) :
    truncateError vol number newSize = none → newSize ≠ (vol.inodes (inodeOf number)).size →
    CutTo count vol vol₁ disk disk₁ (inodeOf number) newSize →
    FlushedTo crypto mount (vol₁.setMeta (inodeOf number) newSize now) disk₁ disk' →
    TruncateOutcome count crypto mount now number newSize vol disk
      (.ok (), (vol₁.setMeta (inodeOf number) newSize now).flushed crypto mount, disk')

theorem Sound.exec_volTruncate (sound : Sound count vol disk) (crypto : Crypto) (mount : Mount)
    (now : UInt64) (number : UInt32) (newSize : UInt64) :
    TruncateOutcome count crypto mount now number newSize vol disk
      (Prog.exec (plainDevice count) (volTruncate crypto mount now number newSize)
        (vol, disk)) := by
  cases checked : truncateError vol number newSize with
  | some error =>
    rw [exec_volTruncate_rejected _ crypto mount now checked]
    exact .rejected error checked
  | none =>
    obtain ⟨_, _, fits⟩ := of_truncateError_none checked
    rw [exec_volTruncate_accepted _ crypto mount now checked]
    cases exec_acceptedTruncate crypto mount now sound.accounted sound.counted
      (sound.compact (inodeOf number)) fits with
    | inl unchanged =>
      rw [← inodeOf, unchanged.2]
      exact .same checked unchanged.1
    | inr resized =>
      obtain ⟨other, vol₁, disk₁, disk', cut, _, returns, shows⟩ := resized
      rw [← inodeOf, returns]
      exact .resized vol₁ disk₁ disk' checked other cut shows

/-! ## Soundness -/

theorem Sound.flush (sound : Sound count vol disk) {crypto : Crypto} {mount : Mount}
    (shows : FlushedTo crypto mount vol disk disk') :
    Sound count (vol.flushed crypto mount) disk' :=
  sound.alike (flush_alike crypto mount sound.accounted.layout shows)

section Sound

variable {crypto : Crypto} {mount : Mount} {now : UInt64} {number : UInt32}

theorem WriteOutcome.sound {buf : List UInt8} {offset : UInt64}
    {result : Except Errno Nat × (Volume × Blocks)}
    (outcome : WriteOutcome count crypto mount now number buf offset vol disk result)
    (sound : Sound count vol disk) : Sound count result.2.1 result.2.2 := by
  cases outcome with
  | rejected error _ => exact sound
  | written vol₁ disk₁ disk' accepted stored shows =>
    obtain ⟨_, file, fits⟩ := of_writeError_none accepted
    have nonzero := sound.tree.ne_root file
    have live : (vol.inodes (inodeOf number)).type ≠ itypeFree := by
      rw [file]
      decide
    have after := sound.fileStep stored.step nonzero live
    refine Sound.flush (after.setMeta nonzero ?_ ?_) shows
    · rw [stored.step.inode]
      exact live
    · rw [writtenSize_toNat fits]
      exact Nat.max_le.2 ⟨sound.tree.sizes _, fits⟩
  | full m vol₁ disk₁ accepted stops stored full =>
    have file := (of_writeError_none accepted).2.1
    refine sound.fileStep stored.step (sound.tree.ne_root file) ?_
    rw [file]
    decide

theorem TruncateOutcome.sound {newSize : UInt64} {result : Except Errno Unit × (Volume × Blocks)}
    (outcome : TruncateOutcome count crypto mount now number newSize vol disk result)
    (sound : Sound count vol disk) : Sound count result.2.1 result.2.2 := by
  cases outcome with
  | rejected error _ => exact sound
  | same _ _ => exact sound
  | resized vol₁ disk₁ disk' accepted other cut shows =>
    obtain ⟨_, file, fits⟩ := of_truncateError_none accepted
    have nonzero := sound.tree.ne_root file
    have live : (vol.inodes (inodeOf number)).type ≠ itypeFree := by
      rw [file]
      decide
    unfold CutTo at cut
    split at cut
    · refine Sound.flush ((sound.fileStep cut.step nonzero live).setMeta nonzero ?_ fits) shows
      rw [cut.step.inode]
      exact live
    · obtain ⟨rfl, rfl⟩ := cut
      exact Sound.flush (sound.setMeta nonzero live fits) shows

theorem CreateOutcome.sound {name : CString} {result : Except Errno UInt32 × (Volume × Blocks)}
    (outcome : CreateOutcome count crypto mount now name vol disk result)
    (sound : Sound count vol disk) : Sound count result.2.1 result.2.2 := by
  cases outcome with
  | badName _ => exact sound
  | taken p _ _ => exact sound
  | noInode _ _ _ => exact sound
  | noRoom ino _ _ nonzero free _ _ => exact sound.setMtime nonzero free now
  | created ino p vol₁ disk₁ disk' valid absent nonzero free added _ shows =>
    exact (added.sound sound nonzero free valid absent).flush shows

theorem UnlinkOutcome.sound {name : CString} {result : Except Errno Unit × (Volume × Blocks)}
    (outcome : UnlinkOutcome count crypto mount name vol disk result)
    (sound : Sound count vol disk) : Sound count result.2.1 result.2.2 := by
  cases outcome with
  | missing _ => exact sound
  | removed p vol₁ disk₁ disk' named removed shows => exact (removed.sound sound).flush shows

end Sound

end DenyFS
