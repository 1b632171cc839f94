import DenyFS.Verified.Flush
import DenyFS.Verified.Writing

/-! # Write, as a whole

On a sound volume whose I/O does not fail, `denyfs_vol_write` rejects its arguments, or stores
the whole buffer and flushes, or runs out of space and returns with the blocks stored so far
left in place. -/

namespace DenyFS

open Packed BlockProgram Ownership

variable {count : Nat} {vol vol' : Volume} {disk disk' : Blocks} {held : List UInt32}

/-! ## Flush -/

theorem plainDevice_storage (count : Nat) :
    Storage (plainDevice count) (fun block => block.toNat < count) (fun _ => True) id where
  read block disk _ := by
    refine ⟨trivial, rfl, fun data reads => ?_⟩
    simp only [plainDevice] at reads
    split at reads
    next inside => exact ⟨inside, (Except.ok.inj reads).symm⟩
    · cases reads
  write block data disk _ := by
    refine ⟨trivial, ?_⟩
    simp only [plainDevice]
    split
    next inside => exact .inl ⟨rfl, inside, rfl⟩
    · exact .inr ⟨.eperm, rfl, rfl⟩

/-- Memory after a successful flush. -/
def Volume.flushed (crypto : Crypto) (mount : Mount) (vol : Volume) : Volume :=
  (vol.sealed crypto mount).cleaned

/-- The blocks after a successful flush. -/
def FlushedTo (crypto : Crypto) (mount : Mount) (vol : Volume) (disk disk' : Blocks) : Prop :=
  ∀ block, disk' block = if block ∈ (vol.sealed crypto mount).flushWrites.map Prod.fst then
    (vol.sealed crypto mount).metadataBlock block else disk block

/-- A flush succeeds, and changes nothing but the stored HMAC, the dirty flags and the blocks
before `data_start`. -/
theorem exec_volFlush_plain (crypto : Crypto) (mount : Mount) (layout : vol.sb.Layout count)
    (disk : Blocks) :
    ∃ disk', Prog.exec (plainDevice count) (volFlush crypto mount) (vol, disk) =
        (.ok (), vol.flushed crypto mount, disk') ∧
      FlushedTo crypto mount vol disk disk' := by
  have layout' : (vol.sealed crypto mount).sb.Layout count := layout.of_same rfl
  rw [exec_volFlush]
  unfold Volume.flushed FlushedTo
  generalize vol.sealed crypto mount = sealed at *
  have inside : ∀ write ∈ sealed.flushWrites, write.1.toNat < count := by
    intro write member
    have metadata := (sealed.mem_flushWrites layout' write.1).1 (List.mem_map_of_mem member)
    have := layout'.room
    omega
  have succeeds := exec_writeAll_plain count .eperm sealed.flushWrites inside sealed disk
  obtain ⟨_, memory, outcome⟩ := exec_writeAll (plainDevice_storage count) sealed.metadataBlock
    Errno.eperm (sealed.flushWrites_image layout') sealed disk trivial
  rcases wrote : Prog.exec (plainDevice count) (writeAll .eperm sealed.flushWrites)
    (sealed, disk) with ⟨result, vol', disk'⟩
  rw [wrote] at succeeds memory outcome
  dsimp only at succeeds memory outcome
  subst memory
  rw [succeeds]
  refine ⟨disk', rfl, fun block => ?_⟩
  rcases outcome with ⟨_, _, shows⟩ | ⟨fails, _⟩
  · exact shows block
  · rw [fails] at succeeds
    cases succeeds

/-- What a flush leaves alone. -/
theorem flush_alike (crypto : Crypto) (mount : Mount) (layout : vol.sb.Layout count)
    (shows : FlushedTo crypto mount vol disk disk') :
    Alike vol (vol.flushed crypto mount) disk disk' := by
  have layout' : (vol.sealed crypto mount).sb.Layout count := layout.of_same rfl
  refine ⟨rfl, rfl, rfl, fun block inUse => ?_⟩
  rw [shows block, if_neg]
  intro member
  have metadata := ((vol.sealed crypto mount).mem_flushWrites layout' block).1 member
  have start := UInt32.le_iff_toNat_le.1 inUse.1
  have same : (vol.sealed crypto mount).sb.dataStart = vol.sb.dataStart := rfl
  rw [same] at metadata
  omega

theorem exec_flushOrEio_plain (crypto : Crypto) (mount : Mount) (layout : vol.sb.Layout count)
    (disk : Blocks) :
    ∃ disk', Prog.exec (plainDevice count) (flushOrEio crypto mount) (vol, disk) =
        (.ok (), vol.flushed crypto mount, disk') ∧
      FlushedTo crypto mount vol disk disk' := by
  obtain ⟨disk', returns, shows⟩ := exec_volFlush_plain crypto mount layout disk
  exact ⟨disk', Prog.exec_elseThrow_ok returns _, shows⟩

/-- Even where one of its writes fails, a flush leaves the files alone. -/
theorem exec_flushOrEio_alike {δ : Type} {device : Device δ UInt32 Sector Errno}
    {inside : UInt32 → Prop} {sound : δ → Prop} {view : δ → Blocks}
    (storage : Storage device inside sound view) (crypto : Crypto) (mount : Mount)
    (layout : vol.sb.Layout count) (state : δ) (start : sound state) :
    let after := Prog.exec device (flushOrEio crypto mount) (vol, state)
    Alike vol after.2.1 (view state) (view after.2.2) := by
  intro after
  have layout' : (vol.sealed crypto mount).sb.Layout count := layout.of_same rfl
  obtain ⟨_, memory, outcome⟩ := exec_writeAll storage (vol.sealed crypto mount).metadataBlock
    Errno.eperm ((vol.sealed crypto mount).flushWrites_image layout') (vol.sealed crypto mount)
    state start
  have run := exec_volFlush crypto mount device vol state
  cases wrote : Prog.exec device (writeAll .eperm (vol.sealed crypto mount).flushWrites)
      (vol.sealed crypto mount, state) with
  | mk result state' =>
    rw [wrote] at memory outcome run
    obtain ⟨vol', disk'⟩ := state'
    obtain rfl : vol' = vol.sealed crypto mount := memory
    dsimp only at outcome run
    have blocks : ∀ b, vol.allocated b → view disk' b = view state b := by
      intro b inUse
      have metadata : b ∉ (vol.sealed crypto mount).flushWrites.map Prod.fst := by
        intro member
        have below := ((vol.sealed crypto mount).mem_flushWrites layout' b).1 member
        have inData := UInt32.le_iff_toNat_le.1 inUse.1
        have same : (vol.sealed crypto mount).sb.dataStart = vol.sb.dataStart := rfl
        rw [same] at below
        omega
      cases outcome with
      | inl succeeded => rw [succeeded.2.2 b, if_neg metadata]
      | inr failed => exact (failed.2 b).resolve_right fun written => metadata written.1
    cases result with
    | ok done =>
      have ends : after = _ := Prog.exec_elseThrow_ok run _
      rw [ends]
      exact ⟨rfl, rfl, rfl, blocks⟩
    | error failure =>
      have ends : after = _ := Prog.exec_elseThrow_error run _
      rw [ends]
      exact ⟨rfl, rfl, rfl, blocks⟩

/-! ## Arguments -/

/-- The inode an inode number below 64 names. -/
def inodeOf (number : UInt32) : Fin 64 := Fin.ofNat 64 number.toNat

/-- The error `denyfs_vol_write` returns before it looks at any block. -/
def writeError (vol : Volume) (ino : UInt32) (len : Nat) (offset : UInt64) : Option Errno :=
  if 64 ≤ ino ∨ intMax < len then some .einval
  else if (vol.inodes (Fin.ofNat 64 ino.toNat)).type ≠ itypeFile then some .eisdir
  else if maxFileSize < offset.toNat ∨ maxFileSize - offset.toNat < len then some .enospc
  else none

section Arguments

variable {δ : Type} (device : Device δ UInt32 Sector Errno) (crypto : Crypto) (mount : Mount)
  (now : UInt64) {ino : UInt32} {buf : List UInt8} {offset : UInt64}

/-- A rejected write does nothing, on any device. -/
theorem exec_volWrite_rejected {error : Errno}
    (rejected : writeError vol ino buf.length offset = some error) (state : δ) :
    Prog.exec device (volWrite crypto mount now ino buf offset) (vol, state) =
      (.error error, vol, state) := by
  unfold writeError at rejected
  unfold volWrite
  by_cases large : 64 ≤ ino
  · rw [if_pos (.inl large)] at rejected
    cases rejected
    rw [if_pos large]
    rfl
  rw [if_neg large]
  by_cases long : intMax < buf.length
  · rw [if_pos (.inr long)] at rejected
    cases rejected
    rw [if_pos long]
    rfl
  rw [if_neg long, Prog.exec_bind_ok (Prog.exec_get _ _)]
  rw [if_neg (not_or.2 ⟨large, long⟩)] at rejected
  dsimp only
  by_cases directory : (vol.inodes (Fin.ofNat 64 ino.toNat)).type ≠ itypeFile
  · rw [if_pos directory] at rejected
    cases rejected
    rw [if_pos directory]
    rfl
  rw [if_neg directory] at rejected ⊢
  split at rejected
  next beyond =>
    cases rejected
    rw [if_pos beyond]
    rfl
  · cases rejected

/-- The part of a write after its arguments have been accepted. -/
def acceptedWrite (crypto : Crypto) (mount : Mount) (now : UInt64) (ino : Fin 64)
    (buf : List UInt8) (offset : UInt64) : Op Nat := do
  writeChunks ino buf.length offset.toNat buf
  modifyInode ino fun inode =>
    { inode with
      size := if inode.size.toNat < offset.toNat + buf.length then
          UInt64.ofNat (offset.toNat + buf.length) else inode.size
      mtime := now }
  flushOrEio crypto mount
  return buf.length

theorem exec_volWrite_accepted (accepted : writeError vol ino buf.length offset = none)
    (state : δ) :
    Prog.exec device (volWrite crypto mount now ino buf offset) (vol, state) =
      Prog.exec device (acceptedWrite crypto mount now (Fin.ofNat 64 ino.toNat) buf offset)
        (vol, state) := by
  unfold writeError at accepted
  split at accepted
  · cases accepted
  next bounds =>
  split at accepted
  · cases accepted
  next file =>
  split at accepted
  · cases accepted
  next within =>
  rw [not_or] at bounds
  unfold volWrite
  rw [if_neg bounds.1, if_neg bounds.2, Prog.exec_bind_ok (Prog.exec_get _ _)]
  dsimp only
  rw [if_neg file, if_neg within]
  rfl

/-- An accepted write names a file and stays below the size limit. -/
theorem of_writeError_none (accepted : writeError vol ino buf.length offset = none) :
    ino < 64 ∧ (vol.inodes (inodeOf ino)).type = itypeFile ∧
      offset.toNat + buf.length ≤ maxFileSize := by
  unfold writeError at accepted
  split at accepted
  · cases accepted
  next bounds =>
  split at accepted
  · cases accepted
  next file =>
  split at accepted
  · cases accepted
  next within =>
    rw [not_or] at within
    exact ⟨UInt32.not_le.1 (not_or.1 bounds).1, not_not.1 file, by omega⟩

end Arguments

/-! ## The call -/

/-- The size of a file after `len` bytes were written at `offset`. -/
def writtenSize (size : UInt64) (offset len : Nat) : UInt64 :=
  if size.toNat < offset + len then UInt64.ofNat (offset + len) else size

theorem writtenSize_toNat {size : UInt64} {offset len : Nat} (fits : offset + len ≤ maxFileSize) :
    (writtenSize size offset len).toNat = max size.toNat (offset + len) := by
  have limit : maxFileSize = 4294967296 := rfl
  unfold writtenSize
  split
  next longer =>
    rw [UInt64.toNat_ofNat_of_lt' (show offset + len < UInt64.size by
      simp only [UInt64.size]; omega)]
    omega
  · omega

/-- Size and time of one inode are set. -/
def Volume.setMeta (vol : Volume) (ino : Fin 64) (size mtime : UInt64) : Volume :=
  vol.setInode ino { vol.inodes ino with size, mtime }

section Call

variable {ino : Fin 64} (crypto : Crypto) (mount : Mount) (now : UInt64)

/-- A write stores its buffer up to the block there is no room for. -/
theorem exec_acceptedWrite (accounted : Accounted count vol disk []) (counted : Counted vol disk)
    (compact : Compact (vol.inodes ino) disk) {buf : List UInt8} {offset : UInt64}
    (fits : offset.toNat + buf.length ≤ maxFileSize) :
    ∃ m vol₁ disk₁, m ≤ (touchedBlocks offset.toNat buf.length).length ∧
      Stored count vol vol₁ disk disk₁ ino ((touchedBlocks offset.toNat buf.length).take m)
        (chunkPatch offset.toNat (storedPart offset.toNat m buf)) ∧
      ((m = (touchedBlocks offset.toNat buf.length).length ∧
          ∃ disk', Prog.exec (plainDevice count)
              (acceptedWrite crypto mount now ino buf offset) (vol, disk) =
            (.ok buf.length, (vol₁.setMeta ino (writtenSize (vol.inodes ino).size offset.toNat
              buf.length) now).flushed crypto mount, disk') ∧
            FlushedTo crypto mount (vol₁.setMeta ino (writtenSize (vol.inodes ino).size
              offset.toNat buf.length) now) disk₁ disk') ∨
        (m < (touchedBlocks offset.toNat buf.length).length ∧
          vol.sb.freeBlocks.toNat < (neededSlots (vol.inodes ino) disk
            ((touchedBlocks offset.toNat buf.length).take (m + 1))).card ∧
          Prog.exec (plainDevice count) (acceptedWrite crypto mount now ino buf offset)
            (vol, disk) = (.error .enospc, vol₁, disk₁))) := by
  obtain ⟨m, vol₁, disk₁, bound, stored, outcome⟩ := exec_writeChunks buf.length accounted counted
    compact offset.toNat buf (Nat.le_refl _) fits
  refine ⟨m, vol₁, disk₁, bound, stored, ?_⟩
  unfold acceptedWrite
  rcases outcome with ⟨done, succeeds⟩ | ⟨stops, full, fails⟩
  · have size : (vol₁.inodes ino).size = (vol.inodes ino).size := by rw [stored.step.inode]
    have layout : (vol₁.setMeta ino (writtenSize (vol.inodes ino).size offset.toNat buf.length)
        now).sb.Layout count := stored.step.accounted.layout
    obtain ⟨disk', flushes, shows⟩ := exec_flushOrEio_plain crypto mount layout disk₁
    refine .inl ⟨done, disk', ?_, shows⟩
    rw [Prog.exec_bind_ok succeeds, Prog.exec_bind_ok (exec_modifyInode _ _), size]
    change Prog.exec _ (flushOrEio crypto mount >>= fun _ => pure buf.length)
      (vol₁.setMeta ino (writtenSize (vol.inodes ino).size offset.toNat buf.length) now, disk₁) = _
    rw [Prog.exec_bind_ok flushes]
    rfl
  · refine .inr ⟨stops, full, ?_⟩
    rw [Prog.exec_bind_error fails]

end Call

/-- A live file is not the root directory. -/
theorem Tree.ne_root {ino : Fin 64} (tree : Tree vol) (file : (vol.inodes ino).type = itypeFile) :
    ino ≠ 0 := by
  rintro rfl
  rw [tree.rootType] at file
  exact absurd file (by decide)

end DenyFS
