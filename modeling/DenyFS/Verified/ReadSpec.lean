import DenyFS.Verified.Frames

/-! # Read

`denyfs_vol_read` returns the bytes of the file between its offset and the end of the request
or of the file, holes as zeros, and changes nothing. -/

namespace DenyFS

open Packed BlockProgram Ownership

variable {count : Nat} {vol : Volume} {disk : Blocks}

/-- The error `denyfs_vol_read` returns before it looks at any block. -/
def readError (vol : Volume) (ino : UInt32) (size : Nat) : Option Errno :=
  if 64 ≤ ino ∨ intMax < size then some .einval
  else if (vol.inodes (Fin.ofNat 64 ino.toNat)).type ≠ itypeFile then some .eisdir
  else none

/-- The bytes of a file from `offset` on, as many as there are up to `size`. -/
def bytesFrom (inode : Inode) (disk : Blocks) (offset size : Nat) : List UInt8 :=
  (List.range (min size (inode.size.toNat - offset))).map fun i => byteAt inode disk (offset + i)

/-- What `denyfs_vol_read` returns where no I/O fails. -/
theorem bytesFrom_one {inode : Inode} {offset : Nat} (inside : offset < inode.size.toNat) :
    bytesFrom inode disk offset 1 = [byteAt inode disk offset] := by
  unfold bytesFrom
  rw [Nat.min_eq_left (by omega)]
  rfl

def readResult (vol : Volume) (disk : Blocks) (ino : UInt32) (size : Nat) (offset : UInt64) :
    Except Errno (List UInt8) :=
  match readError vol ino size with
  | some error => .error error
  | none => .ok (bytesFrom (vol.inodes (Fin.ofNat 64 ino.toNat)) disk offset.toNat size)

theorem exec_readChunk {block : UInt32} {offset chunk : Nat}
    (inside : block ≠ invalidBlock → block.toNat < count) :
    Prog.exec (plainDevice count) (readChunk block offset chunk) (vol, disk) =
      (.ok (if block = invalidBlock then zeroBytes chunk
        else sliceSector (disk block) offset chunk), vol, disk) := by
  unfold readChunk
  by_cases hole : block = invalidBlock
  · rw [if_pos hole, if_pos hole]
    rfl
  · rw [if_neg hole, if_neg hole,
      Prog.exec_bind_ok (Prog.exec_elseThrow_ok (exec_readBlock (inside hole)) _)]
    rfl

/-- What one round of the read loop copies. -/
theorem chunk_eq {inode : Inode} {pos chunk : Nat} (small : pos / 4096 < maxFileBlocks)
    (within : pos % 4096 + chunk ≤ 4096) :
    (if blockNumber (fileRef inode disk (place (pos / 4096))) = invalidBlock then zeroBytes chunk
      else sliceSector (disk (blockNumber (fileRef inode disk (place (pos / 4096)))))
        (pos % 4096) chunk) =
      (List.range chunk).map fun i => byteAt inode disk (pos + i) := by
  have sameBlock : ∀ i ∈ List.range chunk, (pos + i) / 4096 = pos / 4096 := by
    intro i member
    have short := List.mem_range.1 member
    omega
  cases points : fileRef inode disk (place (pos / 4096)) with
  | none =>
    rw [if_pos (show blockNumber none = invalidBlock from rfl), zeroBytes, eq_comm,
      List.eq_replicate_iff]
    refine ⟨by rw [List.length_map, List.length_range], fun byte member => ?_⟩
    obtain ⟨i, listed, rfl⟩ := List.mem_map.1 member
    exact byteAt_hole (by rw [sameBlock i listed, points])
  | some block =>
    have present : ¬blockNumber (some block) = invalidBlock := fileRef_ne_invalid points
    rw [if_neg present, sliceSector]
    refine List.map_congr_left fun i listed => ?_
    have short := List.mem_range.1 listed
    have here : fileRef inode disk (place ((pos + i) / 4096)) = some block := by
      rw [sameBlock i listed, points]
    have index : Fin.ofNat 4096 (pos % 4096 + i) = Fin.ofNat 4096 (pos + i) := by
      apply Fin.ext
      simp only [Fin.ofNat]
      omega
    rw [byteAt_mapped (sameBlock i listed ▸ small) here, index]
    rfl

theorem exec_readChunks (accounted : Accounted count vol disk []) {ino : Fin 64} (fuel pos : Nat)
    (remaining : Nat) (enough : remaining ≤ fuel) (fits : pos + remaining ≤ maxFileSize) :
    Prog.exec (plainDevice count) (readChunks (vol.inodes ino) fuel pos remaining) (vol, disk) =
      (.ok ((List.range remaining).map fun i => byteAt (vol.inodes ino) disk (pos + i)),
        vol, disk) := by
  have limits : maxFileSize = 1048576 * 4096 ∧ maxFileBlocks = 1049620 := ⟨rfl, rfl⟩
  induction fuel generalizing pos remaining with
  | zero =>
    obtain rfl : remaining = 0 := by omega
    rfl
  | succ fuel ih =>
    rw [readChunks]
    by_cases none : remaining = 0
    · subst none
      rw [if_pos rfl]
      rfl
    rw [if_neg none]
    have small : pos / 4096 < maxFileBlocks := by omega
    dsimp only
    generalize chunkIs : min (4096 - pos % 4096) remaining = chunk at *
    have inside : blockNumber (fileRef (vol.inodes ino) disk (place (pos / 4096))) ≠ invalidBlock →
        (blockNumber (fileRef (vol.inodes ino) disk (place (pos / 4096)))).toNat < count := by
      intro present
      cases points : fileRef (vol.inodes ino) disk (place (pos / 4096)) with
      | none =>
        rw [points] at present
        exact absurd rfl present
      | some block => exact accounted.inVolume (accounted.allocated_of_fileRef points)
    rw [Prog.exec_bind_ok (exec_getFileDataBlock accounted rfl small),
      Prog.exec_bind_ok (exec_readChunk inside), chunk_eq small (by omega),
      Prog.exec_bind_ok (ih (pos + chunk) (remaining - chunk) (by omega) (by omega))]
    -- the two parts together are the whole range
    have split : remaining = chunk + (remaining - chunk) := by omega
    rw [Prog.exec_pure, split, List.range_add, List.map_append, List.map_map]
    simp only [Function.comp_def, Nat.add_assoc, Nat.add_sub_cancel_left]

/-- `denyfs_vol_read` rejects its arguments or returns the bytes of the file. -/
theorem exec_volRead (accounted : Accounted count vol disk [])
    (sizes : ∀ ino, (vol.inodes ino).size.toNat ≤ maxFileSize) (ino : UInt32) (size : Nat)
    (offset : UInt64) :
    Prog.exec (plainDevice count) (volRead ino size offset) (vol, disk) =
      (readResult vol disk ino size offset, vol, disk) := by
  unfold volRead readResult readError
  by_cases large : 64 ≤ ino
  · rw [if_pos large, if_pos (.inl large)]
    rfl
  rw [if_neg large]
  by_cases long : intMax < size
  · rw [if_pos long, if_pos (.inr long)]
    rfl
  rw [if_neg long, if_neg (not_or.2 ⟨large, long⟩), Prog.exec_bind_ok (Prog.exec_get _ _)]
  dsimp only
  by_cases directory : (vol.inodes (Fin.ofNat 64 ino.toNat)).type ≠ itypeFile
  · rw [if_pos directory, if_pos directory]
    rfl
  rw [if_neg directory, if_neg directory]
  have bound := sizes (Fin.ofNat 64 ino.toNat)
  by_cases past : (vol.inodes (Fin.ofNat 64 ino.toNat)).size ≤ offset
  · have order := UInt64.le_iff_toNat_le.1 past
    have nothing : min size ((vol.inodes (Fin.ofNat 64 ino.toNat)).size.toNat - offset.toNat) = 0 := by
      omega
    rw [if_pos past]
    simp only [bytesFrom, nothing, List.range_zero, List.map_nil]
    rfl
  · have order := UInt64.lt_iff_toNat_lt.1 (UInt64.not_le.1 past)
    rw [if_neg past, exec_readChunks accounted _ _ _ (Nat.le_refl _) (by omega)]
    rfl

end DenyFS
