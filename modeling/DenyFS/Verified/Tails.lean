import DenyFS.Verified.FreshRuns
import DenyFS.Verified.Space

/-! # What a file shows when it grows

A stored byte at or past the end of a file would show once the file grows.  Every call leaves
only zeros there, except a write that runs out of space after it has stored a part of its data
past the end: the blocks it has filled stay mapped and the size stays as it was. -/

namespace DenyFS

open Packed BlockProgram Ownership

variable {count : Nat} {crypto : Crypto} {mount : Mount} {vol : Volume}

/-- Every stored byte past the end of a file is zero. -/
def ZeroTail (vol : Volume) (disk : Blocks) : Prop :=
  ∀ j, j ≠ 0 → ∀ i, (vol.inodes j).size.toNat ≤ i → byteAt (vol.inodes j) disk i = 0

/-- What a write that runs out of space may have stored: it is rejected at once, it fits, or no
prefix of the data that fits has a byte past the end of the file, unless that byte is zero. -/
def StoresNoTail (vol : Volume) (disk : Blocks) : Call → Prop
  | .write _ number buf offset =>
    let inode := vol.inodes (inodeOf number)
    writeError vol number buf.length offset ≠ none ∨
      blocksNeeded inode disk offset.toNat buf.length ≤ vol.sb.freeBlocks.toNat ∨
      ∀ n ≤ buf.length, blocksNeeded inode disk offset.toNat n ≤ vol.sb.freeBlocks.toNat →
        ∀ i < n, inode.size.toNat ≤ offset.toNat + i → buf.getD i 0 = 0
  | _ => True

/-! ## Prefixes of a write -/

/-- The part of the data stored after `m` rounds touches the first `m` blocks. -/
theorem touchedBlocks_storedPart {pos m : Nat} {src : List UInt8}
    (inside : m < (touchedBlocks pos src.length).length) :
    (storedPart pos m src).length ≤ src.length ∧
      touchedBlocks pos (storedPart pos m src).length =
        (touchedBlocks pos src.length).take m := by
  unfold touchedBlocks at inside
  have stored : (storedPart pos m src).length =
      min ((pos / 4096 + m) * 4096 - pos) src.length := List.length_take
  rw [stored]
  refine ⟨Nat.min_le_right _ _, ?_⟩
  by_cases empty : src.length = 0
  · rw [if_pos empty] at inside
    cases inside
  rw [if_neg empty, List.length_range'] at inside
  unfold touchedBlocks
  rw [if_neg empty, List.take_range'_of_length_ge (by omega)]
  congr 1
  by_cases none : m = 0
  · subst none
    rw [if_pos (by omega)]
  · rw [if_neg (by omega)]
    omega

/-- The blocks that part needs. -/
theorem card_neededSlots_stored (inode : Inode) (disk : Blocks) {pos m : Nat} {src : List UInt8}
    (inside : m < (touchedBlocks pos src.length).length) (fits : pos + src.length ≤ maxFileSize) :
    (neededSlots inode disk ((touchedBlocks pos src.length).take m)).card =
      blocksNeeded inode disk pos (storedPart pos m src).length := by
  have part := touchedBlocks_storedPart inside
  rw [← part.2]
  exact card_neededSlots _ _ (by omega)

theorem getD_of_chunkPatch {pos : Nat} {src : List UInt8} {i : Nat} {byte : UInt8}
    (patched : chunkPatch pos src i = some byte) :
    pos ≤ i ∧ i - pos < src.length ∧ byte = src.getD (i - pos) 0 := by
  unfold chunkPatch at patched
  split at patched
  next lower =>
    obtain ⟨small, _⟩ := List.getElem?_eq_some_iff.1 patched
    refine ⟨lower, small, ?_⟩
    rw [List.getD_eq_getElem?_getD, patched, Option.getD_some]
  next => cases patched

/-! ## The step and the run -/

/-- Every call that stores nothing past an end keeps the ends zero. -/
theorem Effect.zeroTail {disk : Blocks} {j : Fin 64} {c : Call} {after : FileView}
    (effect : Effect vol disk j c after) (nonzero : j ≠ 0) (zero : ZeroTail vol disk)
    (meets : StoresNoTail vol disk c) : ∀ i, after.size.toNat ≤ i → after.bytes i = 0 := by
  intro i past
  cases effect with
  | same c => exact zero j nonzero i past
  | created _ => rfl
  | removed => rfl
  | @written _ _ buf offset _ accepted named size refs bytes =>
    have fits := (of_writeError_none accepted).2.2
    rw [size, writtenSize_toNat fits] at past
    rw [bytes i]
    cases patched : chunkPatch offset.toNat buf i with
    | none => exact zero j nonzero i (by omega)
    | some byte =>
      have inside := getD_of_chunkPatch patched
      omega
  | @full _ number buf offset _ m accepted named stops fits full size refs bytes =>
    subst named
    rw [size] at past
    rw [bytes i]
    have part := touchedBlocks_storedPart stops
    have limit := (of_writeError_none accepted).2.2
    have countPart := card_neededSlots_stored (vol.inodes (inodeOf number)) disk stops limit
    have countAll := card_neededSlots (vol.inodes (inodeOf number)) disk limit
    cases patched : chunkPatch offset.toNat (storedPart offset.toNat m buf) i with
    | none => exact zero _ nonzero i past
    | some byte =>
      obtain ⟨lower, inside, same⟩ := getD_of_chunkPatch patched
      have front : (storedPart offset.toNat m buf).getD (i - offset.toNat) 0 =
          buf.getD (i - offset.toNat) 0 := by
        rw [List.getD_eq_getElem?_getD, List.getD_eq_getElem?_getD]
        unfold storedPart at inside ⊢
        rw [List.length_take] at inside
        rw [List.getElem?_take_of_lt (by omega)]
      rw [Option.getD_some, same, front]
      have grows := Finset.card_le_card (neededSlots_mono (vol.inodes (inodeOf number)) disk
        (List.take_subset (m + 1) (touchedBlocks offset.toNat buf.length)))
      -- the write was not rejected and did not fit, so what fits of it has no byte past the end
      cases meets with
      | inl rejected => exact absurd accepted rejected
      | inr meets =>
        cases meets with
        | inl room => omega
        | inr zeros => exact zeros _ part.1 (by omega) _ inside (by omega)
  | cut _ _ shorter size _ bytes =>
    rw [size] at past
    rw [bytes, if_neg (by omega)]
  | grown _ _ longer =>
    have order := UInt64.lt_iff_toNat_lt.1 longer
    exact zero j nonzero i (by dsimp only at past; omega)

theorem Sound.zeroTail_call {disk : Blocks} (sound : Sound count vol disk) (zero : ZeroTail vol disk)
    (c : Call) (meets : StoresNoTail vol disk c) :
    ZeroTail (call crypto mount (plainDevice count) c (vol, disk)).2.1
      (call crypto mount (plainDevice count) c (vol, disk)).2.2 := by
  intro j nonzero
  have outcome : CallOutcome count crypto mount vol disk c _ := sound.call_outcome c
  exact (outcome.effect sound nonzero).zeroTail nonzero zero meets

theorem Fresh.zeroTail {disk : Disk} (roundTrip : crypto.SectorRoundTrip)
    (fresh : Fresh crypto mount vol disk) : ZeroTail vol (mount.blocks crypto disk.container) := by
  intro j nonzero i _
  obtain ⟨formattable, loaded, now, formatted⟩ := fresh.formatted roundTrip
  have agrees := formatted.stored.loaded (formatImage_layout crypto mount.hmacKey now formattable)
  rw [← loaded] at agrees
  rw [agrees.inodes, formatImage_blank nonzero]
  exact byteAt_hole (blankInodeRecord_blank.fileRef_eq_none _ _)

theorem FreshWhile.zeroTail {disk : Disk} (roundTrip : crypto.SectorRoundTrip)
    (run : FreshWhile crypto mount StoresNoTail vol disk) :
    ZeroTail vol (mount.blocks crypto disk.container) :=
  run.invariant roundTrip (fun _ _ fresh => fresh.zeroTail roundTrip)
    fun _ _ c sound zero meets => sound.zeroTail_call zero c meets

/-! ## Growth -/

/-- Every read inside `[first, last)` of a file returns zeros. -/
def ReadsZero (crypto : Crypto) (mount : Mount) (vol : Volume) (disk : Disk) (number : UInt32)
    (first last : Nat) : Prop :=
  ∀ (size : Nat) (offset : UInt64), size ≤ intMax → first ≤ offset.toNat →
    offset.toNat + size ≤ last →
    (call crypto mount (volumeDevice crypto mount) (.read number size offset) (vol, disk)).1 =
      .ok (.data (zeroBytes size))

/-- However a file grows, by `denyfs_vol_truncate` or by a successful write past its end, the
gap reads as zeros. -/
structure GrowthReadsZero (crypto : Crypto) (mount : Mount) (vol : Volume) (disk : Disk) : Prop where
  truncate : ∀ (now : UInt64) (number : UInt32) (newSize : UInt64), number < 64 →
    (vol.inodes (inodeOf number)).type = itypeFile → newSize.toNat ≤ maxFileSize →
    (vol.inodes (inodeOf number)).size < newSize →
    let after := call crypto mount (volumeDevice crypto mount) (.truncate now number newSize)
      (vol, disk)
    after.1 = .ok .done ∧ (after.2.1.inodes (inodeOf number)).size = newSize ∧
      ReadsZero crypto mount after.2.1 after.2.2 number (vol.inodes (inodeOf number)).size.toNat
        newSize.toNat
  write : ∀ (now : UInt64) (number : UInt32) (buf : List UInt8) (offset : UInt64),
    let after := call crypto mount (volumeDevice crypto mount) (.write now number buf offset)
      (vol, disk)
    (vol.inodes (inodeOf number)).size ≤ offset → after.1 = .ok (.count buf.length) →
      ReadsZero crypto mount after.2.1 after.2.2 number (vol.inodes (inodeOf number)).size.toNat
        offset.toNat

theorem Shows.read_file {disk : Disk} (shows : Shows crypto mount vol disk)
    (roundTrip : crypto.SectorRoundTrip) {number : UInt32} (small : number < 64)
    (file : (vol.inodes (inodeOf number)).type = itypeFile) {size : Nat} (sized : size ≤ intMax)
    (offset : UInt64) :
    (call crypto mount (volumeDevice crypto mount) (.read number size offset) (vol, disk)).1 =
      .ok (.data (bytesFrom (vol.inodes (inodeOf number)) (mount.blocks crypto disk.container)
        offset.toNat size)) := by
  rw [shows.read roundTrip]
  have accepted : readError vol number size = none := by
    unfold readError
    rw [if_neg, if_neg]
    · exact not_not_intro file
    · intro bad
      cases bad with
      | inl bad => exact absurd small (UInt32.not_lt.2 bad)
      | inr bad => omega
  unfold readResult
  rw [accepted]
  rfl

/-- A file whose bytes are zero somewhere reads as zeros there. -/
theorem Shows.readsZero {disk : Disk} (shows : Shows crypto mount vol disk)
    (roundTrip : crypto.SectorRoundTrip) {number : UInt32} (small : number < 64)
    (file : (vol.inodes (inodeOf number)).type = itypeFile) {first last : Nat}
    (inside : last ≤ (vol.inodes (inodeOf number)).size.toNat)
    (zero : ∀ i, first ≤ i → i < last →
      byteAt (vol.inodes (inodeOf number)) (mount.blocks crypto disk.container) i = 0) :
    ReadsZero crypto mount vol disk number first last := by
  intro size offset sized lower upper
  rw [shows.read_file roundTrip small file sized]
  have bytes : bytesFrom (vol.inodes (inodeOf number)) (mount.blocks crypto disk.container)
      offset.toNat size = zeroBytes size := by
    unfold bytesFrom zeroBytes
    rw [Nat.min_eq_left (by omega), List.eq_replicate_iff]
    refine ⟨by rw [List.length_map, List.length_range], fun byte listed => ?_⟩
    obtain ⟨i, member, same⟩ := List.mem_map.1 listed
    have bound := List.mem_range.1 member
    rw [← same]
    exact zero _ (by omega) (by omega)
  exact congrArg (fun bytes => Except.ok (Reply.data bytes)) bytes

theorem setMeta_flushed_type (ino : Fin 64) (size mtime : UInt64) :
    (((vol.setMeta ino size mtime).flushed crypto mount).inodes ino).type =
      (vol.inodes ino).type := by
  change (Function.update vol.inodes ino { vol.inodes ino with size, mtime } ino).type = _
  rw [Function.update_self]

section Growth

variable {blocks : Blocks} (sound : Sound count vol blocks)
include sound

/-- Truncating a file to a greater size changes only the size. -/
theorem Sound.truncate_grown {number : UInt32} (small : number < 64)
    (file : (vol.inodes (inodeOf number)).type = itypeFile) {newSize : UInt64}
    (fits : newSize.toNat ≤ maxFileSize) (longer : (vol.inodes (inodeOf number)).size < newSize)
    (now : UInt64) :
    let after := call crypto mount (plainDevice count) (.truncate now number newSize) (vol, blocks)
    after.1 = .ok .done ∧ (after.2.1.inodes (inodeOf number)).type = itypeFile ∧
      fileView (after.2.1.inodes (inodeOf number)) after.2.2 =
        ⟨newSize, fileRef (vol.inodes (inodeOf number)) blocks,
          byteAt (vol.inodes (inodeOf number)) blocks⟩ := by
  intro after
  have order := UInt64.lt_iff_toNat_lt.1 longer
  have outcome : CallOutcome count crypto mount vol blocks (.truncate now number newSize) after :=
    sound.call_outcome _
  generalize after = result at outcome
  cases outcome with
  | truncate ends =>
    cases ends with
    | rejected error rejected =>
      rw [truncateError_eq_none small file fits] at rejected
      cases rejected
    | same _ same => rw [same] at order; omega
    | resized vol₁ disk₁ disk' _ other cut shows =>
      unfold CutTo at cut
      rw [if_neg (UInt64.lt_asymm longer)] at cut
      obtain ⟨rfl, rfl⟩ := cut
      refine ⟨rfl, ?_, view_setMeta_flushed sound.accounted shows⟩
      rw [← file]
      exact setMeta_flushed_type _ _ _

/-- A successful write patches the bytes of its file. -/
theorem Sound.write_patched {now : UInt64} {number : UInt32} {buf : List UInt8} {offset : UInt64} :
    let after := call crypto mount (plainDevice count) (.write now number buf offset) (vol, blocks)
    after.1 = .ok (.count buf.length) →
      number < 64 ∧ (after.2.1.inodes (inodeOf number)).type = itypeFile ∧
      (after.2.1.inodes (inodeOf number)).size.toNat =
        max (vol.inodes (inodeOf number)).size.toNat (offset.toNat + buf.length) ∧
      ∀ i, byteAt (after.2.1.inodes (inodeOf number)) after.2.2 i =
        (chunkPatch offset.toNat buf i).getD (byteAt (vol.inodes (inodeOf number)) blocks i) := by
  intro after done
  have outcome : CallOutcome count crypto mount vol blocks (.write now number buf offset) after :=
    sound.call_outcome _
  generalize after = result at outcome done
  cases outcome with
  | write ends =>
    cases ends with
    | rejected error _ => cases done
    | full m vol₁ disk₁ _ _ _ _ => cases done
    | written vol₁ disk₁ disk' accepted stored shows =>
      have given := of_writeError_none accepted
      have view := view_setMeta_flushed stored.step.accounted shows
      refine ⟨given.1, ?_, ?_, fun i => ?_⟩
      · dsimp only
        rw [setMeta_flushed_type, stored.step.inode]
        exact given.2.1
      · dsimp only
        rw [(of_fileView view).1, writtenSize_toNat given.2.2]
      · dsimp only
        rw [(of_fileView view).2.2]
        exact stored.bytes i

end Growth

/-- As long as no write that runs out of space has stored bytes past the end of its file, every
file reads as zeros wherever it grows. -/
theorem growth_reads_zero {disk : Disk} (roundTrip : crypto.SectorRoundTrip)
    (run : FreshWhile crypto mount StoresNoTail vol disk) :
    GrowthReadsZero crypto mount vol disk where
  truncate now number newSize small file fits longer := by
    intro after
    have shows := run.reached.shows roundTrip
    have zero := run.zeroTail roundTrip
    have later := shows.called roundTrip (.truncate now number newSize)
    obtain ⟨outcome, memory, image, _⟩ := call_plain roundTrip shows.unprotected shows.decrypts
      (.truncate now number newSize) vol
    obtain ⟨done, type, view⟩ := shows.sound.truncate_grown small file fits longer now
    rw [← outcome] at done
    rw [← memory] at type view
    rw [← image] at view
    obtain ⟨size, _, bytes⟩ := of_fileView view
    refine ⟨done, size, later.readsZero roundTrip small type ?_ fun i lower _ => ?_⟩
    · rw [size]
    · rw [bytes]
      exact zero _ (shows.sound.tree.ne_root file) i lower
  write now number buf offset := by
    intro after past done
    have shows := run.reached.shows roundTrip
    have zero := run.zeroTail roundTrip
    have later := shows.called roundTrip (.write now number buf offset)
    obtain ⟨outcome, memory, image, _⟩ := call_plain roundTrip shows.unprotected shows.decrypts
      (.write now number buf offset) vol
    dsimp only [after] at done ⊢
    rw [outcome] at done
    obtain ⟨small, type, size, bytes⟩ := shows.sound.write_patched done
    rw [← memory] at type size bytes
    rw [← image] at bytes
    have nonzero := later.sound.tree.ne_root type
    refine later.readsZero roundTrip small type ?_ fun i lower upper => ?_
    · rw [size]
      omega
    · rw [bytes]
      cases patched : chunkPatch offset.toNat buf i with
      | none => exact zero _ nonzero i lower
      | some byte =>
        have inside := getD_of_chunkPatch patched
        omega

theorem growth_reads_zero_small :
    ∃ disk vol, ∃ ino : Fin 64,
      FreshWhile transparentCrypto (outerMount zeroRandomness 4) StoresNoTail vol disk ∧
      ∃ vol' disk', call transparentCrypto (outerMount zeroRandomness 4)
          (volumeDevice transparentCrypto (outerMount zeroRandomness 4))
          (.truncate 0 (UInt32.ofNat ino.val) 5) (vol, disk) = (.ok .done, vol', disk') ∧
        (call transparentCrypto (outerMount zeroRandomness 4)
          (volumeDevice transparentCrypto (outerMount zeroRandomness 4))
          (.read (UInt32.ofNat ino.val) 5 0) (vol', disk')).1 = .ok (.data [0, 0, 0, 0, 0]) := by
  obtain ⟨disk, vol, ino, _, fresh, _, _, file, blank, _⟩ := smallContainer_newFile
  have run : FreshWhile transparentCrypto (outerMount zeroRandomness 4) StoresNoTail _ _ :=
    (FreshWhile.fresh fresh).called (.create 0 nameA) trivial
  have same : inodeOf (UInt32.ofNat ino.val) = ino := ofNat_ino ino
  have size := (of_fileView blank).1
  have grows := (growth_reads_zero transparentCrypto_sectors run).truncate 0
    (UInt32.ofNat ino.val) 5 (ofNat_ino_lt ino) (by rw [same]; exact file) (by decide)
    (by rw [same, size]; decide)
  rw [same, size] at grows
  exact ⟨_, _, ino, run, _, _, Prod.ext grows.1 rfl, grows.2.2 5 0 (by decide) (by decide)
    (by decide)⟩

/-! ## A write that runs out of space -/

/-- A write of 512 blocks to an empty file of a volume with 507 free blocks fails with `-ENOSPC`,
but its first block stays mapped and filled. -/
theorem Sound.write_overflows {blocks : Blocks} (sound : Sound count vol blocks) {number : UInt32}
    (small : number < 64) (file : (vol.inodes (inodeOf number)).type = itypeFile)
    (blank : fileView (vol.inodes (inodeOf number)) blocks = blankView)
    (free : vol.sb.freeBlocks.toNat = 507) :
    let after := call crypto mount (plainDevice count)
      (.write 0 number (List.replicate 2097152 1) 0) (vol, blocks)
    after.1 = .error .enospc ∧ (after.2.1.inodes (inodeOf number)).type = itypeFile ∧
      (after.2.1.inodes (inodeOf number)).size = 0 ∧
      fileRef (after.2.1.inodes (inodeOf number)) after.2.2 (.direct 0) ≠ none ∧
      byteAt (after.2.1.inodes (inodeOf number)) after.2.2 0 = 1 := by
  intro after
  have outcome : CallOutcome count crypto mount vol blocks _ after := sound.call_outcome _
  have length : (List.replicate 2097152 (1 : UInt8)).length = 2097152 := List.length_replicate
  have size : (vol.inodes (inodeOf number)).size = 0 := (of_fileView blank).1
  have refs : fileRef (vol.inodes (inodeOf number)) blocks = fun _ => none := (of_fileView blank).2.1
  have touched : touchedBlocks (0 : UInt64).toNat 2097152 = List.range' 0 512 := by
    unfold touchedBlocks
    rfl
  have needed := unmappedBlocks_le (vol.inodes (inodeOf number)) blocks (0 : UInt64).toNat 2097152
  have unmapped : unmappedBlocks (vol.inodes (inodeOf number)) blocks (0 : UInt64).toNat 2097152 =
      List.range' 0 512 := by
    unfold unmappedBlocks
    rw [refs, touched]
    exact List.filter_true _
  rw [unmapped, List.length_range'] at needed
  have first : (neededSlots (vol.inodes (inodeOf number)) blocks [0]).card ≤ 1 := by
    rw [card_neededSlots_one]
    exact List.countP_le_length
  generalize after = result at outcome
  cases outcome with
  | write ends =>
    cases ends with
    | rejected error rejected =>
      rw [length, writeError_eq_none small file (by decide) (by decide)] at rejected
      cases rejected
    | written vol₁ disk₁ disk' _ stored _ =>
      have spent := stored.spent
      rw [length, card_neededSlots _ _ (by decide)] at spent
      omega
    | full m vol₁ disk₁ _ stops stored full =>
      rw [length, touched] at stops full stored
      -- one block would have fit, so at least one was stored
      have some : m ≠ 0 := by
        intro none
        subst none
        change _ < (neededSlots (vol.inodes (inodeOf number)) blocks [0]).card at full
        omega
      have listed : 0 ∈ (List.range' 0 512).take m := by
        rw [List.take_range'_of_length_ge (by rw [List.length_range'] at stops; omega)]
        exact List.mem_range'_1.2 ⟨le_rfl, by omega⟩
      refine ⟨rfl, ?_, ?_, fun hole => ?_, ?_⟩
      · dsimp only
        rw [stored.step.inode]
        exact file
      · dsimp only
        rw [stored.step.inode]
        exact size
      · exact ((stored.refs _).1 hole).2 0 listed (List.mem_singleton.2 rfl)
      · have byte := stored.bytes 0
        have patched : chunkPatch (0 : UInt64).toNat (storedPart (0 : UInt64).toNat m
            (List.replicate 2097152 1)) 0 = Option.some 1 := by
          have zero : (0 : UInt64).toNat = 0 := rfl
          unfold chunkPatch storedPart
          rw [zero, if_pos (le_refl _), List.getElem?_take_of_lt (by omega),
            List.getElem?_replicate_of_lt (by decide)]
        rw [patched] at byte
        exact byte

/-- Growing the file by one byte shows the first byte of the failed write. -/
theorem failed_write_reappears :
    ∃ disk vol, ∃ ino : Fin 64, smallContainer 4 = some disk ∧
      Fresh transparentCrypto (outerMount zeroRandomness 4) vol disk ∧
      let step := call transparentCrypto (outerMount zeroRandomness 4)
        (volumeDevice transparentCrypto (outerMount zeroRandomness 4))
      let created := (step (.create 0 nameA) (vol, disk)).2
      let failed := step (.write 0 (UInt32.ofNat ino.val) (List.replicate 2097152 1) 0) created
      failed.1 = .error .enospc ∧ (failed.2.1.inodes ino).size = 0 ∧
      (step (.read (UInt32.ofNat ino.val) 1 0)
        (step (.truncate 0 (UInt32.ofNat ino.val) 1) failed.2).2).1 = .ok (.data [1]) ∧
      FreshWhile transparentCrypto (outerMount zeroRandomness 4) (fun _ _ _ => True) failed.2.1
        failed.2.2 ∧
      ¬GrowthReadsZero transparentCrypto (outerMount zeroRandomness 4) failed.2.1 failed.2.2 := by
  obtain ⟨disk, vol, ino, made, fresh, nonzero, _, file, blank, free⟩ := smallContainer_newFile
  refine ⟨disk, vol, ino, made, fresh, ?_⟩
  have small := ofNat_ino_lt ino
  have same : inodeOf (UInt32.ofNat ino.val) = ino := ofNat_ino ino
  generalize UInt32.ofNat ino.val = number at small same ⊢
  subst same
  intro step created failed
  have run : FreshWhile transparentCrypto (outerMount zeroRandomness 4) (fun _ _ _ => True)
      created.1 created.2 := (FreshWhile.fresh fresh).called (.create 0 nameA) trivial
  have later : FreshWhile transparentCrypto (outerMount zeroRandomness 4) (fun _ _ _ => True)
      failed.2.1 failed.2.2 := run.called (.write 0 number (List.replicate 2097152 1) 0) trivial
  have shows := run.reached.shows transparentCrypto_sectors
  have filled := later.reached.shows transparentCrypto_sectors
  have shown := filled.called transparentCrypto_sectors (.truncate 0 number 1)
  obtain ⟨outcome, memory, image, _⟩ := call_plain transparentCrypto_sectors shows.unprotected
    shows.decrypts (.write 0 number (List.replicate 2097152 1) 0) _
  obtain ⟨full, type, size, _, byte⟩ := shows.sound.write_overflows small file blank free
  rw [← outcome] at full
  rw [← memory] at type size byte
  rw [← image] at byte
  obtain ⟨_, memory', image', _⟩ := call_plain transparentCrypto_sectors filled.unprotected
    filled.decrypts (.truncate 0 number 1) _
  have longer : (0 : UInt64) < 1 := by decide
  rw [← size] at longer
  obtain ⟨_, type', view⟩ := filled.sound.truncate_grown small type (by decide) longer 0
  rw [← memory'] at type' view
  rw [← image'] at view
  obtain ⟨size', _, bytes'⟩ := of_fileView view
  have one : 1 ≤ intMax := by decide
  have zero : (0 : UInt64).toNat = 0 := rfl
  have after := shown.read_file transparentCrypto_sectors small type' one 0
  rw [bytesFrom_one (by rw [size']; exact Nat.zero_lt_one), bytes', zero] at after
  dsimp only at after
  rw [byte] at after
  refine ⟨full, size, after, later, fun reads => ?_⟩
  have grows := reads.truncate 0 number 1 small type (by decide) longer
  have blankRead := grows.2.2 1 0 one (by rw [size]) (by decide)
  rw [after] at blankRead
  cases blankRead

end DenyFS
