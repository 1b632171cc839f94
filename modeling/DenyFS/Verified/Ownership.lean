import DenyFS.Verified.Creation
import DenyFS.Verified.Effects

/-! # Ownership in every reached state

Every state reached from an image that opens has exact accounts, and what a call does to one
file it does to no other. -/

namespace DenyFS

open Packed BlockProgram Ownership

variable {crypto : Crypto} {mount : Mount} {vol : Volume} {disk : Disk}

/-! ## The first file of a new volume -/

/-- A name that is valid and not taken gets a file where an inode and a directory slot are
free. -/
theorem Sound.new_file {count : Nat} {disk : Blocks} (sound : Sound count vol disk)
    (crypto : Crypto) (mount : Mount) (now : UInt64) {name : CString}
    (valid : ValidName name.bytes) (absent : ∀ p, nameRef vol disk p ≠ some name.bytes)
    {unused : Fin 64} (nonzero : unused ≠ 0) (free : (vol.inodes unused).type = itypeFree)
    (slot : DirentSlot) (present : (vol.inodes 0).direct slot.1 ≠ invalidBlock)
    (dead : ¬(entryAt vol disk slot).Live) :
    let after := call crypto mount (plainDevice count) (.create now name) (vol, disk)
    ∃ ino : Fin 64, after.1 = .ok (.ino (UInt32.ofNat ino.val)) ∧ ino ≠ 0 ∧
      (after.2.1.inodes ino).type = itypeFile ∧
      fileView (after.2.1.inodes ino) after.2.2 = blankView ∧
      after.2.1.sb.freeBlocks = vol.sb.freeBlocks ∧
      ∃ p, ∀ q, entryAt after.2.1 after.2.2 q =
        if q = p then newEntry ino name else entryAt vol disk q := by
  intro after
  have ends := sound.exec_volCreate crypto mount now name
  have plain : after = ((Prog.exec (plainDevice count) (volCreate crypto mount now name)
      (vol, disk)).1.map .ino,
        (Prog.exec (plainDevice count) (volCreate crypto mount now name) (vol, disk)).2) := by
    dsimp only [after]
    unfold call
    rw [perform, Prog.exec_bind_pure]
  rw [plain]
  generalize Prog.exec (plainDevice count) (volCreate crypto mount now name) (vol, disk) = result
    at ends
  cases ends with
  | badName bad => exact absurd valid bad
  | taken p _ named => exact absurd named (absent p)
  | noInode _ _ all =>
    rw [all unused nonzero] at free
    exact absurd free (by decide)
  | noRoom ino _ _ _ _ full _ => exact absurd (full slot present) dead
  | created ino p vol₁ disk₁ disk' _ _ root unusedIno added grown shows =>
    have same : vol₁ = vol.claimInode ino now := by
      cases grown with
      | inl same => exact same
      | inr full => exact absurd (full.1 slot present) dead
    subst same
    have claimed := claimInode_accounted now sound unusedIno
    have before := (claimInode_root now sound unusedIno root).2
    have self := claimInode_self now vol ino
    refine ⟨ino, rfl, root, ?_, ?_, rfl, p, fun q => ?_⟩
    · change ((vol.claimInode ino now).inodes ino).type = itypeFile
      rw [self]
      rfl
    · dsimp only
      rw [shows.view added.step.accounted]
      refine fileView_blank ?_ fun s => ?_
      · rw [self]
        rfl
      · rw [added.step.others_ref claimed root, self]
        exact newFile_fileRef _ now s
    · have flushed := flush_alike crypto mount added.step.accounted.layout shows
      dsimp only
      rw [flushed.entryAt_eq added.step.accounted, added.entries, before]

section OpenedNew

variable (roundTrip : crypto.SectorRoundTrip) (reached : Reached crypto mount vol disk)
  (asNew : OpenedNew crypto mount vol disk)
include roundTrip reached asNew

/-- A newly opened volume lists nothing. -/
theorem OpenedNew.dead (p : DirentSlot) :
    ¬(entryAt vol (mount.blocks crypto disk.container) p).Live := by
  have shows := reached.shows roundTrip
  have listed := call_readdir roundTrip shows
  rw [asNew.empty] at listed
  have empty : listing vol (mount.blocks crypto disk.container) = [] := by
    injection listed with same _
    injection same with same
    injection same with same
    exact same.symm
  unfold listing at empty
  have unreported := List.filterMap_eq_nil_iff.1 empty p (mem_direntSlots p)
  intro live
  unfold reported at unreported
  rw [if_pos live] at unreported
  cases unreported

/-- All its inodes but the root directory's are free. -/
theorem OpenedNew.unused : ∃ ino : Fin 64, ino ≠ 0 ∧ (vol.inodes ino).type = itypeFree := by
  have sound := (reached.shows roundTrip).sound
  by_contra none
  have live : ∀ ino : Fin 64, (vol.inodes ino).type ≠ itypeFree := by
    intro ino free
    refine none ⟨ino, ?_, free⟩
    intro root
    rw [root, sound.tree.rootType] at free
    exact absurd free (by decide)
  have all : vol.liveInodes = 64 := by
    unfold Volume.liveInodes
    rw [List.countP_eq_length.2 fun ino _ => decide_eq_true (live ino), upTo_eq,
      List.length_finRange]
  have total := sound.tree.freeInodes
  rw [asNew.freeInodes, all] at total
  cases total

/-- The first file of a newly opened volume: it is empty, and it is the only one. -/
theorem OpenedNew.new_file (now : UInt64) {name : CString} (valid : ValidName name.bytes) :
    let after := call crypto mount (volumeDevice crypto mount) (.create now name) (vol, disk)
    let blocks := mount.blocks crypto after.2.2.container
    ∃ ino : Fin 64, after.1 = .ok (.ino (UInt32.ofNat ino.val)) ∧ ino ≠ 0 ∧
      (after.2.1.inodes ino).type = itypeFile ∧
      fileView (after.2.1.inodes ino) blocks = blankView ∧
      after.2.1.sb.freeBlocks = vol.sb.freeBlocks ∧
      ∃ p, ∀ q, entryAt after.2.1 blocks q = if q = p then newEntry ino name
        else entryAt vol (mount.blocks crypto disk.container) q := by
  intro after blocks
  have shows := reached.shows roundTrip
  have dead := asNew.dead roundTrip reached
  obtain ⟨unused, nonzero, free⟩ := asNew.unused roundTrip reached
  have first : (vol.inodes 0).direct 0 ≠ invalidBlock :=
    (shows.sound.tree.rootDirect 0).2 shows.sound.tree.rootCount.1
  obtain ⟨outcome, memory, image, _⟩ :=
    call_plain roundTrip shows.unprotected shows.decrypts (.create now name) vol
  dsimp only [after, blocks]
  rw [outcome, memory, image]
  refine shows.sound.new_file crypto mount now valid (fun p named => ?_) nonzero free
    (0, 0) first (dead _)
  exact dead p (nameRef_eq_some.1 named).1

end OpenedNew

def nameA : CString := ⟨[97], by decide⟩

def nameB : CString := ⟨[98], by decide⟩

theorem nameA_valid : ValidName nameA.bytes := by
  constructor <;> decide

theorem smallContainer_reached :
    ∃ disk vol, smallContainer 4 = some disk ∧
      Reached transparentCrypto (outerMount zeroRandomness 4) vol disk ∧
      OpenedNew transparentCrypto (outerMount zeroRandomness 4) vol disk := by
  have positive : 0 < (4 : UInt64).toNat := by decide
  have small : (4 : UInt64).toNat ≤ 1024 := by decide
  obtain ⟨disk, vol, created, faultless, _, opened, asNew⟩ := smallContainer_opens positive small
  exact ⟨disk, vol, created, .opened faultless rfl opened, asNew⟩

theorem OpenedNew.free_small
    (asNew : OpenedNew transparentCrypto (outerMount zeroRandomness 4) vol disk) :
    vol.sb.freeBlocks.toNat = 507 := by
  have size : (outerMount zeroRandomness 4).volumeSize.toNat = 2097152 := by decide
  have total := asNew.totalBlocks
  have start := asNew.dataStart
  rw [asNew.freeBlocks, total, start, size]

/-- A small container with one file in it, which is empty. -/
theorem smallContainer_file :
    ∃ disk vol, ∃ ino : Fin 64, Reached transparentCrypto (outerMount zeroRandomness 4) vol disk ∧
      ino ≠ 0 ∧ (vol.inodes ino).type = itypeFile ∧
      fileView (vol.inodes ino)
        ((outerMount zeroRandomness 4).blocks transparentCrypto disk.container) = blankView ∧
      vol.sb.freeBlocks.toNat = 507 := by
  obtain ⟨disk, vol, _, reached, asNew⟩ := smallContainer_reached
  obtain ⟨ino, _, nonzero, file, blank, free, _⟩ :=
    asNew.new_file transparentCrypto_sectors reached 0 nameA_valid
  refine ⟨_, _, ino, reached.called (.create 0 nameA), nonzero, file, blank, ?_⟩
  rw [free]
  exact asNew.free_small

/-- What a read returns in a state the container shows. -/
theorem Shows.read (shows : Shows crypto mount vol disk) (roundTrip : crypto.SectorRoundTrip)
    (number : UInt32) (size : Nat) (offset : UInt64) :
    (call crypto mount (volumeDevice crypto mount) (.read number size offset) (vol, disk)).1 =
      (readResult vol (mount.blocks crypto disk.container) number size offset).map .data := by
  obtain ⟨outcome, _⟩ := call_plain roundTrip shows.unprotected shows.decrypts
    (.read number size offset) vol
  rw [outcome]
  unfold call
  rw [perform, Prog.exec_bind_pure, exec_volRead shows.sound.accounted shows.sound.tree.sizes]

/-! ## Exact accounts -/

/-- In every state reached from an accepted container the bitmap is exactly the set of blocks
that the directory, the files and their pointer tables own, each owned once; the counters are
exact; entries and files belong together one to one; and no call returns `-EIO`. -/
theorem accounting_exact (roundTrip : crypto.SectorRoundTrip)
    (reached : Reached crypto mount vol disk) :
    let blocks := mount.blocks crypto disk.container
    (∀ i < vol.sb.dataStart.toNat, vol.bit i = true) ∧
    (∀ s t b, ref vol blocks s = some b → ref vol blocks t = some b → s = t) ∧
    (∀ b : UInt32, (∃ s, ref vol blocks s = some b) ↔
      vol.sb.dataStart ≤ b ∧ b < vol.sb.totalBlocks ∧ vol.bit b.toNat = true) ∧
    (vol.usedCount ≤ vol.sb.totalBlocks.toNat - vol.sb.dataStart.toNat ∧
      vol.sb.freeBlocks.toNat =
        vol.sb.totalBlocks.toNat - vol.sb.dataStart.toNat - vol.usedCount) ∧
    vol.sb.freeInodes.toNat = 64 - vol.liveInodes ∧
    (∀ ino, (vol.inodes ino).blockCount.toNat = (mappedSlots (vol.inodes ino) blocks).card) ∧
    (∀ p ino, inodeRef vol blocks p = some ino →
      ino ≠ 0 ∧ (vol.inodes ino).type = itypeFile) ∧
    (∀ ino, ino ≠ 0 → (vol.inodes ino).type = itypeFile →
      ∃! p, inodeRef vol blocks p = some ino) ∧
    ∀ c, (call crypto mount (volumeDevice crypto mount) c (vol, disk)).1 ≠ .error .eio := by
  intro blocks
  have shows := reached.shows roundTrip
  have sound := shows.sound
  have ledger := sound.accounted.ledger
  refine ⟨sound.accounted.metadataBits, fun s t b => ledger.injective, fun b => ?_, ?_, ?_,
    sound.counted, fun p ino points => ?_, fun ino nonzero file => ?_, fun c => ?_⟩
  · have used := ledger.used_iff b
    rw [List.mem_nil_iff, false_or] at used
    exact used.symm
  · have space := sound.accounted.space
    have bound := vol.usedCount_le
    unfold Volume.Space at space
    exact ⟨bound, by omega⟩
  · have total := sound.tree.freeInodes
    omega
  · have file := sound.directory.file p ino points
    exact ⟨sound.tree.ne_root file, file⟩
  · obtain ⟨p, points⟩ := sound.directory.listed ino nonzero file
    exact ⟨p, points, fun q also => sound.directory.inodes q p ino also points⟩
  · obtain ⟨outcome, _⟩ := call_plain roundTrip shows.unprotected shows.decrypts c vol
    rw [outcome]
    exact (sound.after_call crypto mount c).2

theorem accounting_exact_small :
    ∃ disk vol, smallContainer 4 = some disk ∧
      Reached transparentCrypto (outerMount zeroRandomness 4) vol disk ∧
      vol.sb.freeInodes.toNat = 64 - vol.liveInodes ∧
      (call transparentCrypto (outerMount zeroRandomness 4)
        (volumeDevice transparentCrypto (outerMount zeroRandomness 4)) (.create 0 nameA)
        (vol, disk)).1 ≠ .error .eio := by
  obtain ⟨disk, vol, created, reached, _⟩ := smallContainer_reached
  obtain ⟨_, _, _, _, inodes, _, _, _, calls⟩ := accounting_exact transparentCrypto_sectors reached
  exact ⟨disk, vol, created, reached, inodes, calls (.create 0 nameA)⟩

/-! ## Isolation -/

/-- The file a call names, by its number or by its name. -/
def Call.Names (vol : Volume) (disk : Blocks) (j : Fin 64) : Call → Prop
  | .write _ number _ _ => number < 64 ∧ inodeOf number = j
  | .truncate _ number _ => number < 64 ∧ inodeOf number = j
  | .create _ name => ∃ p, nameRef vol disk p = some name.bytes ∧ inodeRef vol disk p = some j
  | .unlink name => ∃ p, nameRef vol disk p = some name.bytes ∧ inodeRef vol disk p = some j
  | .lookup _ | .read _ _ _ | .readdir | .flush => False

theorem Sound.untouched {count : Nat} {disk : Blocks} {j : Fin 64} (sound : Sound count vol disk)
    (crypto : Crypto) (mount : Mount) (file : (vol.inodes j).type = itypeFile) (c : Call) (other : ¬c.Names vol disk j) :
    Untouched vol (call crypto mount (plainDevice count) c (vol, disk)).2.1 disk
      (call crypto mount (plainDevice count) c (vol, disk)).2.2 j := by
  unfold call
  cases c with
  | lookup name =>
    rw [perform, Prog.exec_bind_pure, (sound.lookup name).unchanged.1]
    exact .refl vol disk j
  | create now name =>
    rw [perform, Prog.exec_bind_pure]
    exact (sound.exec_volCreate crypto mount now name).untouched sound file
  | unlink name =>
    rw [perform, Prog.exec_bind_pure]
    exact (sound.exec_volUnlink crypto mount name).untouched sound file fun p named points =>
      other ⟨p, named, points⟩
  | read ino size offset =>
    rw [perform, Prog.exec_bind_pure, exec_volRead sound.accounted sound.tree.sizes]
    exact .refl vol disk j
  | write now number buf offset =>
    rw [perform, Prog.exec_bind_pure]
    exact (sound.exec_volWrite crypto mount now number buf offset).untouched sound
      fun small same => other ⟨small, same.symm⟩
  | truncate now number newSize =>
    rw [perform, Prog.exec_bind_pure]
    exact (sound.exec_volTruncate crypto mount now number newSize).untouched sound
      fun small same => other ⟨small, same.symm⟩
  | readdir =>
    rw [perform, Prog.exec_bind_pure, sound.exec_volReaddir]
    exact .refl vol disk j
  | flush =>
    rw [perform, Prog.exec_bind_pure]
    obtain ⟨disk', flushes, shows⟩ :=
      exec_volFlush_plain crypto mount sound.accounted.layout disk
    rw [flushes]
    exact untouched_flush sound.accounted shows j

/-- Whatever a call does, every file it does not name keeps its entry, its size, its block map
and what every read of it returns. -/
theorem file_isolated (roundTrip : crypto.SectorRoundTrip) (reached : Reached crypto mount vol disk)
    (c : Call) (j : Fin 64) (file : (vol.inodes j).type = itypeFile)
    (other : ¬c.Names vol (mount.blocks crypto disk.container) j) :
    let before := mount.blocks crypto disk.container
    let after := (call crypto mount (volumeDevice crypto mount) c (vol, disk)).2
    let blocks := mount.blocks crypto after.2.container
    (∀ p, inodeRef vol before p = some j ↔ inodeRef after.1 blocks p = some j) ∧
    (∀ p, inodeRef vol before p = some j → entryAt after.1 blocks p = entryAt vol before p) ∧
    (after.1.inodes j).size = (vol.inodes j).size ∧
    (∀ s, fileRef (after.1.inodes j) blocks s = fileRef (vol.inodes j) before s) ∧
    ∀ size offset,
      (call crypto mount (volumeDevice crypto mount) (.read (UInt32.ofNat j.val) size offset)
          after).1 =
        (call crypto mount (volumeDevice crypto mount) (.read (UInt32.ofNat j.val) size offset)
          (vol, disk)).1 := by
  intro before after blocks
  have shows := reached.shows roundTrip
  have later := shows.called roundTrip c
  obtain ⟨_, memory, image, _⟩ := call_plain roundTrip shows.unprotected shows.decrypts c vol
  have untouched := shows.sound.untouched crypto mount file c other
  rw [← memory, ← image] at untouched
  have after_file : (after.1.inodes j).type = itypeFile := by
    rw [untouched.inode]
    exact file
  refine ⟨fun p => ⟨fun points => ?_, fun points => ?_⟩, untouched.entry, by rw [untouched.inode],
    fun s => congrFun untouched.refs s, fun size offset => ?_⟩
  · rw [inodeRef_eq_some, untouched.entry p points]
    exact inodeRef_eq_some.1 points
  · obtain ⟨q, listed⟩ :=
      shows.sound.directory.listed j (shows.sound.tree.ne_root file) file
    have same : inodeRef after.1 blocks q = some j := by
      rw [inodeRef_eq_some, untouched.entry q listed]
      exact inodeRef_eq_some.1 listed
    rw [later.sound.directory.inodes p q j points same]
    exact listed
  · have sameBytes : bytesFrom (after.1.inodes j) (mount.blocks crypto after.2.container) =
        bytesFrom (vol.inodes j) (mount.blocks crypto disk.container) := by
      unfold bytesFrom
      rw [untouched.bytes, untouched.inode]
    rw [shows.read roundTrip, later.read roundTrip]
    unfold readResult readError
    rw [ofNat_ino, untouched.inode, ← sameBytes, untouched.inode]

theorem file_isolated_small :
    ∃ disk vol, ∃ ino : Fin 64, Reached transparentCrypto (outerMount zeroRandomness 4) vol disk ∧
      (vol.inodes ino).type = itypeFile ∧
      ((call transparentCrypto (outerMount zeroRandomness 4)
        (volumeDevice transparentCrypto (outerMount zeroRandomness 4)) (.write 0 0 [7] 0)
        (vol, disk)).2.1.inodes ino).size = (vol.inodes ino).size := by
  obtain ⟨disk, vol, ino, reached, nonzero, file, _, _⟩ := smallContainer_file
  have other : ¬(Call.write 0 0 [7] 0).Names vol
      ((outerMount zeroRandomness 4).blocks transparentCrypto disk.container) ino :=
    fun named => nonzero named.2.symm
  obtain ⟨_, _, size, _⟩ :=
    file_isolated transparentCrypto_sectors reached (.write 0 0 [7] 0) ino file other
  exact ⟨disk, vol, ino, reached, file, size⟩

end DenyFS
