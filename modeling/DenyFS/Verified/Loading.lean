import DenyFS.Verified.Acceptance
import DenyFS.Verified.Allocation
import DenyFS.Verified.Flush
import DenyFS.Verified.VolumeDevice

/-! # Loading a volume

`denyfs_vol_open` reads superblock, bitmap and inode table into memory and accepts them where
the superblock has the layout of the volume, the HMAC of the bitmap is the stored one and the
image is well formed. -/

namespace DenyFS

open Packed BlockProgram Ownership

variable {count : Nat} {vol : Volume} {disk : Blocks}

namespace Superblock

/-- The bitmap the sectors of the bitmap hold. -/
def loadedBitmap (sb : Superblock) (disk : Blocks) (k : Nat) : UInt8 :=
  if k / 4096 < sb.bitmapBlocks.toNat then
    disk (sb.bitmapStart + UInt32.ofNat (k / 4096)) (Fin.ofNat 4096 k)
  else 0

/-- The inodes the two blocks of the inode table hold. -/
def loadedInodes (sb : Superblock) (disk : Blocks) (j : Fin 64) : Inode :=
  inodesSector.symm (disk (sb.inodeStart + UInt32.ofNat (j.val / 32))) (Fin.ofNat 32 j.val)

/-- What is read into memory under a superblock. -/
def loaded (sb : Superblock) (disk : Blocks) : Volume :=
  { sb, bitmap := sb.loadedBitmap disk, bitmapDirty := fun _ => false, inodes := sb.loadedInodes disk }

end Superblock

/-- What is read into memory. -/
def loadedVolume (disk : Blocks) : Volume := (superblockSector.symm (disk 0)).loaded disk

theorem exec_loadBitmap {start : UInt32} (sectors : List Nat)
    (inside : ∀ i ∈ sectors, (start + UInt32.ofNat i).toNat < count) (vol : Volume)
    (starts : vol.sb.bitmapStart = start) :
    Prog.exec (plainDevice count) (loadBitmap sectors) (vol, disk) =
      (.ok (), { vol with
        bitmap := fun k =>
          if k / 4096 ∈ sectors then disk (start + UInt32.ofNat (k / 4096)) (Fin.ofNat 4096 k)
          else vol.bitmap k }, disk) := by
  induction sectors generalizing vol with
  | nil =>
    rw [loadBitmap]
    simp
  | cons i rest ih =>
    rw [loadBitmap, Prog.exec_bind_ok (Prog.exec_get _ _)]
    dsimp only
    rw [starts, Prog.exec_bind_ok (exec_readBlock (inside i List.mem_cons_self)),
      Prog.exec_bind_ok (Prog.exec_modify _ _ _)]
    dsimp only
    refine (ih (fun j listed => inside j (List.mem_cons_of_mem _ listed)) _ ?_).trans ?_
    · exact starts
    refine congrArg (fun bitmap => (Except.ok (), { vol with bitmap }, disk)) (funext fun k => ?_)
    dsimp only
    by_cases later : k / 4096 ∈ rest
    · rw [if_pos later, if_pos (List.mem_cons_of_mem _ later)]
    · rw [if_neg later]
      by_cases here : k / 4096 = i
      · rw [if_pos here, if_pos (here ▸ List.mem_cons_self), here]
      · rw [if_neg here, if_neg]
        exact fun listed => (List.mem_cons.1 listed).elim here later

theorem exec_loadInodes {start : UInt32} (sectors : List Nat)
    (inside : ∀ i ∈ sectors, (start + UInt32.ofNat i).toNat < count) (vol : Volume)
    (starts : vol.sb.inodeStart = start) :
    Prog.exec (plainDevice count) (loadInodes sectors) (vol, disk) =
      (.ok (), { vol with
        inodes := fun j =>
          if j.val / 32 ∈ sectors then
            inodesSector.symm (disk (start + UInt32.ofNat (j.val / 32))) (Fin.ofNat 32 j.val)
          else vol.inodes j }, disk) := by
  induction sectors generalizing vol with
  | nil =>
    rw [loadInodes]
    simp
  | cons i rest ih =>
    rw [loadInodes, Prog.exec_bind_ok (Prog.exec_get _ _)]
    dsimp only
    rw [starts, Prog.exec_bind_ok (exec_readBlock (inside i List.mem_cons_self)),
      Prog.exec_bind_ok (Prog.exec_modify _ _ _)]
    dsimp only
    refine (ih (fun j listed => inside j (List.mem_cons_of_mem _ listed)) _ ?_).trans ?_
    · exact starts
    refine congrArg (fun inodes => (Except.ok (), { vol with inodes }, disk)) (funext fun j => ?_)
    dsimp only
    by_cases later : j.val / 32 ∈ rest
    · rw [if_pos later, if_pos (List.mem_cons_of_mem _ later)]
    · rw [if_neg later]
      by_cases here : j.val / 32 = i
      · rw [if_pos here, if_pos (here ▸ List.mem_cons_self), here]
      · rw [if_neg here, if_neg]
        exact fun listed => (List.mem_cons.1 listed).elim here later

/-! ## The checks -/

section Checks

variable {sb : Superblock} (layout : sb.Layout count)
include layout

theorem exec_loadBitmap_all (dirty : Nat → Bool) (inodes : Fin 64 → Inode) :
    Prog.exec (plainDevice count) (loadBitmap (List.range sb.bitmapBlocks.toNat))
        (⟨sb, fun _ => 0, dirty, inodes⟩, disk) =
      (.ok (), ⟨sb, sb.loadedBitmap disk, dirty, inodes⟩, disk) := by
  have inside : ∀ i ∈ List.range sb.bitmapBlocks.toNat,
      (sb.bitmapStart + UInt32.ofNat i).toNat < count := by
    intro i listed
    have small := List.mem_range.1 listed
    have room := layout.room
    have dataStart := layout.dataStart
    rw [layout.bitmapStart_add small]
    omega
  rw [exec_loadBitmap _ inside _ rfl]
  simp only [List.mem_range]
  rfl

theorem exec_loadInodes_all (bitmap : Nat → UInt8) (dirty : Nat → Bool) (inodes : Fin 64 → Inode) :
    Prog.exec (plainDevice count) (loadInodes (List.range sb.inodeBlocks.toNat))
        (⟨sb, bitmap, dirty, inodes⟩, disk) =
      (.ok (), ⟨sb, bitmap, dirty, sb.loadedInodes disk⟩, disk) := by
  have two := layout.inodeBlocks_toNat
  have inside : ∀ i ∈ List.range sb.inodeBlocks.toNat,
      (sb.inodeStart + UInt32.ofNat i).toNat < count := by
    intro i listed
    have small := List.mem_range.1 listed
    have room := layout.room
    have dataStart := layout.dataStart
    rw [layout.inodeStart_add (by omega)]
    omega
  have all : ∀ j : Fin 64, j.val / 32 < 2 := fun j => by omega
  rw [exec_loadInodes _ inside _ rfl]
  simp only [List.mem_range, two, all, if_true]
  rfl

end Checks

/-- The conditions of `denyfs_vol_open` on the blocks of the volume. -/
structure Loadable (crypto : Crypto) (mount : Mount) (disk : Blocks) : Prop where
  superblock : (loadedVolume disk).sb.Plausible mount.volumeSize
  hmac : crypto.hmac mount.hmacKey (loadedVolume disk).bitmapImage =
    (loadedVolume disk).sb.bitmapHmac
  wellFormed : WellFormed mount.blockCount (loadedVolume disk) disk

/-- `denyfs_vol_open` without its first read. -/
def loadRest (crypto : Crypto) (mount : Mount) (sb : Superblock) : Op Unit := do
  modify fun vol => { vol with sb }
  if sb.magic ≠ superblockMagic ∨ validateSuperblock sb mount.volumeSize = false then throw .eperm
  else do
    loadBitmap (List.range sb.bitmapBlocks.toNat)
    let vol ← get
    if crypto.hmac mount.hmacKey vol.bitmapImage ≠ sb.bitmapHmac then throw .eperm
    else do
      loadInodes (List.range sb.inodeBlocks.toNat)
      validateLoadedMetadata

theorem loadVolume_eq (crypto : Crypto) (mount : Mount) :
    loadVolume crypto mount = readBlock 0 >>= fun data =>
      loadRest crypto mount (superblockSector.symm data) := rfl

theorem bitmapImage_congr {sb : Superblock} {bitmap : Nat → UInt8} {dirty dirty' : Nat → Bool}
    {inodes inodes' : Fin 64 → Inode} :
    Volume.bitmapImage ⟨sb, bitmap, dirty, inodes⟩ =
      Volume.bitmapImage ⟨sb, bitmap, dirty', inodes'⟩ := rfl

theorem exec_loadRest (crypto : Crypto) (mount : Mount) (sb : Superblock) (inodes : Fin 64 → Inode)
    (first : Superblock) (disk : Blocks) :
    (sb.Plausible mount.volumeSize ∧
        crypto.hmac mount.hmacKey (sb.loaded disk).bitmapImage = sb.bitmapHmac ∧
        WellFormed mount.blockCount (sb.loaded disk) disk ∧
      Prog.exec (plainDevice mount.blockCount) (loadRest crypto mount sb)
          (⟨first, fun _ => 0, fun _ => false, inodes⟩, disk) =
        (.ok (), sb.loaded disk, disk)) ∨
    (¬(sb.Plausible mount.volumeSize ∧
        crypto.hmac mount.hmacKey (sb.loaded disk).bitmapImage = sb.bitmapHmac ∧
        WellFormed mount.blockCount (sb.loaded disk) disk) ∧
      ∃ error, (Prog.exec (plainDevice mount.blockCount) (loadRest crypto mount sb)
          (⟨first, fun _ => 0, fun _ => false, inodes⟩, disk)).1 = .error error) := by
  unfold loadRest
  rw [Prog.exec_bind_ok (Prog.exec_modify _ _ _)]
  dsimp only
  by_cases likely : sb.Plausible mount.volumeSize
  case neg =>
    have refused : validateSuperblock sb mount.volumeSize = false := by
      rw [← Bool.not_eq_true, validateSuperblock_iff]
      exact likely
    refine .inr ⟨fun accepted => likely accepted.1, .eperm, ?_⟩
    rw [if_pos (.inr refused)]
    rfl
  have layout := likely.layout
  have accepted : ¬(sb.magic ≠ superblockMagic ∨
      validateSuperblock sb mount.volumeSize = false) := by
    rw [not_or, not_not, Bool.not_eq_false, validateSuperblock_iff]
    exact ⟨layout.magic, likely⟩
  have count : mount.blockCount = mount.volumeSize.toNat / 4096 := rfl
  rw [if_neg accepted, count, Prog.exec_bind_ok (exec_loadBitmap_all layout _ _),
    Prog.exec_bind_ok (Prog.exec_get _ _)]
  dsimp only
  have image : Volume.bitmapImage ⟨sb, sb.loadedBitmap disk, fun _ => false, inodes⟩ =
      (sb.loaded disk).bitmapImage := bitmapImage_congr
  rw [image]
  by_cases sealed : crypto.hmac mount.hmacKey (sb.loaded disk).bitmapImage = sb.bitmapHmac
  case neg =>
    refine .inr ⟨fun accepted => sealed accepted.2.1, .eperm, ?_⟩
    rw [if_pos sealed]
    rfl
  rw [if_neg (not_not_intro sealed), Prog.exec_bind_ok (exec_loadInodes_all layout _ _ _)]
  have valid : Returns (mount.volumeSize.toNat / 4096) (sb.loaded disk) disk
      validateLoadedMetadata () ↔ WellFormed (mount.volumeSize.toNat / 4096) (sb.loaded disk) disk :=
    validateLoadedMetadata_returns disk layout
  have unchanged : (Prog.exec (plainDevice (mount.volumeSize.toNat / 4096)) validateLoadedMetadata
      (sb.loaded disk, disk)).2 = (sb.loaded disk, disk) :=
    exec_passive validateLoadedMetadata_simple.passive
  unfold Superblock.loaded at *
  unfold Returns at valid
  cases outcome : (Prog.exec (plainDevice (mount.volumeSize.toNat / 4096)) validateLoadedMetadata
    (⟨sb, sb.loadedBitmap disk, fun _ => false, sb.loadedInodes disk⟩, disk)).1 with
  | ok value =>
    exact .inl ⟨likely, sealed, valid.1 (Prod.ext outcome unchanged), Prod.ext outcome unchanged⟩
  | error error =>
    refine .inr ⟨fun accepted => ?_, error, rfl⟩
    rw [valid.2 accepted.2.2] at outcome
    cases outcome

/-- Loading succeeds exactly on what is loadable, and yields what the blocks say. -/
theorem exec_loadVolume (crypto : Crypto) (mount : Mount) (disk : Blocks) :
    (Loadable crypto mount disk ∧
      Prog.exec (plainDevice mount.blockCount) (loadVolume crypto mount) (zeroedVolume, disk) =
        (.ok (), loadedVolume disk, disk)) ∨
    (¬Loadable crypto mount disk ∧ ∃ error,
      (Prog.exec (plainDevice mount.blockCount) (loadVolume crypto mount)
        (zeroedVolume, disk)).1 = .error error) := by
  rw [loadVolume_eq]
  by_cases some : 0 < mount.blockCount
  case neg =>
    have fails : Prog.exec (plainDevice mount.blockCount) (readBlock 0) (zeroedVolume, disk) =
        (.error .eperm, zeroedVolume, disk) := by
      rw [Prog.exec_readAt]
      simp only [plainDevice]
      rw [if_neg (by simpa using some)]
    refine .inr ⟨fun loadable => some ?_, .eperm, ?_⟩
    · have := loadable.superblock.blocks
      unfold Mount.blockCount
      omega
    · rw [Prog.exec_bind_error fails]
  have first : (0 : UInt32).toNat < mount.blockCount := some
  rw [Prog.exec_bind_ok (exec_readBlock first)]
  cases exec_loadRest crypto mount (superblockSector.symm (disk 0)) zeroedVolume.inodes
    zeroedVolume.sb disk with
  | inl accepted => exact .inl ⟨⟨accepted.1, accepted.2.1, accepted.2.2.1⟩, accepted.2.2.2⟩
  | inr refused =>
    exact .inr ⟨fun loadable =>
      refused.1 ⟨loadable.superblock, loadable.hmac, loadable.wellFormed⟩, refused.2⟩

/-! ## Opening a container -/

section Opening

variable {crypto : Crypto} {mount : Mount}

/-- `denyfs_vol_open` on a container whose I/O does not fail: the volume the headers select,
with the metadata its blocks hold, if these are loadable. -/
theorem volOpen_faultless (container : Disk) (roundTrip : crypto.SectorRoundTrip)
    (password : List UInt8) (hiddenPassword : Option (List UInt8)) (protectHidden : Bool)
    (faultless : container.faults = []) (sized : container.container.WellSized)
    (mounted : container.container.mountFor crypto password hiddenPassword protectHidden =
      some mount) (unprotected : mount.Unprotected) :
    (Loadable crypto mount (mount.blocks crypto container.container) ∧
      volOpen crypto password hiddenPassword protectHidden container =
        (some (mount, loadedVolume (mount.blocks crypto container.container)), container)) ∨
    (¬Loadable crypto mount (mount.blocks crypto container.container) ∧
      (volOpen crypto password hiddenPassword protectHidden container).1 = none) := by
  have placed := mountFor_placed sized mounted
  have decrypts : Decrypts crypto mount container (mount.blocks crypto container.container) :=
    ⟨placed, faultless, rfl⟩
  have big := sized.large
  have whole := sized.sectors
  have same := Prog.exec_simulation (volumeDevice_simulates roundTrip unprotected)
    (loadVolume crypto mount) zeroedVolume decrypts
  rw [volOpen_eq, if_neg (by omega), Disk.ioFails_faultless faultless,
    Disk.afterIo_faultless faultless, Disk.ioFails_faultless faultless,
    Disk.afterIo_faultless faultless, if_neg Bool.false_ne_true, if_neg Bool.false_ne_true, mounted]
  dsimp only
  have kept := loadMount_container crypto mount container
  unfold loadMount at kept ⊢
  cases run : Prog.exec (volumeDevice crypto mount) (loadVolume crypto mount)
    (zeroedVolume, container) with
  | mk result state =>
    obtain ⟨vol, after⟩ := state
    rw [run] at same kept
    obtain ⟨outcome, memory, related⟩ := same
    cases exec_loadVolume crypto mount (mount.blocks crypto container.container) with
    | inl accepted =>
      obtain ⟨loadable, returns⟩ := accepted
      rw [returns] at outcome memory
      dsimp only at outcome memory
      subst outcome memory
      refine .inl ⟨loadable, ?_⟩
      dsimp only at kept ⊢
      have unchanged : after = container := by
        obtain ⟨bytes, faults⟩ := container
        obtain ⟨bytes', faults'⟩ := after
        cases faultless
        cases related.faultless
        cases kept
        rfl
      rw [unchanged]
    | inr refused =>
      obtain ⟨notLoadable, error, fails⟩ := refused
      rw [fails] at outcome
      dsimp only at outcome
      subst outcome
      exact .inr ⟨notLoadable, rfl⟩

/-- Whatever fails on the way: a volume that opens is the one its blocks hold. -/
theorem volOpen_loaded (roundTrip : crypto.SectorRoundTrip) {password : List UInt8}
    {hiddenPassword : Option (List UInt8)} {protectHidden : Bool} {start after : Disk}
    {vol : Volume}
    (opened : volOpen crypto password hiddenPassword protectHidden start =
      (some (mount, vol), after)) :
    after.container = start.container ∧ mount.Placed start.container.size ∧
      vol = loadedVolume (mount.blocks crypto start.container) ∧
      Loadable crypto mount (mount.blocks crypto start.container) := by
  have kept := volOpen_container crypto password hiddenPassword protectHidden start
  rw [opened] at kept
  obtain ⟨sized, mounted, loads⟩ := volOpen_some opened
  have placed := mountFor_placed sized mounted
  have starts : mount.Placed start.afterIo.afterIo.container.size ∧
      mount.blocks crypto start.afterIo.afterIo.container = mount.blocks crypto start.container :=
    ⟨placed, rfl⟩
  obtain ⟨blocks', returns, _, _⟩ := Prog.exec_strict (volumeDevice_weakens mount roundTrip)
    (loadVolume_strict crypto mount) starts loads
  cases exec_loadVolume crypto mount (mount.blocks crypto start.container) with
  | inl accepted =>
    obtain ⟨loadable, same⟩ := accepted
    have equal := returns.symm.trans same
    cases equal
    exact ⟨kept, placed, rfl, loadable⟩
  | inr refused =>
    obtain ⟨_, error, fails⟩ := refused
    have failed := (congrArg Prod.fst returns).symm.trans fails
    cases failed

end Opening

end DenyFS
