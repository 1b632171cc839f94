import DenyFS.Verified.Ownership

/-! # Runs from a freshly formatted volume

`format_volume` has written a volume, `denyfs_vol_open` has opened it, and calls follow, each of
which meets a condition on its arguments and on the state it starts from. -/

namespace DenyFS

open Packed BlockProgram Ownership

variable {crypto : Crypto} {mount : Mount} {vol : Volume} {disk : Disk}
  {meets : Volume → Blocks → Call → Prop}

/-- A volume that was formatted and opened, without a protected range. -/
structure Fresh (crypto : Crypto) (mount : Mount) (vol : Volume) (disk : Disk) : Prop where
  unguarded : mount.protectHidden = false
  faultless : disk.faults = []
  formats : ∃ (now : UInt64) (before after : Disk), mount.Placed before.container.size ∧
    formatVolume crypto mount.volumeKey mount.hmacKey mount.volumeSize mount.volStartOffset now
      before = (true, after) ∧ after.container = disk.container
  opens : ∃ password hiddenPassword protectHidden,
    volOpen crypto password hiddenPassword protectHidden disk = (some (mount, vol), disk)

theorem Fresh.reached (fresh : Fresh crypto mount vol disk) : Reached crypto mount vol disk := by
  obtain ⟨password, hiddenPassword, protectHidden, opened⟩ := fresh.opens
  exact .opened fresh.faultless fresh.unguarded opened

/-- Its blocks hold the image that `format_volume` builds. -/
theorem Fresh.formatted (roundTrip : crypto.SectorRoundTrip)
    (fresh : Fresh crypto mount vol disk) :
    Formattable mount.volumeSize ∧ vol = loadedVolume (mount.blocks crypto disk.container) ∧
      ∃ now, Formatted (formatImage crypto mount.hmacKey mount.volumeSize now)
        (mount.blocks crypto disk.container) := by
  obtain ⟨now, before, after, placed, written, same⟩ := fresh.formats
  obtain ⟨password, hiddenPassword, protectHidden, opened⟩ := fresh.opens
  have ends := formatVolume_formatted roundTrip fresh.unguarded placed (congrArg Prod.fst written)
  rw [written] at ends
  obtain ⟨formattable, _, formatted, _⟩ := ends
  dsimp only at formatted
  rw [same] at formatted
  obtain ⟨_, _, loaded, _⟩ := volOpen_wellFormed roundTrip fresh.faultless
    (unprotected_of_flag fresh.unguarded) opened
  exact ⟨formattable, loaded, now, formatted⟩

/-- The states of a run from a fresh volume whose calls all meet a condition. -/
inductive FreshWhile (crypto : Crypto) (mount : Mount) (meets : Volume → Blocks → Call → Prop) :
    Volume → Disk → Prop where
  | fresh {vol : Volume} {disk : Disk} : Fresh crypto mount vol disk →
    FreshWhile crypto mount meets vol disk
  | called {vol : Volume} {disk : Disk} (c : Call) : FreshWhile crypto mount meets vol disk →
    meets vol (mount.blocks crypto disk.container) c →
    FreshWhile crypto mount meets (call crypto mount (volumeDevice crypto mount) c (vol, disk)).2.1
      (call crypto mount (volumeDevice crypto mount) c (vol, disk)).2.2

theorem FreshWhile.reached (run : FreshWhile crypto mount meets vol disk) :
    Reached crypto mount vol disk := by
  induction run with
  | fresh fresh => exact fresh.reached
  | called c _ _ ih => exact ih.called c

/-- What holds of fresh volumes and is kept by every call that meets the condition, on the
blocks the container shows, holds in every state of such a run. -/
theorem FreshWhile.invariant (roundTrip : crypto.SectorRoundTrip)
    {holds : Volume → Blocks → Prop}
    (starts : ∀ vol disk, Fresh crypto mount vol disk →
      holds vol (mount.blocks crypto disk.container))
    (kept : ∀ vol blocks c, Sound mount.blockCount vol blocks → holds vol blocks →
      meets vol blocks c →
      holds (call crypto mount (plainDevice mount.blockCount) c (vol, blocks)).2.1
        (call crypto mount (plainDevice mount.blockCount) c (vol, blocks)).2.2)
    (run : FreshWhile crypto mount meets vol disk) :
    holds vol (mount.blocks crypto disk.container) := by
  induction run with
  | fresh fresh => exact starts _ _ fresh
  | @called vol disk c before met ih =>
    have shows := before.reached.shows roundTrip
    obtain ⟨_, memory, image, _⟩ := call_plain roundTrip shows.unprotected shows.decrypts c vol
    rw [memory, image]
    exact kept vol _ c shows.sound ih met

theorem smallContainer_fresh {sizeMb : UInt64} (positive : 0 < sizeMb.toNat)
    (small : sizeMb.toNat ≤ 1024) :
    ∃ disk vol, smallContainer sizeMb = some disk ∧
      Fresh transparentCrypto (outerMount zeroRandomness sizeMb) vol disk ∧
      OpenedNew transparentCrypto (outerMount zeroRandomness sizeMb) vol disk := by
  obtain ⟨disk, vol, created, faultless, _, opened, asNew⟩ := smallContainer_opens positive small
  obtain ⟨_, _, _, before, placed, formats⟩ :=
    containerCreate_some transparentCrypto_sectors created
  exact ⟨disk, vol, created, ⟨rfl, faultless, ⟨0, before, disk, placed, formats, rfl⟩,
    [1], none, false, opened⟩, asNew⟩

/-- The first file of a small container. -/
theorem smallContainer_newFile :
    ∃ disk vol, ∃ ino : Fin 64, smallContainer 4 = some disk ∧
      Fresh transparentCrypto (outerMount zeroRandomness 4) vol disk ∧ ino ≠ 0 ∧
      let after := call transparentCrypto (outerMount zeroRandomness 4)
        (volumeDevice transparentCrypto (outerMount zeroRandomness 4)) (.create 0 nameA) (vol, disk)
      after.1 = .ok (.ino (UInt32.ofNat ino.val)) ∧
      (after.2.1.inodes ino).type = itypeFile ∧
      fileView (after.2.1.inodes ino) ((outerMount zeroRandomness 4).blocks transparentCrypto
        after.2.2.container) = blankView ∧
      after.2.1.sb.freeBlocks.toNat = 507 := by
  have positive : 0 < (4 : UInt64).toNat := by decide
  have small : (4 : UInt64).toNat ≤ 1024 := by decide
  obtain ⟨disk, vol, created, fresh, asNew⟩ := smallContainer_fresh positive small
  obtain ⟨ino, named, nonzero, file, blank, free, _⟩ :=
    asNew.new_file transparentCrypto_sectors fresh.reached 0 nameA_valid
  refine ⟨disk, vol, ino, created, fresh, nonzero, named, file, blank, ?_⟩
  rw [free]
  exact asNew.free_small

end DenyFS
