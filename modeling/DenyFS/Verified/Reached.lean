import DenyFS.Verified.Isolation
import DenyFS.Verified.Loading

/-! # States reached on an open volume

A state is reached when `denyfs_vol_open` accepted some container, without a protected range,
and calls followed, with any arguments and any results, while no block I/O failed.  The
container behind it decrypts to a sound image. -/

namespace DenyFS

open Packed BlockProgram Ownership

variable {crypto : Crypto} {mount : Mount} {vol : Volume} {disk : Disk}

inductive Reached (crypto : Crypto) (mount : Mount) : Volume → Disk → Prop where
  | opened {password : List UInt8} {hiddenPassword : Option (List UInt8)} {protectHidden : Bool}
      {start disk : Disk} {vol : Volume} :
    start.faults = [] → mount.protectHidden = false →
    volOpen crypto password hiddenPassword protectHidden start = (some (mount, vol), disk) →
    Reached crypto mount vol disk
  | called {vol : Volume} {disk : Disk} (c : Call) : Reached crypto mount vol disk →
    Reached crypto mount (call crypto mount (volumeDevice crypto mount) c (vol, disk)).2.1
      (call crypto mount (volumeDevice crypto mount) c (vol, disk)).2.2

/-- The blocks a volume shows are those of a plain store, and its image is sound. -/
structure Shows (crypto : Crypto) (mount : Mount) (vol : Volume) (disk : Disk) : Prop where
  unprotected : mount.Unprotected
  decrypts : Decrypts crypto mount disk (mount.blocks crypto disk.container)
  sound : Sound mount.blockCount vol (mount.blocks crypto disk.container)

/-- A call on the container does what it does on the blocks the container shows. -/
theorem call_plain (roundTrip : crypto.SectorRoundTrip) (unprotected : mount.Unprotected)
    (decrypts : Decrypts crypto mount disk (mount.blocks crypto disk.container)) (c : Call)
    (vol : Volume) :
    let after := call crypto mount (volumeDevice crypto mount) c (vol, disk)
    let plain := call crypto mount (plainDevice mount.blockCount) c
      (vol, mount.blocks crypto disk.container)
    after.1 = plain.1 ∧ after.2.1 = plain.2.1 ∧
      mount.blocks crypto after.2.2.container = plain.2.2 ∧
      Decrypts crypto mount after.2.2 (mount.blocks crypto after.2.2.container) := by
  obtain ⟨outcome, memory, related⟩ := Prog.exec_simulation
    (volumeDevice_simulates roundTrip unprotected) (perform crypto mount c) vol decrypts
  exact ⟨outcome, memory, related.blocks, related.placed, related.faultless, rfl⟩

theorem Shows.called (roundTrip : crypto.SectorRoundTrip) (shows : Shows crypto mount vol disk)
    (c : Call) :
    Shows crypto mount (call crypto mount (volumeDevice crypto mount) c (vol, disk)).2.1
      (call crypto mount (volumeDevice crypto mount) c (vol, disk)).2.2 := by
  obtain ⟨_, memory, blocks, decrypts⟩ :=
    call_plain roundTrip shows.unprotected shows.decrypts c vol
  refine ⟨shows.unprotected, decrypts, ?_⟩
  rw [memory, blocks]
  exact (shows.sound.after_call crypto mount c).1

/-- What `denyfs_vol_open` accepts is well formed. -/
theorem volOpen_wellFormed (roundTrip : crypto.SectorRoundTrip) {password : List UInt8}
    {hiddenPassword : Option (List UInt8)} {protectHidden : Bool} {start : Disk}
    (faultless : start.faults = []) (unprotected : mount.Unprotected)
    (opened : volOpen crypto password hiddenPassword protectHidden start =
      (some (mount, vol), disk)) :
    disk = start ∧ mount.Placed start.container.size ∧
      vol = loadedVolume (mount.blocks crypto start.container) ∧
      Loadable crypto mount (mount.blocks crypto start.container) := by
  obtain ⟨_, placed, loaded, loadable⟩ := volOpen_loaded roundTrip opened
  obtain ⟨sized, mounted, _⟩ := volOpen_some opened
  cases volOpen_faultless start roundTrip password hiddenPassword protectHidden faultless sized mounted
    unprotected with
  | inl accepted =>
    have same := congrArg Prod.snd (opened.symm.trans accepted.2)
    exact ⟨same, placed, loaded, loadable⟩
  | inr refused => exact absurd loadable refused.1

theorem Reached.shows (roundTrip : crypto.SectorRoundTrip) (reached : Reached crypto mount vol disk) :
    Shows crypto mount vol disk := by
  induction reached with
  | opened faultless unguarded opened =>
    have unprotected := unprotected_of_flag unguarded
    obtain ⟨rfl, placed, rfl, loadable⟩ :=
      volOpen_wellFormed roundTrip faultless unprotected opened
    exact ⟨unprotected, ⟨placed, faultless, rfl⟩, loadable.wellFormed.sound⟩
  | called c _ ih => exact ih.called roundTrip c

end DenyFS
