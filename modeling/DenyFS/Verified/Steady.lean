import DenyFS.Library.Served
import DenyFS.Verified.Reached

/-! # Runs whose block I/O did not fail

A mount may have a protected range and a disk may have faults to come.  What counts is that
every request a run made for a block of the volume was served; then the run is the one on a
plain store of the decrypted blocks. -/

namespace DenyFS

open Packed BlockProgram

variable {crypto : Crypto} {mount : Mount} {vol : Volume} {disk : Disk} {α : Type}

/-- The container decrypts to a sound image of the open volume. -/
structure Holds (crypto : Crypto) (mount : Mount) (vol : Volume) (disk : Disk) : Prop where
  placed : mount.Placed disk.container.size
  sound : Sound mount.blockCount vol (mount.blocks crypto disk.container)

/-- Every request of the program for a block of the volume is served. -/
def Mount.Serves (crypto : Crypto) (mount : Mount) (program : Op α) (vol : Volume) (disk : Disk) :
    Prop := Prog.Served (volumeDevice crypto mount) mount.Inside program (vol, disk)

theorem plainDevice_reliable (mount : Mount) :
    Io.Reliable (plainDevice mount.blockCount) mount.Inside where
  read block disk inside := ⟨disk block, if_pos inside⟩
  write block data disk inside := by
    have inside' : block.toNat < mount.blockCount := inside
    simp only [plainDevice, if_pos inside']

/-- The container against the plain store of its blocks. -/
theorem volumeDevice_approximates (mount : Mount) (roundTrip : crypto.SectorRoundTrip) :
    Io.Approximates (volumeDevice crypto mount) (plainDevice mount.blockCount) mount.Inside
      fun disk blocks =>
        mount.Placed disk.container.size ∧ mount.blocks crypto disk.container = blocks where
  toWeakens := volumeDevice_weakens mount roundTrip
  readOutside block disk blocks outside related := by
    have outside' : ¬block.toNat < mount.blockCount := outside
    rw [read_outside outside]
    simp only [plainDevice, if_neg outside', true_and]
    exact related
  writeOutside block data disk blocks outside related := by
    have outside' : ¬block.toNat < mount.blockCount := outside
    rw [write_outside outside]
    simp only [plainDevice, if_neg outside', true_and]
    exact related

/-- A served run is the run on the decrypted blocks. -/
theorem exec_steady (roundTrip : crypto.SectorRoundTrip) (placed : mount.Placed disk.container.size)
    {program : Op α} (served : mount.Serves crypto program vol disk) :
    let after := Prog.exec (volumeDevice crypto mount) program (vol, disk)
    let plain := Prog.exec (plainDevice mount.blockCount) program
      (vol, mount.blocks crypto disk.container)
    after.1 = plain.1 ∧ after.2.1 = plain.2.1 ∧
      mount.Placed after.2.2.container.size ∧
      mount.blocks crypto after.2.2.container = plain.2.2 :=
  Prog.exec_served (volumeDevice_approximates mount roundTrip) served ⟨placed, rfl⟩

/-- What a program that fails only where a request fails returns, it returns on the decrypted
blocks. -/
theorem exec_returned (roundTrip : crypto.SectorRoundTrip)
    (placed : mount.Placed disk.container.size) {program : Op α} (strict : Prog.Strict program)
    {value : α} {vol' : Volume} {disk' : Disk}
    (returns : Prog.exec (volumeDevice crypto mount) program (vol, disk) =
      (.ok value, vol', disk')) :
    Prog.exec (plainDevice mount.blockCount) program (vol, mount.blocks crypto disk.container) =
        (.ok value, vol', mount.blocks crypto disk'.container) ∧
      mount.Placed disk'.container.size := by
  have start : mount.Placed disk.container.size ∧
      mount.blocks crypto disk.container = mount.blocks crypto disk.container := ⟨placed, rfl⟩
  obtain ⟨blocks', plain, placed', same⟩ :=
    Prog.exec_strict (volumeDevice_weakens mount roundTrip) strict start returns
  subst same
  exact ⟨plain, placed'⟩

/-- Where nothing is protected and no fault is to come, every run is served. -/
theorem serves_of_decrypts (roundTrip : crypto.SectorRoundTrip) (unprotected : mount.Unprotected)
    {blocks : Blocks} (decrypts : Decrypts crypto mount disk blocks) (program : Op α)
    (vol : Volume) : mount.Serves crypto program vol disk :=
  Io.served_of_simulates (volumeDevice_simulates roundTrip unprotected)
    (plainDevice_reliable mount) (program vol) decrypts

theorem Shows.serves (roundTrip : crypto.SectorRoundTrip) (shows : Shows crypto mount vol disk)
    (program : Op α) : mount.Serves crypto program vol disk :=
  serves_of_decrypts roundTrip shows.unprotected shows.decrypts program vol

theorem Shows.holds (shows : Shows crypto mount vol disk) : Holds crypto mount vol disk :=
  ⟨shows.decrypts.placed, shows.sound⟩

/-! ## Reached states -/

/-- The states of runs on any volume `denyfs_vol_open` accepted, protected or not, with calls of
any kind and any results, as long as every block request of a call was served. -/
inductive SteadyReached (crypto : Crypto) (mount : Mount) : Volume → Disk → Prop where
  | opened {password : List UInt8} {hiddenPassword : Option (List UInt8)} {protectHidden : Bool}
      {start disk : Disk} {vol : Volume} :
    volOpen crypto password hiddenPassword protectHidden start = (some (mount, vol), disk) →
    SteadyReached crypto mount vol disk
  | called {vol : Volume} {disk : Disk} (c : Call) : SteadyReached crypto mount vol disk →
    mount.Serves crypto (perform crypto mount c) vol disk →
    SteadyReached crypto mount (call crypto mount (volumeDevice crypto mount) c (vol, disk)).2.1
      (call crypto mount (volumeDevice crypto mount) c (vol, disk)).2.2

/-- A served call is the call on the decrypted blocks. -/
theorem call_steady (roundTrip : crypto.SectorRoundTrip) (placed : mount.Placed disk.container.size)
    {c : Call} (served : mount.Serves crypto (perform crypto mount c) vol disk) :
    let after := call crypto mount (volumeDevice crypto mount) c (vol, disk)
    let plain := call crypto mount (plainDevice mount.blockCount) c
      (vol, mount.blocks crypto disk.container)
    after.1 = plain.1 ∧ after.2.1 = plain.2.1 ∧
      mount.Placed after.2.2.container.size ∧
      mount.blocks crypto after.2.2.container = plain.2.2 :=
  exec_steady roundTrip placed served

/-- One served call. -/
theorem Holds.called (roundTrip : crypto.SectorRoundTrip) (holds : Holds crypto mount vol disk)
    (c : Call) (served : mount.Serves crypto (perform crypto mount c) vol disk) :
    Holds crypto mount (call crypto mount (volumeDevice crypto mount) c (vol, disk)).2.1
      (call crypto mount (volumeDevice crypto mount) c (vol, disk)).2.2 := by
  obtain ⟨_, memory, placed, blocks⟩ := call_steady roundTrip holds.placed served
  constructor
  · exact placed
  · rw [memory, blocks]
    exact (holds.sound.after_call crypto mount c).1

/-- A whole run: opening establishes the image, whatever was to fail, and calls keep it. -/
theorem SteadyReached.holds (roundTrip : crypto.SectorRoundTrip)
    (reached : SteadyReached crypto mount vol disk) : Holds crypto mount vol disk := by
  induction reached with
  | opened opened =>
    obtain ⟨same, placed, loaded, loadable⟩ := volOpen_loaded roundTrip opened
    constructor
    · rw [same]
      exact placed
    · rw [same, loaded]
      exact loadable.wellFormed.sound
  | called c _ served ih => exact ih.called roundTrip c served

/-- On an unprotected volume without faults to come every run is steady. -/
theorem Reached.steady (roundTrip : crypto.SectorRoundTrip)
    (reached : Reached crypto mount vol disk) : SteadyReached crypto mount vol disk := by
  induction reached with
  | opened _ _ opened => exact .opened opened
  | called c before ih =>
    exact ih.called c ((before.shows roundTrip).serves roundTrip (perform crypto mount c))

end DenyFS
