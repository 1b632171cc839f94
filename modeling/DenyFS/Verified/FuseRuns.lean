import DenyFS.Verified.FuseCalls

/-! # Requests on an open volume

What `denyfs_vol_open` accepts holds files, and the requests that follow are answered as the
specification of named files says, one after the other.  That needs no more than that the block
requests of the run are served. -/

namespace DenyFS

open Packed BlockProgram SparseFile Refinement

variable {crypto : Crypto} {mount : Mount} {vol : Volume} {disk : Disk}

/-- The container behind an open volume, and the files it shows. -/
structure HoldsFiles (crypto : Crypto) (mount : Mount) (rootTime : UInt64) (state : Volume × Disk)
    (files : FileStore (Image UInt8 4096)) : Prop where
  holds : Holds crypto mount state.1 state.2
  rootTime : (state.1.inodes 0).mtime = rootTime
  files : filesOf state.1 (mount.blocks crypto state.2.container) = files

/-- Every block request of this request is served. -/
def ServesRequest (crypto : Crypto) (mount : Mount) (state : Volume × Disk) (r : Request) : Prop :=
  mount.Serves crypto (serve crypto mount r) state.1 state.2

/-- A served request is the request on the decrypted blocks. -/
theorem request_steady (roundTrip : crypto.SectorRoundTrip)
    (placed : mount.Placed disk.container.size) {r : Request}
    (served : ServesRequest crypto mount (vol, disk) r) :
    let after := request crypto mount (volumeDevice crypto mount) r (vol, disk)
    let plain := request crypto mount (plainDevice mount.blockCount) r
      (vol, mount.blocks crypto disk.container)
    after.1 = plain.1 ∧ after.2.1 = plain.2.1 ∧
      mount.Placed after.2.2.container.size ∧
      mount.blocks crypto after.2.2.container = plain.2.2 :=
  exec_steady roundTrip placed served

/-- One request: the container does what the decrypted blocks do, and these do as specified. -/
theorem request_refines (roundTrip : crypto.SectorRoundTrip) (rootTime : UInt64) :
    Refines (request crypto mount (volumeDevice crypto mount)) (storeSpec imageStore rootTime)
      (ServesRequest crypto mount) (HoldsFiles crypto mount rootTime) := by
  intro r state files before served
  obtain ⟨vol, disk⟩ := state
  obtain ⟨holds, rfl, rfl⟩ := before
  have accords := holds.sound.request_accords crypto mount r
  obtain ⟨answer, memory, placed, blocks⟩ := request_steady roundTrip holds.placed served
  generalize request crypto mount (plainDevice mount.blockCount) r
    (vol, mount.blocks crypto disk.container) = plain at accords answer memory blocks
  refine ⟨filesOf plain.2.1 plain.2.2, ?_, ?_⟩
  · rw [answer]
    exact accords.allowed
  · constructor
    case holds =>
      constructor
      · exact placed
      · rw [memory, blocks]
        exact accords.sound
    case rootTime =>
      rw [memory]
      exact accords.rootTime
    case files => rw [memory, blocks]

/-- Opening shows the files that are on the disk. -/
theorem volOpen_holdsFiles (roundTrip : crypto.SectorRoundTrip) {password : List UInt8}
    {hiddenPassword : Option (List UInt8)} {protectHidden : Bool} {start : Disk}
    (opened : volOpen crypto password hiddenPassword protectHidden start =
      (some (mount, vol), disk)) :
    HoldsFiles crypto mount (vol.inodes 0).mtime (vol, disk)
      (filesOf vol (mount.blocks crypto disk.container)) :=
  ⟨(SteadyReached.opened opened).holds roundTrip, rfl, rfl⟩

/-- On any volume `denyfs_vol_open` accepts, protected or not: as long as no block I/O fails, the
answers to any requests are those of a store of named files, starting with the files on the disk,
and the files in memory and on the disk are at last those of the store. -/
theorem requests_refine_store (roundTrip : crypto.SectorRoundTrip) {password : List UInt8}
    {hiddenPassword : Option (List UInt8)} {protectHidden : Bool} {start : Disk}
    (opened : volOpen crypto password hiddenPassword protectHidden start =
      (some (mount, vol), disk)) (requests : List Request)
    (served : Refinement.MeetsAll (request crypto mount (volumeDevice crypto mount))
      (ServesRequest crypto mount) requests (vol, disk)) :
    let after := runRequests crypto mount (volumeDevice crypto mount) requests (vol, disk)
    Traces (storeSpec imageStore (vol.inodes 0).mtime) requests
      (filesOf vol (mount.blocks crypto disk.container)) after.1
      (filesOf after.2.1 (mount.blocks crypto after.2.2.container)) := by
  intro after
  obtain ⟨files, trace, ends⟩ :=
    (request_refines roundTrip _).run (volOpen_holdsFiles roundTrip opened) served
  have last : filesOf after.2.1 (mount.blocks crypto after.2.2.container) = files := ends.files
  rw [last]
  exact trace

/-- Without protected blocks and faults every request is served. -/
theorem Running.servesAll {base : Container} (roundTrip : crypto.SectorRoundTrip)
    (sized : base.WellSized) (placed : mount.Placed base.size)
    (running : Running crypto mount base vol disk) (requests : List Request) :
    Refinement.MeetsAll (request crypto mount (volumeDevice crypto mount))
      (ServesRequest crypto mount) requests (vol, disk) := by
  induction requests generalizing vol disk with
  | nil => trivial
  | cons r rest ih =>
    constructor
    · exact running.shows.serves roundTrip (serve crypto mount r)
    · exact ih (running.requested roundTrip placed sized r)

def pathA : CString := ⟨[47, 97], by decide⟩

theorem requests_refine_store_small :
    ∃ disk vol, smallContainer 4 = some disk ∧
      volOpen transparentCrypto [1] none false disk =
        (some (outerMount zeroRandomness 4, vol), disk) ∧
      let requests : List Request := [.create 5 pathA, .write 6 pathA [1, 2, 3] 4090,
        .read pathA 10 0, .truncate 7 pathA 4091, .getattr pathA, .unlink pathA, .openFile pathA]
      let after := runRequests transparentCrypto (outerMount zeroRandomness 4)
        (volumeDevice transparentCrypto (outerMount zeroRandomness 4)) requests (vol, disk)
      Traces (storeSpec imageStore (vol.inodes 0).mtime) requests
        (filesOf vol ((outerMount zeroRandomness 4).blocks transparentCrypto disk.container)) after.1
        (filesOf after.2.1
          ((outerMount zeroRandomness 4).blocks transparentCrypto after.2.2.container)) := by
  have positive : 0 < (4 : UInt64).toNat := by decide
  have small : (4 : UInt64).toNat ≤ 1024 := by decide
  obtain ⟨disk, vol, created, faultless, _, opened, _⟩ := smallContainer_opens positive small
  obtain ⟨running, _, sized, placed, _⟩ :=
    Running.opened transparentCrypto_sectors faultless rfl opened
  refine ⟨disk, vol, created, opened, ?_⟩
  exact requests_refine_store transparentCrypto_sectors opened _
    (running.servesAll transparentCrypto_sectors sized placed _)

end DenyFS
