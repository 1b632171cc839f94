import DenyFS.Verified.Effects
import DenyFS.Verified.FullFlush

/-! # Mounting without modifying

A run whose calls only read, or are refused for their arguments, leaves the open volume as
`denyfs_vol_open` loaded it.  The flush at its end then encodes again what was decoded, under the
HMAC that was checked, and every byte of the container is what it was. -/

namespace DenyFS

open Packed BlockProgram Ownership

variable {crypto : Crypto} {mount : Mount} {vol : Volume} {disk : Disk} {count : Nat}

/-! ## Encoding what was decoded -/

/-- The inode table encodes back to the blocks it was decoded from. -/
theorem inodeSector_loaded (sb : Superblock) (blocks : Blocks) {i : Nat} (small : i < 2) :
    (sb.loaded blocks).inodeSector i = blocks (sb.inodeStart + UInt32.ofNat i) := by
  unfold Volume.inodeSector
  rw [← inodesSector.apply_symm_apply (blocks (sb.inodeStart + UInt32.ofNat i))]
  refine congrArg inodesSector (funext fun j => ?_)
  have number : (Fin.ofNat 64 (32 * i + j.val)).val = 32 * i + j.val := by
    change (32 * i + j.val) % 64 = 32 * i + j.val
    omega
  have sector : (32 * i + j.val) / 32 = i := by omega
  have index : Fin.ofNat 32 (32 * i + j.val) = j := by
    apply Fin.ext
    change (32 * i + j.val) % 32 = j.val
    omega
  change sb.loadedInodes blocks (Fin.ofNat 64 (32 * i + j.val)) = _
  unfold Superblock.loadedInodes
  rw [number, sector, index]

/-- What was loaded is what the metadata blocks hold. -/
theorem loadedVolume_stored {blocks : Blocks} (layout : (loadedVolume blocks).sb.Layout count) :
    (loadedVolume blocks).Stored blocks := by
  intro block metadata
  have region := layout.dataStart
  by_cases zero : block.toNat = 0
  · have first : block = 0 := UInt32.toNat_inj.1 zero
    rw [Volume.metadataBlock, if_pos zero, first]
    exact (superblockSector.apply_symm_apply (blocks 0)).symm
  · by_cases inBitmap : block.toNat < 1 + (loadedVolume blocks).sb.bitmapBlocks.toNat
    · have small : block.toNat - 1 < (loadedVolume blocks).sb.bitmapBlocks.toNat := by omega
      have here : (loadedVolume blocks).sb.bitmapStart + UInt32.ofNat (block.toNat - 1) = block := by
        rw [← UInt32.toNat_inj, layout.bitmapStart_add small]
        omega
      have sector := loadedVolume_clean_sectors blocks _ small rfl
      rw [here] at sector
      rw [sector, Volume.metadataBlock, if_neg zero, if_pos inBitmap]
    · have small : block.toNat - 1 - (loadedVolume blocks).sb.bitmapBlocks.toNat < 2 := by omega
      have here : (loadedVolume blocks).sb.inodeStart +
          UInt32.ofNat (block.toNat - 1 - (loadedVolume blocks).sb.bitmapBlocks.toNat) = block := by
        rw [← UInt32.toNat_inj, layout.inodeStart_add small]
        omega
      have sector := inodeSector_loaded (loadedVolume blocks).sb blocks small
      rw [here] at sector
      rw [Volume.metadataBlock, if_neg zero, if_neg inBitmap]
      exact sector.symm

/-- Under the HMAC it stores, a volume is sealed as it is. -/
theorem Volume.Sealed.sealed_self (hmac : vol.Sealed crypto mount) :
    vol.sealed crypto mount = vol := by
  unfold Volume.Sealed at hmac
  unfold Volume.sealed
  rw [hmac]

/-- A flush of metadata that is on disk, under its HMAC, rewrites every block with itself. -/
theorem FlushedTo.unchanged {blocks after : Blocks} (stored : vol.Stored blocks)
    (hmac : vol.Sealed crypto mount) (layout : vol.sb.Layout count)
    (flushed : FlushedTo crypto mount vol blocks after) : after = blocks := by
  funext block
  have shows := flushed block
  rw [hmac.sealed_self] at shows
  rw [shows]
  split
  next written => exact (stored block ((vol.mem_flushWrites layout block).1 written).1).symm
  next skipped => rfl

/-! ## Calls that modify nothing -/

/-- The call asks for a file of more than 4 GiB. -/
def Call.Oversized : Call → Prop
  | .write _ _ buf offset => maxFileSize < offset.toNat + buf.length
  | .truncate _ _ newSize => maxFileSize < newSize.toNat
  | .lookup _ | .create _ _ | .unlink _ | .read _ _ _ | .readdir | .flush => False

/-- An error that blames the arguments of the call. -/
def Call.ArgumentError (c : Call) (error : Errno) : Prop :=
  error = .einval ∨ error = .eisdir ∨ error = .eexist ∨ error = .enoent ∨
    error = .enospc ∧ c.Oversized

/-- The call only reads, or it is refused for its arguments. -/
def Call.Idle (c : Call) (result : Except Errno Reply) : Prop :=
  match c with
  | .lookup _ | .read _ _ _ | .readdir => True
  | .create _ _ | .unlink _ | .write _ _ _ _ | .truncate _ _ _ =>
    ∃ error, result = .error error ∧ c.ArgumentError error
  | .flush => False

/-- Such a call changes neither the memory nor a block. -/
theorem Sound.idle_unchanged {blocks : Blocks} (sound : Sound count vol blocks) (crypto : Crypto)
    (mount : Mount) {c : Call}
    (idle : c.Idle (call crypto mount (plainDevice count) c (vol, blocks)).1) :
    (call crypto mount (plainDevice count) c (vol, blocks)).2 = (vol, blocks) := by
  have outcome : CallOutcome count crypto mount vol blocks c
      (call crypto mount (plainDevice count) c (vol, blocks)) := sound.call_outcome c
  generalize call crypto mount (plainDevice count) c (vol, blocks) = after at idle outcome ⊢
  cases outcome with
  | lookup outcome => cases outcome <;> rfl
  | create outcome =>
    obtain ⟨error, fails, blamed⟩ := idle
    cases outcome with
    | badName _ => rfl
    | taken _ _ _ => rfl
    | noInode _ _ _ => rfl
    | noRoom ino _ _ _ _ _ _ =>
      cases fails
      simp [Call.ArgumentError, Call.Oversized] at blamed
    | created _ _ _ _ _ _ _ _ _ _ _ _ => cases fails
  | unlink outcome =>
    obtain ⟨error, fails, blamed⟩ := idle
    cases outcome with
    | missing _ => rfl
    | removed _ _ _ _ _ _ _ => cases fails
  | read => rfl
  | write outcome =>
    obtain ⟨error, fails, blamed⟩ := idle
    cases outcome with
    | rejected _ _ => rfl
    | written _ _ _ _ _ _ => cases fails
    | full _ _ _ accepted _ _ _ =>
      cases fails
      -- the volume ran full on a request that is not too large
      have sized := (of_writeError_none accepted).2.2
      simp [Call.ArgumentError, Call.Oversized] at blamed
      omega
  | truncate outcome =>
    obtain ⟨error, fails, blamed⟩ := idle
    cases outcome with
    | rejected _ _ => rfl
    | same _ _ => rfl
    | resized _ _ _ _ _ _ _ => cases fails
  | readdir => rfl
  | flush _ _ => exact idle.elim

/-! ## Runs -/

/-- The open volume as it was loaded, over a container whose bytes have not changed. -/
structure Untraced (crypto : Crypto) (mount : Mount) (vol : Volume) (start : Disk)
    (state : Volume × Disk) : Prop where
  memory : state.1 = vol
  blocks : mount.blocks crypto state.2.container = mount.blocks crypto start.container
  faultless : state.2.faults = []
  size : state.2.container.size = start.container.size
  outside : ∀ i < start.container.size, ¬mount.Range i →
    state.2.container.byte i = start.container.byte i

section Run

variable {start : Disk} {state : Volume × Disk} (roundTrip : crypto.SectorRoundTrip)
  (unprotected : mount.Unprotected) (placed : mount.Placed start.container.size)
include roundTrip unprotected placed

/-- A call that leaves the memory and the blocks alone leaves no trace. -/
theorem Untraced.called (untraced : Untraced crypto mount vol start state) {c : Call}
    (quiet : (call crypto mount (plainDevice mount.blockCount) c
      (vol, mount.blocks crypto start.container)).2 =
        (vol, mount.blocks crypto start.container)) :
    Untraced crypto mount vol start
      (call crypto mount (volumeDevice crypto mount) c state).2 := by
  obtain ⟨memory, disk⟩ := state
  obtain ⟨rfl, blocks, faultless, size, outside⟩ := untraced
  dsimp only at blocks faultless size outside
  have here : mount.Placed disk.container.size := by
    rw [size]
    exact placed
  obtain ⟨_, kept, image, decrypts⟩ :=
    call_plain roundTrip unprotected ⟨here, faultless, rfl⟩ c memory
  rw [blocks, quiet] at kept image
  obtain ⟨sized, bytes⟩ := exec_outside crypto memory disk (perform crypto mount c) here
  refine ⟨kept, image, decrypts.faultless, sized.trans size, fun i inFile range => ?_⟩
  rw [← outside i inFile range]
  exact bytes i (by rw [size]; exact inFile) range

/-- A run of idle calls leaves no trace. -/
theorem Untraced.run (sound : Sound mount.blockCount vol (mount.blocks crypto start.container))
    (untraced : Untraced crypto mount vol start state) {calls : List Call}
    (idle : List.Forall₂ Call.Idle calls
      (runCalls crypto mount (volumeDevice crypto mount) calls state).1) :
    Untraced crypto mount vol start
      (runCalls crypto mount (volumeDevice crypto mount) calls state).2 := by
  induction calls generalizing state with
  | nil => exact untraced
  | cons c rest ih =>
    obtain ⟨first, others⟩ := List.forall₂_cons.1 idle
    refine ih (untraced.called roundTrip unprotected placed ?_) others
    apply sound.idle_unchanged crypto mount
    obtain ⟨memory, disk⟩ := state
    obtain ⟨rfl, blocks, faultless, size, _⟩ := untraced
    dsimp only at blocks faultless size
    have here : mount.Placed disk.container.size := by
      rw [size]
      exact placed
    obtain ⟨outcome, _⟩ := call_plain roundTrip unprotected ⟨here, faultless, rfl⟩ c memory
    rw [outcome, blocks] at first
    exact first

end Run

/-- While no block I/O fails: a volume without protected blocks that is opened, used by calls that
only read or are refused for their arguments, and flushed, leaves every byte of the container as
it was.  Closing it writes nothing. -/
theorem mounting_leaves_no_trace (roundTrip : crypto.SectorRoundTrip) (onto : crypto.SectorOnto)
    {password : List UInt8} {hiddenPassword : Option (List UInt8)} {protectHidden : Bool}
    {start : Disk} (faultless : start.faults = []) (unprotected : mount.Unprotected)
    (opened : volOpen crypto password hiddenPassword protectHidden start =
      (some (mount, vol), disk)) {calls : List Call}
    (idle : List.Forall₂ Call.Idle calls
      (runCalls crypto mount (volumeDevice crypto mount) calls (vol, disk)).1) :
    let state := (runCalls crypto mount (volumeDevice crypto mount) calls (vol, disk)).2
    let after := call crypto mount (volumeDevice crypto mount) .flush state
    after.1 = .ok .done ∧ start.container.SameBytes after.2.2.container := by
  intro state after
  obtain ⟨rfl, placed, rfl, loadable⟩ := volOpen_wellFormed roundTrip faultless unprotected opened
  have sound := loadable.wellFormed.sound
  have layout := sound.accounted.layout
  have untraced : Untraced crypto mount _ disk state :=
    Untraced.run roundTrip unprotected placed sound ⟨rfl, rfl, faultless, rfl, fun _ _ _ => rfl⟩ idle
  obtain ⟨image, flushes, flushed⟩ :=
    call_flush_plain crypto mount layout (mount.blocks crypto disk.container)
  have hmac : (loadedVolume (mount.blocks crypto disk.container)).Sealed crypto mount :=
    loadable.hmac
  have unchanged := flushed.unchanged (loadedVolume_stored layout) hmac layout
  have memory : (loadedVolume (mount.blocks crypto disk.container)).flushed crypto mount =
      loadedVolume (mount.blocks crypto disk.container) := by
    unfold Volume.flushed
    rw [hmac.sealed_self]
    rfl
  have quiet : (call crypto mount (plainDevice mount.blockCount) .flush
      (loadedVolume (mount.blocks crypto disk.container), mount.blocks crypto disk.container)).2 =
        (loadedVolume (mount.blocks crypto disk.container), mount.blocks crypto disk.container) := by
    rw [flushes, memory, unchanged]
  have last := untraced.called roundTrip unprotected placed quiet
  have here : mount.Placed state.2.container.size := by
    rw [untraced.size]
    exact placed
  have shows : Shows crypto mount state.1 state.2 := by
    refine ⟨unprotected, ⟨here, untraced.faultless, rfl⟩, ?_⟩
    rw [untraced.memory, untraced.blocks]
    exact sound
  obtain ⟨_, returns⟩ := shows.flushes roundTrip
  constructor
  · exact congrArg Prod.fst returns
  · apply sameBytes_of_blocks onto last.size.symm layout.count_lt placed
    · exact fun block _ => (congrFun last.blocks block).symm
    · exact fun i inFile range => (last.outside i inFile range).symm

/-- Looking around, and calls with a number no inode has. -/
def idleCalls (name : CString) : List Call :=
  [.lookup name, .write 0 64 [7] 0, .readdir, .truncate 0 64 0]

theorem idleCalls_idle {δ : Type} (crypto : Crypto) (mount : Mount)
    (device : Device δ UInt32 Sector Errno) (name : CString) (state : Volume × δ) :
    List.Forall₂ Call.Idle (idleCalls name)
      (runCalls crypto mount device (idleCalls name) state).1 := by
  have refusesWrite : ∀ state : Volume × δ,
      (call crypto mount device (.write 0 64 [7] 0) state).1 = .error .einval := fun _ => rfl
  have refusesTruncate : ∀ state : Volume × δ,
      (call crypto mount device (.truncate 0 64 0) state).1 = .error .einval := fun _ => rfl
  exact .cons trivial (.cons ⟨.einval, refusesWrite _, .inl rfl⟩
    (.cons trivial (.cons ⟨.einval, refusesTruncate _, .inl rfl⟩ .nil)))

theorem mounting_leaves_no_trace_small :
    ∃ disk vol, smallContainer 4 = some disk ∧
      volOpen transparentCrypto [1] none false disk =
        (some (outerMount zeroRandomness 4, vol), disk) ∧
      let state := (runCalls transparentCrypto (outerMount zeroRandomness 4)
        (volumeDevice transparentCrypto (outerMount zeroRandomness 4)) (idleCalls nameA)
        (vol, disk)).2
      let after := call transparentCrypto (outerMount zeroRandomness 4)
        (volumeDevice transparentCrypto (outerMount zeroRandomness 4)) .flush state
      after.1 = .ok .done ∧ disk.container.SameBytes after.2.2.container := by
  have positive : 0 < (4 : UInt64).toNat := by decide
  have small : (4 : UInt64).toNat ≤ 1024 := by decide
  obtain ⟨disk, vol, created, faultless, _, opened, _⟩ := smallContainer_opens positive small
  have unprotected : (outerMount zeroRandomness 4).Unprotected := unprotected_of_flag rfl
  have idle := idleCalls_idle transparentCrypto (outerMount zeroRandomness 4)
    (volumeDevice transparentCrypto (outerMount zeroRandomness 4)) nameA (vol, disk)
  exact ⟨disk, vol, created, opened, mounting_leaves_no_trace transparentCrypto_sectors
    transparentCrypto_onto faultless unprotected opened idle⟩

end DenyFS
