import DenyFS.Verified.BitmapFlush
import DenyFS.Verified.FreshRuns

/-! # What a flush leaves in the container

`denyfs_vol_flush` writes the bitmap sectors that are marked dirty.  Whatever failed before, it
leaves the container it would leave if it wrote all of them, and it rewrites nothing where
nothing has changed. -/

namespace DenyFS

open Packed BlockProgram

variable {crypto : Crypto} {mount : Mount} {vol : Volume} {disk : Disk}

/-- The two files hold the same bytes. -/
def Container.SameBytes (first second : Container) : Prop :=
  first.size = second.size ∧ ∀ i < first.size, first.byte i = second.byte i

/-- Where encrypting inverts decrypting, the bytes of a volume are determined by what its blocks
decrypt to. -/
theorem sameBytes_of_blocks (onto : crypto.SectorOnto) {first second : Container}
    (size : first.size = second.size) (small : mount.blockCount < 2 ^ 32)
    (placed : mount.Placed first.size)
    (blocks : ∀ block, mount.Inside block →
      mount.blocks crypto first block = mount.blocks crypto second block)
    (outside : ∀ i < first.size, ¬mount.Range i → first.byte i = second.byte i) :
    first.SameBytes second := by
  refine ⟨size, fun i inFile => ?_⟩
  by_cases range : mount.Range i
  case neg => exact outside i inFile range
  obtain ⟨lower, upper⟩ := range
  have sized := placed.sized
  have inside : (i - mount.volStartOffset.toNat) / 4096 < mount.blockCount := by
    unfold Mount.blockCount
    omega
  have number : (UInt32.ofNat ((i - mount.volStartOffset.toNat) / 4096)).toNat =
      (i - mount.volStartOffset.toNat) / 4096 := UInt32.toNat_ofNat_of_lt' (lt_trans inside small)
  have within : mount.Inside (UInt32.ofNat ((i - mount.volStartOffset.toNat) / 4096)) := by
    unfold Mount.Inside
    rw [number]
    exact inside
  have same := blocks _ within
  unfold Mount.Inside at within
  simp only [Mount.blocks, if_pos within] at same
  have sector := congrArg (crypto.xtsEncrypt mount.volumeKey
    (UInt32.ofNat ((i - mount.volStartOffset.toNat) / 4096)).toUInt64) same
  rw [onto, onto, number] at sector
  have byte := congrFun sector (Fin.ofNat 4096 (i - mount.volStartOffset.toNat))
  have place : mount.volStartOffset.toNat + (i - mount.volStartOffset.toNat) / 4096 * 4096 +
      (i - mount.volStartOffset.toNat) % 4096 = i := by omega
  change first.byte (_ + (i - mount.volStartOffset.toNat) % 4096) =
    second.byte (_ + (i - mount.volStartOffset.toNat) % 4096) at byte
  rw [place] at byte
  exact byte

variable (crypto vol disk) in
/-- Requests for the blocks of a volume touch no byte outside its range. -/
theorem exec_outside {α : Type} (program : Op α) (placed : mount.Placed disk.container.size) :
    let after := (Prog.exec (volumeDevice crypto mount) program (vol, disk)).2.2
    after.container.size = disk.container.size ∧
      ∀ i < disk.container.size, ¬mount.Range i →
        after.container.byte i = disk.container.byte i := by
  have confined := Prog.exec_frame (volumeDevice crypto mount) Mount.Confines.refl
    Mount.Confines.trans (fun address disk => mount.confines_read crypto address disk)
    (fun address data disk => mount.confines_write crypto address data disk) program (vol, disk)
    placed
  refine ⟨confined.1, fun i inFile outside => confined.2 i inFile fun writable => ?_⟩
  exact outside ⟨writable.1, writable.2.1⟩

/-! ## The full flush -/

def Mount.unguarded (mount : Mount) : Mount := { mount with protectHidden := false }

def Volume.allDirty (vol : Volume) : Volume := { vol with bitmapDirty := fun _ => true }

def Disk.served (disk : Disk) : Disk := { disk with faults := [] }

/-- The flush that writes every bitmap sector, to a container that serves every request. -/
def fullFlush (crypto : Crypto) (mount : Mount) (vol : Volume) (disk : Disk) :
    Except Errno Reply × (Volume × Disk) :=
  call crypto mount.unguarded (volumeDevice crypto mount.unguarded) .flush
    (vol.allDirty, disk.served)

theorem Mount.Placed.unguarded {size : Nat} (placed : mount.Placed size) :
    mount.unguarded.Placed size :=
  ⟨placed.sized, placed.aligned, placed.afterHeader, placed.beforeTail, placed.small⟩

theorem call_flush_plain {count : Nat} (crypto : Crypto) (mount : Mount)
    (layout : vol.sb.Layout count) (blocks : Blocks) :
    ∃ after, call crypto mount (plainDevice count) .flush (vol, blocks) =
        (.ok .done, vol.flushed crypto mount, after) ∧
      FlushedTo crypto mount vol blocks after := by
  obtain ⟨after, flushes, shows⟩ := exec_volFlush_plain crypto mount layout blocks
  refine ⟨after, ?_, shows⟩
  unfold call
  rw [perform, Prog.exec_bind_pure, flushes]
  rfl

/-- Where no request fails, neither does the flush. -/
theorem Shows.flushes (shows : Shows crypto mount vol disk) (roundTrip : crypto.SectorRoundTrip) :
    ∃ after, call crypto mount (volumeDevice crypto mount) .flush (vol, disk) =
      (.ok .done, after) := by
  obtain ⟨outcome, _⟩ := call_plain roundTrip shows.unprotected shows.decrypts .flush vol
  obtain ⟨_, flushes, _⟩ := call_flush_plain crypto mount shows.sound.accounted.layout
    (mount.blocks crypto disk.container)
  rw [flushes] at outcome
  exact ⟨_, Prod.ext outcome rfl⟩

/-- The full flush succeeds, and leaves the metadata blocks as they are in memory and all others
alone. -/
theorem exec_fullFlush (roundTrip : crypto.SectorRoundTrip)
    (placed : mount.Placed disk.container.size) (layout : vol.sb.Layout mount.blockCount) :
    (fullFlush crypto mount vol disk).1 = .ok .done ∧
      ∀ block : UInt32, mount.blocks crypto (fullFlush crypto mount vol disk).2.2.container block =
        if block.toNat < vol.sb.dataStart.toNat then (vol.sealed crypto mount).metadataBlock block
        else mount.blocks crypto disk.container block := by
  have decrypts : Decrypts crypto mount.unguarded disk.served
      (mount.unguarded.blocks crypto disk.served.container) := ⟨placed.unguarded, rfl, rfl⟩
  have unprotected : mount.unguarded.Unprotected := unprotected_of_flag rfl
  have dirtied : vol.allDirty.sb.Layout mount.unguarded.blockCount := layout
  obtain ⟨after, flushes, shows⟩ := call_flush_plain crypto mount.unguarded dirtied
    (mount.unguarded.blocks crypto disk.served.container)
  obtain ⟨outcome, _, image, _⟩ :=
    call_plain roundTrip unprotected decrypts .flush vol.allDirty
  rw [flushes] at outcome image
  refine ⟨outcome, fun block => (congrFun image block).trans ((shows block).trans ?_)⟩
  have written := (vol.allDirty.sealed crypto mount.unguarded).mem_flushWrites
    (layout.of_same rfl) block
  by_cases metadata : block.toNat < vol.sb.dataStart.toNat
  · rw [if_pos metadata, if_pos (written.2 ⟨metadata, fun _ _ => rfl⟩)]
    rfl
  · rw [if_neg metadata, if_neg fun listed => metadata (written.1 listed).1]
    rfl

/-- What the container holds after a flush: the metadata in memory, under its own HMAC, and byte
for byte what the full flush leaves. -/
structure FlushedFully (crypto : Crypto) (mount : Mount) (vol : Volume) (disk disk' : Disk) :
    Prop where
  stored : (vol.sealed crypto mount).Stored (mount.blocks crypto disk'.container)
  hmac : (loadedVolume (mount.blocks crypto disk'.container)).Sealed crypto mount
  full : (fullFlush crypto mount vol disk).1 = .ok .done
  bytes : disk'.container.SameBytes (fullFlush crypto mount vol disk).2.2.container

section Flush

variable {base : Superblock} (roundTrip : crypto.SectorRoundTrip) (onto : crypto.SectorOnto)
  (layout : base.Layout mount.blockCount) (placed : mount.Placed disk.container.size)
  (flushable : Flushable base Unframed vol (mount.blocks crypto disk.container))
include roundTrip onto layout placed flushable

/-- A flush that returns has left what the full flush leaves. -/
theorem Flushable.flushedFully {vol' : Volume} {disk' : Disk}
    (flushed : Prog.exec (volumeDevice crypto mount) (volFlush crypto mount) (vol, disk) =
      (.ok (), vol', disk')) : FlushedFully crypto mount vol disk disk' := by
  have region := layout.of_same flushable.layout
  have outcome := (exec_volFlush_cases (volumeDevice_storage mount roundTrip) layout.unframed crypto
    mount placed flushable).2
  have outside : disk'.container.size = disk.container.size ∧
      ∀ i < disk.container.size, ¬mount.Range i →
        disk'.container.byte i = disk.container.byte i := by
    have touched := exec_outside crypto vol disk (volFlush crypto mount) placed
    rw [flushed] at touched
    exact touched
  rw [flushed] at outcome
  cases outcome with
  | inr fails => cases fails.1
  | inl done =>
    obtain ⟨_, _, _, stored, kept⟩ := done
    obtain ⟨full, shows⟩ := exec_fullFlush roundTrip placed region
    have sealedRegion : (vol.sealed crypto mount).sb.Layout mount.blockCount := region.of_same rfl
    have agrees := stored.loaded sealedRegion
    have other := exec_outside crypto vol.allDirty disk.served
      (perform crypto mount.unguarded .flush) placed.unguarded
    have size : disk'.container.size = (fullFlush crypto mount vol disk).2.2.container.size :=
      outside.1.trans other.1.symm
    refine ⟨stored, ?_, full, sameBytes_of_blocks onto size layout.count_lt ?_
      (fun block _ => ?_) fun i inFile range => ?_⟩
    · unfold Volume.Sealed
      rw [agrees.bitmapImage, agrees.sb]
      rfl
    · rw [outside.1]
      exact placed
    · have start : vol.sb.dataStart = base.dataStart := flushable.layout.dataStart
      rw [shows block]
      by_cases metadata : block.toNat < vol.sb.dataStart.toNat
      · rw [if_pos metadata]
        exact stored block metadata
      · rw [if_neg metadata]
        apply kept block
        unfold Superblock.InData
        rw [UInt32.le_iff_toNat_le, ← start]
        omega
    · rw [outside.1] at inFile
      exact (outside.2 i inFile range).trans (other.2 i inFile range).symm

end Flush

/-! ## The flush inside the operations -/

/-- The calls whose last step is a flush: all but those that only read, and the truncation of a
file to the size it has. -/
def Call.Flushes (vol : Volume) : Call → Prop
  | .create _ _ | .unlink _ | .write _ _ _ _ | .flush => True
  | .truncate _ number newSize => newSize ≠ (vol.inodes (inodeOf number)).size
  | .lookup _ | .read _ _ _ | .readdir => False

section Last

variable {δ : Type} {device : Device δ UInt32 Sector Errno} {inside : UInt32 → Prop}
  {sound : δ → Prop} {view : δ → Blocks} {base : Superblock} {count : Nat}
  (storage : Storage device inside sound view) (fixed : Region base count Unframed)
  (crypto : Crypto) (mount : Mount)
include storage fixed

/-- When it returns, a flush was its last step. -/
abbrev FlushesLast {α : Type} (device : Device δ UInt32 Sector Errno) (sound : δ → Prop)
    (view : δ → Blocks) (base : Superblock) (crypto : Crypto) (mount : Mount) (program : Op α) :
    Prop :=
  EndsWith device sound view (Flushable base Unframed) program (volFlush crypto mount)

omit storage fixed in
theorem flushOrEio_last : FlushesLast device sound view base crypto mount (flushOrEio crypto mount) :=
  EndsWith.self.elseThrow _

theorem volCreate_last (now : UInt64) (name : CString) :
    FlushesLast device sound view base crypto mount (volCreate crypto mount now name) := by
  unfold volCreate
  split
  · exact EndsWith.throw _
  refine EndsWith.bind (keeps_volLookup storage name).attempt fun result _ => ?_
  split
  · exact EndsWith.throw _
  · refine EndsWith.bind keeps_allocInode fun ino notRoot => ?_
    cases ino with
    | none => exact EndsWith.throw _
    | some ino =>
      have notRoot := notRoot ino rfl
      refine EndsWith.bind (keeps_modifyInode fun isRoot => absurd isRoot notRoot) fun _ _ => ?_
      refine EndsWith.bind ((keeps_addDirent storage fixed name _).rollback fun vol disk flushable =>
        ?_) fun _ _ => (flushOrEio_last crypto mount).bind_pure _
      refine Flushable.inodeCounts ?_ _
      exact flushable.setInode fun isRoot => absurd isRoot notRoot
  · exact EndsWith.throw _

theorem volUnlink_last (name : CString) :
    FlushesLast device sound view base crypto mount (volUnlink crypto mount name) := by
  refine EndsWith.bind ((keeps_volLookup storage name).elseThrow _) fun ino range => ?_
  refine EndsWith.bind (keeps_removeDirent storage fixed name) fun _ _ => ?_
  have notRoot := Dirent.ofNat_ino_ne_zero range.1 range.2
  exact EndsWith.bind ((keeps_freeInode storage notRoot).elseThrow _) fun _ _ =>
    flushOrEio_last crypto mount

theorem acceptedWrite_last (now : UInt64) (ino : Fin 64) (buf : List UInt8) (offset : UInt64) :
    FlushesLast device sound view base crypto mount
      (acceptedWrite crypto mount now ino buf offset) := by
  refine EndsWith.bind (keeps_writeChunks storage fixed _ _ _ _) fun _ _ => ?_
  refine EndsWith.bind (keeps_modifyInode fun _ inode => ?_) fun _ _ =>
    (flushOrEio_last crypto mount).bind_pure _
  exact ⟨rfl, fun _ => .inl rfl⟩

theorem volWrite_last (now : UInt64) (number : UInt32) (buf : List UInt8) (offset : UInt64) :
    FlushesLast device sound view base crypto mount
      (volWrite crypto mount now number buf offset) := by
  intro vol disk start flushable value after returns
  cases rejected : writeError vol number buf.length offset with
  | some error =>
    rw [exec_volWrite_rejected device crypto mount now rejected] at returns
    cases returns
  | none =>
    rw [exec_volWrite_accepted device crypto mount now rejected] at returns
    exact acceptedWrite_last storage fixed crypto mount now _ buf offset vol disk start flushable
      value after returns

theorem acceptedTruncate_last (now : UInt64) (ino : Fin 64) {size newSize : UInt64}
    (other : newSize ≠ size) :
    FlushesLast device sound view base crypto mount
      (acceptedTruncate crypto mount now ino size newSize) := by
  unfold acceptedTruncate
  rw [if_neg other]
  refine EndsWith.bind (Keeps.when trivial fun _ => keeps_shrinkFile storage fixed _ _) fun _ _ => ?_
  refine EndsWith.bind (keeps_modifyInode fun _ inode => ?_) fun _ _ => flushOrEio_last crypto mount
  exact ⟨rfl, fun _ => .inl rfl⟩

/-- Where such a call returns, its last step was a flush that succeeded, from a state whose bitmap
is flushable. -/
theorem call_last {disk : δ} (start : sound disk)
    (flushable : Flushable base Unframed vol (view disk)) {c : Call} (flushes : c.Flushes vol)
    {reply : Reply} {after : Volume × δ}
    (returns : call crypto mount device c (vol, disk) = (.ok reply, after)) :
    ∃ vol₀ disk₀, sound disk₀ ∧ Flushable base Unframed vol₀ (view disk₀) ∧
      Prog.exec device (volFlush crypto mount) (vol₀, disk₀) = (.ok (), after) := by
  unfold call at returns
  cases c with
  | lookup _ => exact flushes.elim
  | read _ _ _ => exact flushes.elim
  | readdir => exact flushes.elim
  | create now name =>
    exact ((volCreate_last storage fixed crypto mount now name).bind_pure _) vol disk start flushable
      reply after returns
  | unlink name =>
    exact ((volUnlink_last storage fixed crypto mount name).bind_pure fun _ => Reply.done) vol disk start
      flushable reply after returns
  | flush =>
    have last : FlushesLast device sound view base crypto mount (volFlush crypto mount) :=
      EndsWith.self
    exact (last.bind_pure fun _ => Reply.done) vol disk start flushable reply after returns
  | write now number buf offset =>
    exact ((volWrite_last storage fixed crypto mount now number buf offset).bind_pure _) vol disk
      start flushable reply after returns
  | truncate now number newSize =>
    rw [perform, Prog.exec_bind_pure] at returns
    cases rejected : truncateError vol number newSize with
    | some error =>
      rw [exec_volTruncate_rejected device crypto mount now rejected] at returns
      cases returns
    | none =>
      rw [exec_volTruncate_accepted device crypto mount now rejected] at returns
      have last := acceptedTruncate_last storage fixed crypto mount now (inodeOf number) flushes
      exact (last.bind_pure fun _ => Reply.done) vol disk start flushable reply after
        ((Prog.exec_bind_pure ..).trans returns)

end Last

/-! ## Runs with failures -/

/-- A bitmap sector on disk is the one in memory after loading. -/
theorem loadedVolume_clean_sectors (blocks : Blocks) : (loadedVolume blocks).Clean blocks := by
  intro i small _
  funext k
  have sector : (i * 4096 + k.val) / 4096 = i := by
    have := k.isLt
    omega
  have byte : Fin.ofNat 4096 (i * 4096 + k.val) = k := by
    apply Fin.ext
    change (i * 4096 + k.val) % 4096 = k.val
    have := k.isLt
    omega
  have listed : i < (superblockSector.symm (blocks 0)).bitmapBlocks.toNat := small
  change _ = Superblock.loadedBitmap _ blocks (i * 4096 + k.val)
  unfold Superblock.loadedBitmap
  rw [sector, if_pos listed, byte]
  rfl

/-- Whatever fails while it is opened, the bitmap of an open volume is flushable. -/
theorem opened_flushable (roundTrip : crypto.SectorRoundTrip) {password : List UInt8}
    {hiddenPassword : Option (List UInt8)} {protectHidden : Bool} {start : Disk}
    (opened : volOpen crypto password hiddenPassword protectHidden start =
      (some (mount, vol), disk)) :
    mount.Placed disk.container.size ∧ vol.sb.Layout mount.blockCount ∧
      Flushable vol.sb Unframed vol (mount.blocks crypto disk.container) := by
  obtain ⟨kept, placed, loaded, loadable⟩ := volOpen_loaded roundTrip opened
  rw [← kept] at placed loaded loadable
  have sound := loadable.wellFormed.sound
  have clean := loadedVolume_clean_sectors (mount.blocks crypto disk.container)
  rw [← loaded] at sound clean
  refine ⟨placed, sound.accounted.layout, .refl vol.sb, clean, sound.tree.rootType, fun i => ?_,
    trivial⟩
  by_cases hole : (vol.inodes 0).direct i = invalidBlock
  · exact .inl hole
  · have points : fileRef (vol.inodes 0) (mount.blocks crypto disk.container) (.direct i) =
        some ((vol.inodes 0).direct i) := pointer_of_ne hole
    exact .inr (sound.accounted.allocated_of_fileRef points).1

theorem volFlush_of_call {δ : Type} {device : Device δ UInt32 Sector Errno} {state after : Volume × δ}
    (returns : call crypto mount device .flush state = (.ok .done, after)) :
    Prog.exec device (volFlush crypto mount) state = (.ok (), after) := by
  unfold call at returns
  rw [perform, Prog.exec_bind_pure] at returns
  cases run : Prog.exec device (volFlush crypto mount) state with
  | mk result state' =>
    rw [run] at returns
    cases result with
    | ok value => cases returns; rfl
    | error error => cases returns

/-- Every bitmap sector that is not marked dirty is on disk as it is in memory, and every flush
that returns leaves the container the full flush leaves, whether it is called for itself or as
the last step of an operation. -/
theorem incremental_flush_is_full (roundTrip : crypto.SectorRoundTrip) (onto : crypto.SectorOnto)
    {password : List UInt8} {hiddenPassword : Option (List UInt8)} {protectHidden : Bool}
    {start : Disk}
    (opened : volOpen crypto password hiddenPassword protectHidden start =
      (some (mount, vol), disk)) (calls : List Call) :
    let state := (runCalls crypto mount (volumeDevice crypto mount) calls (vol, disk)).2
    state.1.Clean (mount.blocks crypto state.2.container) ∧
    (∀ after, call crypto mount (volumeDevice crypto mount) .flush state = (.ok .done, after) →
      FlushedFully crypto mount state.1 state.2 after.2) ∧
    ∀ c reply after, c.Flushes state.1 →
      call crypto mount (volumeDevice crypto mount) c state = (.ok reply, after) →
      ∃ vol₀ disk₀, vol₀.Clean (mount.blocks crypto disk₀.container) ∧
        Prog.exec (volumeDevice crypto mount) (volFlush crypto mount) (vol₀, disk₀) =
          (.ok (), after) ∧
        FlushedFully crypto mount vol₀ disk₀ after.2 := by
  intro state
  obtain ⟨placed, layout, flushable⟩ := opened_flushable roundTrip opened
  have storage := volumeDevice_storage mount roundTrip
  obtain ⟨ends, kept⟩ := runCalls_flushable storage layout.unframed crypto mount calls placed
    flushable
  refine ⟨kept.clean, fun after returns => ?_, fun c reply after flushes returns => ?_⟩
  · exact kept.flushedFully roundTrip onto layout ends (volFlush_of_call returns)
  · obtain ⟨vol₀, disk₀, placed₀, flushable₀, flushed⟩ :=
      call_last storage layout.unframed crypto mount ends kept flushes returns
    exact ⟨vol₀, disk₀, flushable₀.clean, flushed,
      flushable₀.flushedFully roundTrip onto layout placed₀ flushed⟩

theorem incremental_flush_is_full_small :
    ∃ disk vol after, smallContainer 4 = some disk ∧
      volOpen transparentCrypto [1] none false disk =
        (some (outerMount zeroRandomness 4, vol), disk) ∧
      let state := (runCalls transparentCrypto (outerMount zeroRandomness 4)
        (volumeDevice transparentCrypto (outerMount zeroRandomness 4)) [.create 0 nameA]
        (vol, disk)).2
      call transparentCrypto (outerMount zeroRandomness 4)
        (volumeDevice transparentCrypto (outerMount zeroRandomness 4)) .flush state =
          (.ok .done, after) ∧
      FlushedFully transparentCrypto (outerMount zeroRandomness 4) state.1 state.2 after.2 := by
  have positive : 0 < (4 : UInt64).toNat := by decide
  have small : (4 : UInt64).toNat ≤ 1024 := by decide
  obtain ⟨disk, vol, created, faultless, _, opened, _⟩ := smallContainer_opens positive small
  have reached : Reached transparentCrypto (outerMount zeroRandomness 4) vol disk :=
    .opened faultless rfl opened
  have shows := (reached.called (.create 0 nameA)).shows transparentCrypto_sectors
  obtain ⟨after, returns⟩ := shows.flushes transparentCrypto_sectors
  obtain ⟨_, flushed, _⟩ := incremental_flush_is_full transparentCrypto_sectors
    transparentCrypto_onto opened [.create 0 nameA]
  exact ⟨disk, vol, after, created, opened, returns, flushed after returns⟩

end DenyFS
