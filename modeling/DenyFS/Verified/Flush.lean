import DenyFS.Verified.Accounting
import DenyFS.Verified.VolumeDevice

/-! # Flush as a sequence of writes

`denyfs_vol_flush` recomputes the bitmap HMAC and then only writes: the superblock, the bitmap
sectors that are marked dirty, the inode table.  `metadataBlock` is what the blocks before
`data_start` ought to hold; every write of a flush stays with it. -/

namespace DenyFS

open Packed BlockProgram

variable {δ : Type} {count : Nat}

/-! ## The image of the metadata -/

/-- What a block before `data_start` holds when the metadata is on disk. -/
def Volume.metadataBlock (vol : Volume) (block : UInt32) : Sector :=
  if block.toNat = 0 then superblockSector vol.sb
  else if block.toNat < 1 + vol.sb.bitmapBlocks.toNat then vol.bitmapSector (block.toNat - 1)
  else vol.inodeSector (block.toNat - 1 - vol.sb.bitmapBlocks.toNat)

/-- The superblock as a flush writes it. -/
def Volume.sealed (crypto : Crypto) (mount : Mount) (vol : Volume) : Volume :=
  { vol with sb := { vol.sb with bitmapHmac := crypto.hmac mount.hmacKey vol.bitmapImage } }

def Volume.cleaned (vol : Volume) : Volume := { vol with bitmapDirty := fun _ => false }

def Volume.bitmapWrites (vol : Volume) (sectors : List Nat) : List (UInt32 × Sector) :=
  (sectors.filter vol.bitmapDirty).map fun i =>
    (vol.sb.bitmapStart + UInt32.ofNat i, vol.bitmapSector i)

def Volume.inodeWrites (vol : Volume) (sectors : List Nat) : List (UInt32 × Sector) :=
  sectors.map fun i => (vol.sb.inodeStart + UInt32.ofNat i, vol.inodeSector i)

/-- The writes of a flush. -/
def Volume.flushWrites (vol : Volume) : List (UInt32 × Sector) :=
  (0, superblockSector vol.sb) ::
    (vol.bitmapWrites (List.range vol.sb.bitmapBlocks.toNat) ++
      vol.inodeWrites (List.range vol.sb.inodeBlocks.toNat))

/-! ## The loops -/

/-- Writes inside the volume succeed on a device that does not fail. -/
theorem exec_writeAll_plain {σ : Type} (count : Nat) (error : Errno)
    (writes : List (UInt32 × Sector))
    (inside : ∀ write ∈ writes, write.1.toNat < count) (memory : σ) (disk : Blocks) :
    (Prog.exec (plainDevice count) (writeAll error writes) (memory, disk)).1 = .ok () := by
  induction writes generalizing disk with
  | nil => rfl
  | cons write rest ih =>
    obtain ⟨block, data⟩ := write
    have request : Prog.exec (plainDevice count)
        (Prog.writeAt block data : Prog σ UInt32 Sector Errno Unit) (memory, disk) =
          (.ok (), memory, Function.update disk block data) := by
      rw [Prog.exec_writeAt]
      simp only [plainDevice]
      rw [if_pos (inside (block, data) List.mem_cons_self)]
    rw [writeAll, Prog.exec_bind_ok (Prog.exec_elseThrow_ok request _)]
    exact ih (fun write listed => inside write (List.mem_cons_of_mem _ listed)) _

theorem exec_writeAll_memory (device : Device δ UInt32 Sector Errno) (error : Errno)
    (writes : List (UInt32 × Sector)) (vol : Volume) (disk : δ) :
    (Prog.exec device (writeAll error writes) (vol, disk)).2.1 = vol := by
  induction writes generalizing disk with
  | nil => rfl
  | cons write rest ih =>
    obtain ⟨address, data⟩ := write
    rw [writeAll, Prog.exec_bind]
    rcases wrote : device.write address data disk with ⟨result, disk'⟩
    have request : Prog.exec device (Prog.writeAt address data : Op Unit) (vol, disk) =
        (result, vol, disk') := by
      rw [Prog.exec_writeAt, wrote]
    cases result with
    | ok value =>
      rw [Prog.exec_elseThrow_ok request error]
      exact ih disk'
    | error failure => rw [Prog.exec_elseThrow_error request error]

theorem exec_flushBitmap (device : Device δ UInt32 Sector Errno) (sectors : List Nat)
    (vol : Volume) (disk : δ) :
    Prog.exec device (flushBitmap sectors) (vol, disk) =
      Prog.exec device (writeAll .eperm (vol.bitmapWrites sectors)) (vol, disk) := by
  induction sectors generalizing disk with
  | nil => rfl
  | cons i rest ih =>
    rw [flushBitmap, Prog.exec_bind_ok (Prog.exec_get _ _)]
    dsimp only
    cases dirty : vol.bitmapDirty i with
    | false =>
      have skipped : vol.bitmapWrites (i :: rest) = vol.bitmapWrites rest := by
        simp only [Volume.bitmapWrites, List.filter_cons, dirty, Bool.false_eq_true, if_false]
      rw [if_neg Bool.false_ne_true, ih, skipped]
    | true =>
      rw [if_pos rfl, Volume.bitmapWrites, List.filter_cons_of_pos dirty, List.map_cons, writeAll,
        Prog.exec_bind, Prog.exec_bind]
      rcases wrote : device.write (vol.sb.bitmapStart + UInt32.ofNat i) (vol.bitmapSector i) disk
        with ⟨result, disk'⟩
      have request : Prog.exec device (Prog.writeAt (vol.sb.bitmapStart + UInt32.ofNat i)
          (vol.bitmapSector i) : Op Unit) (vol, disk) = (result, vol, disk') := by
        rw [Prog.exec_writeAt, wrote]
      cases result with
      | ok value =>
        rw [Prog.exec_elseThrow_ok request .eperm]
        exact ih disk'
      | error failure => rw [Prog.exec_elseThrow_error request .eperm]

theorem exec_flushInodes (device : Device δ UInt32 Sector Errno) (sectors : List Nat)
    (vol : Volume) (disk : δ) :
    Prog.exec device (flushInodes sectors) (vol, disk) =
      Prog.exec device (writeAll .eperm (vol.inodeWrites sectors)) (vol, disk) := by
  induction sectors generalizing disk with
  | nil => rfl
  | cons i rest ih =>
    rw [flushInodes, Prog.exec_bind_ok (Prog.exec_get _ _), Volume.inodeWrites, List.map_cons,
      writeAll, Prog.exec_bind, Prog.exec_bind]
    dsimp only
    rcases wrote : device.write (vol.sb.inodeStart + UInt32.ofNat i) (vol.inodeSector i) disk
      with ⟨result, disk'⟩
    have request : Prog.exec device (Prog.writeAt (vol.sb.inodeStart + UInt32.ofNat i)
        (vol.inodeSector i) : Op Unit) (vol, disk) = (result, vol, disk') := by
      rw [Prog.exec_writeAt, wrote]
    cases result with
    | ok value =>
      rw [Prog.exec_elseThrow_ok request .eperm]
      exact ih disk'
    | error failure => rw [Prog.exec_elseThrow_error request .eperm]

/-- A flush is its sequence of writes; the dirty flags are cleared only where all succeed. -/
theorem exec_volFlush (crypto : Crypto) (mount : Mount) (device : Device δ UInt32 Sector Errno)
    (vol : Volume) (disk : δ) :
    Prog.exec device (volFlush crypto mount) (vol, disk) =
      match Prog.exec device (writeAll .eperm (vol.sealed crypto mount).flushWrites)
          (vol.sealed crypto mount, disk) with
      | (.ok _, vol', disk') => (.ok (), vol'.cleaned, disk')
      | (.error error, vol', disk') => (.error error, vol', disk') := by
  rw [volFlush, Prog.exec_bind_ok (Prog.exec_modify _ _ _)]
  dsimp only
  have self : ({ vol with sb := { vol.sb with
      bitmapHmac := crypto.hmac mount.hmacKey vol.bitmapImage } } : Volume) =
      vol.sealed crypto mount := rfl
  rw [self, Prog.exec_bind_ok (Prog.exec_get _ _)]
  generalize vol.sealed crypto mount = sealed
  dsimp only
  rw [Volume.flushWrites, writeAll, Prog.exec_bind, Prog.exec_bind]
  rcases superblock : device.write 0 (superblockSector sealed.sb) disk with ⟨result, disk'⟩
  have request : Prog.exec device (Prog.writeAt 0 (superblockSector sealed.sb) : Op Unit)
      (sealed, disk) = (result, sealed, disk') := by
    rw [Prog.exec_writeAt, superblock]
  cases result with
  | error failure => rw [Prog.exec_elseThrow_error request .eperm]
  | ok value =>
    rw [Prog.exec_elseThrow_ok request .eperm]
    dsimp only
    rw [writeAll_append, Prog.exec_bind, Prog.exec_bind, exec_flushBitmap]
    have kept := exec_writeAll_memory device .eperm
      (sealed.bitmapWrites (List.range sealed.sb.bitmapBlocks.toNat)) sealed disk'
    rcases bitmap : Prog.exec device (writeAll .eperm
      (sealed.bitmapWrites (List.range sealed.sb.bitmapBlocks.toNat))) (sealed, disk') with
      ⟨result, vol', disk''⟩
    rw [bitmap] at kept
    obtain rfl : vol' = sealed := kept
    cases result with
    | error failure => rfl
    | ok value =>
      dsimp only
      rw [Prog.exec_bind, exec_flushInodes]
      rcases Prog.exec device (writeAll .eperm
        (vol'.inodeWrites (List.range vol'.sb.inodeBlocks.toNat))) (vol', disk'') with
        ⟨result, vol'', disk₃⟩
      cases result with
      | error failure => rfl
      | ok value => rfl

/-! ## The writes stay with the image -/

namespace Superblock.Layout

variable {sb : Superblock}

theorem bitmapStart_add (layout : sb.Layout count) {i : Nat} (small : i < sb.bitmapBlocks.toNat) :
    (sb.bitmapStart + UInt32.ofNat i).toNat = 1 + i := by
  have start := layout.dataStart_le
  have region := layout.dataStart
  rw [layout.bitmapStart, UInt32.toNat_add, UInt32.toNat_ofNat']
  have one : (1 : UInt32).toNat = 1 := rfl
  rw [one]
  omega

theorem inodeStart_add (layout : sb.Layout count) {i : Nat} (small : i < 2) :
    (sb.inodeStart + UInt32.ofNat i).toNat = 1 + sb.bitmapBlocks.toNat + i := by
  have start := layout.dataStart_le
  have region := layout.dataStart
  rw [UInt32.toNat_add, UInt32.toNat_ofNat', layout.inodeStart]
  omega

theorem inodeBlocks_toNat (layout : sb.Layout count) : sb.inodeBlocks.toNat = 2 := by
  rw [layout.inodeBlocks]
  rfl

end Superblock.Layout

theorem Volume.metadataBlock_bitmap {vol : Volume} (layout : vol.sb.Layout count) {i : Nat}
    (small : i < vol.sb.bitmapBlocks.toNat) :
    vol.metadataBlock (vol.sb.bitmapStart + UInt32.ofNat i) = vol.bitmapSector i := by
  have place := layout.bitmapStart_add small
  rw [metadataBlock, place, if_neg (by omega), if_pos (by omega)]
  congr 1
  omega

theorem Volume.metadataBlock_inode {vol : Volume} (layout : vol.sb.Layout count) {i : Nat}
    (small : i < 2) :
    vol.metadataBlock (vol.sb.inodeStart + UInt32.ofNat i) = vol.inodeSector i := by
  have place := layout.inodeStart_add small
  rw [metadataBlock, place, if_neg (by omega), if_neg (by omega)]
  congr 1
  omega

theorem Volume.flushWrites_image {vol : Volume} (layout : vol.sb.Layout count) :
    ∀ write ∈ vol.flushWrites, write.2 = vol.metadataBlock write.1 := by
  intro write member
  rw [flushWrites, List.mem_cons, List.mem_append] at member
  rcases member with rfl | member | member
  · rw [metadataBlock]
    exact (if_pos rfl).symm
  · obtain ⟨i, listed, rfl⟩ := List.mem_map.1 member
    have small : i < vol.sb.bitmapBlocks.toNat := List.mem_range.1 (List.mem_of_mem_filter listed)
    exact (vol.metadataBlock_bitmap layout small).symm
  · obtain ⟨i, listed, rfl⟩ := List.mem_map.1 member
    rw [layout.inodeBlocks_toNat, List.mem_range] at listed
    exact (vol.metadataBlock_inode layout listed).symm

/-- The addresses a flush writes: everything before `data_start` but the clean part of the
bitmap. -/
theorem Volume.mem_flushWrites {vol : Volume} (layout : vol.sb.Layout count) (block : UInt32) :
    block ∈ vol.flushWrites.map Prod.fst ↔
      block.toNat < vol.sb.dataStart.toNat ∧
        (block.toNat ≠ 0 → block.toNat < 1 + vol.sb.bitmapBlocks.toNat →
          vol.bitmapDirty (block.toNat - 1) = true) := by
  have region := layout.dataStart
  rw [flushWrites, List.map_cons, List.mem_cons, List.map_append, List.mem_append]
  constructor
  · intro member
    rcases member with rfl | member | member
    · have zero : (0 : UInt32).toNat = 0 := rfl
      exact ⟨by rw [zero]; omega, fun nonzero => absurd zero nonzero⟩
    · obtain ⟨write, written, rfl⟩ := List.mem_map.1 member
      obtain ⟨i, filtered, rfl⟩ := List.mem_map.1 written
      obtain ⟨listed, dirty⟩ := List.mem_filter.1 filtered
      have small : i < vol.sb.bitmapBlocks.toNat := List.mem_range.1 listed
      have place := layout.bitmapStart_add small
      dsimp only
      rw [place]
      refine ⟨by omega, fun _ _ => ?_⟩
      rw [Nat.add_sub_cancel_left]
      exact dirty
    · obtain ⟨write, written, rfl⟩ := List.mem_map.1 member
      obtain ⟨i, listed, rfl⟩ := List.mem_map.1 written
      rw [layout.inodeBlocks_toNat, List.mem_range] at listed
      have place := layout.inodeStart_add listed
      dsimp only
      rw [place]
      exact ⟨by omega, fun _ inBitmap => absurd inBitmap (by omega)⟩
  · rintro ⟨metadata, written⟩
    by_cases zero : block.toNat = 0
    · exact .inl (UInt32.toNat_inj.1 zero)
    refine .inr ?_
    by_cases inBitmap : block.toNat < 1 + vol.sb.bitmapBlocks.toNat
    · have small : block.toNat - 1 < vol.sb.bitmapBlocks.toNat := by omega
      have here : vol.sb.bitmapStart + UInt32.ofNat (block.toNat - 1) = block := by
        rw [← UInt32.toNat_inj, layout.bitmapStart_add small]
        omega
      refine .inl (List.mem_map.2 ⟨(block, vol.bitmapSector (block.toNat - 1)), ?_, rfl⟩)
      refine List.mem_map.2 ⟨block.toNat - 1, ?_, by rw [here]⟩
      exact List.mem_filter.2 ⟨List.mem_range.2 small, written zero inBitmap⟩
    · have small : block.toNat - 1 - vol.sb.bitmapBlocks.toNat < 2 := by omega
      have here : vol.sb.inodeStart +
          UInt32.ofNat (block.toNat - 1 - vol.sb.bitmapBlocks.toNat) = block := by
        rw [← UInt32.toNat_inj, layout.inodeStart_add small]
        omega
      refine .inr (List.mem_map.2
        ⟨(block, vol.inodeSector (block.toNat - 1 - vol.sb.bitmapBlocks.toNat)), ?_, rfl⟩)
      refine List.mem_map.2 ⟨block.toNat - 1 - vol.sb.bitmapBlocks.toNat, ?_, by rw [here]⟩
      rw [layout.inodeBlocks_toNat]
      exact List.mem_range.2 small

/-! ## Clean sectors -/

/-- Every bitmap sector that is not marked dirty is on disk. -/
def Volume.Clean (vol : Volume) (disk : Blocks) : Prop :=
  ∀ i < vol.sb.bitmapBlocks.toNat, vol.bitmapDirty i = false →
    disk (vol.sb.bitmapStart + UInt32.ofNat i) = vol.bitmapSector i

/-- All metadata is on disk. -/
def Volume.Stored (vol : Volume) (disk : Blocks) : Prop :=
  ∀ block : UInt32, block.toNat < vol.sb.dataStart.toNat → disk block = vol.metadataBlock block

/-- A flush that starts with clean sectors on disk leaves all metadata on disk. -/
theorem Volume.Clean.stored {vol : Volume} {disk disk' : Blocks} (layout : vol.sb.Layout count)
    (clean : vol.Clean disk)
    (shows : ∀ block, disk' block =
      if block ∈ vol.flushWrites.map Prod.fst then vol.metadataBlock block else disk block) :
    vol.Stored disk' := by
  intro block metadata
  rw [shows block]
  split
  · rfl
  next skipped =>
  -- the only metadata blocks a flush passes over are clean bitmap sectors
  rw [vol.mem_flushWrites layout] at skipped
  simp only [metadata, true_and, not_forall, Bool.not_eq_true] at skipped
  obtain ⟨nonzero, inBitmap, notDirty⟩ := skipped
  have small : block.toNat - 1 < vol.sb.bitmapBlocks.toNat := by omega
  have here : vol.sb.bitmapStart + UInt32.ofNat (block.toNat - 1) = block := by
    rw [← UInt32.toNat_inj, layout.bitmapStart_add small]
    omega
  have onDisk := clean _ small notDirty
  rw [here] at onDisk
  rw [onDisk, ← vol.metadataBlock_bitmap layout small, here]

/-! ## Flushes that fail -/

/-- A flush succeeds where the schedule lets all its writes through. -/
theorem exec_volFlush_faulty (crypto : Crypto) (mount : Mount) {vol : Volume}
    (layout : vol.sb.Layout count) (disk : Blocks) (schedule : Schedule Errno) :
    (Prog.exec (faulty (plainDevice count)) (volFlush crypto mount) (vol, disk, schedule)).1 =
        .ok () ↔
      ∀ n < vol.flushWrites.length, fate schedule.writes n = none := by
  have layout' : (vol.sealed crypto mount).sb.Layout count := layout.of_same rfl
  have many : (vol.sealed crypto mount).flushWrites.length = vol.flushWrites.length := by
    simp [Volume.flushWrites, Volume.bitmapWrites, Volume.inodeWrites, Volume.sealed]
  have served : ∀ write ∈ (vol.sealed crypto mount).flushWrites, ∀ disk,
      ((plainDevice count).write write.1 write.2 disk).1 = .ok () := by
    intro write listed disk
    have metadata := ((vol.sealed crypto mount).mem_flushWrites layout' write.1).1
      (List.mem_map_of_mem listed)
    have inside : write.1.toNat < count := by
      have := layout'.room
      omega
    simp only [plainDevice, if_pos inside]
  have writes := faulty_writeAll Errno.eperm served (vol.sealed crypto mount) disk schedule
  rw [exec_volFlush, ← many, ← writes]
  cases Prog.exec (faulty (plainDevice count))
      (writeAll Errno.eperm (vol.sealed crypto mount).flushWrites)
      (vol.sealed crypto mount, disk, schedule) with
  | mk result state =>
    cases result with
    | ok value => simp
    | error failure => simp

/-- Whatever becomes of a flush, the counter of free inodes stays. -/
theorem exec_volFlush_freeInodes (crypto : Crypto) (mount : Mount)
    (device : Device δ UInt32 Sector Errno) (vol : Volume) (disk : δ) :
    (Prog.exec device (volFlush crypto mount) (vol, disk)).2.1.sb.freeInodes =
      vol.sb.freeInodes := by
  have memory := exec_writeAll_memory device .eperm (vol.sealed crypto mount).flushWrites
    (vol.sealed crypto mount) disk
  rw [exec_volFlush]
  cases run : Prog.exec device (writeAll Errno.eperm (vol.sealed crypto mount).flushWrites)
      (vol.sealed crypto mount, disk) with
  | mk result state =>
    rw [run] at memory
    cases result with
    | ok value =>
      dsimp only [Volume.cleaned] at memory ⊢
      rw [memory]
      rfl
    | error failure =>
      dsimp only at memory ⊢
      rw [memory]
      rfl

end DenyFS
