import DenyFS.Verified.Reload

/-! # What `format_volume` writes

`format_volume` writes through `write_block_raw`, which knows neither the size of the volume
nor a protected range.  All the blocks it writes lie inside the volume, so it does what the
same writes through `write_block` would do. -/

namespace DenyFS

open Packed BlockProgram

variable {crypto : Crypto} {mount : Mount}

/-! ## The same writes through `write_block` -/

theorem rawDevice_write (crypto : Crypto) (unguarded : mount.protectHidden = false) {block : UInt32}
    (inside : mount.Inside block) (data : Sector) (disk : Disk) :
    (rawDevice crypto mount.volumeKey mount.volStartOffset).write block data disk =
      (volumeDevice crypto mount).write block data disk := by
  have inVolume : ¬mount.volumeSize / 4096 ≤ block.toUInt64 := by
    rw [block_outside_iff]
    exact Nat.not_le.2 inside
  have open' : ¬mount.protects block = true := by
    unfold Mount.protects
    simp [unguarded]
  change writeBlockRaw crypto mount.volumeKey mount.volStartOffset block data disk =
    writeBlockAt crypto mount block data disk
  unfold writeBlockRaw writeBlockAt
  rw [if_neg inVolume, if_neg open']

theorem writeBlockRaw_error (crypto : Crypto) (key : Bytes 64) (start : UInt64) (block : UInt32)
    (data : Sector) (disk : Disk) :
    (writeBlockRaw crypto key start block data disk).1 = .ok () ∨
      (writeBlockRaw crypto key start block data disk).1 = .error .eperm := by
  unfold writeBlockRaw writeStatus
  dsimp only
  split
  · exact .inr rfl
  split
  · exact .inl rfl
  · exact .inr rfl

/-- One write of `format_volume`; every failure of `write_block_raw` is a plain `-1`. -/
theorem exec_rawWrite (unguarded : mount.protectHidden = false) {block : UInt32}
    (inside : mount.Inside block) (data : Sector) (disk : Disk) :
    Prog.exec (rawDevice crypto mount.volumeKey mount.volStartOffset)
        (Prog.writeAt block data : RawOp Unit) ((), disk) =
      Prog.exec (volumeDevice crypto mount)
        ((Prog.writeAt block data : RawOp Unit).elseThrow .eperm) ((), disk) := by
  have same := rawDevice_write crypto unguarded inside data disk
  have ends := writeBlockRaw_error crypto mount.volumeKey mount.volStartOffset block data disk
  change (((rawDevice crypto mount.volumeKey mount.volStartOffset).write block data disk).1 = _ ∨
    ((rawDevice crypto mount.volumeKey mount.volStartOffset).write block data disk).1 = _) at ends
  rw [same] at ends
  have request : Prog.exec (volumeDevice crypto mount) (Prog.writeAt block data : RawOp Unit)
      ((), disk) = (((volumeDevice crypto mount).write block data disk).1, (),
        ((volumeDevice crypto mount).write block data disk).2) := Prog.exec_writeAt ..
  rw [Prog.exec_writeAt, same]
  cases ends with
  | inl stored =>
    rw [stored] at request ⊢
    rw [Prog.exec_elseThrow_ok request]
  | inr failed =>
    rw [failed] at request ⊢
    rw [Prog.exec_elseThrow_error request]

theorem exec_rawBind {first second : RawOp Unit}
    {rest rest' : RawOp Unit}
    (head : ∀ disk, Prog.exec (rawDevice crypto mount.volumeKey mount.volStartOffset) first
        ((), disk) = Prog.exec (volumeDevice crypto mount) second ((), disk))
    (tail : ∀ disk, Prog.exec (rawDevice crypto mount.volumeKey mount.volStartOffset) rest
        ((), disk) = Prog.exec (volumeDevice crypto mount) rest' ((), disk)) (disk : Disk) :
    Prog.exec (rawDevice crypto mount.volumeKey mount.volStartOffset) (first >>= fun _ => rest)
        ((), disk) =
      Prog.exec (volumeDevice crypto mount) (second >>= fun _ => rest') ((), disk) := by
  rw [Prog.exec_bind, Prog.exec_bind, head disk]
  obtain ⟨result, memory, after⟩ := Prog.exec (volumeDevice crypto mount) second ((), disk)
  cases result with
  | ok value => exact tail after
  | error error => rfl

theorem exec_writeBlocks (unguarded : mount.protectHidden = false) {first : UInt32}
    {contents : Nat → Sector} {indices : List Nat}
    (inside : ∀ i ∈ indices, mount.Inside (first + UInt32.ofNat i)) (disk : Disk) :
    Prog.exec (rawDevice crypto mount.volumeKey mount.volStartOffset)
        (writeBlocks first contents indices) ((), disk) =
      Prog.exec (volumeDevice crypto mount)
        (writeAll Errno.eperm (indices.map fun i => (first + UInt32.ofNat i, contents i)) :
          RawOp Unit) ((), disk) := by
  induction indices generalizing disk with
  | nil => rfl
  | cons i rest ih =>
    have here := inside i List.mem_cons_self
    have later := fun j listed => inside j (List.mem_cons_of_mem _ listed)
    rw [writeBlocks, List.map_cons, writeAll]
    exact exec_rawBind (exec_rawWrite unguarded here _) (ih later) disk

/-- The writes of `format_volume`, in order. -/
def Volume.imageWrites (image : Volume) : List (UInt32 × Sector) :=
  (0, superblockSector image.sb) ::
    (((List.range image.sb.bitmapBlocks.toNat).map fun i =>
        (1 + UInt32.ofNat i, image.bitmapSector i)) ++
      (((List.range image.sb.inodeBlocks.toNat).map fun i =>
          (image.sb.inodeStart + UInt32.ofNat i, image.inodeSector i)) ++
        [(image.sb.dataStart, direntsSector fun _ => emptyDirent)]))

theorem exec_writeAll_append {first second : List (UInt32 × Sector)} (disk : Disk) :
    Prog.exec (volumeDevice crypto mount) (writeAll Errno.eperm (first ++ second) : RawOp Unit)
        ((), disk) =
      Prog.exec (volumeDevice crypto mount)
        ((writeAll Errno.eperm first : RawOp Unit) >>= fun _ => writeAll Errno.eperm second) ((), disk) :=
  writeAll_append Errno.eperm first second ((), disk)

theorem exec_writeImage (unguarded : mount.protectHidden = false) {image : Volume}
    (inside : ∀ write ∈ image.imageWrites, mount.Inside write.1) (disk : Disk) :
    Prog.exec (rawDevice crypto mount.volumeKey mount.volStartOffset) (writeImage image)
        ((), disk) =
      Prog.exec (volumeDevice crypto mount)
        (writeAll Errno.eperm image.imageWrites : RawOp Unit) ((), disk) := by
  have first : mount.Inside 0 := inside _ List.mem_cons_self
  have bitmap : ∀ i ∈ List.range image.sb.bitmapBlocks.toNat, mount.Inside (1 + UInt32.ofNat i) := by
    intro i listed
    refine inside (1 + UInt32.ofNat i, image.bitmapSector i) (List.mem_cons_of_mem _ ?_)
    exact List.mem_append_left _ (List.mem_map_of_mem listed)
  have inodes : ∀ i ∈ List.range image.sb.inodeBlocks.toNat,
      mount.Inside (image.sb.inodeStart + UInt32.ofNat i) := by
    intro i listed
    refine inside (image.sb.inodeStart + UInt32.ofNat i, image.inodeSector i)
      (List.mem_cons_of_mem _ (List.mem_append_right _ ?_))
    exact List.mem_append_left _ (List.mem_map_of_mem listed)
  have root : mount.Inside image.sb.dataStart := by
    refine inside (image.sb.dataStart, direntsSector fun _ => emptyDirent)
      (List.mem_cons_of_mem _ (List.mem_append_right _ (List.mem_append_right _ ?_)))
    exact List.mem_singleton_self _
  unfold writeImage Volume.imageWrites
  rw [writeAll]
  refine exec_rawBind (exec_rawWrite unguarded first _) (fun disk => ?_) disk
  rw [exec_writeAll_append]
  refine exec_rawBind (exec_writeBlocks unguarded bitmap) (fun disk => ?_) disk
  rw [exec_writeAll_append]
  refine exec_rawBind (exec_writeBlocks unguarded inodes) (fun disk => ?_) disk
  rw [exec_rawWrite unguarded root, writeAll, writeAll]
  rw [Prog.exec_bind]
  generalize Prog.exec (volumeDevice crypto mount)
    ((Prog.writeAt image.sb.dataStart (direntsSector fun _ => emptyDirent) : RawOp Unit).elseThrow
      .eperm) ((), disk) = outcome
  obtain ⟨result, memory, after⟩ := outcome
  cases result with
  | ok value => rfl
  | error error => rfl

/-! ## The blocks afterwards -/

/-- What `format_volume` writes into a block. -/
def Volume.imageBlock (image : Volume) (block : UInt32) : Sector :=
  if block = image.sb.dataStart then direntsSector fun _ => emptyDirent
  else image.metadataBlock block

section Image

variable {count : Nat} {image : Volume} (layout : image.sb.Layout count)
include layout

omit layout in
theorem Volume.imageBlock_metadata {block : UInt32}
    (below : block.toNat < image.sb.dataStart.toNat) :
    image.imageBlock block = image.metadataBlock block := by
  refine if_neg fun same => ?_
  rw [same] at below
  exact Nat.lt_irrefl _ below

theorem Volume.mem_imageWrites (write : UInt32 × Sector) (listed : write ∈ image.imageWrites) :
    write.1.toNat ≤ image.sb.dataStart.toNat ∧ write.2 = image.imageBlock write.1 := by
  have dataStart := layout.dataStart
  have one := layout.bitmapStart
  have two := layout.inodeBlocks_toNat
  unfold Volume.imageWrites at listed
  rw [List.mem_cons, List.mem_append, List.mem_append, List.mem_map, List.mem_map,
    List.mem_singleton] at listed
  rcases listed with rfl | ⟨i, inRange, rfl⟩ | ⟨i, inRange, rfl⟩ | rfl
  · have below : (0 : UInt32).toNat < image.sb.dataStart.toNat := by
      change 0 < _
      omega
    exact ⟨Nat.le_of_lt below, (image.imageBlock_metadata below).symm⟩
  · have small := List.mem_range.1 inRange
    have place := layout.bitmapStart_add small
    have stored := image.metadataBlock_bitmap layout small
    rw [one] at place stored
    have below : (1 + UInt32.ofNat i).toNat < image.sb.dataStart.toNat := by omega
    refine ⟨Nat.le_of_lt below, ?_⟩
    rw [image.imageBlock_metadata below]
    exact stored.symm
  · have small : i < 2 := by
      rw [two] at inRange
      exact List.mem_range.1 inRange
    have place := layout.inodeStart_add small
    have below : (image.sb.inodeStart + UInt32.ofNat i).toNat < image.sb.dataStart.toNat := by
      omega
    refine ⟨Nat.le_of_lt below, ?_⟩
    rw [image.imageBlock_metadata below]
    exact (image.metadataBlock_inode layout small).symm
  · exact ⟨Nat.le_refl _, (if_pos rfl).symm⟩

theorem Volume.imageWrites_cover {block : UInt32} (upTo : block.toNat ≤ image.sb.dataStart.toNat) :
    block ∈ image.imageWrites.map Prod.fst := by
  have dataStart := layout.dataStart
  have one := layout.bitmapStart
  have two := layout.inodeBlocks_toNat
  have inodeStart := layout.inodeStart
  unfold Volume.imageWrites
  simp only [List.map_cons, List.map_append, List.map_map, List.map_nil, List.mem_cons,
    List.mem_append, List.mem_map, List.mem_range, Function.comp_apply, List.not_mem_nil, or_false]
  by_cases first : block.toNat = 0
  · exact .inl (UInt32.toNat_inj.1 first)
  by_cases inBitmap : block.toNat < 1 + image.sb.bitmapBlocks.toNat
  · have place := layout.bitmapStart_add (show block.toNat - 1 < _ by omega)
    rw [one] at place
    refine .inr (.inl ⟨block.toNat - 1, by omega, UInt32.toNat_inj.1 ?_⟩)
    omega
  by_cases inTable : block.toNat < image.sb.dataStart.toNat
  · have place := layout.inodeStart_add (show block.toNat - 1 - image.sb.bitmapBlocks.toNat < 2 by omega)
    refine .inr (.inr (.inl ⟨block.toNat - 1 - image.sb.bitmapBlocks.toNat, by omega,
      UInt32.toNat_inj.1 ?_⟩))
    omega
  · exact .inr (.inr (.inr (UInt32.toNat_inj.1 (by omega))))

/-- Once every block is written, the volume is formatted. -/
theorem Volume.formatted_of_writes {disk disk' : Blocks}
    (shows : ∀ block, disk' block =
      if block ∈ image.imageWrites.map Prod.fst then image.imageBlock block else disk block) :
    Formatted image disk' where
  stored := by
    intro block below
    rw [shows, if_pos (image.imageWrites_cover layout (Nat.le_of_lt below)),
      image.imageBlock_metadata below]
  root := by
    rw [shows, if_pos (image.imageWrites_cover layout (Nat.le_refl _))]
    exact if_pos rfl

end Image

/-! ## Writes that do not fail -/

/-- A write of an unprotected block during which no I/O failed. -/
theorem write_untroubled {disk : Disk} (unprotected : mount.Unprotected)
    (placed : mount.Placed disk.container.size) {block : UInt32} (inside : mount.Inside block)
    (data : Sector)
    (untroubled : disk.Untroubled ((volumeDevice crypto mount).write block data disk).2) :
    ((volumeDevice crypto mount).write block data disk).1 = .ok () := by
  obtain ⟨fits, writes⟩ := write_inside crypto placed inside (unprotected block inside) data
  rw [writes] at untroubled ⊢
  cases fails : disk.ioFails with
  | false => rfl
  | true =>
    rw [fails, if_pos rfl] at untroubled
    rw [untroubled.succeeds] at fails
    cases fails

/-- Writes into an unprotected volume fail only where an I/O fails. -/
theorem exec_writeAll_untroubled (crypto : Crypto) {disk : Disk} (unprotected : mount.Unprotected)
    (placed : mount.Placed disk.container.size) (error : Errno) (writes : List (UInt32 × Sector))
    (inside : ∀ write ∈ writes, mount.Inside write.1)
    (untroubled : disk.Untroubled (Prog.exec (volumeDevice crypto mount)
      (writeAll error writes : RawOp Unit) ((), disk)).2.2) :
    (Prog.exec (volumeDevice crypto mount) (writeAll error writes : RawOp Unit)
      ((), disk)).1 = .ok () := by
  induction writes generalizing disk with
  | nil => rfl
  | cons write rest ih =>
    obtain ⟨block, data⟩ := write
    have request : Prog.exec (volumeDevice crypto mount) (Prog.writeAt block data : RawOp Unit)
        ((), disk) = (((volumeDevice crypto mount).write block data disk).1, (),
          ((volumeDevice crypto mount).write block data disk).2) := Prog.exec_writeAt ..
    have consumes := write_consumes crypto mount block data disk
    have confines := mount.confines_write crypto block data disk placed
    have here := inside (block, data) List.mem_cons_self
    rw [writeAll] at untroubled ⊢
    cases written : ((volumeDevice crypto mount).write block data disk).1 with
    | ok value =>
      rw [written] at request
      rw [Prog.exec_bind_ok (Prog.exec_elseThrow_ok request error)] at untroubled ⊢
      have later := Prog.exec_frame (volumeDevice crypto mount) Disk.Consumes.refl
        Disk.Consumes.trans (read_consumes crypto mount) (write_consumes crypto mount)
        (writeAll error rest : RawOp Unit) ((), ((volumeDevice crypto mount).write block data disk).2)
      apply ih
      · rw [confines.1]
        exact placed
      · exact fun write listed => inside write (List.mem_cons_of_mem _ listed)
      · exact (untroubled.split consumes later).2
    | error failure =>
      -- nothing runs after the failed write
      rw [written] at request
      rw [Prog.exec_bind_error (Prog.exec_elseThrow_error request error)] at untroubled
      rw [write_untroubled unprotected placed here data untroubled] at written
      cases written

/-! ## `format_volume` -/

theorem format_accepts {volumeSize start : UInt64} {hmacKey : Bytes 32} {now : UInt64} {disk : Disk}
    (written : (formatVolume crypto mount.volumeKey hmacKey volumeSize start now disk).1 = true) :
    Formattable volumeSize := by
  unfold formatVolume at written
  split at written
  case isTrue => cases written
  case isFalse accepted =>
    rw [not_or, not_or, not_or, not_or] at accepted
    obtain ⟨_, aligned, _, _, blocks⟩ := accepted
    dsimp only at written
    split at written
    case isTrue => cases written
    case isFalse room =>
      refine ⟨?_, Nat.not_lt.1 blocks, UInt32.not_le.1 room⟩
      rw [not_not, ← UInt64.toNat_inj, UInt64.toNat_mod] at aligned
      exact aligned

theorem Formattable.accepted {volumeSize start : UInt64} (formattable : Formattable volumeSize)
    (fits : start.toNat + volumeSize.toNat ≤ longMax) :
    ¬(volumeSize = 0 ∨ volumeSize % 4096 ≠ 0 ∨ longMax < start.toNat ∨
      longMax - start.toNat < volumeSize.toNat ∨
      2 ^ 32 - 1 - 8 < volumeSize.toNat / 4096) := by
  have room := UInt32.lt_iff_toNat_lt.1 formattable.room
  rw [formatLayout_totalBlocks formattable.blocks] at room
  have aligned : volumeSize % 4096 = 0 := by
    rw [← UInt64.toNat_inj, UInt64.toNat_mod]
    exact formattable.aligned
  have positive : volumeSize ≠ 0 := by
    intro zero
    have none : volumeSize.toNat = 0 := by
      rw [zero]
      rfl
    omega
  rw [not_or, not_or, not_or, not_or, not_not]
  exact ⟨positive, aligned, by omega, by omega, Nat.not_lt.2 formattable.blocks⟩

/-- `format_volume` where it gets as far as writing, as writes through `write_block`. -/
theorem formatVolume_eq (unguarded : mount.protectHidden = false)
    (formattable : Formattable mount.volumeSize)
    (fits : mount.volStartOffset.toNat + mount.volumeSize.toNat ≤ longMax) (hmacKey : Bytes 32)
    (now : UInt64) (disk : Disk) :
    formatVolume crypto mount.volumeKey hmacKey mount.volumeSize mount.volStartOffset now disk =
      match Prog.exec (volumeDevice crypto mount)
          (writeAll Errno.eperm (formatImage crypto hmacKey mount.volumeSize now).imageWrites :
            RawOp Unit) ((), disk) with
      | (.ok (), _, disk) => (true, disk)
      | (.error _, _, disk) => (false, disk) := by
  have layout := formatImage_layout crypto hmacKey now formattable
  have inside : ∀ write ∈ (formatImage crypto hmacKey mount.volumeSize now).imageWrites,
      mount.Inside write.1 := by
    intro write listed
    have upTo := (Volume.mem_imageWrites layout write listed).1
    have room := layout.room
    unfold Mount.Inside Mount.blockCount
    omega
  have room : ¬(formatImage crypto hmacKey mount.volumeSize now).sb.totalBlocks ≤
      (formatImage crypto hmacKey mount.volumeSize now).sb.dataStart :=
    UInt32.not_le.2 formattable.room
  unfold formatVolume
  rw [if_neg (formattable.accepted fits)]
  dsimp only
  rw [if_neg room]
  exact congrArg (fun outcome : Except Errno Unit × (Unit × Disk) => match outcome with
    | (.ok (), _, disk) => (true, disk)
    | (.error _, _, disk) => (false, disk)) (exec_writeImage unguarded inside disk)

section Format

variable (crypto : Crypto) {mount : Mount} {disk : Disk} (unguarded : mount.protectHidden = false)
  (placed : mount.Placed disk.container.size) (formattable : Formattable mount.volumeSize)
  (hmacKey : Bytes 32) (now : UInt64)
include unguarded placed formattable

/-- `format_volume` as writes through `write_block`, all of them inside the volume. -/
theorem formatVolume_writes :
    (∀ write ∈ (formatImage crypto hmacKey mount.volumeSize now).imageWrites,
      mount.Inside write.1) ∧
    formatVolume crypto mount.volumeKey hmacKey mount.volumeSize mount.volStartOffset now disk =
      match Prog.exec (volumeDevice crypto mount)
          (writeAll Errno.eperm (formatImage crypto hmacKey mount.volumeSize now).imageWrites :
            RawOp Unit) ((), disk) with
      | (.ok (), _, disk) => (true, disk)
      | (.error _, _, disk) => (false, disk) := by
  have layout := formatImage_layout crypto hmacKey now formattable
  have fits : mount.volStartOffset.toNat + mount.volumeSize.toNat ≤ longMax := by
    have beforeTail := placed.beforeTail
    have small := placed.small
    omega
  constructor
  · intro write listed
    have upTo := (Volume.mem_imageWrites layout write listed).1
    have room := layout.room
    unfold Mount.Inside Mount.blockCount
    omega
  · exact formatVolume_eq unguarded formattable fits hmacKey now disk

/-- What every request respects, formatting respects. -/
theorem formatVolume_frame {frame : Disk → Disk → Prop} (refl : ∀ disk, frame disk disk)
    (trans : ∀ {a b c}, frame a b → frame b c → frame a c)
    (read : ∀ block disk, frame disk ((volumeDevice crypto mount).read block disk).2)
    (write : ∀ block data disk, frame disk ((volumeDevice crypto mount).write block data disk).2) :
    frame disk (formatVolume crypto mount.volumeKey hmacKey mount.volumeSize
      mount.volStartOffset now disk).2 := by
  have framed := Prog.exec_frame (volumeDevice crypto mount) refl trans read write
    (writeAll Errno.eperm (formatImage crypto hmacKey mount.volumeSize now).imageWrites :
      RawOp Unit) ((), disk)
  rw [(formatVolume_writes crypto unguarded placed formattable hmacKey now).2]
  split
  next stored => rwa [stored] at framed
  next failed => rwa [failed] at framed

/-- Formatting fails only where an I/O fails. -/
theorem formatVolume_untroubled
    (untroubled : disk.Untroubled (formatVolume crypto mount.volumeKey hmacKey mount.volumeSize
      mount.volStartOffset now disk).2) :
    (formatVolume crypto mount.volumeKey hmacKey mount.volumeSize mount.volStartOffset now
      disk).1 = true := by
  obtain ⟨inside, writes⟩ :=
    formatVolume_writes crypto unguarded placed formattable hmacKey now
  have stored := exec_writeAll_untroubled crypto (unprotected_of_flag unguarded) placed
    Errno.eperm _ inside
  rw [writes] at untroubled ⊢
  generalize Prog.exec (volumeDevice crypto mount)
    (writeAll Errno.eperm (formatImage crypto hmacKey mount.volumeSize now).imageWrites : RawOp Unit)
    ((), disk) = outcome at untroubled stored
  obtain ⟨result, memory, after⟩ := outcome
  cases result with
  | ok value => rfl
  | error error => cases stored untroubled

end Format

/-- A formatted volume; nothing outside it changes. -/
theorem formatVolume_formatted (roundTrip : crypto.SectorRoundTrip)
    (unguarded : mount.protectHidden = false) {disk : Disk}
    (placed : mount.Placed disk.container.size) {hmacKey : Bytes 32} {now : UInt64}
    (written : (formatVolume crypto mount.volumeKey hmacKey mount.volumeSize mount.volStartOffset
      now disk).1 = true) :
    let after := (formatVolume crypto mount.volumeKey hmacKey mount.volumeSize
      mount.volStartOffset now disk).2
    Formattable mount.volumeSize ∧ mount.Placed after.container.size ∧
      Formatted (formatImage crypto hmacKey mount.volumeSize now)
        (mount.blocks crypto after.container) ∧
      mount.Confines disk after := by
  have fits : mount.volStartOffset.toNat + mount.volumeSize.toNat ≤ longMax := by
    have inFile := placed.beforeTail
    have small := placed.small
    omega
  have formattable := format_accepts written
  have layout := formatImage_layout crypto hmacKey now formattable
  have same : ∀ write ∈ (formatImage crypto hmacKey mount.volumeSize now).imageWrites,
      write.2 = (formatImage crypto hmacKey mount.volumeSize now).imageBlock write.1 :=
    fun write listed => (Volume.mem_imageWrites layout write listed).2
  have frame := Prog.exec_frame (volumeDevice crypto mount) Mount.Confines.refl
    (fun first second => first.trans second) (mount.confines_read crypto)
    (mount.confines_write crypto)
    (writeAll Errno.eperm (formatImage crypto hmacKey mount.volumeSize now).imageWrites : RawOp Unit)
    ((), disk)
  have ends := exec_writeAll (volumeDevice_storage mount roundTrip)
    (formatImage crypto hmacKey mount.volumeSize now).imageBlock Errno.eperm same () disk placed
  rw [formatVolume_eq unguarded formattable fits] at written ⊢
  dsimp only at ends ⊢
  generalize Prog.exec (volumeDevice crypto mount)
    (writeAll Errno.eperm (formatImage crypto hmacKey mount.volumeSize now).imageWrites : RawOp Unit)
    ((), disk) = outcome at written frame ends
  obtain ⟨result, memory, after⟩ := outcome
  cases result with
  | error error => cases written
  | ok value =>
    obtain ⟨placed', _, outcome⟩ := ends
    cases outcome with
    | inr failed => cases failed.1
    | inl stored => exact ⟨formattable, placed', Volume.formatted_of_writes layout stored.2.2, frame⟩

/-- Where no I/O fails, every size that is not too small can be formatted. -/
theorem formatVolume_succeeds (crypto : Crypto) (mount : Mount) (disk : Disk)
    (unguarded : mount.protectHidden = false)
    (placed : mount.Placed disk.container.size) (faultless : disk.faults = [])
    (formattable : Formattable mount.volumeSize) (hmacKey : Bytes 32) (now : UInt64) :
    (formatVolume crypto mount.volumeKey hmacKey mount.volumeSize mount.volStartOffset now
        disk).1 = true ∧
      (formatVolume crypto mount.volumeKey hmacKey mount.volumeSize mount.volStartOffset now
        disk).2.faults = [] := by
  have consumes := formatVolume_frame crypto unguarded placed formattable hmacKey now
    Disk.Consumes.refl Disk.Consumes.trans (read_consumes crypto mount) (write_consumes crypto mount)
  constructor
  · apply formatVolume_untroubled crypto unguarded placed formattable hmacKey now
    exact Disk.untroubled_of_faultless faultless consumes
  · exact consumes.staysFaultless faultless

end DenyFS
