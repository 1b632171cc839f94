import DenyFS.Verified.Runs

/-! # Where an open volume lies and what it can write

`denyfs_vol_open` only mounts a range that lies between the two header slots.  From there on
every request of every operation goes through `read_block` and `write_block`, so what one
request leaves alone every run leaves alone. -/

namespace DenyFS

open Packed BlockProgram

/-! ## Offsets -/

theorem validVolumeRange_iff {start size containerSize : UInt64} :
    validVolumeRange start size containerSize = true ↔
      size.toNat ≠ 0 ∧ size.toNat % 4096 = 0 ∧ start.toNat % 4096 = 0 ∧
        start.toNat + size.toNat ≤ containerSize.toNat ∧
        start.toNat + size.toNat ≤ longMax := by
  have limit : longMax64.toNat = longMax := by decide
  simp only [validVolumeRange, Bool.and_eq_true, decide_eq_true_eq, bne_iff_ne, beq_iff_eq,
    UInt64.le_iff_toNat_le, ← UInt64.toNat_inj, UInt64.toNat_mod, limit, ne_eq]
  constructor
  · rintro ⟨⟨⟨⟨⟨⟨nonzero, sized⟩, aligned⟩, inside⟩, fits⟩, startSmall⟩, small⟩
    rw [UInt64.toNat_sub_of_le _ _ (UInt64.le_iff_toNat_le.mpr inside)] at fits
    rw [UInt64.toNat_sub_of_le _ _ (UInt64.le_iff_toNat_le.mpr (by omega))] at small
    simp at nonzero sized aligned
    exact ⟨nonzero, sized, aligned, by omega, by omega⟩
  · rintro ⟨nonzero, sized, aligned, fits, small⟩
    rw [UInt64.toNat_sub_of_le _ _ (UInt64.le_iff_toNat_le.mpr (by omega)),
      UInt64.toNat_sub_of_le _ _ (UInt64.le_iff_toNat_le.mpr (by omega))]
    simp
    omega

theorem hiddenHeaderOffset_toNat {containerSize : Nat} (large : 36864 ≤ containerSize)
    (small : containerSize ≤ longMax) :
    (UInt64.ofNat containerSize - 32768).toNat = containerSize - 32768 := by
  have size : (UInt64.ofNat containerSize).toNat = containerSize := by
    simp only [UInt64.toNat_ofNat', longMax] at *
    omega
  rw [UInt64.toNat_sub_of_le _ _ (UInt64.le_iff_toNat_le.mpr (by rw [size]; simp; omega)), size]
  simp

theorem validHiddenRange_iff {size hiddenHeaderOffset : UInt64}
    (large : 4096 ≤ hiddenHeaderOffset.toNat) :
    validHiddenRange size hiddenHeaderOffset = true ↔
      size.toNat ≠ 0 ∧ size.toNat % 4096 = 0 ∧ hiddenHeaderOffset.toNat % 4096 = 0 ∧
        size.toNat + 4096 ≤ hiddenHeaderOffset.toNat ∧ hiddenHeaderOffset.toNat ≤ longMax := by
  have first : (hiddenHeaderOffset - 4096).toNat = hiddenHeaderOffset.toNat - 4096 := by
    rw [UInt64.toNat_sub_of_le _ _ (UInt64.le_iff_toNat_le.mpr (by simpa using large))]
    simp
  simp only [validHiddenRange, Bool.and_eq_true, decide_eq_true_eq, UInt64.le_iff_toNat_le, first,
    validVolumeRange_iff]
  constructor
  · rintro ⟨room, nonzero, sized, aligned, _, small⟩
    rw [UInt64.toNat_sub_of_le _ _ (UInt64.le_iff_toNat_le.mpr (by omega))] at aligned small
    omega
  · rintro ⟨nonzero, sized, aligned, room, small⟩
    rw [UInt64.toNat_sub_of_le _ _ (UInt64.le_iff_toNat_le.mpr (by omega))]
    omega

/-- A volume lies at sector boundaries between the outer header slot and the hidden one. -/
structure Mount.Placed (mount : Mount) (containerSize : Nat) : Prop where
  sized : mount.volumeSize.toNat % 4096 = 0
  aligned : mount.volStartOffset.toNat % 4096 = 0
  afterHeader : 4096 ≤ mount.volStartOffset.toNat
  beforeTail : mount.volStartOffset.toNat + mount.volumeSize.toNat + 32768 ≤ containerSize
  small : containerSize ≤ longMax

/-- The block test of `read_block` and `write_block`. -/
theorem block_outside_iff (mount : Mount) (block : UInt32) :
    mount.volumeSize / 4096 ≤ block.toUInt64 ↔
      mount.volumeSize.toNat / 4096 ≤ block.toNat := by
  rw [UInt64.le_iff_toNat_le, UInt64.toNat_div]
  simp

/-- The offset of a block of the volume does not wrap and lies in the volume's range. -/
theorem Mount.Placed.blockOffset_toNat {mount : Mount} {containerSize : Nat}
    (placed : mount.Placed containerSize) {block : UInt32}
    (inside : block.toNat < mount.volumeSize.toNat / 4096) :
    (blockOffset mount.volStartOffset block).toNat =
      mount.volStartOffset.toNat + block.toNat * 4096 := by
  obtain ⟨sized, aligned, afterHeader, beforeTail, small⟩ := placed
  simp only [blockOffset, UInt64.toNat_add, UInt64.toNat_mul, UInt32.toNat_toUInt64,
    UInt64.reduceToNat, longMax] at *
  omega

/-- The absolute sector of a block of the volume does not wrap. -/
theorem Mount.Placed.absoluteSector_toNat {mount : Mount} {containerSize : Nat}
    (placed : mount.Placed containerSize) {block : UInt32}
    (inside : block.toNat < mount.volumeSize.toNat / 4096) :
    (mount.volStartOffset / 4096 + block.toUInt64).toNat =
      mount.volStartOffset.toNat / 4096 + block.toNat := by
  obtain ⟨sized, aligned, afterHeader, beforeTail, small⟩ := placed
  simp only [UInt64.toNat_add, UInt64.toNat_div, UInt32.toNat_toUInt64, UInt64.reduceToNat,
    longMax] at *
  omega

/-! ## What opening a volume establishes -/

namespace Container

def outerHeader (container : Container) : HeaderDisk :=
  headerSector.symm (container.sectorAt 0)

def hiddenHeader (container : Container) : HeaderDisk :=
  headerSector.symm (container.sectorAt (container.size - 32768))

def hiddenHeaderOffset (container : Container) : UInt64 := UInt64.ofNat container.size - 32768

/-- A container long enough for both headers, in whole sectors. -/
structure WellSized (container : Container) : Prop where
  large : 36864 ≤ container.size
  sectors : container.size % 4096 = 0

theorem WellSized.hiddenHeaderOffset_toNat {container : Container}
    (sized : container.WellSized) :
    container.hiddenHeaderOffset.toNat = container.size - 32768 :=
  DenyFS.hiddenHeaderOffset_toNat sized.large container.size_le

/-- The volume a password selects in this container. -/
def select (crypto : Crypto) (container : Container) (password : List UInt8) : Option Mount :=
  selectVolume crypto container.outerHeader container.hiddenHeader container.hiddenHeaderOffset
    password

/-- The same with outer-mount protection as requested. -/
def mountFor (crypto : Crypto) (container : Container) (password : List UInt8)
    (hiddenPassword : Option (List UInt8)) (protectHidden : Bool) : Option Mount :=
  (container.select crypto password).bind (protectVolume crypto container.hiddenHeader
    (UInt64.ofNat container.size) container.hiddenHeaderOffset hiddenPassword protectHidden)

end Container

@[simp] theorem Disk.afterIo_container (disk : Disk) : disk.afterIo.container = disk.container :=
  rfl

theorem Disk.fread_inside (disk : Disk) {offset : Nat}
    (inside : offset + 4096 ≤ disk.container.size) :
    disk.fread offset =
      (if disk.ioFails then none else some (disk.container.sectorAt offset), disk.afterIo) := by
  unfold Disk.fread
  cases disk.ioFails <;> simp [Nat.not_lt.mpr inside]

/-- The last step of `denyfs_vol_open`: load the volume the headers select. -/
def loadMount (crypto : Crypto) (mount : Mount) (disk : Disk) : Option (Mount × Volume) × Disk :=
  match Prog.exec (volumeDevice crypto mount) (loadVolume crypto mount) (zeroedVolume, disk) with
  | (.ok (), vol, disk) => (some (mount, vol), disk)
  | (.error _, _, disk) => (none, disk)

/-- `denyfs_vol_open` in terms of the mount the container's headers select. -/
theorem volOpen_eq (crypto : Crypto) (password : List UInt8)
    (hiddenPassword : Option (List UInt8)) (protectHidden : Bool) (disk : Disk) :
    volOpen crypto password hiddenPassword protectHidden disk =
      if disk.container.size < 36864 ∨ disk.container.size % 4096 ≠ 0 then (none, disk)
      else if disk.ioFails then (none, disk.afterIo)
      else if disk.afterIo.ioFails then (none, disk.afterIo.afterIo)
      else match disk.container.mountFor crypto password hiddenPassword protectHidden with
        | none => (none, disk.afterIo.afterIo)
        | some mount => loadMount crypto mount disk.afterIo.afterIo := by
  unfold volOpen
  by_cases short : disk.container.size < 36864 ∨ disk.container.size % 4096 ≠ 0
  · rw [if_pos short, if_pos short]
  rw [if_neg short, if_neg short, disk.fread_inside (by omega)]
  cases disk.ioFails with
  | true => rfl
  | false =>
    simp only [Bool.false_eq_true, if_false]
    rw [disk.afterIo.fread_inside (by rw [Disk.afterIo_container]; omega)]
    cases disk.afterIo.ioFails <;> rfl

/-- What a successful `denyfs_vol_open` has checked. -/
theorem volOpen_some {crypto : Crypto} {password : List UInt8}
    {hiddenPassword : Option (List UInt8)} {protectHidden : Bool} {disk disk' : Disk}
    {mount : Mount} {vol : Volume}
    (opened : volOpen crypto password hiddenPassword protectHidden disk =
      (some (mount, vol), disk')) :
    disk.container.WellSized ∧
      disk.container.mountFor crypto password hiddenPassword protectHidden = some mount ∧
      Prog.exec (volumeDevice crypto mount) (loadVolume crypto mount)
        (zeroedVolume, disk.afterIo.afterIo) = (.ok (), vol, disk') := by
  rw [volOpen_eq] at opened
  split at opened
  · simp at opened
  next sized =>
  split at opened
  · simp at opened
  split at opened
  · simp at opened
  split at opened
  · simp at opened
  next mount' selected =>
  unfold loadMount at opened
  split at opened
  next vol' disk₃ loaded =>
    simp only [Prod.mk.injEq, Option.some.injEq] at opened
    obtain ⟨⟨rfl, rfl⟩, rfl⟩ := opened
    exact ⟨⟨by omega, by omega⟩, selected, loaded⟩
  · simp at opened

theorem authenticate_mount_placed {payload : HeaderPayload} {container : Container}
    (sized : container.WellSized) :
    (validVolumeRange 4096 payload.volumeSize container.hiddenHeaderOffset = true →
      (mountOf payload 4096 false).Placed container.size) ∧
    (validHiddenRange payload.volumeSize container.hiddenHeaderOffset = true →
      (mountOf payload (container.hiddenHeaderOffset - payload.volumeSize) true).Placed
        container.size) := by
  have offset := sized.hiddenHeaderOffset_toNat
  have small := container.size_le
  obtain ⟨large, sectors⟩ := sized
  constructor
  · rw [validVolumeRange_iff, offset]
    rintro ⟨_, aligned, _, inside, _⟩
    have start : (4096 : UInt64).toNat = 4096 := rfl
    constructor <;> (try simp only [mountOf, start]) <;> omega
  · rw [validHiddenRange_iff (by omega), offset]
    rintro ⟨_, aligned, _, inside, _⟩
    have start : (container.hiddenHeaderOffset - payload.volumeSize).toNat =
        container.size - 32768 - payload.volumeSize.toNat := by
      rw [UInt64.toNat_sub_of_le _ _ (UInt64.le_iff_toNat_le.mpr (by omega)), offset]
    constructor <;> (try simp only [mountOf, start]) <;> omega

theorem select_cases {crypto : Crypto} {container : Container} {password : List UInt8}
    {mount : Mount} (selected : container.select crypto password = some mount) :
    (∃ payload, authenticate crypto container.outerHeader password = some payload ∧
      validVolumeRange 4096 payload.volumeSize container.hiddenHeaderOffset = true ∧
      mount = mountOf payload 4096 false) ∨
    (∃ payload, authenticate crypto container.hiddenHeader password = some payload ∧
      validHiddenRange payload.volumeSize container.hiddenHeaderOffset = true ∧
      mount = mountOf payload (container.hiddenHeaderOffset - payload.volumeSize) true) := by
  unfold Container.select selectVolume at selected
  dsimp only at selected
  split at selected
  next _ _ payload outer =>
    rw [Option.filter_eq_some_iff] at outer
    exact .inl ⟨payload, outer.1, outer.2, (Option.some.inj selected).symm⟩
  next _ _ payload _ hidden =>
    rw [Option.filter_eq_some_iff] at hidden
    exact .inr ⟨payload, hidden.1, hidden.2, (Option.some.inj selected).symm⟩
  · simp at selected

theorem select_placed {crypto : Crypto} {container : Container} {password : List UInt8}
    {mount : Mount} (sized : container.WellSized)
    (selected : container.select crypto password = some mount) :
    mount.Placed container.size ∧ mount.protectHidden = false := by
  rcases select_cases selected with ⟨payload, _, range, rfl⟩ | ⟨payload, _, range, rfl⟩
  · exact ⟨(authenticate_mount_placed sized).1 range, rfl⟩
  · exact ⟨(authenticate_mount_placed sized).2 range, rfl⟩

/-- What mounting establishes, protection included. -/
theorem mountFor_cases {crypto : Crypto} {container : Container} {password : List UInt8}
    {hiddenPassword : Option (List UInt8)} {protectHidden : Bool} {mount : Mount}
    (mounted : container.mountFor crypto password hiddenPassword protectHidden = some mount) :
    (container.select crypto password = some mount ∧
        (protectHidden = false ∨ mount.isHidden = true)) ∨
      ∃ base secret payload, container.select crypto password = some base ∧
        base.isHidden = false ∧ protectHidden = true ∧ hiddenPassword = some secret ∧
        authenticate crypto container.hiddenHeader secret = some payload ∧
        validHiddenRange payload.volumeSize container.hiddenHeaderOffset = true ∧
        mount = { base with
          protectHidden := true
          protectStartSector := (container.hiddenHeaderOffset - payload.volumeSize) / 4096
          protectEndSector := UInt64.ofNat container.size / 4096 - 1 } := by
  unfold Container.mountFor at mounted
  rw [Option.bind_eq_some_iff] at mounted
  obtain ⟨base, selected, mounted⟩ := mounted
  unfold protectVolume at mounted
  split at mounted
  next wanted =>
    simp only [Bool.and_eq_true, Bool.not_eq_true'] at wanted
    split at mounted
    · simp at mounted
    next secret =>
      split at mounted
      · simp at mounted
      next payload found =>
        simp only [Option.filter_eq_some_iff] at found
        exact .inr ⟨base, secret, payload, selected, wanted.2, wanted.1, rfl, found.1, found.2,
          (Option.some.inj mounted).symm⟩
  next unwanted =>
    obtain rfl := Option.some.inj mounted
    refine .inl ⟨selected, ?_⟩
    simp only [Bool.and_eq_true, Bool.not_eq_true', not_and, Bool.not_eq_false] at unwanted
    cases protectHidden with
    | false => exact .inl rfl
    | true => exact .inr (unwanted rfl)

theorem mountFor_placed {crypto : Crypto} {container : Container} {password : List UInt8}
    {hiddenPassword : Option (List UInt8)} {protectHidden : Bool} {mount : Mount}
    (sized : container.WellSized)
    (mounted : container.mountFor crypto password hiddenPassword protectHidden = some mount) :
    mount.Placed container.size := by
  rcases mountFor_cases mounted with ⟨selected, _⟩ |
    ⟨base, secret, payload, selected, _, _, _, _, _, rfl⟩
  · exact (select_placed sized selected).1
  · obtain ⟨sized', aligned, afterHeader, beforeTail, small⟩ := (select_placed sized selected).1
    exact ⟨sized', aligned, afterHeader, beforeTail, small⟩

/-! ## One request -/

/-- A byte the volume may write: in its range and not in a protected sector. -/
def Mount.Writable (mount : Mount) (i : Nat) : Prop :=
  mount.volStartOffset.toNat ≤ i ∧ i < mount.volStartOffset.toNat + mount.volumeSize.toNat ∧
    ¬(mount.protectHidden = true ∧ mount.protectStartSector.toNat ≤ i / 4096 ∧
      i / 4096 ≤ mount.protectEndSector.toNat)

/-- The file keeps its length and every byte the volume may not write. -/
def Mount.Confines (mount : Mount) (before after : Disk) : Prop :=
  mount.Placed before.container.size →
    after.container.size = before.container.size ∧
      ∀ i < before.container.size, ¬mount.Writable i →
        after.container.byte i = before.container.byte i

theorem Mount.Confines.refl {mount : Mount} (disk : Disk) : mount.Confines disk disk :=
  fun _ => ⟨rfl, fun _ _ _ => rfl⟩

theorem Mount.Confines.trans {mount : Mount} {a b c : Disk} (first : mount.Confines a b)
    (second : mount.Confines b c) : mount.Confines a c := by
  intro placed
  obtain ⟨size, bytes⟩ := first placed
  obtain ⟨size', bytes'⟩ := second (size ▸ placed)
  refine ⟨size'.trans size, fun i inside unwritable => ?_⟩
  rw [bytes' i (size ▸ inside) unwritable, bytes i inside unwritable]

theorem Disk.fread_container (disk : Disk) (offset : Nat) :
    (disk.fread offset).2 = disk.afterIo := by
  unfold Disk.fread
  split <;> rfl

/-- A read leaves the container alone. -/
theorem readBlockAt_container (crypto : Crypto) (mount : Mount) (block : UInt32) (disk : Disk) :
    (readBlockAt crypto mount block disk).2.container = disk.container := by
  unfold readBlockAt
  dsimp only
  split
  · rfl
  split
  · rfl
  split
  next cipher disk' read =>
    exact (congrArg Disk.container ((Prod.ext_iff.mp read).2.symm.trans
      (disk.fread_container _))).trans rfl
  next disk' read =>
    exact (congrArg Disk.container ((Prod.ext_iff.mp read).2.symm.trans
      (disk.fread_container _))).trans rfl

theorem Mount.confines_read (crypto : Crypto) (mount : Mount) (block : UInt32) (disk : Disk) :
    mount.Confines disk ((volumeDevice crypto mount).read block disk).2 := by
  intro _
  have same := readBlockAt_container crypto mount block disk
  exact ⟨congrArg Container.size same, fun i _ _ => congrArg (Container.byte · i) same⟩

/-- A write of a sector changes only that sector, or nothing. -/
theorem Disk.fwrite_cases (disk : Disk) (offset : Nat) (data : Sector) :
    (disk.fwrite offset data).2.container = disk.container ∧ (disk.fwrite offset data).1 = false ∨
      ∃ fits : offset + 4096 ≤ longMax, (disk.fwrite offset data).1 = true ∧
        (disk.fwrite offset data).2.container = disk.container.store offset data fits := by
  unfold Disk.fwrite
  split
  · exact .inl ⟨rfl, rfl⟩
  split
  next fits => exact .inr ⟨fits, rfl, rfl⟩
  · exact .inl ⟨rfl, rfl⟩

theorem Mount.confines_write (crypto : Crypto) (mount : Mount) (block : UInt32) (data : Sector)
    (disk : Disk) : mount.Confines disk ((volumeDevice crypto mount).write block data disk).2 := by
  intro placed
  simp only [volumeDevice, writeBlockAt]
  split
  · exact ⟨rfl, fun _ _ _ => rfl⟩
  next inside =>
  rw [block_outside_iff, Nat.not_le] at inside
  split
  · exact ⟨rfl, fun _ _ _ => rfl⟩
  next unprotected =>
  split
  · exact ⟨rfl, fun _ _ _ => rfl⟩
  have offset := placed.blockOffset_toNat inside
  have sector := placed.absoluteSector_toNat inside
  obtain ⟨sized, aligned, afterHeader, beforeTail, small⟩ := placed
  simp only [writeStatus]
  rcases disk.fwrite_cases (blockOffset mount.volStartOffset block).toNat
    (crypto.xtsEncrypt mount.volumeKey block.toUInt64 data) with ⟨same, _⟩ | ⟨fits, _, stored⟩
  · rw [same]
    exact ⟨rfl, fun _ _ _ => rfl⟩
  · rw [stored]
    refine ⟨?_, fun i inFile unwritable => ?_⟩
    · simp only [Container.store]
      omega
    · simp only [Container.store]
      rw [if_neg, if_pos inFile]
      rintro ⟨lower, upper⟩
      refine unwritable ⟨by omega, by omega, ?_⟩
      rintro ⟨protect, start, last⟩
      refine unprotected ?_
      have here : i / 4096 = mount.volStartOffset.toNat / 4096 + block.toNat := by omega
      simp only [Mount.protects, protect, Bool.true_and, Bool.and_eq_true, decide_eq_true_eq,
        UInt64.le_iff_toNat_le, sector]
      omega

/-! ## Whole runs -/

/-- No run of calls changes a byte its volume may not write, nor the length of the file. -/
theorem runCalls_confined (crypto : Crypto) (mount : Mount) (calls : List Call)
    (state : Volume × Disk) :
    mount.Confines state.2 (runCalls crypto mount (volumeDevice crypto mount) calls state).2.2 :=
  runCalls_frame Mount.Confines.refl Mount.Confines.trans (mount.confines_read crypto)
    (mount.confines_write crypto) calls state

theorem readBlockAt_keeps (crypto : Crypto) (mount : Mount) (block : UInt32) (disk : Disk) :
    ((volumeDevice crypto mount).read block disk).2.container = disk.container :=
  readBlockAt_container crypto mount block disk

theorem loadMount_container (crypto : Crypto) (mount : Mount) (disk : Disk) :
    (loadMount crypto mount disk).2.container = disk.container := by
  have keeps := Prog.exec_readOnly (volumeDevice crypto mount)
    (fun before after : Disk => after.container = before.container) (fun _ => rfl) (fun first second => second.trans first)
    (readBlockAt_keeps crypto mount) (loadVolume_readOnly crypto mount) (zeroedVolume, disk)
  unfold loadMount
  split
  next vol disk' loaded => rwa [loaded] at keeps
  next error vol disk' failed => rwa [failed] at keeps

/-- Opening a volume writes nothing, whether it succeeds or not. -/
theorem volOpen_container (crypto : Crypto) (password : List UInt8)
    (hiddenPassword : Option (List UInt8)) (protectHidden : Bool) (disk : Disk) :
    (volOpen crypto password hiddenPassword protectHidden disk).2.container = disk.container := by
  rw [volOpen_eq]
  split
  · rfl
  split
  · rfl
  split
  · rfl
  split
  · rfl
  · exact loadMount_container crypto _ _

/-- The start of a mounted range and the protected sectors, as computed without wrapping. -/
theorem mountFor_offsets {crypto : Crypto} {container : Container} {password : List UInt8}
    {hiddenPassword : Option (List UInt8)} {protectHidden : Bool} {mount : Mount}
    (sized : container.WellSized)
    (mounted : container.mountFor crypto password hiddenPassword protectHidden = some mount) :
    (mount.isHidden = false → mount.volStartOffset.toNat = 4096) ∧
    (mount.isHidden = true → mount.volStartOffset.toNat + mount.volumeSize.toNat =
      container.size - 32768) ∧
    (protectHidden = true → mount.isHidden = false → ∃ secret payload,
      hiddenPassword = some secret ∧
      authenticate crypto container.hiddenHeader secret = some payload ∧
      payload.volumeSize.toNat + 4096 ≤ container.size - 32768 ∧ mount.protectHidden = true ∧
      mount.protectStartSector.toNat * 4096 = container.size - 32768 - payload.volumeSize.toNat ∧
      mount.protectEndSector.toNat = container.size / 4096 - 1) := by
  have offset := sized.hiddenHeaderOffset_toNat
  have small := container.size_le
  have limit : longMax = 2 ^ 63 - 1 := rfl
  obtain ⟨large, sectors⟩ := sized
  have starts : ∀ base, container.select crypto password = some base →
      (base.isHidden = false → base.volStartOffset.toNat = 4096) ∧
      (base.isHidden = true → base.volStartOffset.toNat + base.volumeSize.toNat =
        container.size - 32768) := by
    intro base selected
    rcases select_cases selected with ⟨payload, _, range, rfl⟩ | ⟨payload, _, range, rfl⟩
    · exact ⟨fun _ => rfl, fun hidden => by simp [mountOf] at hidden⟩
    · rw [validHiddenRange_iff (by omega)] at range
      refine ⟨fun outer => by simp [mountOf] at outer, fun _ => ?_⟩
      simp only [mountOf]
      rw [UInt64.toNat_sub_of_le _ _ (UInt64.le_iff_toNat_le.mpr (by omega)), offset]
      omega
  rcases mountFor_cases mounted with ⟨selected, unprotected⟩ |
    ⟨base, secret, payload, selected, outer, wanted, given, found, range, rfl⟩
  · refine ⟨(starts mount selected).1, (starts mount selected).2, fun wanted outer => ?_⟩
    rcases unprotected with never | hidden
    · simp [wanted] at never
    · simp [outer] at hidden
  · refine ⟨(starts base selected).1, (starts base selected).2, fun _ _ => ?_⟩
    rw [validHiddenRange_iff (by omega)] at range
    refine ⟨secret, payload, given, found, by omega, rfl, ?_, ?_⟩
    · simp only [UInt64.toNat_div, UInt64.reduceToNat]
      rw [UInt64.toNat_sub_of_le _ _ (UInt64.le_iff_toNat_le.mpr (by omega)), offset]
      omega
    · have size : (UInt64.ofNat container.size).toNat = container.size := by
        simp only [UInt64.toNat_ofNat']
        omega
      have whole : (UInt64.ofNat container.size / 4096).toNat = container.size / 4096 := by
        rw [UInt64.toNat_div, size]
        rfl
      rw [UInt64.toNat_sub_of_le _ _ (UInt64.le_iff_toNat_le.mpr (by rw [whole]; simp; omega)),
        whole]
      rfl

end DenyFS
