import DenyFS.Library.Faulty
import DenyFS.Verified.Confinement
import DenyFS.Verified.FileMap

/-! # An open volume as a store of blocks

Below the operations a volume is a range of ciphertext.  `Mount.blocks` decrypts it; under
the sector cipher's round trip the container then is a store of these blocks, and where no
I/O fails and nothing is protected it behaves like `plainDevice`. -/

namespace DenyFS

open Packed BlockProgram

namespace Mount

/-- How many blocks the volume has. -/
def blockCount (mount : Mount) : Nat := mount.volumeSize.toNat / 4096

/-- The block lies in the volume. -/
def Inside (mount : Mount) (block : UInt32) : Prop := block.toNat < mount.blockCount

/-- The blocks of a volume, decrypted. -/
def blocks (crypto : Crypto) (mount : Mount) (container : Container) : Blocks := fun block =>
  if block.toNat < mount.blockCount then
    crypto.xtsDecrypt mount.volumeKey block.toUInt64
      (container.sectorAt (mount.volStartOffset.toNat + block.toNat * 4096))
  else fun _ => 0

end Mount

variable {crypto : Crypto} {mount : Mount} {disk : Disk} {block : UInt32}

theorem Mount.Placed.end_le {containerSize : Nat} (placed : mount.Placed containerSize)
    (inside : mount.Inside block) :
    mount.volStartOffset.toNat + block.toNat * 4096 + 4096 ≤ containerSize := by
  have := placed.beforeTail
  have := placed.sized
  have count : block.toNat < mount.volumeSize.toNat / 4096 := inside
  omega

theorem Mount.Placed.end_le_longMax {containerSize : Nat} (placed : mount.Placed containerSize)
    (inside : mount.Inside block) :
    mount.volStartOffset.toNat + block.toNat * 4096 + 4096 ≤ longMax :=
  (placed.end_le inside).trans placed.small

/-! ## Requests -/

/-- A read inside the volume fails on an I/O fault only. -/
theorem read_inside (placed : mount.Placed disk.container.size) (inside : mount.Inside block) :
    (volumeDevice crypto mount).read block disk =
      (if disk.ioFails then .error .eperm else .ok (mount.blocks crypto disk.container block),
        disk.afterIo) := by
  have offset := placed.blockOffset_toNat inside
  have fits := placed.end_le_longMax inside
  have inFile := placed.end_le inside
  have whole : ¬mount.volumeSize / 4096 ≤ block.toUInt64 := by
    rw [block_outside_iff]
    exact Nat.not_le.2 inside
  simp only [volumeDevice, readBlockAt]
  have here : block.toNat < mount.blockCount := inside
  rw [if_neg whole, offset, if_neg (by omega), disk.fread_inside inFile, Mount.blocks,
    if_pos here]
  cases disk.ioFails <;> rfl

theorem read_outside (outside : ¬mount.Inside block) :
    (volumeDevice crypto mount).read block disk = (.error .eperm, disk) := by
  have beyond : mount.volumeSize / 4096 ≤ block.toUInt64 := by
    rw [block_outside_iff]
    exact Nat.not_lt.1 outside
  simp only [volumeDevice, readBlockAt]
  rw [if_pos beyond]

theorem write_outside (outside : ¬mount.Inside block) (data : Sector) :
    (volumeDevice crypto mount).write block data disk = (.error .eperm, disk) := by
  have beyond : mount.volumeSize / 4096 ≤ block.toUInt64 := by
    rw [block_outside_iff]
    exact Nat.not_lt.1 outside
  simp only [volumeDevice, writeBlockAt]
  rw [if_pos beyond]

theorem write_protected (inside : mount.Inside block) (protects : mount.protects block = true)
    (data : Sector) :
    (volumeDevice crypto mount).write block data disk = (.error .enospc, disk) := by
  have whole : ¬mount.volumeSize / 4096 ≤ block.toUInt64 := by
    rw [block_outside_iff]
    exact Nat.not_le.2 inside
  simp only [volumeDevice, writeBlockAt]
  rw [if_neg whole, if_pos protects]

variable (crypto) in
/-- A write to an unprotected block of the volume fails on an I/O fault only. -/
theorem write_inside (placed : mount.Placed disk.container.size) (inside : mount.Inside block)
    (unprotected : mount.protects block = false) (data : Sector) :
    ∃ fits : mount.volStartOffset.toNat + block.toNat * 4096 + 4096 ≤ longMax,
      (volumeDevice crypto mount).write block data disk =
        if disk.ioFails then (.error .eperm, disk.afterIo)
        else (.ok (), { disk.afterIo with
          container := disk.container.store (mount.volStartOffset.toNat + block.toNat * 4096)
            (crypto.xtsEncrypt mount.volumeKey block.toUInt64 data) fits }) := by
  have offset := placed.blockOffset_toNat inside
  have fits := placed.end_le_longMax inside
  have whole : ¬mount.volumeSize / 4096 ≤ block.toUInt64 := by
    rw [block_outside_iff]
    exact Nat.not_le.2 inside
  refine ⟨fits, ?_⟩
  simp only [volumeDevice, writeBlockAt]
  rw [if_neg whole, unprotected, if_neg Bool.false_ne_true, offset, if_neg (by omega)]
  unfold writeStatus Disk.fwrite
  cases disk.ioFails <;> simp [fits]

/-! ## What a write changes -/

theorem Container.sectorAt_store_self (container : Container) (offset : Nat) (data : Sector)
    (fits : offset + 4096 ≤ longMax) :
    (container.store offset data fits).sectorAt offset = data := by
  funext k
  have range : offset ≤ offset + k.val ∧ offset + k.val < offset + 4096 := by omega
  simp only [Container.sectorAt, Container.store]
  rw [if_pos range, Nat.add_sub_cancel_left]
  exact congrArg data (Fin.ext (Nat.mod_eq_of_lt k.isLt))

theorem Container.sectorAt_store_other (container : Container) {offset other : Nat}
    (data : Sector) (fits : offset + 4096 ≤ longMax) (inFile : other + 4096 ≤ container.size)
    (apart : other + 4096 ≤ offset ∨ offset + 4096 ≤ other) :
    (container.store offset data fits).sectorAt other = container.sectorAt other := by
  funext k
  have away : ¬(offset ≤ other + k.val ∧ other + k.val < offset + 4096) := by omega
  have here : other + k.val < container.size := by omega
  simp only [Container.sectorAt, Container.store]
  rw [if_neg away, if_pos here]

theorem Container.byte_store_outside (container : Container) {offset i : Nat} (data : Sector)
    (fits : offset + 4096 ≤ longMax) (inFile : i < container.size)
    (outside : ¬(offset ≤ i ∧ i < offset + 4096)) :
    (container.store offset data fits).byte i = container.byte i := by
  unfold Container.store
  dsimp only
  rw [if_neg outside, if_pos inFile]

theorem Container.store_size (container : Container) {offset : Nat} (data : Sector)
    (fits : offset + 4096 ≤ longMax) (inFile : offset + 4096 ≤ container.size) :
    (container.store offset data fits).size = container.size := by
  simp only [Container.store]
  omega

/-- Storing the encryption of a block replaces that block. -/
theorem blocks_store (roundTrip : crypto.SectorRoundTrip) {container : Container}
    (placed : mount.Placed container.size) (inside : mount.Inside block) (data : Sector)
    (fits : mount.volStartOffset.toNat + block.toNat * 4096 + 4096 ≤ longMax) :
    mount.blocks crypto (container.store (mount.volStartOffset.toNat + block.toNat * 4096)
        (crypto.xtsEncrypt mount.volumeKey block.toUInt64 data) fits) =
      Function.update (mount.blocks crypto container) block data := by
  funext other
  unfold Mount.blocks
  by_cases same : other = block
  · subst same
    have here : other.toNat < mount.blockCount := inside
    rw [if_pos here, container.sectorAt_store_self, roundTrip, Function.update_self]
  · rw [Function.update_of_ne same]
    split
    next here =>
      have differ : other.toNat ≠ block.toNat := fun equal => same (UInt32.toNat_inj.1 equal)
      rw [container.sectorAt_store_other _ _ (placed.end_le here) (by omega)]
    · rfl

/-! ## The volume as a store -/

theorem volumeDevice_storage (mount : Mount) (roundTrip : crypto.SectorRoundTrip) :
    Storage (volumeDevice crypto mount) mount.Inside
      (fun disk => mount.Placed disk.container.size)
      (fun disk => mount.blocks crypto disk.container) where
  read block disk placed := by
    by_cases inside : mount.Inside block
    · rw [read_inside placed inside]
      refine ⟨placed, rfl, fun data read => ?_⟩
      cases fault : disk.ioFails with
      | true => simp [fault] at read
      | false =>
        simp only [fault, Bool.false_eq_true, if_false, Except.ok.injEq] at read
        exact ⟨inside, read.symm⟩
    · rw [read_outside inside]
      refine ⟨placed, rfl, fun data read => ?_⟩
      cases read
  write block data disk placed := by
    by_cases inside : mount.Inside block
    · cases protects : mount.protects block with
      | true =>
        rw [write_protected inside protects]
        exact ⟨placed, .inr ⟨_, rfl, rfl⟩⟩
      | false =>
        obtain ⟨fits, write⟩ := write_inside crypto placed inside protects data
        rw [write]
        cases disk.ioFails with
        | true => exact ⟨placed, .inr ⟨_, rfl, rfl⟩⟩
        | false =>
          rw [if_neg Bool.false_ne_true]
          refine ⟨?_, .inl ⟨rfl, inside, ?_⟩⟩
          · rw [Container.store_size _ _ _ (placed.end_le inside)]
            exact placed
          · exact blocks_store roundTrip placed inside data fits
    · rw [write_outside inside]
      exact ⟨placed, .inr ⟨_, rfl, rfl⟩⟩

/-- The volume has no protected blocks. -/
def Mount.Unprotected (mount : Mount) : Prop :=
  ∀ block, mount.Inside block → mount.protects block = false

theorem unprotected_of_flag (unguarded : mount.protectHidden = false) : mount.Unprotected := by
  intro block _
  unfold Mount.protects
  rw [unguarded]
  rfl

/-- The container behind an open volume whose blocks are `blocks` and whose I/O succeeds. -/
structure Decrypts (crypto : Crypto) (mount : Mount) (disk : Disk) (blocks : Blocks) : Prop where
  placed : mount.Placed disk.container.size
  faultless : disk.faults = []
  blocks : mount.blocks crypto disk.container = blocks

/-- Without faults and protection, the operations cannot tell the container from a plain store
of blocks. -/
theorem volumeDevice_simulates (roundTrip : crypto.SectorRoundTrip)
    (unprotected : mount.Unprotected) :
    Io.Simulates (volumeDevice crypto mount) (plainDevice mount.blockCount)
      (Decrypts crypto mount) where
  read block disk₁ disk₂ related := by
    obtain ⟨placed, faultless, same⟩ := related
    have succeeds : disk₁.ioFails = false := by rw [Disk.ioFails, faultless]; rfl
    by_cases inside : mount.Inside block
    · have inside' : block.toNat < mount.blockCount := inside
      rw [read_inside placed inside]
      simp only [plainDevice, succeeds, Bool.false_eq_true, if_false, if_pos inside', same,
        true_and]
      exact ⟨placed, by simp [Disk.afterIo, faultless], same⟩
    · have outside : ¬block.toNat < mount.blockCount := inside
      rw [read_outside inside]
      simp only [plainDevice, if_neg outside, true_and]
      exact ⟨placed, faultless, same⟩
  write block data disk₁ disk₂ related := by
    obtain ⟨placed, faultless, same⟩ := related
    have succeeds : disk₁.ioFails = false := by rw [Disk.ioFails, faultless]; rfl
    by_cases inside : mount.Inside block
    · have inside' : block.toNat < mount.blockCount := inside
      obtain ⟨fits, write⟩ :=
        write_inside crypto placed inside (unprotected block inside) data
      rw [write, succeeds]
      simp only [plainDevice, Bool.false_eq_true, if_false, if_pos inside', true_and]
      refine ⟨?_, by simp [Disk.afterIo, faultless], ?_⟩
      · rw [Container.store_size _ _ _ (placed.end_le inside)]
        exact placed
      · rw [blocks_store roundTrip placed inside, same]
    · have outside : ¬block.toNat < mount.blockCount := inside
      rw [write_outside inside]
      simp only [plainDevice, if_neg outside, true_and]
      exact ⟨placed, faultless, same⟩

/-- With faults and protection, they can tell only by a request that fails. -/
theorem volumeDevice_weakens (mount : Mount) (roundTrip : crypto.SectorRoundTrip) :
    Io.Weakens (volumeDevice crypto mount) (plainDevice mount.blockCount) fun disk blocks =>
      mount.Placed disk.container.size ∧ mount.blocks crypto disk.container = blocks where
  read block disk blocks related := by
    obtain ⟨placed, same⟩ := related
    obtain ⟨ends, kept, returns⟩ := (volumeDevice_storage mount roundTrip).read block disk placed
    cases reply : ((volumeDevice crypto mount).read block disk).1 with
    | error error => exact .inl ⟨error, rfl⟩
    | ok data =>
      obtain ⟨inside, stored⟩ := returns data reply
      have inside' : block.toNat < mount.blockCount := inside
      refine .inr ⟨?_, ends, kept.trans same⟩
      rw [stored, same]
      exact (if_pos inside').symm
  write block data disk blocks related := by
    obtain ⟨placed, same⟩ := related
    obtain ⟨ends, outcome⟩ := (volumeDevice_storage mount roundTrip).write block data disk placed
    cases outcome with
    | inl stored =>
      obtain ⟨reply, inside, shows⟩ := stored
      have inside' : block.toNat < mount.blockCount := inside
      refine .inr ?_
      simp only [plainDevice, if_pos inside']
      exact ⟨reply, ends, by rw [shows, same]⟩
    | inr fails =>
      obtain ⟨error, reply, _⟩ := fails
      exact .inl ⟨error, reply⟩

/-- A container whose I/O fails now and then, or that has a protected range, is the plain store
of its blocks under some schedule. -/
theorem volumeDevice_loses (mount : Mount) (roundTrip : crypto.SectorRoundTrip) :
    Loses (volumeDevice crypto mount) (plainDevice mount.blockCount) fun disk blocks =>
      mount.Placed disk.container.size ∧ mount.blocks crypto disk.container = blocks where
  read block disk blocks related := by
    obtain ⟨placed, same⟩ := related
    obtain ⟨ends, kept, returns⟩ := (volumeDevice_storage mount roundTrip).read block disk placed
    cases reply : ((volumeDevice crypto mount).read block disk).1 with
    | error error => exact .inl ⟨error, rfl, ends, kept.trans same⟩
    | ok data =>
      obtain ⟨inside, stored⟩ := returns data reply
      have inside' : block.toNat < mount.blockCount := inside
      refine .inr ⟨?_, ends, kept.trans same⟩
      rw [stored, same]
      exact (if_pos inside').symm
  write block data disk blocks related := by
    obtain ⟨placed, same⟩ := related
    obtain ⟨ends, outcome⟩ := (volumeDevice_storage mount roundTrip).write block data disk placed
    cases outcome with
    | inl stored =>
      obtain ⟨reply, inside, shows⟩ := stored
      have inside' : block.toNat < mount.blockCount := inside
      apply Or.inr
      simp only [plainDevice, if_pos inside']
      exact ⟨reply, ends, by rw [shows, same]⟩
    | inr fails =>
      obtain ⟨error, reply, kept⟩ := fails
      exact .inl ⟨error, reply, ends, kept.trans same⟩

section Faulty

variable {count : Nat} {vol : Volume} {store : Blocks} {schedule : Schedule Errno}

theorem faulty_writeBlock (served : fate schedule.writes 0 = none) (inside : block.toNat < count)
    (data : Sector) :
    Prog.exec (faulty (plainDevice count)) (writeBlock block data) (vol, store, schedule) =
      (.ok (), vol, Function.update store block data,
        { schedule with writes := schedule.writes.tail }) := by
  rw [Prog.exec_writeAt, faulty_write served]
  simp only [plainDevice, if_pos inside]

theorem faulty_writeBlock_failed {error : Errno} (fails : fate schedule.writes 0 = some error)
    (data : Sector) :
    Prog.exec (faulty (plainDevice count)) (writeBlock block data) (vol, store, schedule) =
      (.error error, vol, store, { schedule with writes := schedule.writes.tail }) := by
  rw [Prog.exec_writeAt, faulty_write_failed fails]

end Faulty

/-! ## Containers whose I/O does not fail -/

theorem Disk.afterIo_faultless (faultless : disk.faults = []) : disk.afterIo = disk := by
  obtain ⟨bytes, faults⟩ := disk
  cases faultless
  rfl

theorem Disk.ioFails_faultless (faultless : disk.faults = []) : disk.ioFails = false := by
  rw [Disk.ioFails, faultless]
  rfl

/-- Where no I/O was to fail, none is to fail. -/
def Disk.StaysFaultless (before after : Disk) : Prop := before.faults = [] → after.faults = []

/-! ## I/O outcomes that were used up -/

/-- Between the two states some I/O outcomes were used up. -/
def Disk.Consumes (before after : Disk) : Prop := ∃ done, before.faults = done ++ after.faults

/-- Between the two states no I/O failed. -/
def Disk.Untroubled (before after : Disk) : Prop :=
  ∃ done, before.faults = done ++ after.faults ∧ ∀ fault ∈ done, fault = false

namespace Disk

theorem Consumes.refl (disk : Disk) : Consumes disk disk := ⟨[], rfl⟩

theorem Consumes.trans {a b c : Disk} (first : Consumes a b) (second : Consumes b c) :
    Consumes a c := by
  obtain ⟨done, left⟩ := first
  obtain ⟨more, right⟩ := second
  exact ⟨done ++ more, by rw [left, right, List.append_assoc]⟩

/-- Where no I/O failed from the first state to the last, none failed on either part of the
way. -/
theorem Untroubled.split {a b c : Disk} (whole : Untroubled a c) (first : Consumes a b)
    (second : Consumes b c) : Untroubled a b ∧ Untroubled b c := by
  obtain ⟨all, used, good⟩ := whole
  obtain ⟨done, left⟩ := first
  obtain ⟨more, right⟩ := second
  have parts : all = done ++ more := by
    apply List.append_left_inj c.faults |>.1
    rw [List.append_assoc, ← right, ← left, used]
  subst parts
  constructor
  · exact ⟨done, left, fun fault listed => good fault (List.mem_append_left _ listed)⟩
  · exact ⟨more, right, fun fault listed => good fault (List.mem_append_right _ listed)⟩

theorem afterIo_consumes (disk : Disk) : Consumes disk disk.afterIo := by
  obtain ⟨container, faults⟩ := disk
  cases faults with
  | nil => exact ⟨[], rfl⟩
  | cons fault rest => exact ⟨[fault], rfl⟩

/-- An I/O call that did not fail. -/
theorem Untroubled.succeeds (untroubled : Untroubled disk disk.afterIo) : disk.ioFails = false := by
  obtain ⟨container, faults⟩ := disk
  obtain ⟨done, used, good⟩ := untroubled
  cases faults with
  | nil => rfl
  | cons fault rest =>
    have one : [fault] = done := List.append_cancel_right used
    exact good fault (one ▸ List.mem_singleton_self fault)

/-- Where none was to fail, none failed. -/
theorem untroubled_of_faultless (faultless : disk.faults = []) (consumes : Consumes disk disk') :
    Untroubled disk disk' := by
  obtain ⟨done, used⟩ := consumes
  rw [faultless] at used
  obtain ⟨rfl, none⟩ := List.append_eq_nil_iff.1 used.symm
  exact ⟨[], by rw [faultless, none]; rfl, fun _ impossible => absurd impossible List.not_mem_nil⟩

theorem fwrite_faults (disk : Disk) (offset : Nat) (data : Sector) :
    (disk.fwrite offset data).2.faults = disk.afterIo.faults := by
  unfold fwrite
  split
  · rfl
  split <;> rfl

theorem fwrite_consumes (disk : Disk) (offset : Nat) (data : Sector) :
    Consumes disk (disk.fwrite offset data).2 := by
  unfold Consumes
  rw [disk.fwrite_faults]
  exact disk.afterIo_consumes

end Disk

theorem Disk.fwrite_untroubled (disk : Disk) {offset : Nat} (data : Sector)
    (fits : offset + 4096 ≤ longMax)
    (untroubled : disk.Untroubled (disk.fwrite offset data).2) :
    (disk.fwrite offset data).1 = true := by
  have works : disk.ioFails = false := by
    apply Disk.Untroubled.succeeds
    unfold Disk.Untroubled at untroubled ⊢
    rwa [disk.fwrite_faults] at untroubled
  unfold Disk.fwrite
  rw [works, if_neg Bool.false_ne_true, dif_pos fits]

theorem read_consumes (crypto : Crypto) (mount : Mount) (block : UInt32) (disk : Disk) :
    Disk.Consumes disk ((volumeDevice crypto mount).read block disk).2 := by
  change Disk.Consumes disk (readBlockAt crypto mount block disk).2
  unfold readBlockAt Disk.fread
  dsimp only
  split
  · exact .refl disk
  split
  · exact .refl disk
  split
  next read =>
    split at read
    · cases read
    · cases read
      exact disk.afterIo_consumes
  next read =>
    split at read
    · cases read
      exact disk.afterIo_consumes
    · cases read

theorem write_consumes (crypto : Crypto) (mount : Mount) (block : UInt32) (data : Sector)
    (disk : Disk) : Disk.Consumes disk ((volumeDevice crypto mount).write block data disk).2 := by
  change Disk.Consumes disk (writeBlockAt crypto mount block data disk).2
  unfold writeBlockAt writeStatus
  dsimp only
  split
  · exact .refl disk
  split
  · exact .refl disk
  split
  · exact .refl disk
  · exact disk.fwrite_consumes _ _

theorem volOpen_consumes (crypto : Crypto) (password : List UInt8)
    (hiddenPassword : Option (List UInt8)) (protectHidden : Bool) (disk : Disk) :
    Disk.Consumes disk (volOpen crypto password hiddenPassword protectHidden disk).2 := by
  have reads := disk.afterIo_consumes.trans disk.afterIo.afterIo_consumes
  rw [volOpen_eq]
  split
  · exact .refl disk
  split
  · exact disk.afterIo_consumes
  split
  · exact reads
  split
  · exact reads
  next mount _ =>
    have loads := Prog.exec_frame (volumeDevice crypto mount) Disk.Consumes.refl
      Disk.Consumes.trans (read_consumes crypto mount) (write_consumes crypto mount)
      (loadVolume crypto mount) (zeroedVolume, disk.afterIo.afterIo)
    unfold loadMount
    split
    next loaded => rw [loaded] at loads; exact reads.trans loads
    next loaded => rw [loaded] at loads; exact reads.trans loads

theorem Disk.Consumes.staysFaultless {before after : Disk} (consumes : before.Consumes after) :
    Disk.StaysFaultless before after := by
  intro faultless
  obtain ⟨done, used⟩ := consumes
  rw [faultless] at used
  exact (List.append_eq_nil_iff.1 used.symm).2

theorem runSession_stays (crypto : Crypto) (session : Session) (disk : Disk) :
    Disk.StaysFaultless disk (runSession crypto session disk).2 := by
  apply Disk.Consumes.staysFaultless
  have opens := volOpen_consumes crypto session.password session.hiddenPassword
    session.protectHidden disk
  unfold runSession
  split
  next opened => rw [opened] at opens; exact opens
  next mount vol disk' opened =>
    rw [opened] at opens
    exact opens.trans (runCalls_frame Disk.Consumes.refl Disk.Consumes.trans
      (read_consumes crypto mount) (write_consumes crypto mount) session.calls (vol, disk'))

variable (crypto mount) in
/-- A program that neither writes nor changes its memory leaves everything as it was. -/
theorem exec_passive_faultless {α : Type} {program : Op α} (passive : Prog.Passive program)
    (vol : Volume) (faultless : disk.faults = []) :
    (Prog.exec (volumeDevice crypto mount) program (vol, disk)).2 = (vol, disk) := by
  refine Prog.exec_passive_frozen _ (fun block => ?_) passive
  change (readBlockAt crypto mount block disk).2 = disk
  unfold readBlockAt
  dsimp only
  split
  · rfl
  split
  · rfl
  have after : (disk.fread (blockOffset mount.volStartOffset block).toNat).2 = disk := by
    rw [Disk.fread_container, Disk.afterIo_faultless faultless]
  generalize disk.fread (blockOffset mount.volStartOffset block).toNat = outcome at after
  obtain ⟨result, disk'⟩ := outcome
  cases result with
  | none => exact after
  | some data => exact after

end DenyFS
