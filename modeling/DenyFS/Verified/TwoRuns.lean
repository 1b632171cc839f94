import DenyFS.Verified.Confinement

/-! # Two runs side by side

A session sees the two header slots and the range of the volume it mounts, and nothing else.
`Agree seen` relates two disks that an observer of the positions `seen` cannot tell apart;
every request, hence every call and every session that stays inside `seen`, answers alike on
both and keeps them related. -/

namespace DenyFS

open Packed BlockProgram

/-- Two disks of one length and one I/O outcome whose bytes agree on `seen`. -/
structure Agree (seen : Nat → Prop) (first second : Disk) : Prop where
  size : first.container.size = second.container.size
  faults : first.faults = second.faults
  bytes : ∀ i < first.container.size, seen i →
    first.container.byte i = second.container.byte i

namespace Agree

variable {seen : Nat → Prop} {first second : Disk}

theorem mono {narrow : Nat → Prop} (agree : Agree seen first second)
    (inside : ∀ i, narrow i → seen i) : Agree narrow first second :=
  ⟨agree.size, agree.faults, fun i inFile visible => agree.bytes i inFile (inside i visible)⟩

theorem ioFails (agree : Agree seen first second) : first.ioFails = second.ioFails := by
  simp only [Disk.ioFails, agree.faults]

theorem afterIo (agree : Agree seen first second) : Agree seen first.afterIo second.afterIo :=
  ⟨agree.size, congrArg List.tail agree.faults, agree.bytes⟩

/-- A sector that the observer sees entirely. -/
theorem sectorAt (agree : Agree seen first second) {offset : Nat}
    (inFile : offset + 4096 ≤ first.container.size)
    (visible : ∀ i, offset ≤ i → i < offset + 4096 → seen i) :
    first.container.sectorAt offset = second.container.sectorAt offset := by
  funext k
  exact agree.bytes _ (by omega) (visible _ (by omega) (by omega))

theorem fread (agree : Agree seen first second) {offset : Nat}
    (inFile : offset + 4096 ≤ first.container.size)
    (visible : ∀ i, offset ≤ i → i < offset + 4096 → seen i) :
    (first.fread offset).1 = (second.fread offset).1 ∧
      Agree seen (first.fread offset).2 (second.fread offset).2 := by
  rw [first.fread_inside inFile, second.fread_inside (agree.size ▸ inFile),
    agree.sectorAt inFile visible, agree.ioFails]
  exact ⟨rfl, agree.afterIo⟩

theorem fwrite (agree : Agree seen first second) (offset : Nat) (data : Sector) :
    (first.fwrite offset data).1 = (second.fwrite offset data).1 ∧
      (first.container.size = (first.fwrite offset data).2.container.size →
        Agree seen (first.fwrite offset data).2 (second.fwrite offset data).2) := by
  unfold Disk.fwrite
  rw [agree.ioFails]
  split
  · exact ⟨rfl, fun _ => agree.afterIo⟩
  split
  · refine ⟨rfl, fun kept => ⟨?_, congrArg List.tail agree.faults, fun i inFile visible => ?_⟩⟩
    · simp only [Container.store, agree.size]
    · dsimp only at kept
      rw [← kept] at inFile
      simp only [Container.store]
      rw [← agree.size, agree.bytes i inFile visible]
  · exact ⟨rfl, fun _ => agree.afterIo⟩

end Agree

/-- The range of a volume. -/
def Mount.Range (mount : Mount) (i : Nat) : Prop :=
  mount.volStartOffset.toNat ≤ i ∧ i < mount.volStartOffset.toNat + mount.volumeSize.toNat

/-- Requests of a volume inside `seen` answer alike on disks that agree on `seen`. -/
theorem agree_simulates (crypto : Crypto) {mount : Mount} {size : Nat} {seen : Nat → Prop}
    (placed : mount.Placed size) (visible : ∀ i, mount.Range i → seen i) :
    Io.Simulates (volumeDevice crypto mount) (volumeDevice crypto mount)
      (fun first second => first.container.size = size ∧ Agree seen first second) where
  read block first second related := by
    obtain ⟨length, agree⟩ := related
    have here := mount.confines_read crypto block first (length ▸ placed)
    simp only [volumeDevice, readBlockAt] at here ⊢
    split
    · exact ⟨rfl, length, agree⟩
    next inside =>
    rw [if_neg inside] at here
    split
    · exact ⟨rfl, length, agree⟩
    rw [block_outside_iff, Nat.not_le] at inside
    have offset := placed.blockOffset_toNat inside
    have := placed.beforeTail
    have inFile : (blockOffset mount.volStartOffset block).toNat + 4096 ≤
        first.container.size := by omega
    obtain ⟨reply, after⟩ := agree.fread inFile
      (fun i lower upper => visible i ⟨by omega, by omega⟩)
    have kept : (first.fread (blockOffset mount.volStartOffset block).toNat).2.container =
        first.container := by rw [first.fread_container, Disk.afterIo_container]
    rcases read₁ : first.fread (blockOffset mount.volStartOffset block).toNat with ⟨data₁, after₁⟩
    rcases read₂ : second.fread (blockOffset mount.volStartOffset block).toNat with ⟨data₂, after₂⟩
    rw [read₁, read₂] at reply after
    rw [read₁] at kept
    dsimp only at reply after kept
    subst reply
    cases data₁ with
    | none => exact ⟨rfl, by rw [kept, length], after⟩
    | some data => exact ⟨rfl, by rw [kept, length], after⟩
  write block data first second related := by
    obtain ⟨length, agree⟩ := related
    have kept := (mount.confines_write crypto block data first (length ▸ placed)).1
    simp only [volumeDevice, writeBlockAt] at kept ⊢
    split
    · exact ⟨rfl, length, agree⟩
    next inside =>
    rw [if_neg inside] at kept
    split
    · exact ⟨rfl, length, agree⟩
    next unprotected =>
    rw [if_neg unprotected] at kept
    split
    · exact ⟨rfl, length, agree⟩
    next representable =>
    rw [if_neg representable] at kept
    obtain ⟨reply, after⟩ := agree.fwrite (blockOffset mount.volStartOffset block).toNat
      (crypto.xtsEncrypt mount.volumeKey block.toUInt64 data)
    simp only [writeStatus] at kept ⊢
    exact ⟨by rw [reply], by rw [kept, length], after kept.symm⟩

/-! ## Sessions -/

section Sessions

variable {crypto : Crypto} {seen : Nat → Prop} {first second : Disk}

theorem loadMount_agree {mount : Mount} (placed : mount.Placed first.container.size)
    (visible : ∀ i, mount.Range i → seen i) (agree : Agree seen first second) :
    (loadMount crypto mount first).1 = (loadMount crypto mount second).1 ∧
      (loadMount crypto mount first).2.container.size = first.container.size ∧
      Agree seen (loadMount crypto mount first).2 (loadMount crypto mount second).2 := by
  obtain ⟨outcome, memory, length, after⟩ := Prog.exec_simulation
    (agree_simulates crypto placed visible) (loadVolume crypto mount) zeroedVolume ⟨rfl, agree⟩
  unfold loadMount
  rcases load₁ : Prog.exec (volumeDevice crypto mount) (loadVolume crypto mount)
    (zeroedVolume, first) with ⟨result₁, vol₁, disk₁⟩
  rcases load₂ : Prog.exec (volumeDevice crypto mount) (loadVolume crypto mount)
    (zeroedVolume, second) with ⟨result₂, vol₂, disk₂⟩
  rw [load₁] at outcome memory length after
  rw [load₂] at outcome memory after
  dsimp only at outcome memory length after
  subst outcome memory
  cases result₁ with
  | ok _ => exact ⟨rfl, length, after⟩
  | error _ => exact ⟨rfl, length, after⟩

/-- Two containers that select the same mount open alike where its range is seen. -/
theorem volOpen_agree (password : List UInt8) (hiddenPassword : Option (List UInt8))
    (protectHidden : Bool)
    (same : first.container.mountFor crypto password hiddenPassword protectHidden =
      second.container.mountFor crypto password hiddenPassword protectHidden)
    (visible : ∀ mount,
      first.container.mountFor crypto password hiddenPassword protectHidden = some mount →
        ∀ i, mount.Range i → seen i)
    (agree : Agree seen first second) :
    (volOpen crypto password hiddenPassword protectHidden first).1 =
        (volOpen crypto password hiddenPassword protectHidden second).1 ∧
      (volOpen crypto password hiddenPassword protectHidden first).2.container.size =
        first.container.size ∧
      Agree seen (volOpen crypto password hiddenPassword protectHidden first).2
        (volOpen crypto password hiddenPassword protectHidden second).2 := by
  rw [volOpen_eq, volOpen_eq, ← agree.size, ← same, ← agree.ioFails, ← agree.afterIo.ioFails]
  split
  · exact ⟨rfl, rfl, agree⟩
  next sized =>
  split
  · exact ⟨rfl, rfl, agree.afterIo⟩
  split
  · exact ⟨rfl, rfl, agree.afterIo.afterIo⟩
  split
  · exact ⟨rfl, rfl, agree.afterIo.afterIo⟩
  next mount selected =>
    have wellSized : first.container.WellSized := ⟨by omega, by omega⟩
    exact loadMount_agree (mountFor_placed wellSized selected)
      (visible mount selected) agree.afterIo.afterIo

variable (crypto seen) in
/-- A whole session answers alike on disks that agree on what it sees. -/
theorem runSession_agree (session : Session)
    (same : first.container.mountFor crypto session.password session.hiddenPassword
        session.protectHidden =
      second.container.mountFor crypto session.password session.hiddenPassword
        session.protectHidden)
    (visible : ∀ mount, first.container.mountFor crypto session.password session.hiddenPassword
      session.protectHidden = some mount → ∀ i, mount.Range i → seen i)
    (agree : Agree seen first second) :
    (runSession crypto session first).1 = (runSession crypto session second).1 ∧
      Agree seen (runSession crypto session first).2 (runSession crypto session second).2 := by
  obtain ⟨outcome, length, after⟩ := volOpen_agree session.password session.hiddenPassword
    session.protectHidden same visible agree
  unfold runSession
  rcases open₁ : volOpen crypto session.password session.hiddenPassword session.protectHidden first
    with ⟨found₁, disk₁⟩
  rcases open₂ : volOpen crypto session.password session.hiddenPassword session.protectHidden second
    with ⟨found₂, disk₂⟩
  rw [open₁] at outcome length after
  rw [open₂] at outcome after
  dsimp only at outcome length after
  subst outcome
  cases found₁ with
  | none => exact ⟨rfl, after⟩
  | some found =>
    obtain ⟨mount, vol⟩ := found
    obtain ⟨sized, selected, _⟩ := volOpen_some open₁
    have simulates :=
      agree_simulates crypto (mountFor_placed sized selected) (visible mount selected)
    obtain ⟨results, _, _, final⟩ := runCalls_simulation simulates session.calls vol ⟨length, after⟩
    exact ⟨congrArg some results, final⟩

variable (crypto) in
/-- What a session leaves alone: everything outside the range of the volume it mounts. -/
theorem runSession_outside (session : Session) (disk : Disk) :
    (runSession crypto session disk).2.container.size = disk.container.size ∧
      ∀ i < disk.container.size,
        (∀ mount, disk.container.mountFor crypto session.password session.hiddenPassword
          session.protectHidden = some mount → ¬mount.Range i) →
        (runSession crypto session disk).2.container.byte i = disk.container.byte i := by
  have kept := volOpen_container crypto session.password session.hiddenPassword
    session.protectHidden disk
  unfold runSession
  rcases opened : volOpen crypto session.password session.hiddenPassword session.protectHidden disk
    with ⟨found, disk'⟩
  rw [opened] at kept
  dsimp only at kept
  cases found with
  | none =>
    dsimp only
    rw [kept]
    exact ⟨rfl, fun _ _ _ => rfl⟩
  | some found =>
    obtain ⟨mount, vol⟩ := found
    obtain ⟨sized, selected, _⟩ := volOpen_some opened
    obtain ⟨length, bytes⟩ := runCalls_confined crypto mount session.calls (vol, disk')
      (by rw [kept]; exact mountFor_placed sized selected)
    dsimp only at length bytes ⊢
    rw [kept] at length bytes
    exact ⟨length, fun i inFile outside =>
      bytes i inFile fun writable => outside mount selected ⟨writable.1, writable.2.1⟩⟩

end Sessions

end DenyFS
