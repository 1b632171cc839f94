import DenyFS.Verified.FuseUpdates
import DenyFS.Verified.Recovery

/-! # What a request leaves behind

A request changes the volume by one call at most.  So requests keep what calls keep: the metadata
can be flushed, and the volume can be opened again unless a write ran out of space. -/

namespace DenyFS

open Packed BlockProgram SparseFile

variable {count : Nat} {crypto : Crypto} {mount : Mount} {vol : Volume}

/-- What a request leaves behind: what was there, or what one call leaves behind. -/
inductive Leaves (count : Nat) (crypto : Crypto) (mount : Mount) (vol : Volume) (disk : Blocks)
    (r : Request) (answer : Except Errno Answer) : Volume × Blocks → Prop where
  | same : Leaves count crypto mount vol disk r answer (vol, disk)
  | called (c : Call) : (¬r.RanFull answer → TakesAllOrNone vol disk c) →
    Leaves count crypto mount vol disk r answer
      (call crypto mount (plainDevice count) c (vol, disk)).2

/-! ## One request on the blocks -/

section Plain

variable {disk : Blocks}

/-- A request that only looks. -/
theorem Leaves.of_passive {r : Request} (passive : Prog.Passive (serve crypto mount r)) :
    Leaves count crypto mount vol disk r (request crypto mount (plainDevice count) r (vol, disk)).1
      (request crypto mount (plainDevice count) r (vol, disk)).2 := by
  have unchanged : (request crypto mount (plainDevice count) r (vol, disk)).2 = (vol, disk) :=
    exec_passive passive
  rw [unchanged]
  exact .same

/-- A request that ends in an operation on the volume. -/
theorem Leaves.of_call {α : Type} {r : Request} {program : Op α} {f : α → Reply} {c : Call}
    (performs : perform crypto mount c = (do return f (← program)))
    {answer : Except Errno Answer} {state : Volume × Blocks}
    (ends : state = (Prog.exec (plainDevice count) program (vol, disk)).2)
    (room : ¬r.RanFull answer → TakesAllOrNone vol disk c) :
    Leaves count crypto mount vol disk r answer state := by
  have calls : (call crypto mount (plainDevice count) c (vol, disk)).2 =
      (Prog.exec (plainDevice count) program (vol, disk)).2 := by
    unfold call
    rw [performs]
    exact congrArg Prod.snd (Prog.exec_bind_pure ..)
  rw [ends, ← calls]
  exact .called c room

theorem fuseLookup_passive (path : CString) (noName : Errno) :
    Prog.Passive (fuseLookup path noName) := by
  unfold fuseLookup
  split
  · exact .ofThrow _
  · exact (volLookup_simple _).passive.elseThrow _

theorem fuseGetattr_passive (path : CString) : Prog.Passive (fuseGetattr path) := by
  unfold fuseGetattr
  apply Prog.Passive.ofGet.bind
  intro vol
  split
  · exact .ofPure _
  · exact (fuseLookup_passive path _).bind fun ino => .ofPure _

theorem fuseReaddir_passive {τ : Type} (filler : τ → List UInt8 → τ × Bool) (path : CString)
    (buf : τ) : Prog.Passive (fuseReaddir filler path buf) := by
  unfold fuseReaddir
  split
  · exact .ofThrow _
  · split
    · exact .ofPure _
    · split
      · exact .ofPure _
      · exact (volReaddir_simple _ _).passive

theorem fuseRead_passive (path : CString) (size : Nat) (offset : Int64) :
    Prog.Passive (fuseRead path size offset) := by
  unfold fuseRead
  split
  · exact .ofThrow _
  · exact (fuseLookup_passive path _).bind fun ino => (volRead_simple ino size _).passive

/-- The request may change what is stored. -/
def Request.updates : Request → Bool
  | .getattr _ | .readdir _ | .openFile _ | .read _ _ _ => false
  | .write _ _ _ _ | .create _ _ | .unlink _ | .truncate _ _ _ => true

/-- A request that updates nothing only looks. -/
theorem serve_passive (crypto : Crypto) (mount : Mount) {r : Request} (looks : r.updates = false) :
    Prog.Passive (serve crypto mount r) := by
  cases r with
  | getattr path => exact (fuseGetattr_passive path).bind fun _ => .ofPure _
  | readdir path => exact (fuseReaddir_passive _ path _).bind fun _ => .ofPure _
  | openFile path =>
    have passive : Prog.Passive (fuseOpen path) :=
      (fuseLookup_passive path _).bind fun _ => .ofPure _
    exact passive.bind fun _ => .ofPure _
  | read path size offset => exact (fuseRead_passive path size offset).bind fun _ => .ofPure _
  | write now path buf offset => cases looks
  | create now path => cases looks
  | unlink path => cases looks
  | truncate now path size => cases looks

/-- A write that did not run out of space had room for all of it. -/
theorem WriteOutcome.takesAll {now : UInt64} {number : UInt32} {buf : List UInt8} {offset : UInt64}
    {result : Except Errno Nat × (Volume × Blocks)}
    (outcome : WriteOutcome count crypto mount now number buf offset vol disk result)
    (room : result.1 = .error .enospc → maxFileSize < offset.toNat + buf.length) :
    TakesAllOrNone vol disk (.write now number buf offset) := by
  cases outcome with
  | rejected error rejected => exact .inl (by simp [rejected])
  | written vol₁ disk₁ disk' accepted stored shows =>
    have spent := stored.spent
    rw [card_neededSlots _ _ (of_writeError_none accepted).2.2] at spent
    exact .inr (.inl (by omega))
  | full m vol₁ disk₁ accepted stops stored full =>
    have fits := (of_writeError_none accepted).2.2
    have past := room rfl
    omega

theorem Sound.request_leaves (sound : Sound count vol disk) (crypto : Crypto) (mount : Mount)
    (r : Request) : Leaves count crypto mount vol disk r
      (request crypto mount (plainDevice count) r (vol, disk)).1
      (request crypto mount (plainDevice count) r (vol, disk)).2 := by
  cases r with
  | getattr path => exact .of_passive (serve_passive crypto mount rfl)
  | readdir path => exact .of_passive (serve_passive crypto mount rfl)
  | openFile path => exact .of_passive (serve_passive crypto mount rfl)
  | read path size offset => exact .of_passive (serve_passive crypto mount rfl)
  | write now path buf offset =>
    unfold request
    rw [serve, Prog.exec_bind_pure, fuseWrite]
    by_cases negative : offset < 0
    · rw [if_pos negative]
      exact .same
    rw [if_neg negative]
    cases sound.exec_onFile path fun ino => volWrite crypto mount now ino buf offset.toUInt64 with
    | inl fails =>
      obtain ⟨error, _, returns⟩ := fails
      rw [returns]
      exact .same
    | inr succeeds =>
      obtain ⟨_, p, _, _, _, returns⟩ := succeeds
      rw [returns]
      apply Leaves.of_call (c := .write now (UInt32.ofNat (entryAt vol disk p).ino.val) buf
        offset.toUInt64) rfl rfl
      intro notFull
      apply (sound.exec_volWrite crypto mount now _ buf _).takesAll
      intro stopped
      by_contra fits
      rw [stopped] at notFull
      exact notFull (Nat.not_lt.1 fits)
  | create now path =>
    unfold request
    rw [serve, Prog.exec_bind_pure, fuseCreate]
    cases onPath : pathToName path with
    | none => exact .same
    | some name =>
      dsimp only
      rw [Prog.exec_bind_pure]
      apply Leaves.of_call (c := .create now name) rfl
      · rfl
      · exact fun _ => trivial
  | unlink path =>
    unfold request
    rw [serve, Prog.exec_bind_pure, fuseUnlink]
    cases onPath : pathToName path with
    | none => exact .same
    | some name => exact .of_call (c := .unlink name) rfl rfl fun _ => trivial
  | truncate now path size =>
    unfold request
    rw [serve, Prog.exec_bind_pure, fuseTruncate]
    by_cases negative : size < 0
    · rw [if_pos negative]
      exact .same
    by_cases large : maxFileSize < size.toUInt64.toNat
    · rw [if_neg negative, if_pos large]
      exact .same
    rw [if_neg negative, if_neg large]
    cases sound.exec_onFile path fun ino => volTruncate crypto mount now ino size.toUInt64 with
    | inl fails =>
      obtain ⟨error, _, returns⟩ := fails
      rw [returns]
      exact .same
    | inr succeeds =>
      obtain ⟨_, p, _, _, _, returns⟩ := succeeds
      rw [returns]
      exact .of_call (c := .truncate now (UInt32.ofNat (entryAt vol disk p).ino.val) size.toUInt64)
        rfl rfl fun _ => trivial

/-- A write with room for its blocks stores all of its data. -/
theorem Sound.request_writes (sound : Sound count vol disk) (crypto : Crypto) (mount : Mount)
    (now : UInt64) {path name : CString} {p : DirentSlot} {buf : List UInt8} {offset : Int64}
    (onPath : pathToName path = some name) (named : nameRef vol disk p = some name.bytes)
    (positive : ¬offset < 0) (sized : buf.length ≤ intMax)
    (fits : offset.toUInt64.toNat + buf.length ≤ maxFileSize)
    (room : blocksNeeded (vol.inodes (entryAt vol disk p).ino) disk offset.toUInt64.toNat
      buf.length ≤ vol.sb.freeBlocks.toNat) :
    (request crypto mount (plainDevice count) (.write now path buf offset) (vol, disk)).1 =
      .ok (.count buf.length) := by
  have finds : (filesOf vol disk).find path =
      .ok (name.bytes, storedFile (vol.inodes (entryAt vol disk p).ino) disk) :=
    FileStore.find_eq_ok.2 ⟨name, onPath, rfl, sound.filesOf_named named⟩
  unfold request
  rw [serve, Prog.exec_bind_pure, fuseWrite, if_neg positive]
  cases sound.exec_onFile path fun ino => volWrite crypto mount now ino buf offset.toUInt64 with
  | inl fails =>
    obtain ⟨error, missing, _⟩ := fails
    simp [FileStore.missing, finds] at missing
  | inr succeeds =>
    obtain ⟨name', q, named', _, finds', returns⟩ := succeeds
    rw [finds] at finds'
    obtain rfl := (Prod.mk.inj (Except.ok.inj finds')).1
    obtain rfl := sound.directory.names q p name.bytes named' named
    rw [returns]
    have small := ofNat_ino_lt (entryAt vol disk q).ino
    have inode : inodeOf (UInt32.ofNat (entryAt vol disk q).ino.val) = (entryAt vol disk q).ino :=
      ofNat_ino _
    have file := (sound.file_of_named named).1
    rw [← inode] at room file
    have outcome := sound.exec_volWrite crypto mount now
      (UInt32.ofNat (entryAt vol disk q).ino.val) buf offset.toUInt64
    generalize Prog.exec (plainDevice count) (volWrite crypto mount now
      (UInt32.ofNat (entryAt vol disk q).ino.val) buf offset.toUInt64) (vol, disk) = result
      at outcome ⊢
    cases outcome with
    | rejected error rejected =>
      rw [writeError_eq_none small file sized fits] at rejected
      cases rejected
    | written _ _ _ _ _ _ => rfl
    | full m vol₁ disk₁ accepted stops stored full =>
      have grows := Finset.card_le_card (neededSlots_mono
        (vol.inodes (inodeOf (UInt32.ofNat (entryAt vol disk q).ino.val))) disk
        (List.take_subset (m + 1) (touchedBlocks offset.toUInt64.toNat buf.length)))
      rw [card_neededSlots _ _ fits] at grows
      omega

/-- What calls keep, requests keep. -/
theorem Sound.request_keeps (sound : Sound count vol disk) (crypto : Crypto) (mount : Mount)
    (r : Request) {holds : Volume → Blocks → Prop} (before : holds vol disk)
    (kept : ∀ c, (¬r.RanFull (request crypto mount (plainDevice count) r (vol, disk)).1 →
      TakesAllOrNone vol disk c) →
        holds (call crypto mount (plainDevice count) c (vol, disk)).2.1
          (call crypto mount (plainDevice count) c (vol, disk)).2.2) :
    holds (request crypto mount (plainDevice count) r (vol, disk)).2.1
      (request crypto mount (plainDevice count) r (vol, disk)).2.2 := by
  have leaves := sound.request_leaves crypto mount r
  generalize request crypto mount (plainDevice count) r (vol, disk) = result at leaves kept ⊢
  obtain ⟨answer, state⟩ := result
  cases leaves with
  | same => exact before
  | called c room => exact kept c room

end Plain

/-! ## One request on the container -/

section Container

variable {disk : Disk}

/-- A request on the container does what it does on the blocks the container shows. -/
theorem request_plain (roundTrip : crypto.SectorRoundTrip) (unprotected : mount.Unprotected)
    (decrypts : Decrypts crypto mount disk (mount.blocks crypto disk.container)) (r : Request)
    (vol : Volume) :
    let after := request crypto mount (volumeDevice crypto mount) r (vol, disk)
    let plain := request crypto mount (plainDevice mount.blockCount) r
      (vol, mount.blocks crypto disk.container)
    after.1 = plain.1 ∧ after.2.1 = plain.2.1 ∧
      mount.blocks crypto after.2.2.container = plain.2.2 ∧
      Decrypts crypto mount after.2.2 (mount.blocks crypto after.2.2.container) := by
  obtain ⟨outcome, memory, related⟩ := Prog.exec_simulation
    (volumeDevice_simulates roundTrip unprotected) (serve crypto mount r) vol decrypts
  exact ⟨outcome, memory, related.blocks, related.placed, related.faultless, rfl⟩

variable {base : Container} (roundTrip : crypto.SectorRoundTrip) (placed : mount.Placed base.size)
  (running : Running crypto mount base vol disk)
include roundTrip placed running

theorem Running.requested (sized : base.WellSized) (r : Request) :
    Running crypto mount base
      (request crypto mount (volumeDevice crypto mount) r (vol, disk)).2.1
      (request crypto mount (volumeDevice crypto mount) r (vol, disk)).2.2 := by
  have shows := running.shows
  obtain ⟨_, memory, blocks, decrypts⟩ :=
    request_plain roundTrip shows.unprotected shows.decrypts r vol
  have accords := shows.sound.request_accords crypto mount r
  have flushable := shows.sound.request_keeps crypto mount r running.flushable fun c _ =>
    (keeps_perform (plainDevice_storage mount.blockCount) shows.sound.accounted.layout.unframed
      crypto mount c vol _ trivial running.flushable).2.1
  constructor
  case shows =>
    constructor
    case unprotected => exact shows.unprotected
    case decrypts => exact decrypts
    case sound =>
      rw [memory, blocks]
      exact accords.sound
  case flushable =>
    rw [memory, blocks]
    exact flushable.rebase
  case carries =>
    obtain ⟨size, kept⟩ :=
      exec_outside crypto vol disk (serve crypto mount r) shows.decrypts.placed
    apply running.carries.after sized size decrypts.faultless
    intro i header inFile
    apply kept i (by rw [running.carries.size]; exact inFile)
    intro range
    have first := placed.afterHeader
    have last := placed.beforeTail
    have lower := range.1
    have upper := range.2
    omega

theorem Running.request_closable (closable : Closable crypto mount vol (mount.blocks crypto disk.container))
    (r : Request)
    (room : ¬r.RanFull (request crypto mount (volumeDevice crypto mount) r (vol, disk)).1) :
    Closable crypto mount (request crypto mount (volumeDevice crypto mount) r (vol, disk)).2.1
      (mount.blocks crypto
        (request crypto mount (volumeDevice crypto mount) r (vol, disk)).2.2.container) := by
  have shows := running.shows
  obtain ⟨answer, memory, blocks, _⟩ :=
    request_plain roundTrip shows.unprotected shows.decrypts r vol
  rw [memory, blocks]
  rw [answer] at room
  exact shows.sound.request_keeps crypto mount r closable fun c meets =>
    closable.call placed.sized shows.sound running.flushable c (meets room)

end Container

end DenyFS
