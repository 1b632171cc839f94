import DenyFS.Verified.Outcomes

/-! # Runs on a sound volume

Every call keeps a volume sound and none returns `-EIO`; so do whole runs. -/

namespace DenyFS

open Packed BlockProgram Ownership

variable {count : Nat} {vol vol' : Volume} {disk disk' : Blocks} {crypto : Crypto} {mount : Mount}

/-- The call returned something other than `-EIO`. -/
def NoIoError (result : Except Errno Reply) : Prop := result ≠ .error .eio

theorem noIoError_of {α : Type} {result : Except Errno α} (other : result ≠ .error .eio)
    (f : α → Reply) : NoIoError (result.map f) := by
  cases result with
  | ok value =>
    intro impossible
    cases impossible
  | error error =>
    intro same
    cases same
    exact other rfl

/-! ## No outcome is `-EIO` -/

section Errors

variable {now : UInt64} {number : UInt32}

theorem writeError_ne_eio {len : Nat} {offset : UInt64} {error : Errno}
    (rejected : writeError vol number len offset = some error) : error ≠ .eio := by
  rintro rfl
  unfold writeError at rejected
  split at rejected
  · cases rejected
  split at rejected
  · cases rejected
  split at rejected
  · cases rejected
  · cases rejected

theorem truncateError_ne_eio {newSize : UInt64} {error : Errno}
    (rejected : truncateError vol number newSize = some error) : error ≠ .eio := by
  rintro rfl
  unfold truncateError at rejected
  split at rejected
  · cases rejected
  split at rejected
  · cases rejected
  split at rejected
  · cases rejected
  · cases rejected

theorem readError_ne_eio {size : Nat} {error : Errno}
    (rejected : readError vol number size = some error) : error ≠ .eio := by
  rintro rfl
  unfold readError at rejected
  split at rejected
  · cases rejected
  split at rejected
  · cases rejected
  · cases rejected

theorem WriteOutcome.ne_eio {buf : List UInt8} {offset : UInt64}
    {result : Except Errno Nat × (Volume × Blocks)}
    (outcome : WriteOutcome count crypto mount now number buf offset vol disk result) :
    result.1 ≠ .error .eio := by
  intro fails
  cases outcome with
  | rejected error rejected =>
    cases fails
    exact writeError_ne_eio rejected rfl
  | written _ _ _ _ _ _ => cases fails
  | full _ _ _ _ _ _ _ => cases fails

theorem TruncateOutcome.ne_eio {newSize : UInt64} {result : Except Errno Unit × (Volume × Blocks)}
    (outcome : TruncateOutcome count crypto mount now number newSize vol disk result) :
    result.1 ≠ .error .eio := by
  intro fails
  cases outcome with
  | rejected error rejected =>
    cases fails
    exact truncateError_ne_eio rejected rfl
  | same _ _ => cases fails
  | resized _ _ _ _ _ _ _ => cases fails

theorem CreateOutcome.ne_eio {name : CString} {result : Except Errno UInt32 × (Volume × Blocks)}
    (outcome : CreateOutcome count crypto mount now name vol disk result) :
    result.1 ≠ .error .eio := by
  intro fails
  cases outcome <;> cases fails

theorem UnlinkOutcome.ne_eio {name : CString} {result : Except Errno Unit × (Volume × Blocks)}
    (outcome : UnlinkOutcome count crypto mount name vol disk result) :
    result.1 ≠ .error .eio := by
  intro fails
  cases outcome <;> cases fails

end Errors

/-! ## Lookups -/

/-- How a lookup ended; it changes nothing. -/
inductive LookupOutcome (name : CString) (vol : Volume) (disk : Blocks) :
    Except Errno UInt32 × (Volume × Blocks) → Prop where
  | badLength : ¬(0 < name.bytes.length ∧ name.bytes.length < 251) →
    LookupOutcome name vol disk (.error .einval, vol, disk)
  | found (p : DirentSlot) : nameRef vol disk p = some name.bytes →
    LookupOutcome name vol disk (.ok (UInt32.ofNat (entryAt vol disk p).ino.val), vol, disk)
  | missing : 0 < name.bytes.length → name.bytes.length < 251 →
    (∀ p, nameRef vol disk p ≠ some name.bytes) →
    LookupOutcome name vol disk (.error .enoent, vol, disk)

theorem Sound.lookup (sound : Sound count vol disk) (name : CString) :
    LookupOutcome name vol disk
      (Prog.exec (plainDevice count) (volLookup name) (vol, disk)) := by
  by_cases sized : 0 < name.bytes.length ∧ name.bytes.length < 251
  · cases sound.rootDirectory.exec_volLookup sized.1 sized.2 with
    | inl found =>
      obtain ⟨p, named, returns⟩ := found
      rw [returns]
      exact .found p named
    | inr absent =>
      rw [absent.2]
      exact .missing sized.1 sized.2 absent.1
  · have fails : Prog.exec (plainDevice count) (volLookup name) (vol, disk) =
        (.error .einval, vol, disk) := by
      unfold volLookup
      rw [if_pos (by omega)]
      rfl
    rw [fails]
    exact .badLength sized

theorem LookupOutcome.unchanged {name : CString} {result : Except Errno UInt32 × (Volume × Blocks)}
    (outcome : LookupOutcome name vol disk result) :
    result.2 = (vol, disk) ∧ result.1 ≠ .error .eio := by
  refine ⟨?_, fun fails => ?_⟩
  · cases outcome <;> rfl
  · cases outcome <;> cases fails

/-- What `denyfs_vol_lookup` returns where no request fails. -/
def lookupResult (count : Nat) (vol : Volume) (disk : Blocks) (name : CString) :
    Except Errno UInt32 := (Prog.exec (plainDevice count) (volLookup name) (vol, disk)).1

/-- What `denyfs_vol_readdir` lists where no request fails. -/
def readdirResult (count : Nat) (vol : Volume) (disk : Blocks) :
    Except Errno (List (List UInt8 × UInt32)) :=
  (Prog.exec (plainDevice count) (volReaddir collectEntries []) (vol, disk)).1

/-- Sound volumes with the same directory entries answer lookups and listings alike. -/
theorem Sound.same_answers (sound : Sound count vol disk) (sound' : Sound count vol' disk')
    (entries : ∀ p, entryAt vol' disk' p = entryAt vol disk p) :
    (∀ name, lookupResult count vol' disk' name = lookupResult count vol disk name) ∧
      readdirResult count vol' disk' = readdirResult count vol disk := by
  have names : ∀ p, nameRef vol' disk' p = nameRef vol disk p := fun p => by
    rw [nameRef, nameRef, entries]
  constructor
  · intro name
    unfold lookupResult
    have before := sound.lookup name
    have after := sound'.lookup name
    generalize Prog.exec (plainDevice count) (volLookup name) (vol, disk) = first at before
    generalize Prog.exec (plainDevice count) (volLookup name) (vol', disk') = second at after
    cases before with
    | badLength long =>
      cases after with
      | badLength _ => rfl
      | found p named => exact absurd (sound'.validName_of_named named).length long
      | missing nonempty short _ => exact absurd ⟨nonempty, short⟩ long
    | found p named =>
      cases after with
      | badLength long => exact absurd (sound.validName_of_named named).length long
      | found q named' =>
        rw [names] at named'
        rw [sound.directory.names p q name.bytes named named', entries]
      | missing _ _ absent => exact absurd ((names p).trans named) (absent p)
    | missing nonempty short absent =>
      cases after with
      | badLength long => exact absurd ⟨nonempty, short⟩ long
      | found p named => exact absurd ((names p).symm.trans named) (absent p)
      | missing _ _ _ => rfl
  · have same : listing vol' disk' = listing vol disk := by
      unfold listing
      simp only [entries]
    unfold readdirResult
    rw [sound.exec_volReaddir, sound'.exec_volReaddir, same]

/-! ## Calls -/

/-- One call keeps a volume sound and is no `-EIO`. -/
theorem Sound.after_call (sound : Sound count vol disk) (crypto : Crypto) (mount : Mount)
    (c : Call) :
    Sound count (call crypto mount (plainDevice count) c (vol, disk)).2.1
        (call crypto mount (plainDevice count) c (vol, disk)).2.2 ∧
      NoIoError (call crypto mount (plainDevice count) c (vol, disk)).1 := by
  unfold call
  cases c with
  | lookup name =>
    rw [perform, Prog.exec_bind_pure]
    obtain ⟨same, other⟩ := (sound.lookup name).unchanged
    rw [same]
    exact ⟨sound, noIoError_of other _⟩
  | create now name =>
    rw [perform, Prog.exec_bind_pure]
    have outcome := sound.exec_volCreate crypto mount now name
    exact ⟨outcome.sound sound, noIoError_of outcome.ne_eio _⟩
  | unlink name =>
    rw [perform, Prog.exec_bind_pure]
    have outcome := sound.exec_volUnlink crypto mount name
    exact ⟨outcome.sound sound, noIoError_of outcome.ne_eio _⟩
  | read ino size offset =>
    rw [perform, Prog.exec_bind_pure, exec_volRead sound.accounted sound.tree.sizes]
    refine ⟨sound, noIoError_of ?_ _⟩
    unfold readResult
    cases rejected : readError vol ino size with
    | none =>
      intro same
      cases same
    | some error =>
      intro same
      cases same
      exact readError_ne_eio rejected rfl
  | write now ino buf offset =>
    rw [perform, Prog.exec_bind_pure]
    have outcome := sound.exec_volWrite crypto mount now ino buf offset
    exact ⟨outcome.sound sound, noIoError_of outcome.ne_eio _⟩
  | truncate now ino newSize =>
    rw [perform, Prog.exec_bind_pure]
    have outcome := sound.exec_volTruncate crypto mount now ino newSize
    exact ⟨outcome.sound sound, noIoError_of outcome.ne_eio _⟩
  | readdir =>
    rw [perform, Prog.exec_bind_pure, sound.exec_volReaddir]
    refine ⟨sound, fun fails => ?_⟩
    cases fails
  | flush =>
    rw [perform, Prog.exec_bind_pure]
    obtain ⟨disk', flushes, shows⟩ :=
      exec_volFlush_plain crypto mount sound.accounted.layout disk
    rw [flushes]
    refine ⟨sound.flush shows, fun fails => ?_⟩
    cases fails

/-! ## Runs -/

/-- A run keeps a volume sound. -/
theorem Sound.after_run (sound : Sound count vol disk) (calls : List Call) :
    Sound count (runCalls crypto mount (plainDevice count) calls (vol, disk)).2.1
      (runCalls crypto mount (plainDevice count) calls (vol, disk)).2.2 :=
  Machine.run_invariant (fun state : Volume × Blocks => Sound count state.1 state.2)
    (fun c _ _ before => (before.after_call crypto mount c).1) sound

/-- No call of a run returns `-EIO`. -/
theorem Sound.noIoError_of_run (sound : Sound count vol disk) (calls : List Call) :
    ∀ result ∈ (runCalls crypto mount (plainDevice count) calls (vol, disk)).1,
      NoIoError result := by
  induction calls generalizing vol disk with
  | nil =>
    intro result impossible
    cases impossible
  | cons c rest ih =>
    intro result member
    obtain ⟨after, other⟩ := sound.after_call crypto mount c
    cases List.mem_cons.1 member with
    | inl first =>
      rw [first]
      exact other
    | inr later => exact ih after result later

end DenyFS
