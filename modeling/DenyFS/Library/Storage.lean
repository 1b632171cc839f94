import DenyFS.Library.BlockProgram
import Mathlib.Logic.Function.Basic

/-! # Devices that store blocks and may fail

A `Storage` is a device under which one can see the contents of every address: a read returns
what is seen or fails, a write replaces what is seen at its address or fails and changes
nothing.  `Keeps` is the rule set for assertions that every step of a program preserves,
whichever of its requests fail. -/

namespace BlockProgram

variable {δ σ ι β ε α γ : Type}

/-- `view` shows what the device stores in the states `sound` holds of; only addresses that are
`inside` are ever served. -/
structure Storage [DecidableEq ι] (device : Device δ ι β ε) (inside : ι → Prop) (sound : δ → Prop)
    (view : δ → ι → β) : Prop where
  read : ∀ address disk, sound disk → sound (device.read address disk).2 ∧
    view (device.read address disk).2 = view disk ∧
    ∀ data, (device.read address disk).1 = .ok data → inside address ∧ data = view disk address
  write : ∀ address data disk, sound disk → sound (device.write address data disk).2 ∧
    (((device.write address data disk).1 = .ok () ∧ inside address ∧
        view (device.write address data disk).2 = Function.update (view disk) address data) ∨
      ∃ error, (device.write address data disk).1 = .error error ∧
        view (device.write address data disk).2 = view disk)

/-- From states that meet `inv`, the program ends in states that meet it, and returns values
that meet `post`. -/
def Keeps (device : Device δ ι β ε) (sound : δ → Prop) (view : δ → ι → β)
    (inv : σ → (ι → β) → Prop) (program : Prog σ ι β ε α) (post : α → Prop) : Prop :=
  ∀ memory disk, sound disk → inv memory (view disk) →
    let after := Prog.exec device program (memory, disk)
    sound after.2.2 ∧ inv after.2.1 (view after.2.2) ∧ ∀ value, after.1 = .ok value → post value

namespace Keeps

variable {device : Device δ ι β ε} {inside : ι → Prop} {sound : δ → Prop} {view : δ → ι → β}
  {inv : σ → (ι → β) → Prop}

theorem mono {program : Prog σ ι β ε α} {post post' : α → Prop}
    (keeps : Keeps device sound view inv program post) (weaken : ∀ value, post value → post' value) :
    Keeps device sound view inv program post' := by
  intro memory disk start holds
  obtain ⟨ends, kept, returns⟩ := keeps memory disk start holds
  exact ⟨ends, kept, fun value result => weaken value (returns value result)⟩

theorem pure {post : α → Prop} {value : α} (holds : post value) :
    Keeps device sound view inv (Pure.pure value) post := by
  intro memory disk start kept
  refine ⟨start, kept, fun returned same => ?_⟩
  cases same
  exact holds

theorem throw {post : α → Prop} (error : ε) :
    Keeps device sound view inv (MonadExcept.throw error : Prog σ ι β ε α) post := by
  intro memory disk start kept
  refine ⟨start, kept, fun returned same => ?_⟩
  cases same

theorem modify {post : Unit → Prop} {f : σ → σ}
    (step : ∀ memory blocks, inv memory blocks → inv (f memory) blocks) (holds : post ()) :
    Keeps device sound view inv (modify f) post := by
  intro memory disk start kept
  exact ⟨start, step memory (view disk) kept, fun _ _ => holds⟩

theorem modifyGet {post : α → Prop} {f : σ → α × σ}
    (step : ∀ memory blocks, inv memory blocks →
      inv (f memory).2 blocks ∧ post (f memory).1) :
    Keeps device sound view inv (modifyGet f) post := by
  intro memory disk start kept
  obtain ⟨after, holds⟩ := step memory (view disk) kept
  refine ⟨start, after, fun value same => ?_⟩
  cases same
  exact holds

theorem bind {program : Prog σ ι β ε α} {next : α → Prog σ ι β ε γ} {middle : α → Prop}
    {post : γ → Prop} (first : Keeps device sound view inv program middle)
    (rest : ∀ value, middle value → Keeps device sound view inv (next value) post) :
    Keeps device sound view inv (program >>= next) post := by
  intro memory disk start kept
  have reached := first memory disk start kept
  rw [Prog.exec_bind]
  rcases outcome : Prog.exec device program (memory, disk) with ⟨result, memory', disk'⟩
  rw [outcome] at reached
  obtain ⟨ends, after, returns⟩ := reached
  cases result with
  | ok value => exact rest value (returns value rfl) memory' disk' ends after
  | error error =>
    refine ⟨ends, after, fun value same => ?_⟩
    cases same

/-- What is read from memory meets the assertion. -/
theorem get_bind {next : σ → Prog σ ι β ε γ} {post : γ → Prop}
    (rest : ∀ memory blocks, inv memory blocks →
      Keeps device sound view inv (next memory) post) :
    Keeps device sound view inv (get >>= next) post := by
  intro memory disk start kept
  rw [Prog.exec_bind_ok (Prog.exec_get _ _)]
  exact rest memory (view disk) kept memory disk start kept

theorem readAt [DecidableEq ι] (storage : Storage device inside sound view) (address : ι) :
    Keeps device sound view inv (Prog.readAt address) fun _ => inside address := by
  intro memory disk start kept
  obtain ⟨ends, same, returns⟩ := storage.read address disk start
  refine ⟨ends, ?_, fun data read => (returns data read).1⟩
  rw [Prog.exec_readAt]
  dsimp only
  rw [same]
  exact kept

theorem writeAt [DecidableEq ι] (storage : Storage device inside sound view) {address : ι} {data : β}
    (step : ∀ memory blocks, inv memory blocks →
      inv memory (Function.update blocks address data)) :
    Keeps device sound view inv (Prog.writeAt address data) fun _ => True := by
  intro memory disk start kept
  obtain ⟨ends, outcome⟩ := storage.write address data disk start
  refine ⟨ends, ?_, fun _ _ => trivial⟩
  rw [Prog.exec_writeAt]
  dsimp only
  rcases outcome with ⟨_, _, stored⟩ | ⟨_, _, unchanged⟩
  · rw [stored]
    exact step memory (view disk) kept
  · rw [unchanged]
    exact kept

/-- A program that only looks keeps every assertion. -/
theorem ofPassive [DecidableEq ι] (storage : Storage device inside sound view)
    {program : Prog σ ι β ε α} (passive : Prog.Passive program) :
    Keeps device sound view inv program fun _ => True := by
  intro memory disk start kept
  have same := Prog.exec_readOnly device
    (fun before after => sound before → sound after ∧ view after = view before)
    (fun _ start => ⟨start, rfl⟩)
    (fun first second start => by
      obtain ⟨middle, one⟩ := first start
      obtain ⟨final, two⟩ := second middle
      exact ⟨final, two.trans one⟩)
    (fun address disk start => by
      obtain ⟨after, same, _⟩ := storage.read address disk start
      exact ⟨after, same⟩)
    passive.readOnly (memory, disk) start
  refine ⟨same.1, ?_, fun _ _ => trivial⟩
  rw [same.2, passive.exec_memory device (memory, disk)]
  exact kept

theorem attempt {program : Prog σ ι β ε α} {post : α → Prop}
    (keeps : Keeps device sound view inv program post) :
    Keeps device sound view inv program.attempt fun result =>
      ∀ value, result = .ok value → post value := by
  intro memory disk start kept
  obtain ⟨ends, after, returns⟩ := keeps memory disk start kept
  rw [Prog.exec_attempt]
  refine ⟨ends, after, fun result same => ?_⟩
  cases same
  exact returns

theorem elseThrow {program : Prog σ ι β ε α} {post : α → Prop}
    (keeps : Keeps device sound view inv program post) (error : ε) :
    Keeps device sound view inv (program.elseThrow error) post := by
  refine keeps.attempt.bind fun result returned => ?_
  cases result with
  | ok value => exact pure (returned value rfl)
  | error failure => exact throw error

theorem rollback {program : Prog σ ι β ε α} {post : α → Prop} {undo : σ → σ}
    (keeps : Keeps device sound view inv program post)
    (step : ∀ memory blocks, inv memory blocks → inv (undo memory) blocks) :
    Keeps device sound view inv (program.rollback undo) post := by
  refine keeps.attempt.bind fun result returned => ?_
  cases result with
  | ok value => exact pure (returned value rfl)
  | error failure =>
    have undone : Keeps device sound view inv (MonadState.modifyGet fun memory => ((), undo memory)) fun _ => True :=
      modify step trivial
    exact undone.bind fun _ _ => throw failure

theorem when {condition : Prop} [Decidable condition] {program : Prog σ ι β ε Unit}
    {post : Unit → Prop} (holds : post ())
    (keeps : condition → Keeps device sound view inv program post) :
    Keeps device sound view inv (Prog.when condition program) post := by
  unfold Prog.when
  split
  next taken => exact keeps taken
  next skipped => exact pure holds

end Keeps

/-! ## The last step -/

/-- Whenever the program returns, its last step was `last`, from a state that meets `inv`. -/
def EndsWith (device : Device δ ι β ε) (sound : δ → Prop) (view : δ → ι → β)
    (inv : σ → (ι → β) → Prop) (program : Prog σ ι β ε α) (last : Prog σ ι β ε Unit) : Prop :=
  ∀ memory disk, sound disk → inv memory (view disk) → ∀ value after,
    Prog.exec device program (memory, disk) = (.ok value, after) →
      ∃ memory₀ disk₀, sound disk₀ ∧ inv memory₀ (view disk₀) ∧
        Prog.exec device last (memory₀, disk₀) = (.ok (), after)

namespace EndsWith

variable {device : Device δ ι β ε} {sound : δ → Prop} {view : δ → ι → β}
  {inv : σ → (ι → β) → Prop} {last : Prog σ ι β ε Unit}

theorem throw (error : ε) :
    EndsWith device sound view inv (MonadExcept.throw error : Prog σ ι β ε α) last := by
  intro memory disk _ _ value after returns
  cases returns

theorem self : EndsWith device sound view inv last last :=
  fun memory disk start holds _ _ returns => ⟨memory, disk, start, holds, returns⟩

theorem elseThrow {program : Prog σ ι β ε α} (ends : EndsWith device sound view inv program last)
    (error : ε) : EndsWith device sound view inv (program.elseThrow error) last := by
  intro memory disk start holds value after returns
  cases run : Prog.exec device program (memory, disk) with
  | mk result state =>
    cases result with
    | ok value' =>
      rw [Prog.exec_elseThrow_ok run] at returns
      cases returns
      exact ends memory disk start holds value after run
    | error failure =>
      rw [Prog.exec_elseThrow_error run] at returns
      cases returns

theorem bind {program : Prog σ ι β ε α} {next : α → Prog σ ι β ε γ} {middle : α → Prop}
    (first : Keeps device sound view inv program middle)
    (rest : ∀ value, middle value → EndsWith device sound view inv (next value) last) :
    EndsWith device sound view inv (program >>= next) last := by
  intro memory disk start holds value after returns
  have reached := first memory disk start holds
  rw [Prog.exec_bind] at returns
  cases run : Prog.exec device program (memory, disk) with
  | mk result state =>
    rw [run] at reached returns
    obtain ⟨ends, kept, values⟩ := reached
    cases result with
    | ok middle => exact rest middle (values middle rfl) state.1 state.2 ends kept value after returns
    | error failure => cases returns

theorem bind_pure {program : Prog σ ι β ε α} (ends : EndsWith device sound view inv program last)
    (f : α → γ) : EndsWith device sound view inv (program >>= fun value => pure (f value)) last := by
  intro memory disk start holds value after returns
  rw [Prog.exec_bind_pure] at returns
  cases run : Prog.exec device program (memory, disk) with
  | mk result state =>
    rw [run] at returns
    cases result with
    | ok middle =>
      cases returns
      exact ends memory disk start holds middle state run
    | error failure => cases returns

end EndsWith

/-! ## Sequences of writes -/

/-- Writes one block after the other, up to the first failure. -/
def writeAll (error : ε) : List (ι × β) → Prog σ ι β ε Unit
  | [] => Pure.pure ()
  | (address, data) :: rest => do
    (Prog.writeAt address data).elseThrow error
    writeAll error rest

section WriteAll

variable {device : Device δ ι β ε} {inside : ι → Prop} {sound : δ → Prop} {view : δ → ι → β}

/-- After a sequence of writes that stay with one image, every address shows what it showed or
what the image says; where all of them succeeded, the addresses of the sequence show the
image. -/
theorem exec_writeAll [DecidableEq ι] (storage : Storage device inside sound view) (image : ι → β) (error : ε)
    {writes : List (ι × β)} (same : ∀ write ∈ writes, write.2 = image write.1) (memory : σ)
    (disk : δ) (start : sound disk) :
    let after := Prog.exec device (writeAll error writes) (memory, disk)
    sound after.2.2 ∧ after.2.1 = memory ∧
      ((after.1 = .ok () ∧ (∀ write ∈ writes, inside write.1) ∧
          ∀ address, view after.2.2 address =
            if address ∈ writes.map Prod.fst then image address else view disk address) ∨
        (after.1 = .error error ∧
          ∀ address, view after.2.2 address = view disk address ∨
            address ∈ writes.map Prod.fst ∧ view after.2.2 address = image address)) := by
  induction writes generalizing disk with
  | nil =>
    refine ⟨start, rfl, .inl ⟨rfl, by simp, fun address => ?_⟩⟩
    simp [writeAll]
  | cons write rest ih =>
    obtain ⟨address, data⟩ := write
    have here : data = image address := same (address, data) List.mem_cons_self
    obtain ⟨ends, outcome⟩ := storage.write address data disk start
    rcases wrote : device.write address data disk with ⟨result, disk'⟩
    rw [wrote] at ends outcome
    dsimp only at ends outcome
    have request : Prog.exec device (Prog.writeAt address data : Prog σ ι β ε Unit)
        (memory, disk) = (result, memory, disk') := by
      rw [Prog.exec_writeAt, wrote]
    rw [writeAll]
    rcases outcome with ⟨rfl, inHere, stored⟩ | ⟨failure, rfl, unchanged⟩
    · rw [Prog.exec_bind_ok (Prog.exec_elseThrow_ok request error)]
      obtain ⟨final, kept, outcome⟩ :=
        ih (fun write member => same write (List.mem_cons_of_mem _ member)) disk' ends
      refine ⟨final, kept, ?_⟩
      rcases outcome with ⟨success, served, shows⟩ | ⟨fails, shows⟩
      · refine .inl ⟨success, ?_, fun other => ?_⟩
        · intro write member
          cases List.mem_cons.1 member with
          | inl equal => rw [equal]; exact inHere
          | inr later => exact served write later
        · rw [shows other, stored]
          by_cases later : other ∈ rest.map Prod.fst
          · simp [later]
          · by_cases equal : other = address
            · subst equal
              rw [if_neg later, Function.update_self, here]
              simp
            · simp [later, equal]
      · refine .inr ⟨fails, fun other => ?_⟩
        rcases shows other with before | ⟨later, now⟩
        · by_cases equal : other = address
          · subst equal
            refine .inr ⟨by simp, ?_⟩
            rw [before, stored, Function.update_self, here]
          · rw [stored, Function.update_of_ne equal] at before
            exact .inl before
        · exact .inr ⟨List.mem_cons_of_mem _ later, now⟩
    · rw [Prog.exec_bind_error (Prog.exec_elseThrow_error request error)]
      exact ⟨ends, rfl, .inr ⟨rfl, fun other => .inl (by rw [unchanged])⟩⟩

theorem writeAll_append (error : ε) (first second : List (ι × β)) (state : σ × δ) :
    Prog.exec device (writeAll error (first ++ second)) state =
      Prog.exec device (writeAll error first >>= fun _ => writeAll error second) state := by
  induction first generalizing state with
  | nil => rfl
  | cons write rest ih =>
    rw [List.cons_append, writeAll, writeAll, Prog.exec_bind, Prog.exec_bind, Prog.exec_bind]
    rcases Prog.exec device ((Prog.writeAt write.1 write.2).elseThrow error) state with
      ⟨result, state'⟩
    cases result with
    | ok value =>
      dsimp only
      rw [ih, Prog.exec_bind]
    | error failure => rfl

end WriteAll

end BlockProgram
