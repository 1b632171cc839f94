import DenyFS.Library.BlockProgram

/-! # Programs that fail where a request fails

A program that handles no failure except by failing itself cannot tell a device that fails now
and then from one that never does, as long as it returns: its result is the one it has on the
device that never fails. -/

namespace BlockProgram

variable {δ₁ δ₂ σ ι β ε α γ : Type}

namespace Io

/-- After a request that failed, every way to go on ends in `failed`. -/
def Strict (failed : α → Prop) : Io ι β ε α → Prop
  | .done _ => True
  | .read _ next =>
    (∀ error, (next (.error error)).Ends failed) ∧ ∀ reply, (next reply).Strict failed
  | .write _ _ next =>
    (∀ error, (next (.error error)).Ends failed) ∧ ∀ reply, (next reply).Strict failed

theorem strict_bind {failed : α → Prop} {failed' : γ → Prop} {program : Io ι β ε α}
    {next : α → Io ι β ε γ} (first : program.Strict failed)
    (rest : ∀ value, (next value).Strict failed')
    (fails : ∀ value, failed value → (next value).Ends failed') :
    (program.bind next).Strict failed' := by
  induction program with
  | done value => exact rest value
  | read address following ih =>
    exact ⟨fun error => ends_bind (first.1 error) fails, fun reply => ih reply (first.2 reply)⟩
  | write address data following ih =>
    exact ⟨fun error => ends_bind (first.1 error) fails, fun reply => ih reply (first.2 reply)⟩

/-- The first device answers as the second does, or fails. -/
structure Weakens (first : Device δ₁ ι β ε) (second : Device δ₂ ι β ε)
    (related : δ₁ → δ₂ → Prop) : Prop where
  read : ∀ address disk₁ disk₂, related disk₁ disk₂ →
    (∃ error, (first.read address disk₁).1 = .error error) ∨
      ((first.read address disk₁).1 = (second.read address disk₂).1 ∧
        related (first.read address disk₁).2 (second.read address disk₂).2)
  write : ∀ address data disk₁ disk₂, related disk₁ disk₂ →
    (∃ error, (first.write address data disk₁).1 = .error error) ∨
      ((first.write address data disk₁).1 = (second.write address data disk₂).1 ∧
        related (first.write address data disk₁).2 (second.write address data disk₂).2)

theorem run_strict {first : Device δ₁ ι β ε} {second : Device δ₂ ι β ε}
    {related : δ₁ → δ₂ → Prop} (weakens : Weakens first second related) {failed : α → Prop}
    {program : Io ι β ε α} (strict : program.Strict failed) {disk₁ : δ₁} {disk₂ : δ₂}
    (start : related disk₁ disk₂) :
    failed (program.run first disk₁).1 ∨
      ((program.run first disk₁).1 = (program.run second disk₂).1 ∧
        related (program.run first disk₁).2 (program.run second disk₂).2) := by
  induction program generalizing disk₁ disk₂ with
  | done value => exact .inr ⟨rfl, start⟩
  | read address next ih =>
    cases weakens.read address disk₁ disk₂ start with
    | inl fails =>
      obtain ⟨error, reply⟩ := fails
      simp only [run, reply]
      exact .inl (run_ends first (strict.1 error) _)
    | inr same =>
      obtain ⟨reply, after⟩ := same
      simp only [run, reply]
      exact ih _ (strict.2 _) after
  | write address data next ih =>
    cases weakens.write address data disk₁ disk₂ start with
    | inl fails =>
      obtain ⟨error, reply⟩ := fails
      simp only [run, reply]
      exact .inl (run_ends first (strict.1 error) _)
    | inr same =>
      obtain ⟨reply, after⟩ := same
      simp only [run, reply]
      exact ih _ (strict.2 _) after

end Io

namespace Prog

/-- The program fails where one of its requests fails. -/
def Strict (program : Prog σ ι β ε α) : Prop :=
  ∀ memory, (program memory).Strict fun result => ∃ error, result.1 = .error error

namespace Strict

theorem ofPure (value : α) : Strict (pure value : Prog σ ι β ε α) := fun _ => trivial

theorem ofThrow (error : ε) : Strict (throw error : Prog σ ι β ε α) := fun _ => trivial

theorem ofGet : Strict (get : Prog σ ι β ε σ) := fun _ => trivial

theorem ofModify (f : σ → σ) : Strict (modify f : Prog σ ι β ε Unit) := fun _ => trivial

theorem ofReadAt (address : ι) : Strict (readAt address : Prog σ ι β ε β) :=
  fun _ => ⟨fun error => ⟨error, rfl⟩, fun _ => trivial⟩

theorem bind {program : Prog σ ι β ε α} {next : α → Prog σ ι β ε γ}
    (first : Strict program) (rest : ∀ value, Strict (next value)) :
    Strict (program >>= next) := by
  intro memory
  refine Io.strict_bind (first memory) (fun outcome => ?_) fun outcome failed => ?_
  · obtain ⟨result, memory'⟩ := outcome
    cases result with
    | ok value => exact rest value memory'
    | error error => trivial
  · obtain ⟨result, memory'⟩ := outcome
    obtain ⟨error, same⟩ := failed
    dsimp only at same
    subst same
    exact ⟨error, rfl⟩

/-- Where the attempt of a strict program meets a failed request, it hands a failure on. -/
theorem attempt {program : Prog σ ι β ε α} (first : Strict program) (memory : σ) :
    (program.attempt memory).Strict fun result => ∃ failure, result.1 = .ok (.error failure) :=
  Io.strict_bind (first memory) (fun _ => trivial) fun _ failed =>
    failed.imp fun _ same => congrArg Except.ok same

theorem elseThrow {program : Prog σ ι β ε α} (first : Strict program) (error : ε) :
    Strict (program.elseThrow error) := by
  intro memory
  have attempted := first.attempt memory
  refine Io.strict_bind attempted (fun outcome => ?_) fun outcome failed => ?_
  · obtain ⟨result, memory'⟩ := outcome
    cases result with
    | error error => trivial
    | ok result => cases result <;> trivial
  · obtain ⟨result, memory'⟩ := outcome
    obtain ⟨failure, same⟩ := failed
    dsimp only at same
    subst same
    exact ⟨error, rfl⟩

theorem ofWriteAt (address : ι) (data : β) :
    Strict (writeAt address data : Prog σ ι β ε Unit) :=
  fun _ => ⟨fun error => ⟨error, rfl⟩, fun _ => trivial⟩

theorem ofModifyGet (f : σ → α × σ) : Strict (modifyGet f : Prog σ ι β ε α) := fun _ => trivial

theorem get_bind {next : σ → Prog σ ι β ε α} (rest : ∀ memory, Strict (next memory)) :
    Strict (get >>= next) := ofGet.bind rest

theorem rollback {program : Prog σ ι β ε α} (first : Strict program) (undo : σ → σ) :
    Strict (program.rollback undo) := by
  intro memory
  have attempted := first.attempt memory
  apply Io.strict_bind attempted
  · intro outcome
    obtain ⟨result, memory'⟩ := outcome
    cases result with
    | error error => trivial
    | ok result => cases result <;> trivial
  · -- the memory is undone before the failure is handed on
    intro outcome failed
    obtain ⟨result, memory'⟩ := outcome
    obtain ⟨failure, same⟩ := failed
    dsimp only at same
    subst same
    exact ⟨failure, rfl⟩

theorem when {program : Prog σ ι β ε Unit} (first : Strict program) (condition : Prop)
    [Decidable condition] : Strict (Prog.when condition program) := by
  unfold Prog.when
  split
  next taken => exact first
  next skipped => exact ofPure ()

end Strict

/-- What a strict program returns on a device that may fail, it returns on one that does not. -/
theorem exec_strict {first : Device δ₁ ι β ε} {second : Device δ₂ ι β ε}
    {related : δ₁ → δ₂ → Prop} (weakens : Io.Weakens first second related)
    {program : Prog σ ι β ε α} (strict : Strict program) {memory memory' : σ} {disk₁ disk₁' : δ₁}
    {disk₂ : δ₂} {value : α} (start : related disk₁ disk₂)
    (returns : exec first program (memory, disk₁) = (.ok value, memory', disk₁')) :
    ∃ disk₂', exec second program (memory, disk₂) = (.ok value, memory', disk₂') ∧
      related disk₁' disk₂' := by
  have outcome := congrArg Prod.fst returns
  have memories := congrArg (fun after => after.2.1) returns
  have disks := congrArg (fun after => after.2.2) returns
  dsimp only [exec] at outcome memories disks
  cases Io.run_strict weakens (strict memory) start with
  | inl failed =>
    obtain ⟨error, same⟩ := failed
    rw [outcome] at same
    cases same
  | inr same =>
    obtain ⟨result, after⟩ := same
    rw [disks] at after
    rw [result] at outcome memories
    exact ⟨_, Prod.ext outcome (Prod.ext memories rfl), after⟩

/-! ## Programs that tell which failure it was -/

/-- The program fails where one of its requests fails, with one of the errors `bad`. -/
def FailsWith (bad : ε → Prop) (program : Prog σ ι β ε α) : Prop :=
  ∀ memory, (program memory).Strict fun result => ∃ error, result.1 = .error error ∧ bad error

namespace FailsWith

variable {bad : ε → Prop}

theorem ofPure (value : α) : FailsWith bad (pure value : Prog σ ι β ε α) := fun _ => trivial

theorem ofThrow (error : ε) : FailsWith bad (throw error : Prog σ ι β ε α) := fun _ => trivial

theorem ofGet : FailsWith bad (get : Prog σ ι β ε σ) := fun _ => trivial

theorem bind {program : Prog σ ι β ε α} {next : α → Prog σ ι β ε γ}
    (first : FailsWith bad program) (rest : ∀ value, FailsWith bad (next value)) :
    FailsWith bad (program >>= next) := by
  intro memory
  apply Io.strict_bind (first memory)
  · intro outcome
    obtain ⟨result, memory'⟩ := outcome
    cases result with
    | ok value => exact rest value memory'
    | error error => trivial
  · intro outcome failed
    obtain ⟨result, memory'⟩ := outcome
    obtain ⟨error, same, isBad⟩ := failed
    dsimp only at same
    subst same
    exact ⟨error, rfl, isBad⟩

/-- Whatever failure it was, it becomes this one. -/
theorem elseThrow {program : Prog σ ι β ε α} (first : Strict program) {error : ε}
    (isBad : bad error) : FailsWith bad (program.elseThrow error) := by
  intro memory
  apply Io.strict_bind (first.attempt memory)
  · intro outcome
    obtain ⟨result, memory'⟩ := outcome
    cases result with
    | error failure => trivial
    | ok result => cases result <;> trivial
  · intro outcome failed
    obtain ⟨result, memory'⟩ := outcome
    obtain ⟨failure, same⟩ := failed
    dsimp only at same
    subst same
    exact ⟨error, rfl, isBad⟩

/-- A program may go on after a failure that no failed request can cause. -/
theorem attempt_bind {program : Prog σ ι β ε α} {next : Except ε α → Prog σ ι β ε γ}
    (first : FailsWith bad program) (rest : ∀ outcome, Strict (next outcome))
    (fails : ∀ error, bad error → next (.error error) = throw error) :
    Strict (program.attempt >>= next) := by
  have attempted : ∀ memory, (program.attempt memory).Strict fun result =>
      ∃ error, result.1 = .ok (.error error) ∧ bad error := by
    intro memory
    apply Io.strict_bind (first memory)
    · exact fun _ => trivial
    · intro outcome failed
      obtain ⟨error, same, isBad⟩ := failed
      exact ⟨error, congrArg Except.ok same, isBad⟩
  intro memory
  apply Io.strict_bind (attempted memory)
  · intro outcome
    obtain ⟨result, memory'⟩ := outcome
    cases result with
    | error error => trivial
    | ok result => exact rest result memory'
  · intro outcome failed
    obtain ⟨result, memory'⟩ := outcome
    obtain ⟨error, same, isBad⟩ := failed
    dsimp only at same
    subst same
    dsimp only
    rw [fails error isBad]
    exact ⟨error, rfl⟩

end FailsWith

/-! ## Programs that only look -/

/-- Built from reads and looks at the memory; no failure is handled except by failing. -/
inductive Simple : {α : Type} → Prog σ ι β ε α → Prop where
  | ofPure {α : Type} (value : α) : Simple (pure value)
  | ofThrow {α : Type} (error : ε) : Simple (throw error : Prog σ ι β ε α)
  | ofGet : Simple (get : Prog σ ι β ε σ)
  | ofReadAt (address : ι) : Simple (readAt address)
  | bind {α γ : Type} {program : Prog σ ι β ε α} {next : α → Prog σ ι β ε γ} :
    Simple program → (∀ value, Simple (next value)) → Simple (program >>= next)
  | elseThrow {α : Type} {program : Prog σ ι β ε α} : Simple program → ∀ error,
    Simple (program.elseThrow error)

theorem Simple.passive {program : Prog σ ι β ε α} (simple : Simple program) :
    Passive program := by
  induction simple with
  | ofPure value => exact .ofPure value
  | ofThrow error => exact .ofThrow error
  | ofGet => exact .ofGet
  | ofReadAt address => exact .ofReadAt address
  | bind _ _ first rest => exact first.bind rest
  | elseThrow _ error first => exact first.elseThrow error

theorem Simple.strict {program : Prog σ ι β ε α} (simple : Simple program) :
    Strict program := by
  induction simple with
  | ofPure value => exact .ofPure value
  | ofThrow error => exact .ofThrow error
  | ofGet => exact .ofGet
  | ofReadAt address => exact .ofReadAt address
  | bind _ _ first rest => exact first.bind rest
  | elseThrow _ error first => exact first.elseThrow error

end Prog

end BlockProgram
