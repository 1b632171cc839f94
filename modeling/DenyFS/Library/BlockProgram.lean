import Mathlib.Logic.Basic

/-! # Programs over a block device

A client of a block device keeps a state of its own in memory and reaches the device only
through read and write requests.  `Io` is the tree of requests such a client issues,
`Prog` adds the in-memory state and failure to it, and `Device` says how one particular
device answers.  A failure never rolls the memory or the device back: whatever was done
before it stays done.

The same program can be run against several devices.  `Io.run_simulation` relates two runs
from a relation kept by every single request, which is all that confinement, two-run and
refinement arguments need; `Prog.Triple` is the usual specification of one program.
-/

namespace BlockProgram

/-- The requests of a client: it is done, or asks for one block and goes on with the reply. -/
inductive Io (ι β ε α : Type) where
  | done (value : α)
  | read (address : ι) (next : Except ε β → Io ι β ε α)
  | write (address : ι) (data : β) (next : Except ε Unit → Io ι β ε α)

/-- How a device in state `δ` answers requests for blocks `β` at addresses `ι`. -/
structure Device (δ ι β ε : Type) where
  read : ι → δ → Except ε β × δ
  write : ι → β → δ → Except ε Unit × δ

/-- A client with memory `σ` that returns an `α` or fails with an `ε`. -/
def Prog (σ ι β ε α : Type) : Type := σ → Io ι β ε (Except ε α × σ)

variable {δ δ₁ δ₂ σ ι β ε α γ : Type}

namespace Io

def bind : Io ι β ε α → (α → Io ι β ε γ) → Io ι β ε γ
  | .done value, next => next value
  | .read address rest, next => .read address fun reply => (rest reply).bind next
  | .write address data rest, next => .write address data fun reply => (rest reply).bind next

def run (device : Device δ ι β ε) : Io ι β ε α → δ → α × δ
  | .done value, disk => (value, disk)
  | .read address next, disk =>
    (next (device.read address disk).1).run device (device.read address disk).2
  | .write address data next, disk =>
    (next (device.write address data disk).1).run device (device.write address data disk).2

theorem run_bind (device : Device δ ι β ε) (program : Io ι β ε α) (next : α → Io ι β ε γ)
    (disk : δ) :
    (program.bind next).run device disk =
      (next (program.run device disk).1).run device (program.run device disk).2 := by
  induction program generalizing disk with
  | done value => rfl
  | read address rest ih => exact ih _ _
  | write address data rest ih => exact ih _ _

/-- Two devices answer every request alike and keep `related`. -/
structure Simulates (first : Device δ₁ ι β ε) (second : Device δ₂ ι β ε)
    (related : δ₁ → δ₂ → Prop) : Prop where
  read : ∀ address disk₁ disk₂, related disk₁ disk₂ →
    (first.read address disk₁).1 = (second.read address disk₂).1 ∧
      related (first.read address disk₁).2 (second.read address disk₂).2
  write : ∀ address data disk₁ disk₂, related disk₁ disk₂ →
    (first.write address data disk₁).1 = (second.write address data disk₂).1 ∧
      related (first.write address data disk₁).2 (second.write address data disk₂).2

/-- What every request keeps related, every program keeps related, with equal results. -/
theorem run_simulation {first : Device δ₁ ι β ε} {second : Device δ₂ ι β ε}
    {related : δ₁ → δ₂ → Prop} (simulates : Simulates first second related)
    (program : Io ι β ε α) {disk₁ : δ₁} {disk₂ : δ₂} (start : related disk₁ disk₂) :
    (program.run first disk₁).1 = (program.run second disk₂).1 ∧
      related (program.run first disk₁).2 (program.run second disk₂).2 := by
  induction program generalizing disk₁ disk₂ with
  | done value => exact ⟨rfl, start⟩
  | read address next ih =>
    obtain ⟨reply, after⟩ := simulates.read address disk₁ disk₂ start
    simp only [run, reply]
    exact ih _ after
  | write address data next ih =>
    obtain ⟨reply, after⟩ := simulates.write address data disk₁ disk₂ start
    simp only [run, reply]
    exact ih _ after

/-- A reflexive and transitive relation that every request respects holds across a run. -/
theorem run_frame (device : Device δ ι β ε) {frame : δ → δ → Prop}
    (refl : ∀ disk, frame disk disk)
    (trans : ∀ {a b c}, frame a b → frame b c → frame a c)
    (read : ∀ address disk, frame disk (device.read address disk).2)
    (write : ∀ address data disk, frame disk (device.write address data disk).2)
    (program : Io ι β ε α) (disk : δ) : frame disk (program.run device disk).2 := by
  induction program generalizing disk with
  | done value => exact refl disk
  | read address next ih => exact trans (read address disk) (ih _ _)
  | write address data next ih => exact trans (write address data disk) (ih _ _)

/-- No request of the program is a write. -/
def ReadOnly : Io ι β ε α → Prop
  | .done _ => True
  | .read _ next => ∀ reply, (next reply).ReadOnly
  | .write _ _ _ => False

theorem readOnly_bind {program : Io ι β ε α} {next : α → Io ι β ε γ}
    (first : program.ReadOnly) (rest : ∀ value, (next value).ReadOnly) :
    (program.bind next).ReadOnly := by
  induction program with
  | done value => exact rest value
  | read address following ih => exact fun reply => ih reply (first reply)
  | write address data following ih => exact first.elim

/-- Every value the program can end with meets `post`. -/
def Ends (post : α → Prop) : Io ι β ε α → Prop
  | .done value => post value
  | .read _ next => ∀ reply, (next reply).Ends post
  | .write _ _ next => ∀ reply, (next reply).Ends post

theorem ends_bind {program : Io ι β ε α} {next : α → Io ι β ε γ} {middle : α → Prop}
    {post : γ → Prop} (first : program.Ends middle)
    (rest : ∀ value, middle value → (next value).Ends post) : (program.bind next).Ends post := by
  induction program with
  | done value => exact rest value first
  | read address following ih => exact fun reply => ih reply (first reply)
  | write address data following ih => exact fun reply => ih reply (first reply)

theorem run_ends (device : Device δ ι β ε) {program : Io ι β ε α} {post : α → Prop}
    (ends : program.Ends post) (disk : δ) : post (program.run device disk).1 := by
  induction program generalizing disk with
  | done value => exact ends
  | read address next ih => exact ih _ (ends _) _
  | write address data next ih => exact ih _ (ends _) _

/-- What reads leave alone, a program without writes leaves alone. -/
theorem run_readOnly (device : Device δ ι β ε) (keeps : δ → δ → Prop)
    (refl : ∀ disk, keeps disk disk)
    (trans : ∀ {a b c}, keeps a b → keeps b c → keeps a c)
    (read : ∀ address disk, keeps disk (device.read address disk).2)
    {program : Io ι β ε α} (readOnly : program.ReadOnly) (disk : δ) :
    keeps disk (program.run device disk).2 := by
  induction program generalizing disk with
  | done value => exact refl disk
  | read address next ih => exact trans (read address disk) (ih _ (readOnly _) _)
  | write address data next ih => exact readOnly.elim

end Io

namespace Prog

instance : Monad (Prog σ ι β ε) where
  pure value := fun memory => .done (.ok value, memory)
  bind program next := fun memory => (program memory).bind fun
    | (.ok value, memory') => next value memory'
    | (.error error, memory') => .done (.error error, memory')

instance : MonadExceptOf ε (Prog σ ι β ε) where
  throw error := fun memory => .done (.error error, memory)
  tryCatch program handler := fun memory => (program memory).bind fun
    | (.ok value, memory') => .done (.ok value, memory')
    | (.error error, memory') => handler error memory'

instance : MonadStateOf σ (Prog σ ι β ε) where
  get := fun memory => .done (.ok memory, memory)
  set memory := fun _ => .done (.ok (), memory)
  modifyGet f := fun memory => .done (.ok (f memory).1, (f memory).2)

def readAt (address : ι) : Prog σ ι β ε β := fun memory =>
  .read address fun reply => .done (reply, memory)

def writeAt (address : ι) (data : β) : Prog σ ι β ε Unit := fun memory =>
  .write address data fun reply => .done (reply, memory)

/-- Runs a program and hands its outcome on, failure included. -/
def attempt (program : Prog σ ι β ε α) : Prog σ ι β ε (Except ε α) := fun memory =>
  (program memory).bind fun outcome => .done (.ok outcome.1, outcome.2)

/-- Fails with `error` where the program fails. -/
def elseThrow (program : Prog σ ι β ε α) (error : ε) : Prog σ ι β ε α := do
  match ← program.attempt with
  | .ok value => return value
  | .error _ => throw error

/-- Applies `undo` to the memory where the program fails, and fails the same way. -/
def rollback (program : Prog σ ι β ε α) (undo : σ → σ) : Prog σ ι β ε α := do
  match ← program.attempt with
  | .ok value => return value
  | .error error => modify undo; throw error

/-- Runs the program only where the condition holds. -/
def when (condition : Prop) [Decidable condition] (program : Prog σ ι β ε Unit) :
    Prog σ ι β ε Unit := if condition then program else pure ()

/-- One run: from memory and device to an outcome, memory and device. -/
def exec (device : Device δ ι β ε) (program : Prog σ ι β ε α) (state : σ × δ) :
    Except ε α × (σ × δ) :=
  let result := (program state.1).run device state.2
  (result.1.1, result.1.2, result.2)

section Exec

variable (device : Device δ ι β ε) (state : σ × δ)

@[simp] theorem exec_pure (value : α) :
    exec device (pure value : Prog σ ι β ε α) state = (.ok value, state) := rfl

@[simp] theorem exec_throw (error : ε) :
    exec device (throw error : Prog σ ι β ε α) state = (.error error, state) := rfl

@[simp] theorem exec_get :
    exec device (get : Prog σ ι β ε σ) state = (.ok state.1, state) := rfl

@[simp] theorem exec_modify (f : σ → σ) :
    exec device (modify f : Prog σ ι β ε Unit) state = (.ok (), f state.1, state.2) := rfl

@[simp] theorem exec_set (memory : σ) :
    exec device (set memory : Prog σ ι β ε Unit) state = (.ok (), memory, state.2) := rfl

@[simp] theorem exec_modifyGet (f : σ → α × σ) :
    exec device (modifyGet f : Prog σ ι β ε α) state =
      (.ok (f state.1).1, (f state.1).2, state.2) := rfl

@[simp] theorem exec_readAt (address : ι) :
    exec device (readAt address : Prog σ ι β ε β) state =
      ((device.read address state.2).1, state.1, (device.read address state.2).2) := rfl

@[simp] theorem exec_writeAt (address : ι) (data : β) :
    exec device (writeAt address data : Prog σ ι β ε Unit) state =
      ((device.write address data state.2).1, state.1, (device.write address data state.2).2) :=
  rfl

theorem exec_bind (program : Prog σ ι β ε α) (next : α → Prog σ ι β ε γ) :
    exec device (program >>= next) state =
      match exec device program state with
      | (.ok value, state') => exec device (next value) state'
      | (.error error, state') => (.error error, state') := by
  simp only [exec, Bind.bind, Io.run_bind]
  rcases (program state.1).run device state.2 with ⟨⟨outcome, memory⟩, disk⟩
  cases outcome <;> rfl

theorem exec_bind_assoc {κ : Type} (program : Prog σ ι β ε α) (next : α → Prog σ ι β ε γ)
    (last : γ → Prog σ ι β ε κ) :
    exec device (program >>= next >>= last) state =
      exec device (program >>= fun value => next value >>= last) state := by
  rw [exec_bind, exec_bind, exec_bind]
  cases exec device program state with
  | mk outcome state' =>
    cases outcome with
    | ok value => exact (exec_bind device state' (next value) last).symm
    | error error => rfl

@[simp] theorem exec_attempt (program : Prog σ ι β ε α) :
    exec device program.attempt state =
      (.ok (exec device program state).1, (exec device program state).2) := by
  simp only [exec, attempt, Io.run_bind]
  rfl

variable {device state}

/-- The program after one that returned. -/
theorem exec_bind_ok {program : Prog σ ι β ε α} {next : α → Prog σ ι β ε γ} {value : α}
    {state' : σ × δ} (returns : exec device program state = (.ok value, state')) :
    exec device (program >>= next) state = exec device (next value) state' := by
  rw [exec_bind, returns]

/-- Nothing runs after a program that failed. -/
theorem exec_bind_error {program : Prog σ ι β ε α} {next : α → Prog σ ι β ε γ} {error : ε}
    {state' : σ × δ} (fails : exec device program state = (.error error, state')) :
    exec device (program >>= next) state = (.error error, state') := by
  rw [exec_bind, fails]

theorem exec_elseThrow_ok {program : Prog σ ι β ε α} {value : α} {state' : σ × δ}
    (returns : exec device program state = (.ok value, state')) (error : ε) :
    exec device (program.elseThrow error) state = (.ok value, state') := by
  simp [elseThrow, exec_bind, returns]

theorem exec_elseThrow_error {program : Prog σ ι β ε α} {failure : ε} {state' : σ × δ}
    (fails : exec device program state = (.error failure, state')) (error : ε) :
    exec device (program.elseThrow error) state = (.error error, state') := by
  simp [elseThrow, exec_bind, fails]

theorem exec_rollback_ok {program : Prog σ ι β ε α} {value : α} {state' : σ × δ}
    (returns : exec device program state = (.ok value, state')) (undo : σ → σ) :
    exec device (program.rollback undo) state = (.ok value, state') := by
  simp [rollback, exec_bind, returns]

theorem exec_rollback_error {program : Prog σ ι β ε α} {error : ε} {state' : σ × δ}
    (fails : exec device program state = (.error error, state')) (undo : σ → σ) :
    exec device (program.rollback undo) state = (.error error, undo state'.1, state'.2) := by
  simp [rollback, exec_bind, fails]

/-- What is done with a value once it is returned. -/
theorem exec_bind_pure (device : Device δ ι β ε) (state : σ × δ) (program : Prog σ ι β ε α)
    (f : α → γ) :
    exec device (program >>= fun value => pure (f value)) state =
      ((exec device program state).1.map f, (exec device program state).2) := by
  rw [exec_bind]
  cases exec device program state with
  | mk outcome state' =>
    cases outcome with
    | ok value => rfl
    | error error => rfl

end Exec

/-! ## Programs that only read -/

/-- From no memory does the program issue a write. -/
def ReadOnly (program : Prog σ ι β ε α) : Prop := ∀ memory, (program memory).ReadOnly

namespace ReadOnly

theorem ofPure (value : α) : ReadOnly (pure value : Prog σ ι β ε α) := fun _ => trivial

theorem ofThrow (error : ε) : ReadOnly (throw error : Prog σ ι β ε α) := fun _ => trivial

theorem ofGet : ReadOnly (get : Prog σ ι β ε σ) := fun _ => trivial

theorem ofModify (f : σ → σ) : ReadOnly (modify f : Prog σ ι β ε Unit) := fun _ => trivial

theorem ofReadAt (address : ι) : ReadOnly (readAt address : Prog σ ι β ε β) :=
  fun _ _ => trivial

theorem bind {program : Prog σ ι β ε α} {next : α → Prog σ ι β ε γ}
    (first : ReadOnly program) (rest : ∀ value, ReadOnly (next value)) :
    ReadOnly (program >>= next) := fun memory =>
  Io.readOnly_bind (first memory) fun outcome => by
    obtain ⟨result, memory'⟩ := outcome
    cases result with
    | ok value => exact rest value memory'
    | error error => trivial

theorem attempt {program : Prog σ ι β ε α} (first : ReadOnly program) :
    ReadOnly program.attempt := fun memory =>
  Io.readOnly_bind (first memory) fun _ => trivial

theorem elseThrow {program : Prog σ ι β ε α} (first : ReadOnly program) (error : ε) :
    ReadOnly (program.elseThrow error) :=
  bind first.attempt fun outcome => by
    cases outcome with
    | ok value => exact ofPure value
    | error failure => exact ofThrow error

end ReadOnly

/-- The program issues no write and leaves its memory as it was. -/
def Passive (program : Prog σ ι β ε α) : Prop :=
  ∀ memory, (program memory).ReadOnly ∧ (program memory).Ends fun result => result.2 = memory

namespace Passive

theorem readOnly {program : Prog σ ι β ε α} (passive : Passive program) : ReadOnly program :=
  fun memory => (passive memory).1

theorem exec_memory {program : Prog σ ι β ε α} (passive : Passive program)
    (device : Device δ ι β ε) (state : σ × δ) : (exec device program state).2.1 = state.1 :=
  Io.run_ends device (passive state.1).2 state.2

theorem ofPure (value : α) : Passive (pure value : Prog σ ι β ε α) := fun _ => ⟨trivial, rfl⟩

theorem ofThrow (error : ε) : Passive (throw error : Prog σ ι β ε α) := fun _ => ⟨trivial, rfl⟩

theorem ofGet : Passive (get : Prog σ ι β ε σ) := fun _ => ⟨trivial, rfl⟩

theorem ofReadAt (address : ι) : Passive (readAt address : Prog σ ι β ε β) :=
  fun _ => ⟨fun _ => trivial, fun _ => rfl⟩

theorem bind {program : Prog σ ι β ε α} {next : α → Prog σ ι β ε γ}
    (first : Passive program) (rest : ∀ value, Passive (next value)) :
    Passive (program >>= next) := by
  intro memory
  refine ⟨first.readOnly.bind (fun value => (rest value).readOnly) memory,
    Io.ends_bind (first memory).2 fun outcome same => ?_⟩
  obtain ⟨result, memory'⟩ := outcome
  dsimp only at same
  subst same
  cases result with
  | ok value => exact (rest value memory').2
  | error error => exact rfl

theorem attempt {program : Prog σ ι β ε α} (first : Passive program) :
    Passive program.attempt := fun memory =>
  ⟨first.readOnly.attempt memory, Io.ends_bind (first memory).2 fun _ same => same⟩

theorem elseThrow {program : Prog σ ι β ε α} (first : Passive program) (error : ε) :
    Passive (program.elseThrow error) :=
  first.attempt.bind fun outcome => by
    cases outcome with
    | ok value => exact ofPure value
    | error failure => exact ofThrow error

end Passive

/-- What reads leave alone, a program without writes leaves alone. -/
theorem exec_readOnly (device : Device δ ι β ε) (keeps : δ → δ → Prop)
    (refl : ∀ disk, keeps disk disk)
    (trans : ∀ {a b c}, keeps a b → keeps b c → keeps a c)
    (read : ∀ address disk, keeps disk (device.read address disk).2)
    {program : Prog σ ι β ε α} (readOnly : ReadOnly program) (state : σ × δ) :
    keeps state.2 (exec device program state).2.2 :=
  Io.run_readOnly device keeps refl trans read (readOnly state.1) state.2

/-- Where a device in state `disk` stays as it is under reads, a passive program changes neither
memory nor device. -/
theorem exec_passive_frozen (device : Device δ ι β ε) {state : σ × δ}
    (read : ∀ address, (device.read address state.2).2 = state.2) {program : Prog σ ι β ε α}
    (passive : Passive program) : (exec device program state).2 = state := by
  have frozen := exec_readOnly device (fun before after => before = state.2 → after = state.2)
    (fun _ same => same) (fun first second same => second (first same))
    (fun address _ same => by rw [same]; exact read address) passive.readOnly state rfl
  exact Prod.ext (passive.exec_memory device state) frozen

/-- A relation that every request respects holds across a run. -/
theorem exec_frame (device : Device δ ι β ε) {frame : δ → δ → Prop}
    (refl : ∀ disk, frame disk disk)
    (trans : ∀ {a b c}, frame a b → frame b c → frame a c)
    (read : ∀ address disk, frame disk (device.read address disk).2)
    (write : ∀ address data disk, frame disk (device.write address data disk).2)
    (program : Prog σ ι β ε α) (state : σ × δ) :
    frame state.2 (exec device program state).2.2 :=
  Io.run_frame device refl trans read write (program state.1) state.2

/-! ## Relating runs on two devices -/

/-- A program started in equal memories on simulating devices ends alike. -/
theorem exec_simulation {first : Device δ₁ ι β ε} {second : Device δ₂ ι β ε}
    {related : δ₁ → δ₂ → Prop} (simulates : Io.Simulates first second related)
    (program : Prog σ ι β ε α) (memory : σ) {disk₁ : δ₁} {disk₂ : δ₂}
    (start : related disk₁ disk₂) :
    (exec first program (memory, disk₁)).1 = (exec second program (memory, disk₂)).1 ∧
      (exec first program (memory, disk₁)).2.1 = (exec second program (memory, disk₂)).2.1 ∧
      related (exec first program (memory, disk₁)).2.2
        (exec second program (memory, disk₂)).2.2 := by
  obtain ⟨outcome, after⟩ := Io.run_simulation simulates (program memory) start
  exact ⟨congrArg Prod.fst outcome, congrArg Prod.snd outcome, after⟩

/-! ## Specifications -/

/-- From `pre`, every run of `program` ends with an outcome and state in `post`. -/
def Triple (device : Device δ ι β ε) (pre : σ × δ → Prop) (program : Prog σ ι β ε α)
    (post : Except ε α → σ × δ → Prop) : Prop :=
  ∀ state, pre state → post (exec device program state).1 (exec device program state).2

namespace Triple

variable {device : Device δ ι β ε} {pre : σ × δ → Prop}

theorem ofPure {post : Except ε α → σ × δ → Prop} {value : α}
    (holds : ∀ state, pre state → post (.ok value) state) :
    Triple device pre (Pure.pure value) post := holds

theorem ofThrow {post : Except ε α → σ × δ → Prop} {error : ε}
    (holds : ∀ state, pre state → post (.error error) state) :
    Triple device pre (MonadExcept.throw error) post := holds

theorem ofModify {post : Except ε Unit → σ × δ → Prop} {f : σ → σ}
    (holds : ∀ state, pre state → post (.ok ()) (f state.1, state.2)) :
    Triple device pre (modify f) post := holds

/-- Sequencing through an intermediate assertion, which a failure must already meet. -/
theorem bind {program : Prog σ ι β ε α} {next : α → Prog σ ι β ε γ}
    {middle : Except ε α → σ × δ → Prop} {post : Except ε γ → σ × δ → Prop}
    (first : Triple device pre program middle)
    (fails : ∀ error state, middle (.error error) state → post (.error error) state)
    (rest : ∀ value, Triple device (middle (.ok value)) (next value) post) :
    Triple device pre (program >>= next) post := by
  intro state start
  have reached := first state start
  rw [exec_bind]
  rcases outcome : exec device program state with ⟨result, state'⟩
  rw [outcome] at reached
  cases result with
  | ok value => exact rest value state' reached
  | error error => exact fails error state' reached

theorem mono {program : Prog σ ι β ε α} {pre' : σ × δ → Prop}
    {post post' : Except ε α → σ × δ → Prop} (triple : Triple device pre program post)
    (weaken : ∀ state, pre' state → pre state)
    (strengthen : ∀ outcome state, post outcome state → post' outcome state) :
    Triple device pre' program post' :=
  fun state start => strengthen _ _ (triple state (weaken state start))

end Triple

end Prog

end BlockProgram
