import DenyFS.Library.Storage

/-! # Specifications with two outcomes

Over a device that may fail any request, a program has two ends: it returns a value, or it
fails, and what it did before stays done.  `Settles` gives either end its own assertion.  The
rules follow the program, so that what a failing program has to undo is stated where it fails. -/

namespace BlockProgram

variable {δ σ ι β ε α γ : Type}

/-- From states that meet `pre` the program returns into `post` or fails into `failed`. -/
def Settles (device : Device δ ι β ε) (sound : δ → Prop) (view : δ → ι → β)
    (pre : σ → (ι → β) → Prop) (program : Prog σ ι β ε α) (post : α → σ → (ι → β) → Prop)
    (failed : ε → σ → (ι → β) → Prop) : Prop :=
  ∀ memory disk, sound disk → pre memory (view disk) →
    let after := Prog.exec device program (memory, disk)
    sound after.2.2 ∧
      match after.1 with
      | .ok value => post value after.2.1 (view after.2.2)
      | .error error => failed error after.2.1 (view after.2.2)

namespace Settles

variable {device : Device δ ι β ε} {inside : ι → Prop} {sound : δ → Prop} {view : δ → ι → β}
  {pre : σ → (ι → β) → Prop}

/-- A state it failed in. -/
theorem of_error {program : Prog σ ι β ε α} {post : α → σ → (ι → β) → Prop}
    {failed : ε → σ → (ι → β) → Prop}
    (settles : Settles device sound view pre program post failed) {memory memory' : σ}
    {disk disk' : δ} {error : ε} (start : sound disk) (holds : pre memory (view disk))
    (fails : Prog.exec device program (memory, disk) = (.error error, memory', disk')) :
    sound disk' ∧ failed error memory' (view disk') := by
  have reached := settles memory disk start holds
  rw [fails] at reached
  exact reached

/-- A state it returned in. -/
theorem of_ok {program : Prog σ ι β ε α} {post : α → σ → (ι → β) → Prop}
    {failed : ε → σ → (ι → β) → Prop}
    (settles : Settles device sound view pre program post failed) {memory memory' : σ}
    {disk disk' : δ} {value : α} (start : sound disk) (holds : pre memory (view disk))
    (returns : Prog.exec device program (memory, disk) = (.ok value, memory', disk')) :
    sound disk' ∧ post value memory' (view disk') := by
  have reached := settles memory disk start holds
  rw [returns] at reached
  exact reached

theorem mono {program : Prog σ ι β ε α} {pre' : σ → (ι → β) → Prop}
    {post post' : α → σ → (ι → β) → Prop} {failed failed' : ε → σ → (ι → β) → Prop}
    (settles : Settles device sound view pre program post failed)
    (before : ∀ memory blocks, pre' memory blocks → pre memory blocks)
    (returns : ∀ value memory blocks, post value memory blocks → post' value memory blocks)
    (fails : ∀ error memory blocks, failed error memory blocks → failed' error memory blocks) :
    Settles device sound view pre' program post' failed' := by
  intro memory disk start holds
  obtain ⟨ends, reached⟩ := settles memory disk start (before memory (view disk) holds)
  apply And.intro ends
  cases result : (Prog.exec device program (memory, disk)).1 with
  | ok value =>
    rw [result] at reached
    exact returns value _ _ reached
  | error error =>
    rw [result] at reached
    exact fails error _ _ reached

/-- More may hold before than the program needs. -/
theorem given {program : Prog σ ι β ε α} {pre' : σ → (ι → β) → Prop}
    {post : α → σ → (ι → β) → Prop} {failed : ε → σ → (ι → β) → Prop}
    (settles : Settles device sound view pre program post failed)
    (before : ∀ memory blocks, pre' memory blocks → pre memory blocks) :
    Settles device sound view pre' program post failed :=
  settles.mono before (fun _ _ _ holds => holds) fun _ _ _ holds => holds

/-- What holds before may include a fact that is no part of the state. -/
theorem assume {program : Prog σ ι β ε α} {post : α → σ → (ι → β) → Prop}
    {failed : ε → σ → (ι → β) → Prop} {fact : Prop}
    (settles : fact → Settles device sound view pre program post failed) :
    Settles device sound view (fun memory blocks => fact ∧ pre memory blocks) program post
      failed :=
  fun memory disk start holds => settles holds.1 memory disk start holds.2

theorem pure {post : α → σ → (ι → β) → Prop} {failed : ε → σ → (ι → β) → Prop} {value : α}
    (holds : ∀ memory blocks, pre memory blocks → post value memory blocks) :
    Settles device sound view pre (Pure.pure value) post failed :=
  fun memory disk start before => ⟨start, holds memory (view disk) before⟩

theorem throw {post : α → σ → (ι → β) → Prop} {failed : ε → σ → (ι → β) → Prop} {error : ε}
    (holds : ∀ memory blocks, pre memory blocks → failed error memory blocks) :
    Settles device sound view pre (MonadExcept.throw error : Prog σ ι β ε α) post failed :=
  fun memory disk start before => ⟨start, holds memory (view disk) before⟩

theorem modify {post : Unit → σ → (ι → β) → Prop} {failed : ε → σ → (ι → β) → Prop} {f : σ → σ}
    (step : ∀ memory blocks, pre memory blocks → post () (f memory) blocks) :
    Settles device sound view pre (modify f) post failed :=
  fun memory disk start before => ⟨start, step memory (view disk) before⟩

theorem modifyGet {post : α → σ → (ι → β) → Prop} {failed : ε → σ → (ι → β) → Prop}
    {f : σ → α × σ}
    (step : ∀ memory blocks, pre memory blocks → post (f memory).1 (f memory).2 blocks) :
    Settles device sound view pre (modifyGet f) post failed :=
  fun memory disk start before => ⟨start, step memory (view disk) before⟩

/-- A failure of the first part is a failure of the whole. -/
theorem bind {program : Prog σ ι β ε α} {next : α → Prog σ ι β ε γ}
    {middle : α → σ → (ι → β) → Prop} {post : γ → σ → (ι → β) → Prop}
    {failed : ε → σ → (ι → β) → Prop}
    (first : Settles device sound view pre program middle failed)
    (rest : ∀ value, Settles device sound view (middle value) (next value) post failed) :
    Settles device sound view pre (program >>= next) post failed := by
  intro memory disk start holds
  have reached := first memory disk start holds
  rw [Prog.exec_bind]
  cases run : Prog.exec device program (memory, disk) with
  | mk result state =>
    rw [run] at reached
    cases result with
    | ok value => exact rest value state.1 state.2 reached.1 reached.2
    | error error => exact reached

/-- The program that follows knows the memory it looked at. -/
theorem get_bind {next : σ → Prog σ ι β ε γ} {post : γ → σ → (ι → β) → Prop}
    {failed : ε → σ → (ι → β) → Prop}
    (rest : ∀ memory, Settles device sound view
      (fun memory' blocks => memory' = memory ∧ pre memory' blocks) (next memory) post failed) :
    Settles device sound view pre (get >>= next) post failed := by
  intro memory disk start holds
  rw [Prog.exec_bind_ok (Prog.exec_get _ _)]
  exact rest memory memory disk start ⟨rfl, holds⟩

theorem readAt [DecidableEq ι] (storage : Storage device inside sound view) (address : ι)
    {post : β → σ → (ι → β) → Prop} {failed : ε → σ → (ι → β) → Prop}
    (returns : ∀ memory blocks, pre memory blocks → inside address →
      post (blocks address) memory blocks)
    (fails : ∀ error memory blocks, pre memory blocks → failed error memory blocks) :
    Settles device sound view pre (Prog.readAt address) post failed := by
  intro memory disk start holds
  obtain ⟨ends, same, shows⟩ := storage.read address disk start
  apply And.intro ends
  rw [Prog.exec_readAt]
  cases reply : (device.read address disk).1 with
  | ok data =>
    obtain ⟨here, stored⟩ := shows data reply
    simp only [same, stored]
    exact returns memory (view disk) holds here
  | error error =>
    simp only [same]
    exact fails error memory (view disk) holds

theorem writeAt [DecidableEq ι] (storage : Storage device inside sound view) {address : ι}
    {data : β} {post : Unit → σ → (ι → β) → Prop} {failed : ε → σ → (ι → β) → Prop}
    (returns : ∀ memory blocks, pre memory blocks → inside address →
      post () memory (Function.update blocks address data))
    (fails : ∀ error memory blocks, pre memory blocks → failed error memory blocks) :
    Settles device sound view pre (Prog.writeAt address data) post failed := by
  intro memory disk start holds
  obtain ⟨ends, outcome⟩ := storage.write address data disk start
  apply And.intro ends
  rw [Prog.exec_writeAt]
  cases outcome with
  | inl stored =>
    obtain ⟨reply, here, shows⟩ := stored
    simp only [reply, shows]
    exact returns memory (view disk) holds here
  | inr refused =>
    obtain ⟨error, reply, same⟩ := refused
    simp only [reply, same]
    exact fails error memory (view disk) holds

variable (pre) in
/-- A program that only looks changes nothing, whichever end it has. -/
theorem ofPassive [DecidableEq ι] (storage : Storage device inside sound view)
    {program : Prog σ ι β ε α} (passive : Prog.Passive program) :
    Settles device sound view pre program (fun _ => pre) fun _ => pre := by
  intro memory disk start holds
  have keeps : Keeps device sound view pre program fun _ => True := .ofPassive storage passive
  obtain ⟨ends, kept, _⟩ := keeps memory disk start holds
  apply And.intro ends
  cases (Prog.exec device program (memory, disk)).1 with
  | ok value => exact kept
  | error error => exact kept

theorem elseThrow {program : Prog σ ι β ε α} {post : α → σ → (ι → β) → Prop}
    {failed failed' : ε → σ → (ι → β) → Prop}
    (settles : Settles device sound view pre program post failed) {error : ε}
    (fails : ∀ failure memory blocks, failed failure memory blocks → failed' error memory blocks) :
    Settles device sound view pre (program.elseThrow error) post failed' := by
  intro memory disk start holds
  have reached := settles memory disk start holds
  cases run : Prog.exec device program (memory, disk) with
  | mk result state =>
    rw [run] at reached
    cases result with
    | ok value =>
      rw [Prog.exec_elseThrow_ok run]
      exact reached
    | error failure =>
      rw [Prog.exec_elseThrow_error run]
      exact ⟨reached.1, fails failure _ _ reached.2⟩

/-- What a failing program undoes. -/
theorem rollback {program : Prog σ ι β ε α} {post : α → σ → (ι → β) → Prop}
    {failed failed' : ε → σ → (ι → β) → Prop} {undo : σ → σ}
    (settles : Settles device sound view pre program post failed)
    (undone : ∀ error memory blocks, failed error memory blocks →
      failed' error (undo memory) blocks) :
    Settles device sound view pre (program.rollback undo) post failed' := by
  intro memory disk start holds
  have reached := settles memory disk start holds
  cases run : Prog.exec device program (memory, disk) with
  | mk result state =>
    rw [run] at reached
    cases result with
    | ok value =>
      rw [Prog.exec_rollback_ok run]
      exact reached
    | error error =>
      rw [Prog.exec_rollback_error run]
      exact ⟨reached.1, undone error _ _ reached.2⟩

theorem when {condition : Prop} [Decidable condition] {program : Prog σ ι β ε Unit}
    {post : Unit → σ → (ι → β) → Prop} {failed : ε → σ → (ι → β) → Prop}
    (taken : condition → Settles device sound view pre program post failed)
    (skipped : ¬condition → ∀ memory blocks, pre memory blocks → post () memory blocks) :
    Settles device sound view pre (Prog.when condition program) post failed := by
  unfold Prog.when
  split
  next holds => exact taken holds
  next fails => exact pure (skipped fails)

end Settles

end BlockProgram
