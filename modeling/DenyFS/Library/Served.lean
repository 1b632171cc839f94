import DenyFS.Library.Strict

/-! # Runs whose requests are served

A device may fail any request.  `Served` singles out the runs in which it did not: every request
for an address `inside` was answered, whatever the device would have done with other requests.
Requests for other addresses may be refused.  Along such a run a device that fails now and then
cannot be told from one that never does, even by a program that handles failures. -/

namespace BlockProgram

variable {δ₁ δ₂ σ ι β ε α : Type}

namespace Io

/-- No request of the run for an address inside fails. -/
def Served (device : Device δ₁ ι β ε) (inside : ι → Prop) : Io ι β ε α → δ₁ → Prop
  | .done _, _ => True
  | .read address next, disk =>
    (inside address → ∃ data, (device.read address disk).1 = .ok data) ∧
      (next (device.read address disk).1).Served device inside (device.read address disk).2
  | .write address data next, disk =>
    (inside address → (device.write address data disk).1 = .ok ()) ∧
      (next (device.write address data disk).1).Served device inside
        (device.write address data disk).2

/-- The first device answers as the second does, or fails; what is not inside both refuse. -/
structure Approximates (first : Device δ₁ ι β ε) (second : Device δ₂ ι β ε) (inside : ι → Prop)
    (related : δ₁ → δ₂ → Prop) : Prop extends Weakens first second related where
  readOutside : ∀ address disk₁ disk₂, ¬inside address → related disk₁ disk₂ →
    (first.read address disk₁).1 = (second.read address disk₂).1 ∧
      related (first.read address disk₁).2 (second.read address disk₂).2
  writeOutside : ∀ address data disk₁ disk₂, ¬inside address → related disk₁ disk₂ →
    (first.write address data disk₁).1 = (second.write address data disk₂).1 ∧
      related (first.write address data disk₁).2 (second.write address data disk₂).2

namespace Approximates

variable {first : Device δ₁ ι β ε} {second : Device δ₂ ι β ε} {inside : ι → Prop}
  {related : δ₁ → δ₂ → Prop} {disk₁ : δ₁} {disk₂ : δ₂}

theorem read_served (approximates : Approximates first second inside related) {address : ι}
    (served : inside address → ∃ data, (first.read address disk₁).1 = .ok data)
    (start : related disk₁ disk₂) :
    (first.read address disk₁).1 = (second.read address disk₂).1 ∧
      related (first.read address disk₁).2 (second.read address disk₂).2 := by
  by_cases here : inside address
  · obtain ⟨data, reply⟩ := served here
    cases approximates.read address disk₁ disk₂ start with
    | inl fails =>
      obtain ⟨error, failed⟩ := fails
      rw [reply] at failed
      cases failed
    | inr same => exact same
  · exact approximates.readOutside address disk₁ disk₂ here start

theorem write_served (approximates : Approximates first second inside related) {address : ι}
    {data : β} (served : inside address → (first.write address data disk₁).1 = .ok ())
    (start : related disk₁ disk₂) :
    (first.write address data disk₁).1 = (second.write address data disk₂).1 ∧
      related (first.write address data disk₁).2 (second.write address data disk₂).2 := by
  by_cases here : inside address
  · cases approximates.write address data disk₁ disk₂ start with
    | inl fails =>
      obtain ⟨error, failed⟩ := fails
      rw [served here] at failed
      cases failed
    | inr same => exact same
  · exact approximates.writeOutside address data disk₁ disk₂ here start

end Approximates

/-- Along a run whose requests are served the two devices cannot be told apart. -/
theorem run_served {first : Device δ₁ ι β ε} {second : Device δ₂ ι β ε} {inside : ι → Prop}
    {related : δ₁ → δ₂ → Prop} (approximates : Approximates first second inside related)
    (program : Io ι β ε α) {disk₁ : δ₁} {disk₂ : δ₂}
    (served : program.Served first inside disk₁) (start : related disk₁ disk₂) :
    (program.run first disk₁).1 = (program.run second disk₂).1 ∧
      related (program.run first disk₁).2 (program.run second disk₂).2 := by
  induction program generalizing disk₁ disk₂ with
  | done value => exact ⟨rfl, start⟩
  | read address next ih =>
    obtain ⟨reply, after⟩ := approximates.read_served served.1 start
    have rest := served.2
    simp only [run]
    rw [reply] at rest ⊢
    exact ih _ rest after
  | write address data next ih =>
    obtain ⟨reply, after⟩ := approximates.write_served served.1 start
    have rest := served.2
    simp only [run]
    rw [reply] at rest ⊢
    exact ih _ rest after

/-- The device answers every request for an address inside. -/
structure Reliable (device : Device δ₂ ι β ε) (inside : ι → Prop) : Prop where
  read : ∀ address disk, inside address → ∃ data, (device.read address disk).1 = .ok data
  write : ∀ address data disk, inside address → (device.write address data disk).1 = .ok ()

/-- A device that cannot be told from a reliable one serves every run. -/
theorem served_of_simulates {first : Device δ₁ ι β ε} {second : Device δ₂ ι β ε}
    {inside : ι → Prop} {related : δ₁ → δ₂ → Prop} (simulates : Simulates first second related)
    (reliable : Reliable second inside) (program : Io ι β ε α) {disk₁ : δ₁} {disk₂ : δ₂}
    (start : related disk₁ disk₂) : program.Served first inside disk₁ := by
  induction program generalizing disk₁ disk₂ with
  | done value => trivial
  | read address next ih =>
    obtain ⟨reply, after⟩ := simulates.read address disk₁ disk₂ start
    constructor
    · intro here
      obtain ⟨data, answered⟩ := reliable.read address disk₂ here
      exact ⟨data, reply.trans answered⟩
    · exact ih _ after
  | write address data next ih =>
    obtain ⟨reply, after⟩ := simulates.write address data disk₁ disk₂ start
    constructor
    · intro here
      exact reply.trans (reliable.write address data disk₂ here)
    · exact ih _ after

end Io

namespace Prog

/-- No request of the program's run for an address inside fails. -/
def Served (device : Device δ₁ ι β ε) (inside : ι → Prop) (program : Prog σ ι β ε α)
    (state : σ × δ₁) : Prop := (program state.1).Served device inside state.2

/-- A run whose requests are served has the outcome of the run on the device that never fails. -/
theorem exec_served {first : Device δ₁ ι β ε} {second : Device δ₂ ι β ε} {inside : ι → Prop}
    {related : δ₁ → δ₂ → Prop} (approximates : Io.Approximates first second inside related)
    {program : Prog σ ι β ε α} {memory : σ} {disk₁ : δ₁} {disk₂ : δ₂}
    (served : Served first inside program (memory, disk₁)) (start : related disk₁ disk₂) :
    (exec first program (memory, disk₁)).1 = (exec second program (memory, disk₂)).1 ∧
      (exec first program (memory, disk₁)).2.1 = (exec second program (memory, disk₂)).2.1 ∧
      related (exec first program (memory, disk₁)).2.2
        (exec second program (memory, disk₂)).2.2 := by
  obtain ⟨same, after⟩ := Io.run_served approximates (program memory) served start
  simp only [exec]
  exact ⟨congrArg Prod.fst same, congrArg Prod.snd same, after⟩

end Prog

end BlockProgram
