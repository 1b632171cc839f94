import DenyFS.Library.Storage

/-! # Devices with a schedule of failures

`faulty base` is `base` with a schedule: it says of every read and of every write to come
whether it is served or fails, and a request that fails changes nothing.  What a program does
against all schedules is what it does against any device that fails now and then. -/

namespace BlockProgram

variable {δ δ₁ δ₂ σ ι β ε α γ : Type}

/-- The requests to come: `none` is served and `some error` fails with that error; past the end
of a list every request is served. -/
structure Schedule (ε : Type) where
  reads : List (Option ε)
  writes : List (Option ε)

/-- What becomes of request `n`. -/
def fate (requests : List (Option ε)) (n : Nat) : Option ε := requests.getD n none

@[simp] theorem fate_nil (n : Nat) : fate ([] : List (Option ε)) n = none := rfl

@[simp] theorem fate_cons_zero (first : Option ε) (rest : List (Option ε)) :
    fate (first :: rest) 0 = first := rfl

@[simp] theorem fate_tail (requests : List (Option ε)) (n : Nat) :
    fate requests.tail n = fate requests (n + 1) := by
  cases requests with
  | nil => rfl
  | cons first rest => rfl

/-- Request `n` fails, all others are served. -/
def failAt (n : Nat) (error : ε) : List (Option ε) := List.replicate n none ++ [some error]

theorem fate_failAt_before {n k : Nat} (early : k < n) (error : ε) :
    fate (failAt n error) k = none := by
  induction n generalizing k with
  | zero => exact absurd early (Nat.not_lt_zero k)
  | succ n ih =>
    cases k with
    | zero => rfl
    | succ k => exact ih (Nat.lt_of_succ_lt_succ early)

theorem fate_failAt (n : Nat) (error : ε) : fate (failAt n error) n = some error := by
  induction n with
  | zero => rfl
  | succ n ih => exact ih

def faulty (base : Device δ ι β ε) : Device (δ × Schedule ε) ι β ε where
  read address state :=
    let schedule := { state.2 with reads := state.2.reads.tail }
    match fate state.2.reads 0 with
    | none => ((base.read address state.1).1, (base.read address state.1).2, schedule)
    | some error => (.error error, state.1, schedule)
  write address data state :=
    let schedule := { state.2 with writes := state.2.writes.tail }
    match fate state.2.writes 0 with
    | none => ((base.write address data state.1).1, (base.write address data state.1).2, schedule)
    | some error => (.error error, state.1, schedule)

section Faulty

variable {base : Device δ ι β ε} {disk : δ} {schedule : Schedule ε}

theorem faulty_read (served : fate schedule.reads 0 = none) (address : ι) :
    (faulty base).read address (disk, schedule) = ((base.read address disk).1,
      (base.read address disk).2, { schedule with reads := schedule.reads.tail }) := by
  simp only [faulty, served]

theorem faulty_read_failed {error : ε} (fails : fate schedule.reads 0 = some error) (address : ι) :
    (faulty base).read address (disk, schedule) =
      (.error error, disk, { schedule with reads := schedule.reads.tail }) := by
  simp only [faulty, fails]

theorem faulty_write (served : fate schedule.writes 0 = none) (address : ι) (data : β) :
    (faulty base).write address data (disk, schedule) = ((base.write address data disk).1,
      (base.write address data disk).2, { schedule with writes := schedule.writes.tail }) := by
  simp only [faulty, served]

theorem faulty_write_failed {error : ε} (fails : fate schedule.writes 0 = some error)
    (address : ι) (data : β) :
    (faulty base).write address data (disk, schedule) =
      (.error error, disk, { schedule with writes := schedule.writes.tail }) := by
  simp only [faulty, fails]

end Faulty

/-- What a device stores it stores under every schedule. -/
theorem faulty_storage [DecidableEq ι] {base : Device δ ι β ε} {inside : ι → Prop}
    {sound : δ → Prop} {view : δ → ι → β} (storage : Storage base inside sound view) :
    Storage (faulty base) inside (fun state => sound state.1) fun state => view state.1 where
  read address state start := by
    cases first : fate state.2.reads 0 with
    | none =>
      rw [faulty_read first]
      exact storage.read address state.1 start
    | some error =>
      rw [faulty_read_failed first]
      exact ⟨start, rfl, fun data impossible => nomatch impossible⟩
  write address data state start := by
    cases first : fate state.2.writes 0 with
    | none =>
      rw [faulty_write first]
      exact storage.write address data state.1 start
    | some error =>
      rw [faulty_write_failed first]
      exact ⟨start, .inr ⟨error, rfl, rfl⟩⟩

/-! ## Every failing device has a schedule -/

/-- The first device answers as the second does, or fails and stays as it was. -/
structure Loses (first : Device δ₁ ι β ε) (second : Device δ₂ ι β ε)
    (related : δ₁ → δ₂ → Prop) : Prop where
  read : ∀ address disk₁ disk₂, related disk₁ disk₂ →
    (∃ error, (first.read address disk₁).1 = .error error ∧
      related (first.read address disk₁).2 disk₂) ∨
    ((first.read address disk₁).1 = (second.read address disk₂).1 ∧
      related (first.read address disk₁).2 (second.read address disk₂).2)
  write : ∀ address data disk₁ disk₂, related disk₁ disk₂ →
    (∃ error, (first.write address data disk₁).1 = .error error ∧
      related (first.write address data disk₁).2 disk₂) ∨
    ((first.write address data disk₁).1 = (second.write address data disk₂).1 ∧
      related (first.write address data disk₁).2 (second.write address data disk₂).2)

/-- Whatever failed in a run, some schedule says so. -/
theorem Io.run_faulty {first : Device δ₁ ι β ε} {second : Device δ₂ ι β ε}
    {related : δ₁ → δ₂ → Prop} (loses : Loses first second related) (program : Io ι β ε α)
    {disk₁ : δ₁} {disk₂ : δ₂} (start : related disk₁ disk₂) :
    ∃ schedule, (program.run first disk₁).1 = (program.run (faulty second) (disk₂, schedule)).1 ∧
      related (program.run first disk₁).2 (program.run (faulty second) (disk₂, schedule)).2.1 := by
  induction program generalizing disk₁ disk₂ with
  | done value => exact ⟨⟨[], []⟩, rfl, start⟩
  | read address next ih =>
    cases loses.read address disk₁ disk₂ start with
    | inl fails =>
      obtain ⟨error, reply, after⟩ := fails
      obtain ⟨rest, same, ends⟩ := ih (.error error) after
      refine ⟨⟨some error :: rest.reads, rest.writes⟩, ?_⟩
      simp only [run, reply]
      exact ⟨same, ends⟩
    | inr answers =>
      obtain ⟨reply, after⟩ := answers
      obtain ⟨rest, same, ends⟩ := ih (second.read address disk₂).1 after
      refine ⟨⟨none :: rest.reads, rest.writes⟩, ?_⟩
      simp only [run, reply]
      exact ⟨same, ends⟩
  | write address data next ih =>
    cases loses.write address data disk₁ disk₂ start with
    | inl fails =>
      obtain ⟨error, reply, after⟩ := fails
      obtain ⟨rest, same, ends⟩ := ih (.error error) after
      refine ⟨⟨rest.reads, some error :: rest.writes⟩, ?_⟩
      simp only [run, reply]
      exact ⟨same, ends⟩
    | inr answers =>
      obtain ⟨reply, after⟩ := answers
      obtain ⟨rest, same, ends⟩ := ih (second.write address data disk₂).1 after
      refine ⟨⟨rest.reads, none :: rest.writes⟩, ?_⟩
      simp only [run, reply]
      exact ⟨same, ends⟩

/-- A run on a device that fails now and then is a run under some schedule. -/
theorem exec_faulty {first : Device δ₁ ι β ε} {second : Device δ₂ ι β ε}
    {related : δ₁ → δ₂ → Prop} (loses : Loses first second related) (program : Prog σ ι β ε α)
    (memory : σ) {disk₁ : δ₁} {disk₂ : δ₂} (start : related disk₁ disk₂) :
    ∃ schedule,
      (Prog.exec first program (memory, disk₁)).1 =
        (Prog.exec (faulty second) program (memory, disk₂, schedule)).1 ∧
      (Prog.exec first program (memory, disk₁)).2.1 =
        (Prog.exec (faulty second) program (memory, disk₂, schedule)).2.1 ∧
      related (Prog.exec first program (memory, disk₁)).2.2
        (Prog.exec (faulty second) program (memory, disk₂, schedule)).2.2.1 := by
  obtain ⟨schedule, same, after⟩ := Io.run_faulty loses (program memory) start
  exact ⟨schedule, congrArg Prod.fst same, congrArg Prod.snd same, after⟩

/-! ## Devices that read alike -/

/-- In state `disk₁` the first device answers every read as the second does in state `disk₂`,
and neither changes. -/
def ReadsAs (first : Device δ₁ ι β ε) (disk₁ : δ₁) (second : Device δ₂ ι β ε) (disk₂ : δ₂) :
    Prop :=
  ∀ address, first.read address disk₁ = ((second.read address disk₂).1, disk₁) ∧
    (second.read address disk₂).2 = disk₂

theorem Io.run_readsAs {first : Device δ₁ ι β ε} {second : Device δ₂ ι β ε} {disk₁ : δ₁}
    {disk₂ : δ₂} (alike : ReadsAs first disk₁ second disk₂) {program : Io ι β ε α}
    (readOnly : program.ReadOnly) :
    program.run first disk₁ = ((program.run second disk₂).1, disk₁) := by
  induction program with
  | done value => rfl
  | read address next ih =>
    obtain ⟨reply, same⟩ := alike address
    simp only [run, reply, same]
    exact ih _ (readOnly _)
  | write address data next ih => exact readOnly.elim

/-- A program that only looks ends alike on both. -/
theorem exec_readsAs {first : Device δ₁ ι β ε} {second : Device δ₂ ι β ε} {disk₁ : δ₁}
    {disk₂ : δ₂} (alike : ReadsAs first disk₁ second disk₂) {program : Prog σ ι β ε α}
    (passive : Prog.Passive program) (memory : σ) :
    Prog.exec first program (memory, disk₁) =
      ((Prog.exec second program (memory, disk₂)).1, memory, disk₁) := by
  have kept := passive.exec_memory second (memory, disk₂)
  have run := Io.run_readsAs alike (passive.readOnly memory)
  simp only [Prog.exec, run] at kept ⊢
  rw [kept]

/-- A schedule without failing reads reads as the device itself. -/
theorem faulty_readsAs {base : Device δ ι β ε} {disk : δ}
    (frozen : ∀ address, (base.read address disk).2 = disk) (writes : List (Option ε)) :
    ReadsAs (faulty base) (disk, ⟨[], writes⟩) base disk := by
  intro address
  apply And.intro _ (frozen address)
  simp [faulty, frozen]

/-! ## Sequences of writes -/

/-- A sequence of writes succeeds where the device would serve it and the schedule lets it. -/
theorem faulty_writeAll {base : Device δ ι β ε} (error : ε) {writes : List (ι × β)}
    (served : ∀ write ∈ writes, ∀ disk, (base.write write.1 write.2 disk).1 = .ok ())
    (memory : σ) (disk : δ) (schedule : Schedule ε) :
    (Prog.exec (faulty base) (writeAll error writes) (memory, disk, schedule)).1 = .ok () ↔
      ∀ n < writes.length, fate schedule.writes n = none := by
  induction writes generalizing disk schedule with
  | nil => simp [writeAll]
  | cons write rest ih =>
    obtain ⟨address, data⟩ := write
    have later := ih fun write listed => served write (List.mem_cons_of_mem _ listed)
    have request := Prog.exec_writeAt (faulty base) (memory, disk, schedule) address data
    rw [writeAll]
    cases first : fate schedule.writes 0 with
    | none =>
      rw [faulty_write first, served (address, data) List.mem_cons_self] at request
      rw [Prog.exec_bind_ok (Prog.exec_elseThrow_ok request error), later]
      simp only [fate_tail]
      constructor
      · intro rest n small
        cases n with
        | zero => exact first
        | succ n => exact rest n (Nat.lt_of_succ_lt_succ small)
      · intro all n small
        exact all (n + 1) (Nat.succ_lt_succ small)
    | some failure =>
      rw [faulty_write_failed first] at request
      rw [Prog.exec_bind_error (Prog.exec_elseThrow_error request error)]
      simp only [reduceCtorEq, false_iff]
      intro all
      rw [all 0 (Nat.zero_lt_succ _)] at first
      cases first

end BlockProgram
