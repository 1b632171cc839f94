import DenyFS.Library.Faulty
import DenyFS.Library.Strict

/-! # How many requests a run makes

Against a schedule, a strict program returns what it returns on the device itself where the
schedule serves as many reads and writes as its run there makes, and fails everywhere else. -/

namespace BlockProgram

variable {δ σ ι β ε α γ : Type}

/-! ## Schedules -/

namespace Schedule

/-- The next `reads` reads and the next `writes` writes are served. -/
structure Serves (schedule : Schedule ε) (reads writes : Nat) : Prop where
  reads : ∀ n < reads, fate schedule.reads n = none
  writes : ∀ n < writes, fate schedule.writes n = none

/-- What is left of a schedule after so many requests. -/
def after (schedule : Schedule ε) (reads writes : Nat) : Schedule ε :=
  ⟨schedule.reads.drop reads, schedule.writes.drop writes⟩

end Schedule

@[simp] theorem fate_drop (requests : List (Option ε)) (m n : Nat) :
    fate (requests.drop m) n = fate requests (m + n) := by
  induction m generalizing requests with
  | zero => rw [List.drop_zero, Nat.zero_add]
  | succ m ih =>
    rw [← List.drop_tail, ih, fate_tail]
    congr 1
    omega

namespace Schedule

variable {schedule : Schedule ε} {reads writes reads' writes' : Nat}

@[simp] theorem after_zero (schedule : Schedule ε) : schedule.after 0 0 = schedule := rfl

theorem after_after (schedule : Schedule ε) (reads writes reads' writes' : Nat) :
    (schedule.after reads writes).after reads' writes' =
      schedule.after (reads + reads') (writes + writes') := by
  simp only [after, List.drop_drop]

theorem after_read (schedule : Schedule ε) (reads writes : Nat) :
    Schedule.after ⟨schedule.reads.tail, schedule.writes⟩ reads writes =
      schedule.after (reads + 1) writes := by
  simp only [after, List.drop_tail]

theorem after_write (schedule : Schedule ε) (reads writes : Nat) :
    Schedule.after ⟨schedule.reads, schedule.writes.tail⟩ reads writes =
      schedule.after reads (writes + 1) := by
  simp only [after, List.drop_tail]

theorem serves_zero (schedule : Schedule ε) : schedule.Serves 0 0 :=
  ⟨fun _ impossible => absurd impossible (Nat.not_lt_zero _),
    fun _ impossible => absurd impossible (Nat.not_lt_zero _)⟩

theorem serves_add (schedule : Schedule ε) (reads writes reads' writes' : Nat) :
    schedule.Serves (reads + reads') (writes + writes') ↔
    schedule.Serves reads writes ∧ (schedule.after reads writes).Serves reads' writes' := by
  constructor
  · intro all
    refine ⟨⟨fun n small => all.reads n (by omega), fun n small => all.writes n (by omega)⟩, ?_⟩
    constructor
    · intro n small
      rw [after, fate_drop]
      exact all.reads _ (by omega)
    · intro n small
      rw [after, fate_drop]
      exact all.writes _ (by omega)
  · intro both
    obtain ⟨first, rest⟩ := both
    simp only [after] at rest
    constructor
    · intro n small
      by_cases early : n < reads
      · exact first.reads n early
      · have later := rest.reads (n - reads) (by omega)
        rwa [fate_drop, Nat.add_sub_cancel' (Nat.le_of_not_lt early)] at later
    · intro n small
      by_cases early : n < writes
      · exact first.writes n early
      · have later := rest.writes (n - writes) (by omega)
        rwa [fate_drop, Nat.add_sub_cancel' (Nat.le_of_not_lt early)] at later

theorem serves_read : schedule.Serves (reads + 1) writes ↔
    fate schedule.reads 0 = none ∧
      Serves ⟨schedule.reads.tail, schedule.writes⟩ reads writes := by
  constructor
  · intro all
    refine ⟨all.reads 0 (Nat.succ_pos _), fun n small => ?_, all.writes⟩
    rw [fate_tail]
    exact all.reads (n + 1) (Nat.succ_lt_succ small)
  · intro both
    obtain ⟨first, rest⟩ := both
    refine ⟨fun n small => ?_, rest.writes⟩
    cases n with
    | zero => exact first
    | succ n =>
      have later := rest.reads n (Nat.lt_of_succ_lt_succ small)
      rwa [fate_tail] at later

theorem serves_write : schedule.Serves reads (writes + 1) ↔
    fate schedule.writes 0 = none ∧
      Serves ⟨schedule.reads, schedule.writes.tail⟩ reads writes := by
  constructor
  · intro all
    refine ⟨all.writes 0 (Nat.succ_pos _), all.reads, fun n small => ?_⟩
    rw [fate_tail]
    exact all.writes (n + 1) (Nat.succ_lt_succ small)
  · intro both
    obtain ⟨first, rest⟩ := both
    refine ⟨rest.reads, fun n small => ?_⟩
    cases n with
    | zero => exact first
    | succ n =>
      have later := rest.writes n (Nat.lt_of_succ_lt_succ small)
      rwa [fate_tail] at later

end Schedule

/-! ## Requests of one run -/

namespace Io

def readCount (device : Device δ ι β ε) : Io ι β ε α → δ → Nat
  | .done _, _ => 0
  | .read address next, disk =>
    (next (device.read address disk).1).readCount device (device.read address disk).2 + 1
  | .write address data next, disk =>
    (next (device.write address data disk).1).readCount device (device.write address data disk).2

def writeCount (device : Device δ ι β ε) : Io ι β ε α → δ → Nat
  | .done _, _ => 0
  | .read address next, disk =>
    (next (device.read address disk).1).writeCount device (device.read address disk).2
  | .write address data next, disk =>
    (next (device.write address data disk).1).writeCount device
      (device.write address data disk).2 + 1

theorem readCount_bind (device : Device δ ι β ε) (program : Io ι β ε α) (next : α → Io ι β ε γ)
    (disk : δ) :
    (program.bind next).readCount device disk = program.readCount device disk +
      (next (program.run device disk).1).readCount device (program.run device disk).2 := by
  induction program generalizing disk with
  | done value => simp only [bind, readCount, run, Nat.zero_add]
  | read address rest ih =>
    simp only [bind, readCount, run, ih]
    omega
  | write address data rest ih => simp only [bind, readCount, run, ih]

theorem writeCount_bind (device : Device δ ι β ε) (program : Io ι β ε α) (next : α → Io ι β ε γ)
    (disk : δ) :
    (program.bind next).writeCount device disk = program.writeCount device disk +
      (next (program.run device disk).1).writeCount device (program.run device disk).2 := by
  induction program generalizing disk with
  | done value => simp only [bind, writeCount, run, Nat.zero_add]
  | read address rest ih => simp only [bind, writeCount, run, ih]
  | write address data rest ih =>
    simp only [bind, writeCount, run, ih]
    omega

theorem writeCount_readOnly (device : Device δ ι β ε) {program : Io ι β ε α}
    (readOnly : program.ReadOnly) (disk : δ) : program.writeCount device disk = 0 := by
  induction program generalizing disk with
  | done value => rfl
  | read address next ih => exact ih _ (readOnly _) _
  | write address data next ih => exact readOnly.elim

section Faulty

variable {base : Device δ ι β ε}

/-- A run whose requests are all served is the run on the device itself. -/
theorem run_faulty_served (program : Io ι β ε α) {disk : δ} {schedule : Schedule ε}
    (serves : schedule.Serves (program.readCount base disk) (program.writeCount base disk)) :
    program.run (faulty base) (disk, schedule) =
      ((program.run base disk).1, (program.run base disk).2,
        schedule.after (program.readCount base disk) (program.writeCount base disk)) := by
  induction program generalizing disk schedule with
  | done value => rfl
  | read address next ih =>
    obtain ⟨first, rest⟩ := Schedule.serves_read.1 serves
    simp only [run, readCount, writeCount, faulty_read first]
    rw [ih _ rest, Schedule.after_read]
  | write address data next ih =>
    obtain ⟨first, rest⟩ := Schedule.serves_write.1 serves
    simp only [run, readCount, writeCount, faulty_write first]
    rw [ih _ rest, Schedule.after_write]

/-- A strict program fails where one of the requests of its run is not served. -/
theorem run_faulty_failed {failed : α → Prop} {program : Io ι β ε α}
    (strict : program.Strict failed) {disk : δ} {schedule : Schedule ε}
    (spoiled : ¬schedule.Serves (program.readCount base disk) (program.writeCount base disk)) :
    failed (program.run (faulty base) (disk, schedule)).1 := by
  induction program generalizing disk schedule with
  | done value => exact absurd schedule.serves_zero spoiled
  | read address next ih =>
    simp only [readCount, writeCount, Schedule.serves_read, not_and] at spoiled
    cases first : fate schedule.reads 0 with
    | none =>
      simp only [run, faulty_read first]
      exact ih _ (strict.2 _) (spoiled first)
    | some error =>
      simp only [run, faulty_read_failed first]
      exact run_ends _ (strict.1 error) _
  | write address data next ih =>
    simp only [readCount, writeCount, Schedule.serves_write, not_and] at spoiled
    cases first : fate schedule.writes 0 with
    | none =>
      simp only [run, faulty_write first]
      exact ih _ (strict.2 _) (spoiled first)
    | some error =>
      simp only [run, faulty_write_failed first]
      exact run_ends _ (strict.1 error) _

end Faulty

end Io

namespace Prog

/-- How many reads the program's run makes. -/
def readCount (device : Device δ ι β ε) (program : Prog σ ι β ε α) (state : σ × δ) : Nat :=
  (program state.1).readCount device state.2

/-- How many writes the program's run makes. -/
def writeCount (device : Device δ ι β ε) (program : Prog σ ι β ε α) (state : σ × δ) : Nat :=
  (program state.1).writeCount device state.2

section Count

variable (device : Device δ ι β ε) (state : σ × δ)

@[simp] theorem readCount_pure (value : α) :
    readCount device (pure value : Prog σ ι β ε α) state = 0 := rfl

@[simp] theorem readCount_throw (error : ε) :
    readCount device (throw error : Prog σ ι β ε α) state = 0 := rfl

@[simp] theorem readCount_get : readCount device (get : Prog σ ι β ε σ) state = 0 := rfl

@[simp] theorem readCount_modify (f : σ → σ) :
    readCount device (modify f : Prog σ ι β ε Unit) state = 0 := rfl

@[simp] theorem readCount_readAt (address : ι) :
    readCount device (readAt address : Prog σ ι β ε β) state = 1 := rfl

theorem readCount_bind (program : Prog σ ι β ε α) (next : α → Prog σ ι β ε γ) :
    readCount device (program >>= next) state = readCount device program state +
      match exec device program state with
      | (.ok value, state') => readCount device (next value) state'
      | (.error _, _) => 0 := by
  simp only [readCount, exec, Bind.bind, Io.readCount_bind]
  cases (program state.1).run device state.2 with
  | mk outcome disk =>
    obtain ⟨result, memory⟩ := outcome
    cases result with
    | ok value => rfl
    | error error => rfl

@[simp] theorem readCount_elseThrow (program : Prog σ ι β ε α) (error : ε) :
    readCount device (program.elseThrow error) state = readCount device program state := by
  have attempted : readCount device program.attempt state = readCount device program state := by
    simp only [readCount, attempt, Io.readCount_bind, Io.readCount, Nat.add_zero]
  simp only [elseThrow, readCount_bind, attempted, exec_attempt]
  cases (exec device program state).1 with
  | ok value => rfl
  | error failure => rfl

variable {device state}

theorem readCount_bind_ok {program : Prog σ ι β ε α} {next : α → Prog σ ι β ε γ} {value : α}
    {state' : σ × δ} (returns : exec device program state = (.ok value, state')) :
    readCount device (program >>= next) state =
      readCount device program state + readCount device (next value) state' := by
  rw [readCount_bind, returns]

theorem writeCount_readOnly {program : Prog σ ι β ε α} (readOnly : ReadOnly program) :
    writeCount device program state = 0 := Io.writeCount_readOnly device (readOnly state.1) state.2

end Count

section Faulty

variable {base : Device δ ι β ε} {program : Prog σ ι β ε α} {memory : σ} {disk : δ}
  {schedule : Schedule ε}

theorem exec_faulty_served (serves : schedule.Serves (readCount base program (memory, disk))
      (writeCount base program (memory, disk))) :
    exec (faulty base) program (memory, disk, schedule) =
      ((exec base program (memory, disk)).1, (exec base program (memory, disk)).2.1,
        (exec base program (memory, disk)).2.2,
        schedule.after (readCount base program (memory, disk))
          (writeCount base program (memory, disk))) := by
  have run := Io.run_faulty_served (program memory) serves
  simp only [exec]
  rw [run]
  rfl

theorem exec_faulty_failed (strict : Strict program)
    (spoiled : ¬schedule.Serves (readCount base program (memory, disk))
      (writeCount base program (memory, disk))) :
    ∃ error, (exec (faulty base) program (memory, disk, schedule)).1 = .error error :=
  Io.run_faulty_failed (strict memory) spoiled

/-- A program that writes nothing leaves alone what reads leave alone, whatever fails. -/
theorem exec_faulty_readOnly (readOnly : ReadOnly program)
    (frozen : ∀ address disk, (base.read address disk).2 = disk) :
    (exec (faulty base) program (memory, disk, schedule)).2.2.1 = disk := by
  apply exec_readOnly (faulty base) (fun before after => after.1 = before.1) (fun _ => rfl)
    (fun first second => second.trans first) _ readOnly (memory, disk, schedule)
  intro address state
  cases first : fate state.2.reads 0 with
  | none => rw [faulty_read first, frozen]
  | some error => rw [faulty_read_failed first]

/-- A program that only looks either returns what it returns on the device itself, or fails
where one of its reads does; nothing changes. -/
theorem exec_faulty_simple (simple : Simple program)
    (frozen : ∀ address disk, (base.read address disk).2 = disk) {value : α}
    (returns : exec base program (memory, disk) = (.ok value, memory, disk))
    (schedule : Schedule ε) :
    (schedule.Serves (readCount base program (memory, disk)) 0 ∧
      exec (faulty base) program (memory, disk, schedule) =
        (.ok value, memory, disk, schedule.after (readCount base program (memory, disk)) 0)) ∨
    (¬schedule.Serves (readCount base program (memory, disk)) 0 ∧ ∃ error schedule',
      exec (faulty base) program (memory, disk, schedule) =
        (.error error, memory, disk, schedule')) := by
  have silent : writeCount base program (memory, disk) = 0 :=
    writeCount_readOnly simple.passive.readOnly
  by_cases serves : schedule.Serves (readCount base program (memory, disk)) 0
  · left
    have run : exec (faulty base) program (memory, disk, schedule) = _ :=
      exec_faulty_served (by rw [silent]; exact serves)
    rw [silent, returns] at run
    exact ⟨serves, run⟩
  · right
    have kept := simple.passive.exec_memory (faulty base) (memory, disk, schedule)
    have same : (exec (faulty base) program (memory, disk, schedule)).2.2.1 = disk :=
      exec_faulty_readOnly simple.passive.readOnly frozen
    obtain ⟨error, fails⟩ := exec_faulty_failed simple.strict (by rw [silent]; exact serves)
    exact ⟨serves, error, (exec (faulty base) program (memory, disk, schedule)).2.2.2,
      Prod.ext fails (Prod.ext kept (Prod.ext same rfl))⟩

end Faulty

end Prog

end BlockProgram
