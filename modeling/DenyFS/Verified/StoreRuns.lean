import DenyFS.Verified.FileStore

/-! # Runs of a store of files

What the specification says about runs, over all mounts of a volume: the requests that were
served make one log, in which a read returns what was written last, and unless space runs out
every file is its string of bytes. -/

namespace DenyFS

open Refinement SparseFile

variable {F : Type} {ops : FileOps UInt8 F} {rootTime : UInt64}

/-! ## The specification of mounts -/

/-- What one mount may be answered where `files` are stored, and what is stored afterwards. -/
inductive MountAllows (ops : FileOps UInt8 F) (rootTime : UInt64) (files : FileStore F)
    (requests : List Request) : Option (List (Except Errno Answer)) → FileStore F → Prop where
  | refused : MountAllows ops rootTime files requests none files
  | served {answers : List (Except Errno Answer)} {files' : FileStore F} :
    Traces (storeSpec ops rootTime) requests files answers files' →
    MountAllows ops rootTime files requests (some answers) files'

/-- The specification of a volume that is mounted again and again. -/
def mountSpec (ops : FileOps UInt8 F) (rootTime : UInt64) :
    Spec (Credentials × List Request) (Option (List (Except Errno Answer))) (FileStore F) :=
  fun mounting files result files' => MountAllows ops rootTime files mounting.2 result files'

/-- No write of these mounts ran out of space. -/
def NeverFull (mounts : List (Credentials × List Request))
    (results : List (Option (List (Except Errno Answer)))) : Prop :=
  List.Forall₂ (fun mounting result => ∀ answers, result = some answers →
    List.Forall₂ (fun r answer => ¬Request.RanFull r answer) mounting.2 answers) mounts results

/-! ## The log -/

/-- The requests of the mounts that were served, with their answers. -/
def serveLog (mounts : List (Credentials × List Request))
    (results : List (Option (List (Except Errno Answer)))) : List (Request × Except Errno Answer) :=
  (mounts.zip results).flatMap fun mount => mount.1.2.zip (mount.2.getD [])

theorem serveLog_cons (mounting : Credentials × List Request)
    (mounts : List (Credentials × List Request)) (result : Option (List (Except Errno Answer)))
    (results : List (Option (List (Except Errno Answer)))) :
    serveLog (mounting :: mounts) (result :: results) =
      mounting.2.zip (result.getD []) ++ serveLog mounts results := by
  simp [serveLog]

/-- The log takes the store from `files` to `files'`. -/
def Follows (ops : FileOps UInt8 F) (rootTime : UInt64) (files : FileStore F)
    (log : List (Request × Except Errno Answer)) (files' : FileStore F) : Prop :=
  Traces (storeSpec ops rootTime) (log.map Prod.fst) files (log.map Prod.snd) files'

theorem Follows.append {files middle files' : FileStore F}
    {first second : List (Request × Except Errno Answer)}
    (before : Follows ops rootTime files first middle)
    (after : Follows ops rootTime middle second files') :
    Follows ops rootTime files (first ++ second) files' := by
  unfold Follows
  rw [List.map_append, List.map_append]
  exact Traces.append before after

theorem Follows.split {files files' : FileStore F}
    {first second : List (Request × Except Errno Answer)}
    (follows : Follows ops rootTime files (first ++ second) files') :
    ∃ middle, Follows ops rootTime files first middle ∧
      Follows ops rootTime middle second files' := by
  unfold Follows at follows
  rw [List.map_append, List.map_append] at follows
  obtain ⟨middle, front, back, same, before, after⟩ := Traces.split follows
  have lengths : (first.map Prod.snd).length = front.length := by
    rw [before.length_eq]
    simp
  obtain ⟨rfl, rfl⟩ := List.append_inj same lengths
  exact ⟨middle, before, after⟩

theorem Follows.cons {files files' : FileStore F} {entry : Request × Except Errno Answer}
    {rest : List (Request × Except Errno Answer)}
    (follows : Follows ops rootTime files (entry :: rest) files') :
    ∃ middle, Allows ops rootTime files entry.1 entry.2 middle ∧
      Follows ops rootTime middle rest files' := by
  cases follows with
  | cons step later => exact ⟨_, step, later⟩

/-- All mounts of a volume make one log. -/
theorem follows_serveLog {mounts : List (Credentials × List Request)}
    {results : List (Option (List (Except Errno Answer)))} {files files' : FileStore F}
    (trace : Traces (mountSpec ops rootTime) mounts files results files') :
    Follows ops rootTime files (serveLog mounts results) files' := by
  induction trace with
  | nil => exact .nil
  | @cons mounting rest first middle last result results step _ ih =>
    rw [serveLog_cons]
    apply Follows.append _ ih
    cases step with
    | refused =>
      have none : mounting.2.zip ((none : Option (List (Except Errno Answer))).getD []) = [] :=
        List.zip_nil_right
      rw [none]
      exact .nil
    | served trace =>
      have lengths := trace.length_eq
      unfold Follows
      rw [Option.getD_some, List.map_fst_zip (by omega), List.map_snd_zip (by omega)]
      exact trace

/-! ## Requests to other files -/

/-- The log changes no file of this name. -/
def Spares (log : List (Request × Except Errno Answer)) (name : List UInt8) : Prop :=
  ∀ entry ∈ log, ∀ text, entry.1.target = some text → text.bytes ≠ name

theorem Follows.spared {files files' : FileStore F} {log : List (Request × Except Errno Answer)}
    (follows : Follows ops rootTime files log files') {name : List UInt8} (spares : Spares log name) :
    files' name = files name := by
  induction log generalizing files with
  | nil =>
    cases follows
    rfl
  | cons entry rest ih =>
    obtain ⟨middle, allowed, later⟩ := follows.cons
    rw [ih later fun e listed => spares e (List.mem_cons_of_mem _ listed)]
    exact allowed.frame (spares entry List.mem_cons_self)

/-- A read that is accepted returns what a write to the same path stored, as long as no request in
between changes that file. -/
theorem Follows.read_written {files files' : FileStore (Image UInt8 4096)}
    {between later : List (Request × Except Errno Answer)} {now : UInt64} {path name : CString}
    {data : List UInt8} {offset offset' : Int64} {n size : Nat} {answer : Except Errno Answer}
    {perUnit : Nat}
    (follows : Follows (imageOps UInt8 4096 perUnit) rootTime files
      ((.write now path data offset, .ok (.count n)) :: between ++
        (.read path size offset', answer) :: later) files')
    (named : pathToName path = some name) (spares : Spares between name.bytes)
    (positive : ¬offset' < 0) (small : size ≤ intMax)
    (lower : offset.toUInt64.toNat ≤ offset'.toUInt64.toNat)
    (upper : offset'.toUInt64.toNat + size ≤ offset.toUInt64.toNat + data.length) :
    answer = .ok (.data
      ((data.drop (offset'.toUInt64.toNat - offset.toUInt64.toNat)).take size)) := by
  rw [List.cons_append] at follows
  obtain ⟨written, write, follows⟩ := follows.cons
  obtain ⟨middle, quiet, follows⟩ := follows.split
  obtain ⟨_, read, _⟩ := follows.cons
  have kept := quiet.spared spares
  cases write with
  | @written _ _ _ _ found file _ holds =>
    obtain ⟨text, onPath, rfl, _⟩ := FileStore.find_eq_ok.1 holds
    rw [named] at onPath
    obtain rfl := Option.some.inj onPath
    rw [Function.update_self] at kept
    have finds : middle.find path = .ok (name.bytes, _) :=
      FileStore.find_eq_ok.2 ⟨name, named, rfl, kept⟩
    cases read with
    | refused error =>
      simp [FileStore.refusal, positive, FileStore.missing, finds, Nat.not_lt.2 small] at error
    | read _ holds' =>
      rw [finds] at holds'
      obtain ⟨_, rfl⟩ := Prod.mk.inj (Except.ok.inj holds')
      have bytes := Image.read_write file.contents lower upper
      exact congrArg (fun bytes => Except.ok (Answer.data bytes)) bytes

/-! ## Files as strings of bytes -/

section Strings

variable {files files' : FileStore (Image UInt8 4096)} {perUnit : Nat}

/-- A write that is not refused stays below the size limit. -/
theorem FileStore.write_fits {files : FileStore F} {now : UInt64} {path : CString}
    {buf : List UInt8} {offset : Int64} (fine : files.refusal (.write now path buf offset) = none) :
    offset.toUInt64.toNat + buf.length ≤ maxFileSize := by
  by_contra past
  change (if offset < 0 then some Errno.einval else (files.missing path).or
    (if intMax < buf.length then some .einval
    else if maxFileSize < offset.toUInt64.toNat + buf.length then some .enospc else none)) = none
    at fine
  rw [if_pos (Nat.not_le.1 past)] at fine
  split at fine
  · cases fine
  · rw [Option.or_eq_none_iff] at fine
    have sized := fine.2
    split at sized <;> cases sized

/-- Unless a write runs out of space, nothing is kept past the end of a file. -/
theorem Allows.clean {r : Request} {answer : Except Errno Answer}
    (allowed : Allows (imageOps UInt8 4096 perUnit) rootTime files r answer files')
    (clean : files.All Image.Clean) (room : ¬r.RanFull answer) : files'.All Image.Clean := by
  have update : ∀ {name : List UInt8} {value : Option (StoredFile (Image UInt8 4096))},
      (∀ file, value = some file → file.contents.Clean) →
      FileStore.All Image.Clean (Function.update files name value) := by
    intro name value good other file stored
    by_cases here : other = name
    · rw [here, Function.update_self] at stored
      exact good file stored
    · rw [Function.update_of_ne here] at stored
      exact clean other file stored
  cases allowed with
  | refused _ => exact clean
  | root _ => exact clean
  | stat _ _ => exact clean
  | listed _ _ _ => exact clean
  | opened _ => exact clean
  | read _ _ => exact clean
  | written _ found =>
    apply update
    rintro _ ⟨⟩
    exact (clean.found found).write _ _
  | @full _ path buf offset _ _ _ fine found short =>
    -- such a write was not too long
    exact absurd (FileStore.write_fits fine) room
  | created _ _ =>
    apply update
    rintro _ ⟨⟩
    exact fun _ _ => rfl
  | noSpace _ => exact clean
  | removed _ =>
    apply update
    intro _ none
    cases none
  | resized _ found =>
    apply update
    rintro _ ⟨⟩
    exact (clean.found found).resize _

theorem Traces.strings {requests : List Request} {answers : List (Except Errno Answer)}
    (trace : Traces (storeSpec (imageOps UInt8 4096 perUnit) rootTime) requests files answers files')
    (clean : files.All Image.Clean)
    (room : List.Forall₂ (fun r answer => ¬Request.RanFull r answer) requests answers) :
    Traces (storeSpec (stringOps UInt8) rootTime) requests (files.map Image.contents) answers
        (files'.map Image.contents) ∧ files'.All Image.Clean := by
  induction trace with
  | nil => exact ⟨.nil, clean⟩
  | cons step _ ih =>
    obtain ⟨first, rest⟩ := List.forall₂_cons.1 room
    obtain ⟨later, final⟩ := ih (Allows.clean step clean first) rest
    exact ⟨.cons (Allows.map (Image.contents_hom UInt8 4096 perUnit) clean step) later, final⟩

/-- Over all mounts the files are strings of bytes. -/
theorem mounts_strings {mounts : List (Credentials × List Request)}
    {results : List (Option (List (Except Errno Answer)))}
    (trace : Traces (mountSpec (imageOps UInt8 4096 perUnit) rootTime) mounts files results files')
    (clean : files.All Image.Clean) (room : NeverFull mounts results) :
    Traces (mountSpec (stringOps UInt8) rootTime) mounts (files.map Image.contents) results
        (files'.map Image.contents) ∧ files'.All Image.Clean := by
  induction trace with
  | nil => exact ⟨.nil, clean⟩
  | @cons mounting rest first middle last result results step _ ih =>
    obtain ⟨here, there⟩ := List.forall₂_cons.1 room
    have served : MountAllows (stringOps UInt8) rootTime (first.map Image.contents) mounting.2
        result (middle.map Image.contents) ∧ middle.All Image.Clean := by
      cases step with
      | refused => exact ⟨.refused, clean⟩
      | served trace =>
        obtain ⟨strings, kept⟩ := Traces.strings trace clean (here _ rfl)
        exact ⟨.served strings, kept⟩
    obtain ⟨later, final⟩ := ih served.2 there
    exact ⟨.cons served.1 later, final⟩

theorem NeverFull.filter {mounts : List (Credentials × List Request)}
    {results : List (Option (List (Except Errno Answer)))} (room : NeverFull mounts results)
    (mine : Credentials × List Request → Bool) :
    NeverFull (mounts.filter mine) (Machine.resultsOf mine mounts results) := by
  induction room with
  | nil => exact .nil
  | @cons mounting result rest results here _ ih =>
    cases own : mine mounting with
    | true =>
      simp only [List.filter_cons, Machine.resultsOf, own, if_true]
      exact .cons here ih
    | false =>
      simp only [List.filter_cons, Machine.resultsOf, own, Bool.false_eq_true, if_false]
      exact ih

end Strings

end DenyFS
