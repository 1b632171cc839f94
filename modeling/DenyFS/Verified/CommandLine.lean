import DenyFS.Model.Dashboard
import Mathlib.Data.List.TakeWhile

/-! # From the dashboard to the handlers

The dashboard writes a command line and one or two pipes; `main` reads them.  What it reads is what
was meant: decimal numbers come back, a passphrase without line breaks comes back whole, and no
value is taken for an option. -/

namespace DenyFS

/-! ## Numbers -/

theorem decimal_ne_nil (n : Nat) : decimal n ≠ [] := by
  unfold decimal
  rw [ne_eq, List.map_eq_nil_iff]
  exact Nat.toDigits_ne_nil

theorem not_isSpace_of_isDigit {c : UInt8} (digit : isDigit c = true) : isSpace c = false := by
  simp only [isDigit, isSpace, decide_eq_true_eq, decide_eq_false_iff_not, UInt8.le_iff_toNat_le,
    ← UInt8.toNat_inj] at digit ⊢
  change ¬(c.toNat = 32 ∨ 9 ≤ c.toNat ∧ c.toNat ≤ 13)
  change 48 ≤ c.toNat ∧ c.toNat ≤ 57 at digit
  omega

theorem digitsValue_decimal (n : Nat) : digitsValue (decimal n) = n := by
  have value : ∀ c ∈ Nat.toDigits 10 n, (UInt8.ofNat c.toNat).toNat = c.toNat := by
    intro c listed
    have digit := Char.isDigit_iff_toNat.1 (Nat.isDigit_of_mem_toDigits (by decide) (by decide) listed)
    have bounds : c.toNat ≤ 57 := digit.2
    exact UInt8.toNat_ofNat_of_lt' (by simp only [UInt8.size]; omega)
  calc digitsValue (decimal n)
      = (Nat.toDigits 10 n).foldl (fun n c => 10 * n + (c.toNat - 48)) 0 := by
        unfold digitsValue decimal
        rw [List.foldl_map]
        apply List.foldl_ext
        intro m c listed
        rw [value c listed]
    _ = Nat.ofDigitChars 10 (Nat.toDigits 10 n) 0 := Nat.ofDigitChars_eq_foldl.symm
    _ = n := Nat.ofDigitChars_toDigits (by decide) (by decide)

/-- A decimal number is read back. -/
theorem numeral_decimal (n : Nat) : numeral (decimal n) = (false, n) := by
  have digits : (decimal n).takeWhile isDigit = decimal n :=
    List.takeWhile_eq_self_iff.2 fun c member => isDigit_of_mem_decimal member
  have value := digitsValue_decimal n
  unfold numeral
  cases text : decimal n with
  | nil => exact absurd text (decimal_ne_nil n)
  | cons c rest =>
    have digit : isDigit c = true := isDigit_of_mem_decimal (text ▸ List.mem_cons_self : c ∈ decimal n)
    rw [List.dropWhile_cons_of_neg (by rw [not_isSpace_of_isDigit digit]; decide)]
    rw [text] at digits value
    split
    next same => cases same; cases digit
    next same => cases same; cases digit
    next => rw [digits, value]

theorem strtoull_decimal {n : Nat} (small : n < 2 ^ 64) : strtoull (decimal n) = UInt64.ofNat n := by
  simp only [strtoull, numeral_decimal]
  rw [if_neg (by omega)]
  rfl

theorem atoi_decimal {n : Nat} (small : n ≤ intMax) : atoi (decimal n) = n := by
  have limit : intMax = 2147483647 := rfl
  have long : strtol (decimal n) = n := by
    simp only [strtol, numeral_decimal]
    change min (n : Int) (2 ^ 63 - 1) = n
    omega
  rw [atoi, long]
  exact Int.bmod_eq_of_le (by omega) (by omega)

/-! ## Passwords -/

/-- The line a password is read from ends at the first carriage return or line feed. -/
def lineOf (bytes : List UInt8) : List UInt8 := bytes.takeWhile fun ch => !(ch = 10 ∨ ch = 13)

/-- A password is the start of its line, and the rest of the line is lost. -/
theorem readLine_eq {secPass : List UInt8} (short : secPass.length ≤ 511) (bytes : List UInt8) :
    readLine secPass bytes =
      ((secPass ++ lineOf bytes).take 511, bytes.drop ((lineOf bytes).length + 1)) := by
  induction bytes generalizing secPass with
  | nil => simp [readLine, lineOf, List.take_of_length_le short]
  | cons ch rest ih =>
    rw [readLine]
    by_cases ends : ch = 10 ∨ ch = 13
    · have line : lineOf (ch :: rest) = [] := List.takeWhile_cons_of_neg (by rw [decide_eq_true ends]; decide)
      rw [if_pos ends, line, List.append_nil, List.take_of_length_le short]
      rfl
    · have line : lineOf (ch :: rest) = ch :: lineOf rest :=
        List.takeWhile_cons_of_pos (by simpa using ends)
      rw [if_neg ends, line, List.length_cons, List.drop_succ_cons]
      split
      next room =>
        rw [ih (by rw [List.length_append, List.length_singleton]; omega)]
        simp
      next full =>
        rw [ih short, List.take_append_of_le_length (by omega), List.take_append_of_le_length (by omega)]

theorem validSecret_iff {secret : List UInt8} : validSecret secret = true ↔
    secret ≠ [] ∧ secret.length ≤ 511 ∧ 0 ∉ secret ∧ 10 ∉ secret ∧ 13 ∉ secret := by
  simp [validSecret]

/-- A passphrase the dashboard accepts arrives as it is. -/
theorem readLine_secret {secret : List UInt8} (valid : validSecret secret = true) :
    readLine [] (secret ++ [10]) = (secret, []) := by
  obtain ⟨_, short, _, noFeed, noReturn⟩ := validSecret_iff.1 valid
  have line : lineOf (secret ++ [10]) = secret := by
    unfold lineOf
    rw [List.takeWhile_append_of_pos]
    · simp
    · intro ch member
      have notFeed : ch ≠ 10 := fun same => noFeed (same ▸ member)
      have notReturn : ch ≠ 13 := fun same => noReturn (same ▸ member)
      simp [notFeed, notReturn]
  rw [readLine_eq (Nat.zero_le _), line, List.nil_append, List.take_of_length_le short,
    List.drop_of_length_le (by simp)]

/-! ## Options -/

/-- A text that cannot be the name of an option. -/
def IsValue (text : CString) : Prop := text.bytes.head? ≠ some 45

theorem isValue_str (n : Nat) : IsValue (str n) := by
  intro dash
  have member : (45 : UInt8) ∈ decimal n := List.mem_of_mem_head? dash
  have digit := isDigit_of_mem_decimal member
  revert digit
  decide

/-- The names in a table begin with a dash. -/
def Dashed (table : List (String × OptionKind)) : Prop :=
  ∀ spec ∈ table, (ascii spec.1).head? = some 45

/-- A value sets nothing. -/
theorem applyOption_value {text : CString} (isValue : IsValue text) (next : Option CString)
    {table : List (String × OptionKind)} (dashed : Dashed table) (options : Options) :
    applyOption text next table options = options := by
  induction table with
  | nil => rfl
  | cons spec rest ih =>
    obtain ⟨name, kind⟩ := spec
    have other : text.bytes ≠ ascii name := by
      intro same
      apply isValue
      rw [same]
      exact dashed _ List.mem_cons_self
    simp only [applyOption, if_neg other]
    exact ih fun later member => dashed later (List.mem_cons_of_mem _ member)

theorem scanOptions_value {text : CString} (isValue : IsValue text)
    {table : List (String × OptionKind)} (dashed : Dashed table) (rest : List CString)
    (options : Options) : scanOptions table (text :: rest) options = scanOptions table rest options := by
  rw [scanOptions, applyOption_value isValue _ dashed]

/-- An option with its value. -/
theorem scanOptions_set {name text : CString} (isValue : IsValue text)
    {table : List (String × OptionKind)} (dashed : Dashed table) {set : Options → Options}
    (finds : ∀ options, applyOption name (some text) table options = set options)
    (rest : List CString) (options : Options) :
    scanOptions table (name :: text :: rest) options = scanOptions table rest (set options) := by
  rw [scanOptions, List.head?_cons, finds, scanOptions_value isValue dashed]

/-! ## The calls of the dashboard -/

/-- A pair of descriptors as `os.pipe` gives them out. -/
structure Spawn.Pipes (spawn : Spawn) : Prop where
  small : spawn.readFd ≤ intMax
  small' : spawn.hReadFd ≤ intMax
  apart : spawn.readFd ≠ spawn.hReadFd

/-- What the dashboard asks of the program; the second passphrase of `open` and `mount` comes with
the protection. -/
inductive DashboardCall where
  | create (vaultPath : CString) (sizeMib : Nat)
  | createHidden (vaultPath : CString) (hiddenSizeMib : Nat) (hidden : List UInt8)
  | openVault (vaultPath : CString) (hidden : Option (List UInt8))
  | mount (vaultPath mountDir : CString) (hidden : Option (List UInt8))

namespace DashboardCall

def args : DashboardCall → List CString
  | create path sizeMib => createArgs path sizeMib
  | createHidden path hiddenSizeMib _ => createHiddenArgs path hiddenSizeMib
  | openVault path _ => openArgs path
  | mount path mountDir _ => mountArgs path mountDir

def hiddenPassword : DashboardCall → Option (List UInt8)
  | create .. => none
  | createHidden _ _ hidden => some hidden
  | openVault _ hidden => hidden
  | mount _ _ hidden => hidden

def protectHidden : DashboardCall → Bool
  | create .. | createHidden .. => false
  | openVault _ hidden => hidden.isSome
  | mount _ _ hidden => hidden.isSome

/-- The handler that is meant, with its arguments. -/
def meant (password : List UInt8) : DashboardCall → Invocation
  | create path sizeMib => .create path (UInt64.ofNat sizeMib) password
  | createHidden path hiddenSizeMib hidden =>
    .createHidden path password hidden (UInt64.ofNat hiddenSizeMib)
  | openVault path hidden => .openContainer path ⟨password, hidden, hidden.isSome⟩
  | mount path mountDir hidden => .mount path ⟨password, hidden, hidden.isSome⟩ mountDir

/-- Sizes are numbers of 64 bits but not zero, and the mount directory is no option. -/
def Sensible : DashboardCall → Prop
  | create _ sizeMib => 0 < sizeMib ∧ sizeMib < 2 ^ 64
  | createHidden _ hiddenSizeMib _ => 0 < hiddenSizeMib ∧ hiddenSizeMib < 2 ^ 64
  | openVault .. => True
  | mount _ mountDir _ => IsValue mountDir

end DashboardCall

section Calls

variable {spawn : Spawn} {password : List UInt8}

/-- The password options set what they are for, in a table that has those that are used. -/
theorem scanOptions_passwordArgs (pipes : spawn.Pipes) (hiddenPassword : Option (List UInt8))
    (protectHidden : Bool) {table : List (String × OptionKind)} (dashed : Dashed table)
    (finds : ∀ text options, applyOption (literal "--password-fd" (by decide)) (some text) table options =
      { options with pwdFd := atoi text.bytes })
    (findsHidden : hiddenPassword ≠ none → ∀ text options,
      applyOption (literal "--hidden-password-fd" (by decide)) (some text) table options =
        { options with hiddenPwdFd := atoi text.bytes })
    (findsProtect : protectHidden = true → ∀ next options,
      applyOption (literal "--protect-hidden" (by decide)) next table options =
        { options with protectHidden := true }) (options : Options) :
    scanOptions table (spawn.passwordArgs hiddenPassword protectHidden) options =
      { options with
        pwdFd := spawn.readFd
        hiddenPwdFd := if hiddenPassword = none then options.hiddenPwdFd else spawn.hReadFd
        protectHidden := options.protectHidden || protectHidden } := by
  have value := atoi_decimal pipes.small
  have hiddenValue := atoi_decimal pipes.small'
  simp only [Spawn.passwordArgs, List.cons_append, List.nil_append]
  rw [scanOptions_set (isValue_str _) dashed (finds (str spawn.readFd))]
  cases protectHidden with
  | false =>
    cases hiddenPassword with
    | none => simp [scanOptions, str, value]
    | some hidden =>
      have findsHidden := findsHidden (Option.some_ne_none hidden) (str spawn.hReadFd)
      rw [if_neg Bool.false_ne_true, List.nil_append, scanOptions_set (isValue_str _) dashed findsHidden]
      simp [scanOptions, str, value, hiddenValue]
  | true =>
    rw [if_pos rfl, List.cons_append, List.nil_append, scanOptions, findsProtect rfl]
    cases hiddenPassword with
    | none => simp [scanOptions, str, value]
    | some hidden =>
      have findsHidden := findsHidden (Option.some_ne_none hidden) (str spawn.hReadFd)
      rw [scanOptions_set (isValue_str _) dashed findsHidden]
      simp [scanOptions, str, value, hiddenValue]

/-- The first passphrase is read from its pipe. -/
theorem obtainPassword_first (hiddenPassword : Option (List UInt8))
    (valid : validSecret password = true) (prompt : String) :
    obtainPassword spawn.readFd prompt (spawn.console password hiddenPassword) =
      (some password, { spawn.console password hiddenPassword with
        bytes := Function.update (spawn.console password hiddenPassword).bytes spawn.readFd [] }) := by
  have bytes : (spawn.console password hiddenPassword).bytes spawn.readFd = password ++ [10] :=
    if_pos rfl
  rw [obtainPassword, if_pos (Int.natCast_nonneg _), readPasswordFromFd, bytes,
    readLine_secret valid]

/-- So is the second one, whatever has been read from the other pipe. -/
theorem obtainPassword_second (pipes : spawn.Pipes) {hidden : List UInt8}
    (valid : validSecret hidden = true) (prompt : String) (console : Console)
    (bytes : console.bytes = Function.update (spawn.console password (some hidden)).bytes
      spawn.readFd []) :
    ∃ console', obtainPassword spawn.hReadFd prompt console = (some hidden, console') ∧
      console'.out = console.out := by
  have apart : (spawn.hReadFd : Int) ≠ spawn.readFd := fun same => pipes.apart (Int.ofNat.inj same).symm
  have here : console.bytes spawn.hReadFd = hidden ++ [10] := by
    rw [bytes, Function.update_of_ne apart]
    exact (if_neg apart).trans (if_pos rfl)
  rw [obtainPassword, if_pos (Int.natCast_nonneg _), readPasswordFromFd, here, readLine_secret valid]
  exact ⟨_, rfl, rfl⟩

theorem scanOptions_size (n : Nat) {table : List (String × OptionKind)} (dashed : Dashed table)
    (finds : ∀ text options, applyOption (literal "--size" (by decide)) (some text) table options =
      { options with sizeMb := strtoull text.bytes }) (rest : List CString) :
    scanOptions table (literal "--size" (by decide) :: str n :: rest) {} =
      scanOptions table rest { sizeMb := strtoull (decimal n) } :=
  scanOptions_set (isValue_str n) dashed (finds (str n)) rest {}

theorem ofNat_ne_zero {n : Nat} (positive : 0 < n) (small : n < 2 ^ 64) : UInt64.ofNat n ≠ 0 := by
  intro zero
  have same := congrArg UInt64.toNat zero
  rw [UInt64.toNat_ofNat_of_lt' small] at same
  change n = 0 at same
  omega

/-- What `open` and `mount` make of the password options. -/
theorem obtainCredentials_scanned (pipes : spawn.Pipes) (valid : validSecret password = true)
    (hiddenPassword : Option (List UInt8))
    (validHidden : ∀ hidden ∈ hiddenPassword, validSecret hidden = true) (options : Options)
    (unset : options.protectHidden = false) :
    ∃ console', obtainCredentials
        { options with
          pwdFd := spawn.readFd
          hiddenPwdFd := if hiddenPassword = none then options.hiddenPwdFd else spawn.hReadFd
          protectHidden := options.protectHidden || hiddenPassword.isSome }
        (spawn.console password hiddenPassword) =
      (some ⟨password, hiddenPassword, hiddenPassword.isSome⟩, console') ∧ console'.out = [] := by
  unfold obtainCredentials
  rw [obtainPassword_first _ valid, unset, Bool.false_or]
  cases hiddenPassword with
  | none => exact ⟨_, rfl, rfl⟩
  | some hidden =>
    obtain ⟨console', reads, same⟩ := obtainPassword_second pipes (validHidden hidden rfl)
      "Enter hidden volume password for protection: "
      { spawn.console password (some hidden) with
        bytes := Function.update (spawn.console password (some hidden)).bytes spawn.readFd [] } rfl
    dsimp only
    rw [Option.isSome_some, if_pos rfl, if_neg (Option.some_ne_none hidden), reads]
    exact ⟨console', rfl, same⟩

/-- `main` calls the handler that is meant, with the passphrases that were given and nothing printed. -/
theorem parseMain_call (pipes : spawn.Pipes) (binary : CString)
    (valid : validSecret password = true) {call : DashboardCall} (sensible : call.Sensible)
    (validHidden : ∀ hidden ∈ call.hiddenPassword, validSecret hidden = true) :
    parseMain binary (call.args ++ spawn.passwordArgs call.hiddenPassword call.protectHidden)
      (spawn.console password call.hiddenPassword) = .ok (call.meant password, []) := by
  cases call with
  | create path sizeMib =>
    obtain ⟨positive, small⟩ := sensible
    have dashed : Dashed createOptions := by unfold Dashed; decide
    have scanned := (scanOptions_size sizeMib dashed (fun _ _ => rfl)
      (spawn.passwordArgs none false)).trans
      (scanOptions_passwordArgs pipes none false dashed (fun _ _ => rfl) (fun some => absurd rfl some)
        (fun protect => absurd protect (by decide)) _)
    change mainCreate (path :: literal "--size" _ :: str sizeMib :: spawn.passwordArgs none false) _ = _
    unfold mainCreate
    dsimp only
    rw [scanned, strtoull_decimal small]
    dsimp only
    rw [if_neg (ofNat_ne_zero positive small), obtainPassword_first _ valid]
    rfl
  | createHidden path hiddenSizeMib hidden =>
    obtain ⟨positive, small⟩ := sensible
    have dashed : Dashed createHiddenOptions := by unfold Dashed; decide
    have scanned := (scanOptions_size hiddenSizeMib dashed (fun _ _ => rfl)
      (spawn.passwordArgs (some hidden) false)).trans
      (scanOptions_passwordArgs pipes (some hidden) false dashed (fun _ _ => rfl) (fun _ _ _ => rfl)
        (fun protect => absurd protect (by decide)) _)
    obtain ⟨console', reads, out⟩ := obtainPassword_second pipes (validHidden hidden rfl)
      "Enter hidden volume password: "
      { spawn.console password (some hidden) with
        bytes := Function.update (spawn.console password (some hidden)).bytes spawn.readFd [] } rfl
    change mainCreateHidden (path :: literal "--size" _ :: str hiddenSizeMib ::
      spawn.passwordArgs (some hidden) false) (spawn.console password (some hidden)) = _
    unfold mainCreateHidden
    dsimp only
    rw [scanned, strtoull_decimal small]
    dsimp only
    rw [if_neg (ofNat_ne_zero positive small), if_neg (Option.some_ne_none hidden),
      obtainPassword_first _ valid]
    dsimp only
    rw [reads]
    dsimp only
    rw [Console.call, out]
    rfl
  | openVault path hidden =>
    have dashed : Dashed openOptions := by unfold Dashed; decide
    have scanned := scanOptions_passwordArgs pipes hidden hidden.isSome dashed (fun _ _ => rfl) (fun _ _ _ => rfl) (fun _ _ _ => rfl) {}
    change mainOpen (path :: spawn.passwordArgs hidden hidden.isSome) (spawn.console password hidden) = _
    unfold mainOpen
    dsimp only
    rw [scanned]
    obtain ⟨console', reads, out⟩ :=
      obtainCredentials_scanned pipes valid hidden validHidden {} rfl
    rw [reads]
    dsimp only
    rw [Console.call, out]
    rfl
  | mount path mountDir hidden =>
    have dashed : Dashed mountOptions := by unfold Dashed; decide
    have mountpoint : ∀ options, applyOption (literal "--mountpoint" (by decide)) (some mountDir)
        mountOptions options = { options with mountPoint := some mountDir } := fun _ => rfl
    have scanned := (scanOptions_set sensible dashed mountpoint
      (spawn.passwordArgs hidden hidden.isSome) {}).trans
      (scanOptions_passwordArgs pipes hidden hidden.isSome dashed (fun _ _ => rfl)
        (fun _ _ _ => rfl) (fun _ _ _ => rfl) _)
    change mainMount (path :: literal "--mountpoint" _ :: mountDir ::
      spawn.passwordArgs hidden hidden.isSome) (spawn.console password hidden) = _
    unfold mainMount
    dsimp only
    rw [scanned]
    dsimp only
    obtain ⟨console', reads, out⟩ :=
      obtainCredentials_scanned pipes valid hidden validHidden { mountPoint := some mountDir } rfl
    rw [reads]
    dsimp only
    rw [Console.call, out]
    rfl

end Calls

end DenyFS
