import DenyFS.Model.Commands

/-! # The command line

`main` picks a command by its name, scans the options of the command, reads the passwords it needs
and calls its handler.  Every option is looked for at every position: a value is scanned as an
option of its own once its option was. -/

namespace DenyFS

/-! ## Numbers -/

def isSpace (c : UInt8) : Bool := c = 32 ∨ 9 ≤ c ∧ c ≤ 13

def isDigit (c : UInt8) : Bool := 48 ≤ c ∧ c ≤ 57

theorem isDigit_of_mem_decimal {n : Nat} {c : UInt8} (member : c ∈ decimal n) : isDigit c = true := by
  obtain ⟨char, listed, rfl⟩ := List.mem_map.1 member
  have digit := Char.isDigit_iff_toNat.1 (Nat.isDigit_of_mem_toDigits (by decide) (by decide) listed)
  have bounds : 48 ≤ char.toNat ∧ char.toNat ≤ 57 := digit
  have value : (UInt8.ofNat char.toNat).toNat = char.toNat :=
    UInt8.toNat_ofNat_of_lt' (by simp only [UInt8.size]; omega)
  simp only [isDigit, UInt8.le_iff_toNat_le, value, decide_eq_true_eq]
  exact bounds

def digitsValue (digits : List UInt8) : Nat := digits.foldl (fun n c => 10 * n + (c.toNat - 48)) 0

/-- What `strtoull` and `strtol` read in base 10: blanks, a sign, digits.  The result is whether
there was a minus sign, and the number. -/
def numeral (text : List UInt8) : Bool × Nat :=
  match text.dropWhile isSpace with
  | 45 :: rest => (true, digitsValue (rest.takeWhile isDigit))
  | 43 :: rest => (false, digitsValue (rest.takeWhile isDigit))
  | rest => (false, digitsValue (rest.takeWhile isDigit))

/-- `strtoull` in base 10, which negates in 64 bits. -/
def strtoull (text : List UInt8) : UInt64 :=
  let (negative, n) := numeral text
  if 2 ^ 64 ≤ n then UInt64.ofNat (2 ^ 64 - 1)
  else if negative then 0 - UInt64.ofNat n
  else UInt64.ofNat n

/-- `strtol` in base 10 -/
def strtol (text : List UInt8) : Int :=
  let (negative, n) := numeral text
  if negative then max (-n : Int) (-2 ^ 63) else min (n : Int) (2 ^ 63 - 1)

/-- `atoi`, which cuts the `long` to an `int`. -/
def atoi (text : List UInt8) : Int := (strtol text).bmod (2 ^ 32)

/-! ## Options -/

/-- The variables of `main` that options set; `lba` holds `have_lba` too. -/
structure Options where
  sizeMb : UInt64 := 0
  pwdFd : Int := -1
  hiddenPwdFd : Int := -1
  protectHidden : Bool := false
  mountPoint : Option CString := none
  lba : Option UInt64 := none
  dataFile : Option CString := none
  outFile : Option CString := none

/-- What an option does; one that takes a value does nothing at the end of the arguments. -/
inductive OptionKind where
  | flag (set : Options → Options)
  | value (set : CString → Options → Options)

def sizeOption : String × OptionKind :=
  ("--size", .value fun text options => { options with sizeMb := strtoull text.bytes })

def passwordFdOption : String × OptionKind :=
  ("--password-fd", .value fun text options => { options with pwdFd := atoi text.bytes })

def hiddenPasswordFdOption : String × OptionKind :=
  ("--hidden-password-fd", .value fun text options => { options with hiddenPwdFd := atoi text.bytes })

def protectHiddenOption : String × OptionKind :=
  ("--protect-hidden", .flag fun options => { options with protectHidden := true })

def mountpointOption : String × OptionKind :=
  ("--mountpoint", .value fun text options => { options with mountPoint := some text })

def lbaOption : String × OptionKind :=
  ("--lba", .value fun text options => { options with lba := some (strtoull text.bytes) })

def dataOption : String × OptionKind :=
  ("--data", .value fun text options => { options with dataFile := some text })

def outputOption : String × OptionKind :=
  ("--output", .value fun text options => { options with outFile := some text })

/-- The options of each command, in the order in which they are compared. -/
def createOptions : List (String × OptionKind) := [sizeOption, passwordFdOption]

def createHiddenOptions : List (String × OptionKind) :=
  [passwordFdOption, hiddenPasswordFdOption, sizeOption]

def openOptions : List (String × OptionKind) :=
  [passwordFdOption, hiddenPasswordFdOption, protectHiddenOption]

def mountOptions : List (String × OptionKind) :=
  [passwordFdOption, hiddenPasswordFdOption, protectHiddenOption, mountpointOption]

def writeSectorOptions : List (String × OptionKind) := [passwordFdOption, lbaOption, dataOption]

def readSectorOptions : List (String × OptionKind) := [passwordFdOption, lbaOption, outputOption]

/-- One round of the scan: an argument, and the one after it. -/
def applyOption (arg : CString) (next : Option CString) :
    List (String × OptionKind) → Options → Options
  | [], options => options
  | (name, kind) :: rest, options =>
    if arg.bytes = ascii name then
      match kind, next with
      | .flag set, _ => set options
      | .value set, some text => set text options
      | .value _, none => applyOption arg next rest options
    else applyOption arg next rest options

def scanOptions (table : List (String × OptionKind)) : List CString → Options → Options
  | [], options => options
  | arg :: rest, options => scanOptions table rest (applyOption arg rest.head? table options)

/-! ## Passwords -/

/-- What the process can read: the bytes left on each descriptor, and whether standard input is a
terminal; and what it has printed on standard output. -/
structure Console where
  bytes : Int → List UInt8
  terminal : Bool
  out : List UInt8

/-- The loop that reads a password of at most 511 bytes up to the end of the line. -/
def readLine (secPass : List UInt8) : List UInt8 → List UInt8 × List UInt8
  | [] => (secPass, [])
  | ch :: rest =>
    if ch = 10 ∨ ch = 13 then (secPass, rest)
    else readLine (if secPass.length < 511 then secPass ++ [ch] else secPass) rest

/-- `read_password_from_fd` -/
def readPasswordFromFd (fd : Int) (console : Console) : List UInt8 × Console :=
  let (password, rest) := readLine [] (console.bytes fd)
  (password, { console with bytes := Function.update console.bytes fd rest })

/-- `get_password_interactive`, which needs a terminal. -/
def getPasswordInteractive (prompt : String) (console : Console) :
    Option (List UInt8) × Console :=
  if console.terminal then
    let (password, rest) := readLine [] (console.bytes 0)
    (some password, { console with
      bytes := Function.update console.bytes 0 rest
      out := console.out ++ ascii prompt ++ ascii "\n" })
  else (none, { console with out := console.out ++ ascii prompt })

/-- A password comes from the descriptor that was given, or from the terminal. -/
def obtainPassword (fd : Int) (prompt : String) (console : Console) :
    Option (List UInt8) × Console :=
  if 0 ≤ fd then
    let (password, console) := readPasswordFromFd fd console
    (some password, console)
  else getPasswordInteractive prompt console

/-! ## Commands -/

/-- The call of a handler. -/
inductive Invocation where
  | create (path : CString) (sizeMb : UInt64) (password : List UInt8)
  | createHidden (path : CString) (outerPassword hiddenPassword : List UInt8) (hiddenSizeMb : UInt64)
  | openContainer (path : CString) (credentials : Credentials)
  | mount (path : CString) (credentials : Credentials) (mountPoint : CString)
  | writeSector (path : CString) (password : List UInt8) (lba : UInt64) (dataFile : CString)
  | readSector (path : CString) (password : List UInt8) (lba : UInt64) (outFile : CString)

/-- The call of a handler with what is on `stdout` already, or the outcome where none is called. -/
abbrev Parsed : Type := Except Outcome (Invocation × List UInt8)

/-- A message on `stderr`. -/
def Console.error (console : Console) (text : String) : Parsed :=
  .error (.failed console.out (ascii text))

def Console.call (console : Console) (invocation : Invocation) : Parsed :=
  .ok (invocation, console.out)

def passwordRequired : String := "Error: Password required.\n"

def mainCreate (args : List CString) (console : Console) : Parsed :=
  match args with
  | path :: first :: second :: rest =>
    let options := scanOptions createOptions (first :: second :: rest) {}
    if options.sizeMb = 0 then console.error "Error: Invalid or missing size (--size).\n"
    else match obtainPassword options.pwdFd "Enter password: " console with
      | (none, console) => console.error passwordRequired
      | (some password, console) => console.call (.create path options.sizeMb password)
  | _ => console.error "Error: Missing arguments for 'create'.\n"

def mainCreateHidden (args : List CString) (console : Console) : Parsed :=
  match args with
  | path :: first :: second :: rest =>
    let options := scanOptions createHiddenOptions (first :: second :: rest) {}
    if options.sizeMb = 0 then console.error "Error: Invalid or missing size (--size).\n"
    else
      let (outer, console) := obtainPassword options.pwdFd "Enter outer volume password: " console
      let (hidden, console) :=
        obtainPassword options.hiddenPwdFd "Enter hidden volume password: " console
      match outer, hidden with
      | some outer, some hidden => console.call (.createHidden path outer hidden options.sizeMb)
      | _, _ => console.error "Error: Both passwords are required.\n"
  | _ => console.error "Error: Missing arguments for 'create-hidden'.\n"

/-- The passwords of `open` and `mount`; the second one is asked for with the protection only. -/
def obtainCredentials (options : Options) (console : Console) : Option Credentials × Console :=
  let (password, console) := obtainPassword options.pwdFd "Enter volume password: " console
  let (hiddenPassword, console) :=
    if options.protectHidden then
      obtainPassword options.hiddenPwdFd "Enter hidden volume password for protection: " console
    else (none, console)
  (password.map fun password => ⟨password, hiddenPassword, options.protectHidden⟩, console)

def mainOpen (args : List CString) (console : Console) : Parsed :=
  match args with
  | path :: rest =>
    let options := scanOptions openOptions rest {}
    match obtainCredentials options console with
    | (none, console) => console.error passwordRequired
    | (some credentials, console) => console.call (.openContainer path credentials)
  | [] => console.error "Error: Missing arguments for 'open'.\n"

def mainMount (args : List CString) (console : Console) : Parsed :=
  match args with
  | path :: rest =>
    let options := scanOptions mountOptions rest {}
    match options.mountPoint with
    | none => console.error "Error: Missing mountpoint (--mountpoint).\n"
    | some mountPoint =>
      match obtainCredentials options console with
      | (none, console) => console.error passwordRequired
      | (some credentials, console) => console.call (.mount path credentials mountPoint)
  | [] => console.error "Error: Missing arguments for 'mount'.\n"

def mainWriteSector (args : List CString) (console : Console) : Parsed :=
  match args with
  | path :: rest =>
    let options := scanOptions writeSectorOptions rest {}
    match options.lba, options.dataFile with
    | some lba, some dataFile =>
      match obtainPassword options.pwdFd "Enter volume password: " console with
      | (none, console) => console.error passwordRequired
      | (some password, console) => console.call (.writeSector path password lba dataFile)
    | _, _ => console.error "Error: Missing LBA or data file (--lba, --data).\n"
  | [] => console.error "Error: Missing arguments for 'write-sector'.\n"

def mainReadSector (args : List CString) (console : Console) : Parsed :=
  match args with
  | path :: rest =>
    let options := scanOptions readSectorOptions rest {}
    match options.lba, options.outFile with
    | some lba, some outFile =>
      match obtainPassword options.pwdFd "Enter volume password: " console with
      | (none, console) => console.error passwordRequired
      | (some password, console) => console.call (.readSector path password lba outFile)
    | _, _ => console.error "Error: Missing LBA or output file (--lba, --output).\n"
  | [] => console.error "Error: Missing arguments for 'read-sector'.\n"

def usage (program : CString) : List UInt8 :=
  ascii "Usage:\n" ++ ([
    " create <path> --size <mb> [--password-fd <fd>]\n",
    " create-hidden <path> --size <mb> [--password-fd <fd>] [--hidden-password-fd <fd>]\n",
    " open <path> [--password-fd <fd>] [--protect-hidden] [--hidden-password-fd <fd>]\n",
    " mount <path> --mountpoint <dir> [--password-fd <fd>] [--protect-hidden] [--hidden-password-fd <fd>]\n",
    " write-sector <path> --lba <n> --data <file> [--password-fd <fd>]\n",
    " read-sector <path> --lba <n> --output <file> [--password-fd <fd>]\n"].map fun text =>
      ascii "  " ++ program.bytes ++ ascii text).flatten

/-- `main` up to the call of a handler; `args` are the arguments after the name of the program. -/
def parseMain (program : CString) (args : List CString) (console : Console) : Parsed :=
  match args with
  | [] => .error (.failed console.out (usage program))
  | command :: rest =>
    if command.bytes = ascii "create" then mainCreate rest console
    else if command.bytes = ascii "create-hidden" then mainCreateHidden rest console
    else if command.bytes = ascii "open" then mainOpen rest console
    else if command.bytes = ascii "mount" then mainMount rest console
    else if command.bytes = ascii "write-sector" then mainWriteSector rest console
    else if command.bytes = ascii "read-sector" then mainReadSector rest console
    else .error (.failed console.out
      (ascii "Error: Unknown command '" ++ command.bytes ++ ascii "'\n"))

/-! ## Runs -/

/-- The containers among the files of the host. -/
abbrev Host : Type := CString → Option Container

/-- What a run of the program meets outside of itself. -/
structure Environment where
  random : Randomness
  fill : Nat → UInt8
  now : UInt64
  elapsed : List UInt8
  strerror : List UInt8
  faults : List Bool
  requests : List Request
  fuseStatus : Nat
  dataFile : CString → Option (List UInt8)
  outOpens : CString → Bool

def emptyContainer : Container := { size := 0, byte := fun _ => 0, size_le := Nat.zero_le _ }

/-- A handler at work on the file under a path.  A file that is not there does not open, which is
what `denyfs_vol_open` answers to an empty one too. -/
def onContainer (env : Environment) (path : CString) (handler : Disk → Outcome × Disk) (host : Host) :
    Outcome × Host :=
  match host path with
  | none => ((handler ⟨emptyContainer, env.faults⟩).1, host)
  | some container =>
    let (outcome, disk) := handler ⟨container, env.faults⟩
    (outcome, Function.update host path (some disk.container))

/-- The handlers; what `handle_mount` prints is left out. -/
def runInvocation (crypto : Crypto) (env : Environment) (invocation : Invocation) (host : Host) :
    Outcome × Host :=
  match invocation with
  | .create path sizeMb password =>
    let (outcome, created) := handleCreate crypto env.random env.fill path (host path).isSome sizeMb
      password env.now env.elapsed env.faults
    match created with
    | none => (outcome, host)
    | some disk => (outcome, Function.update host path (some disk.container))
  | .createHidden path outerPassword hiddenPassword hiddenSizeMb =>
    onContainer env path (handleCreateHidden crypto env.random path outerPassword hiddenPassword
      hiddenSizeMb env.now env.elapsed) host
  | .openContainer path credentials =>
    onContainer env path (handleOpen crypto credentials env.elapsed) host
  | .mount path credentials _ =>
    onContainer env path (fun disk =>
      match handleMount crypto credentials env.requests disk with
      | (none, disk) => (invalidPassword, disk)
      | (some _, disk) => ({ status := env.fuseStatus, out := [], err := [] }, disk)) host
  | .writeSector path password lba dataFile =>
    onContainer env path (handleWriteSector crypto password lba (env.dataFile dataFile) env.strerror)
      host
  | .readSector path password lba outFile =>
    onContainer env path (fun disk =>
      let (answer, disk) := handleReadSector crypto password lba (env.outOpens outFile) env.strerror disk
      (answer.1, disk)) host

/-- `main` -/
def runMain (crypto : Crypto) (env : Environment) (program : CString) (args : List CString)
    (console : Console) (host : Host) : Outcome × Host :=
  match parseMain program args console with
  | .error outcome => (outcome, host)
  | .ok (invocation, out) =>
    let (outcome, host) := runInvocation crypto env invocation host
    ({ outcome with out := out ++ outcome.out }, host)

end DenyFS
