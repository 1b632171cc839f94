import DenyFS.Model.CommandLine

/-! # The dashboard

`server.py` runs the program for its users.  It checks what it is given, hands the passphrases over
in pipes, and reads from the output of `open` what kind of volume it got.  Exceptions are results,
with the text that the browser is shown. -/

namespace DenyFS

/-! ## Passphrases -/

/-- The UTF-8 bytes of a passphrase that is accepted. -/
def validSecret (secret : List UInt8) : Bool :=
  secret ≠ [] ∧ secret.length ≤ 511 ∧ 0 ∉ secret ∧ 10 ∉ secret ∧ 13 ∉ secret

def passphraseRules : String :=
  "Passphrases must be 1–511 UTF-8 bytes and cannot contain a line break."

def hiddenPassphraseRules : String :=
  "Hidden passphrase must be 1–511 UTF-8 bytes and cannot contain a line break."

/-- A literal among the arguments. -/
def literal (text : String) (noNul : (0 : UInt8) ∉ ascii text) : CString := ⟨ascii text, noNul⟩

theorem zero_notMem_decimal (n : Nat) : (0 : UInt8) ∉ decimal n := by
  intro member
  have digit := isDigit_of_mem_decimal member
  revert digit
  decide

/-- `str` of an integer that is not negative -/
def str (n : Nat) : CString := ⟨decimal n, zero_notMem_decimal n⟩

/-- What one run of the program meets: its environment, and the descriptors `os.pipe` gave. -/
structure Spawn where
  env : Environment
  readFd : Nat
  hReadFd : Nat

/-- The descriptors of the child: the passphrases in the pipes, and nothing on standard input. -/
def Spawn.console (spawn : Spawn) (password : List UInt8) (hiddenPassword : Option (List UInt8)) :
    Console where
  bytes fd :=
    if fd = spawn.readFd then password ++ [10]
    else match hiddenPassword with
      | some hidden => if fd = spawn.hReadFd then hidden ++ [10] else []
      | none => []
  terminal := false
  out := []

/-- The arguments `run_with_passwords` adds to those of a command. -/
def Spawn.passwordArgs (spawn : Spawn) (hiddenPassword : Option (List UInt8)) (protectHidden : Bool) :
    List CString :=
  [literal "--password-fd" (by decide), str spawn.readFd] ++
    (if protectHidden then [literal "--protect-hidden" (by decide)] else []) ++
    match hiddenPassword with
    | some _ => [literal "--hidden-password-fd" (by decide), str spawn.hReadFd]
    | none => []

/-- `run_with_passwords` -/
def runWithPasswords (crypto : Crypto) (spawn : Spawn) (binary : CString) (args : List CString)
    (password : List UInt8) (hiddenPassword : Option (List UInt8)) (protectHidden : Bool) (host : Host) :
    Except String (Outcome × Host) :=
  if validSecret password = false then .error passphraseRules
  else if hiddenPassword.any fun hidden => !validSecret hidden then .error hiddenPassphraseRules
  else .ok (runMain crypto spawn.env binary (args ++ spawn.passwordArgs hiddenPassword protectHidden)
    (spawn.console password hiddenPassword) host)

/-! ## Vaults -/

def createArgs (vaultPath : CString) (sizeMib : Nat) : List CString :=
  [literal "create" (by decide), vaultPath, literal "--size" (by decide), str sizeMib]

def createHiddenArgs (vaultPath : CString) (hiddenSizeMib : Nat) : List CString :=
  [literal "create-hidden" (by decide), vaultPath, literal "--size" (by decide), str hiddenSizeMib]

def openArgs (vaultPath : CString) : List CString := [literal "open" (by decide), vaultPath]

def mountArgs (vaultPath mountDir : CString) : List CString :=
  [literal "mount" (by decide), vaultPath, literal "--mountpoint" (by decide), mountDir]

/-- The size in MiB of the hidden volume of a deniable vault. -/
def hiddenSizeMib (sizeMib : Nat) : Nat := sizeMib / 2 - 1

end DenyFS
