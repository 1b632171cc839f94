import DenyFS.Library.Machine
import DenyFS.Model.Container

/-! # Calls, runs and sessions

A client of an open volume issues one call after the other; the FUSE callbacks run
single-threaded, so no two calls overlap.  A session opens a volume, issues calls and closes
it again, which writes nothing. -/

namespace DenyFS

open BlockProgram

/-- The operations on an open volume with their arguments, the clock included. -/
inductive Call where
  | lookup (name : CString)
  | create (now : UInt64) (name : CString)
  | unlink (name : CString)
  | read (ino : UInt32) (size : Nat) (offset : UInt64)
  | write (now : UInt64) (ino : UInt32) (buf : List UInt8) (offset : UInt64)
  | truncate (now : UInt64) (ino : UInt32) (newSize : UInt64)
  | readdir
  | flush

/-- What a call returns when it does not fail. -/
inductive Reply where
  | done
  | ino (ino : UInt32)
  | count (bytes : Nat)
  | data (bytes : List UInt8)
  | names (entries : List (List UInt8 × UInt32))
  deriving DecidableEq

/-- A callback that keeps every entry and never asks to stop. -/
def collectEntries (entries : List (List UInt8 × UInt32)) (name : List UInt8) (ino : UInt32) :
    List (List UInt8 × UInt32) × Bool :=
  (entries ++ [(name, ino)], false)

def perform (crypto : Crypto) (mount : Mount) : Call → Op Reply
  | .lookup name => do return .ino (← volLookup name)
  | .create now name => do return .ino (← volCreate crypto mount now name)
  | .unlink name => do volUnlink crypto mount name; return .done
  | .read ino size offset => do return .data (← volRead ino size offset)
  | .write now ino buf offset => do return .count (← volWrite crypto mount now ino buf offset)
  | .truncate now ino newSize => do volTruncate crypto mount now ino newSize; return .done
  | .readdir => do return .names (← volReaddir collectEntries [])
  | .flush => do volFlush crypto mount; return .done

variable {δ : Type}

/-- One call against a device. -/
def call (crypto : Crypto) (mount : Mount) (device : Device δ UInt32 Sector Errno) (c : Call)
    (state : Volume × δ) : Except Errno Reply × (Volume × δ) :=
  Prog.exec device (perform crypto mount c) state

/-- A run of calls: their results, and the state after the last one. -/
def runCalls (crypto : Crypto) (mount : Mount) (device : Device δ UInt32 Sector Errno) :
    List Call → Volume × δ → List (Except Errno Reply) × (Volume × δ) :=
  Machine.run (call crypto mount device)

/-- A session: which password opens the container, whether protection is asked for, and the
calls made before the volume is closed. -/
structure Session where
  password : List UInt8
  hiddenPassword : Option (List UInt8)
  protectHidden : Bool
  calls : List Call

/-- The results of a session; `none` where the volume did not open. -/
def runSession (crypto : Crypto) (session : Session) (disk : Disk) :
    Option (List (Except Errno Reply)) × Disk :=
  match volOpen crypto session.password session.hiddenPassword session.protectHidden disk with
  | (none, disk) => (none, disk)
  | (some (mount, vol), disk) =>
    let (results, _, disk) := runCalls crypto mount (volumeDevice crypto mount) session.calls (vol, disk)
    (some results, disk)

def runSessions (crypto : Crypto) :
    List Session → Disk → List (Option (List (Except Errno Reply))) × Disk :=
  Machine.run (runSession crypto)

end DenyFS
