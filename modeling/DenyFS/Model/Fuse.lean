import DenyFS.Model.Session

/-! # FUSE callbacks

`fuse_ops.c` serves paths: a callback takes the name off its path, looks it up and calls the
operation on the inode.  libfuse runs with `-s`, one request at a time, and calls
`denyfs_fuse_destroy` once the volume is unmounted.  An `off_t` is signed. -/

namespace DenyFS

open BlockProgram

/-- `text + 1` -/
def CString.tail (text : CString) : CString :=
  ⟨text.bytes.tail, fun nul => text.noNul (List.mem_of_mem_tail nul)⟩

/-- `path_to_name`, which has no name for the root and for nested paths. -/
def pathToName (path : CString) : Option CString :=
  if path.bytes = [slash] then none
  else if path.bytes.head? ≠ some slash then none
  else if slash ∈ path.bytes.tail then none
  else some path.tail

/-- The fields of `struct stat` that `denyfs_fuse_getattr` sets. -/
structure Stat where
  mode : UInt32
  nlink : Nat
  size : Int64
  blocks : Nat
  atime : Int64
  mtime : Int64
  ctime : Int64
  deriving DecidableEq

/-- `S_IFDIR | 0755` with two links. -/
def directoryStat (mtime : UInt64) : Stat :=
  { mode := 0o040755, nlink := 2, size := 0, blocks := 0
    atime := mtime.toInt64, mtime := mtime.toInt64, ctime := mtime.toInt64 }

/-- `S_IFREG | 0644` with one link. -/
def regularStat (size : UInt64) (blocks : Nat) (mtime : UInt64) : Stat :=
  { mode := 0o100644, nlink := 1, size := size.toInt64, blocks
    atime := mtime.toInt64, mtime := mtime.toInt64, ctime := mtime.toInt64 }

/-! ## Callbacks -/

/-- The name on a path and its inode, for the callbacks that need an existing file. -/
def fuseLookup (path : CString) (noName : Errno) : Op UInt32 :=
  match pathToName path with
  | none => throw noName
  | some name => (volLookup name).elseThrow .enoent

def fuseGetattr (path : CString) : Op Stat := do
  let vol ← get
  if path.bytes = [slash] then return directoryStat (vol.inodes 0).mtime
  else do
    let ino ← fuseLookup path .enoent
    let inode := vol.inodes (Fin.ofNat 64 ino.toNat)
    return regularStat inode.size (inode.blockCount.toNat * (4096 / 512)) inode.mtime

/-- `filler` returns the new state of `buf`, and whether it was full. -/
def fuseReaddir {τ : Type} (filler : τ → List UInt8 → τ × Bool) (path : CString) (buf : τ) : Op τ :=
  if path.bytes ≠ [slash] then throw .enoent
  else
    match filler buf [dot] with
    | (buf, true) => return buf
    | (buf, false) =>
      match filler buf [dot, dot] with
      | (buf, true) => return buf
      | (buf, false) => volReaddir (fun buf name _ => filler buf name) buf

def fuseOpen (path : CString) : Op Unit := do
  let _ ← fuseLookup path .eisdir
  return ()

def fuseRead (path : CString) (size : Nat) (offset : Int64) : Op (List UInt8) :=
  if offset < 0 then throw .einval
  else do
    let ino ← fuseLookup path .eisdir
    volRead ino size offset.toUInt64

def fuseWrite (crypto : Crypto) (mount : Mount) (now : UInt64) (path : CString) (buf : List UInt8)
    (offset : Int64) : Op Nat :=
  if offset < 0 then throw .einval
  else do
    let ino ← fuseLookup path .eisdir
    volWrite crypto mount now ino buf offset.toUInt64

def fuseCreate (crypto : Crypto) (mount : Mount) (now : UInt64) (path : CString) : Op Unit :=
  match pathToName path with
  | none => throw .eisdir
  | some name => do
    let _ ← volCreate crypto mount now name
    return ()

def fuseUnlink (crypto : Crypto) (mount : Mount) (path : CString) : Op Unit :=
  match pathToName path with
  | none => throw .eisdir
  | some name => volUnlink crypto mount name

def fuseTruncate (crypto : Crypto) (mount : Mount) (now : UInt64) (path : CString) (size : Int64) :
    Op Unit :=
  if size < 0 then throw .einval
  else if maxFileSize < size.toUInt64.toNat then throw .enospc
  else do
    let ino ← fuseLookup path .eisdir
    volTruncate crypto mount now ino size.toUInt64

/-! ## Requests -/

/-- What libfuse asks for. -/
inductive Request where
  | getattr (path : CString)
  | readdir (path : CString)
  | openFile (path : CString)
  | read (path : CString) (size : Nat) (offset : Int64)
  | write (now : UInt64) (path : CString) (buf : List UInt8) (offset : Int64)
  | create (now : UInt64) (path : CString)
  | unlink (path : CString)
  | truncate (now : UInt64) (path : CString) (size : Int64)

/-- What a callback returns when it does not fail. -/
inductive Answer where
  | done
  | stat (stat : Stat)
  | names (names : List (List UInt8))
  | data (bytes : List UInt8)
  | count (bytes : Nat)
  deriving DecidableEq

/-- A filler with room for every name. -/
def fillNames (names : List (List UInt8)) (name : List UInt8) : List (List UInt8) × Bool :=
  (names ++ [name], false)

/-- `denyfs_ops` -/
def serve (crypto : Crypto) (mount : Mount) : Request → Op Answer
  | .getattr path => do return .stat (← fuseGetattr path)
  | .readdir path => do return .names (← fuseReaddir fillNames path [])
  | .openFile path => do fuseOpen path; return .done
  | .read path size offset => do return .data (← fuseRead path size offset)
  | .write now path buf offset => do
    return .count (← fuseWrite crypto mount now path buf offset)
  | .create now path => do fuseCreate crypto mount now path; return .done
  | .unlink path => do fuseUnlink crypto mount path; return .done
  | .truncate now path size => do fuseTruncate crypto mount now path size; return .done

variable {δ : Type}

/-- One request against a device. -/
def request (crypto : Crypto) (mount : Mount) (device : Device δ UInt32 Sector Errno) (r : Request)
    (state : Volume × δ) : Except Errno Answer × (Volume × δ) :=
  Prog.exec device (serve crypto mount r) state

/-- The requests served while a volume is mounted. -/
def runRequests (crypto : Crypto) (mount : Mount) (device : Device δ UInt32 Sector Errno) :
    List Request → Volume × δ → List (Except Errno Answer) × (Volume × δ) :=
  Machine.run (request crypto mount device)

/-- `denyfs_fuse_destroy`: the result of the flush is not looked at, and closing writes nothing. -/
def fuseDestroy (crypto : Crypto) (mount : Mount) (device : Device δ UInt32 Sector Errno)
    (state : Volume × δ) : δ := (Prog.exec device (volFlush crypto mount) state).2.2

/-! ## Mounting -/

/-- The arguments of the command `mount`: the passwords and whether protection is asked for. -/
structure Credentials where
  password : List UInt8
  hiddenPassword : Option (List UInt8)
  protectHidden : Bool

/-- `handle_mount`: opens the container, serves requests until it is unmounted, and closes it.
The result is `none` where the container did not open. -/
def handleMount (crypto : Crypto) (credentials : Credentials) (requests : List Request)
    (disk : Disk) : Option (List (Except Errno Answer)) × Disk :=
  match volOpen crypto credentials.password credentials.hiddenPassword credentials.protectHidden
      disk with
  | (none, disk) => (none, disk)
  | (some (mount, vol), disk) =>
    let (answers, state) :=
      runRequests crypto mount (volumeDevice crypto mount) requests (vol, disk)
    (some answers, fuseDestroy crypto mount (volumeDevice crypto mount) state)

/-- The container is mounted again and again, each time with its own arguments and requests. -/
def runMounts (crypto : Crypto) :
    List (Credentials × List Request) → Disk → List (Option (List (Except Errno Answer))) × Disk :=
  Machine.run fun mounting => handleMount crypto mounting.1 mounting.2

end DenyFS
