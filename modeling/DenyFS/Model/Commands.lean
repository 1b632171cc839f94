import DenyFS.Model.Fuse

/-! # Command handlers

`main.c` has one handler for each command.  A handler opens the container or creates it, does its
work, prints what became of it and returns the exit status of the program.  `%.2f` of the elapsed
time and `strerror(errno)` are arguments. -/

namespace DenyFS

open BlockProgram

/-- The codes of a text in ASCII. -/
def ascii (text : String) : List UInt8 := text.toList.map fun char => UInt8.ofNat char.toNat

/-- `%u` and `%llu` -/
def decimal (n : Nat) : List UInt8 := (Nat.toDigits 10 n).map fun char => UInt8.ofNat char.toNat

/-- The numbers of the errors on Linux, where a plain `-1` is the number of `EPERM`. -/
def Errno.code : Errno → Nat
  | .eperm => 1
  | .enoent => 2
  | .eio => 5
  | .eacces => 13
  | .eexist => 17
  | .eisdir => 21
  | .einval => 22
  | .enospc => 28
  | .enametoolong => 36

/-- The exit status of a command, and what it prints on `stdout` and on `stderr`. -/
structure Outcome where
  status : Nat
  out : List UInt8
  err : List UInt8
  deriving DecidableEq

/-- A command that failed after it had printed `out`. -/
def Outcome.failed (out err : List UInt8) : Outcome := { status := 1, out, err }

def Outcome.succeeded (out : List UInt8) : Outcome := { status := 0, out, err := [] }

@[simp]
theorem Outcome.failed_status (out err : List UInt8) : (Outcome.failed out err).status = 1 := rfl

@[simp]
theorem Outcome.succeeded_status (out : List UInt8) : (Outcome.succeeded out).status = 0 := rfl

def invalidPassword : Outcome := .failed [] (ascii "Error: invalid password.\n")

/-- `perror` -/
def perror (text : String) (strerror : List UInt8) : List UInt8 :=
  ascii text ++ ascii ": " ++ strerror ++ ascii "\n"

/-! ## Containers -/

/-- `handle_create`; the container is `none` where the creation failed, as it does on a path that is
in use already. -/
def handleCreate (crypto : Crypto) (random : Randomness) (fill : Nat → UInt8) (path : CString)
    (inUse : Bool) (sizeMb : UInt64) (password : List UInt8) (now : UInt64) (elapsed : List UInt8)
    (faults : List Bool) : Outcome × Option Disk :=
  let creating := ascii "Creating container of size " ++ decimal sizeMb.toNat ++ ascii " MB at " ++
    path.bytes ++ ascii "...\n"
  let created :=
    if inUse then none else containerCreate crypto random fill sizeMb password now faults
  match created with
  | none => (.failed creating (ascii "Error: Container creation failed.\n"), none)
  | some disk =>
    (.succeeded (creating ++ ascii "Container created and formatted (" ++ elapsed ++
      ascii " ms).\n"), some disk)

/-- `handle_create_hidden` -/
def handleCreateHidden (crypto : Crypto) (random : Randomness) (path : CString)
    (outerPassword hiddenPassword : List UInt8) (hiddenSizeMb : UInt64) (now : UInt64)
    (elapsed : List UInt8) (disk : Disk) : Outcome × Disk :=
  let creating := ascii "Creating hidden volume of size " ++ decimal hiddenSizeMb.toNat ++
    ascii " MB inside " ++ path.bytes ++ ascii "...\n"
  match containerCreateHidden crypto random outerPassword hiddenPassword hiddenSizeMb now disk with
  | (.ok (), disk) =>
    (.succeeded (creating ++ ascii "Hidden volume successfully created and formatted (" ++ elapsed ++
      ascii " ms).\n"), disk)
  | (.error .enospc, disk) =>
    (.failed creating
      (ascii "Error: Not enough free space inside container for hidden volume.\n"), disk)
  | (.error error, disk) =>
    (.failed creating (ascii "Error: Hidden volume creation failed (code -" ++ decimal error.code ++
      ascii ").\n"), disk)

/-- What `handle_open` prints about an open volume. -/
def openReport (mount : Mount) (vol : Volume) (elapsed : List UInt8) : List UInt8 :=
  ascii "Container successfully authenticated (" ++ elapsed ++ ascii " ms).\n" ++
  ascii "Volume type      : " ++ ascii (if mount.isHidden then "HIDDEN" else "OUTER") ++ ascii "\n" ++
  ascii "Volume size      : " ++ decimal mount.volumeSize.toNat ++ ascii " bytes\n" ++
  ascii "Total blocks     : " ++ decimal vol.sb.totalBlocks.toNat ++ ascii "\n" ++
  ascii "Free blocks      : " ++ decimal vol.sb.freeBlocks.toNat ++ ascii "\n" ++
  ascii "Free inodes      : " ++ decimal vol.sb.freeInodes.toNat ++ ascii "\n" ++
  ascii "Data start block : " ++ decimal vol.sb.dataStart.toNat ++ ascii "\n" ++
  if mount.protectHidden then
    ascii "Protection active: YES (Blocks " ++ decimal mount.protectStartSector.toNat ++
      ascii " to " ++ decimal mount.protectEndSector.toNat ++ ascii " locked)\n"
  else ascii "Protection active: NO\n"

/-- `handle_open` -/
def handleOpen (crypto : Crypto) (credentials : Credentials) (elapsed : List UInt8) (disk : Disk) :
    Outcome × Disk :=
  match volOpen crypto credentials.password credentials.hiddenPassword credentials.protectHidden
      disk with
  | (none, disk) => (invalidPassword, disk)
  | (some (mount, vol), disk) => (.succeeded (openReport mount vol elapsed), disk)

/-! ## Sectors -/

/-- A sector number past the end of the volume. -/
def lbaExceeds (lba maxLba : UInt64) : Outcome :=
  .failed [] (ascii "Error: LBA " ++ decimal lba.toNat ++ ascii " exceeds volume capacity (" ++
    decimal maxLba.toNat ++ ascii " sectors).\n")

/-- The first bytes of a file, filled up with zeros to a sector. -/
def paddedSector (bytes : List UInt8) : Sector := fun k => bytes.getD k.val 0

/-- `handle_write_sector`; `dataFile` is `none` where the data file does not open. -/
def handleWriteSector (crypto : Crypto) (password : List UInt8) (lba : UInt64)
    (dataFile : Option (List UInt8)) (strerror : List UInt8) (disk : Disk) : Outcome × Disk :=
  match volOpen crypto password none false disk with
  | (none, disk) => (invalidPassword, disk)
  | (some (mount, _), disk) =>
    let maxLba := mount.volumeSize / 4096
    if maxLba ≤ lba then (lbaExceeds lba maxLba, disk)
    else match dataFile with
      | none => (.failed [] (perror "Error opening data file" strerror), disk)
      | some bytes =>
        let cipher := crypto.xtsEncrypt mount.volumeKey lba (paddedSector bytes)
        match disk.fwrite (mount.volStartOffset + lba * 4096).toNat cipher with
        | (false, disk) => (.failed [] (perror "Error writing sector" strerror), disk)
        | (true, disk) =>
          (.succeeded (ascii "Sector " ++ decimal lba.toNat ++ ascii " written successfully.\n"), disk)

/-- `handle_read_sector`, with what it leaves in the output file; `outOpens` says whether that
opens. -/
def handleReadSector (crypto : Crypto) (password : List UInt8) (lba : UInt64) (outOpens : Bool)
    (strerror : List UInt8) (disk : Disk) : (Outcome × Option (List UInt8)) × Disk :=
  match volOpen crypto password none false disk with
  | (none, disk) => ((invalidPassword, none), disk)
  | (some (mount, _), disk) =>
    let maxLba := mount.volumeSize / 4096
    if maxLba ≤ lba then ((lbaExceeds lba maxLba, none), disk)
    else match disk.fread (mount.volStartOffset + lba * 4096).toNat with
      | (none, disk) => ((.failed [] (ascii "Error: Failed to read sector.\n"), none), disk)
      | (some cipher, disk) =>
        if outOpens then
          ((.succeeded (ascii "Sector " ++ decimal lba.toNat ++ ascii " read successfully.\n"),
            some (List.ofFn (crypto.xtsDecrypt mount.volumeKey lba cipher))), disk)
        else ((.failed [] (perror "Error opening output file" strerror), none), disk)

end DenyFS
