import Mathlib.Data.UInt
import DenyFS.Library.Refinement
import DenyFS.Library.SparseFile
import DenyFS.Model.Fuse
import DenyFS.Verified.Dirents

/-! # What a mounted volume is for

A mounted volume stores files under names.  This is its specification as the requests see it,
over any kind of file: which requests are refused and why, what the others return, and what is
stored afterwards.  Only for lack of space may a request fail that is not refused. -/

namespace DenyFS

open Refinement SparseFile

variable {F G : Type}

structure StoredFile (F : Type) where
  contents : F
  mtime : UInt64

/-- The files that are stored, by name. -/
abbrev FileStore (F : Type) : Type := List UInt8 → Option (StoredFile F)

instance (name : List UInt8) : Decidable (ValidName name) :=
  decidable_of_iff (0 < name.length ∧ name.length < 251 ∧ (0 : UInt8) ∉ name ∧ slash ∉ name ∧
      name ≠ [dot] ∧ name ≠ [dot, dot])
    ⟨fun ⟨nonempty, short, noNul, noSlash, notDot, notDotDot⟩ =>
      ⟨nonempty, short, noNul, noSlash, notDot, notDotDot⟩,
    fun valid => ⟨valid.nonempty, valid.short, valid.noNul, valid.noSlash, valid.notDot,
      valid.notDotDot⟩⟩

namespace FileStore

/-- The file a path leads to, under its name. -/
def find (files : FileStore F) (path : CString) : Except Errno (List UInt8 × StoredFile F) :=
  match pathToName path with
  | none => .error .eisdir
  | some name =>
    match files name.bytes with
    | none => .error .enoent
    | some file => .ok (name.bytes, file)

/-- Why a request that needs a file is refused. -/
def missing (files : FileStore F) (path : CString) : Option Errno :=
  match files.find path with
  | .error error => some error
  | .ok _ => none

/-- Why a request is refused, whatever space there is. -/
def refusal (files : FileStore F) : Request → Option Errno
  | .getattr path =>
    if path.bytes = [slash] then none
    else if (files.missing path).isSome then some .enoent
    else none
  | .readdir path => if path.bytes = [slash] then none else some .enoent
  | .openFile path => files.missing path
  | .read path size offset =>
    if offset < 0 then some .einval
    else (files.missing path).or (if intMax < size then some .einval else none)
  | .write _ path buf offset =>
    if offset < 0 then some .einval
    else (files.missing path).or
      (if intMax < buf.length then some .einval
      else if maxFileSize < offset.toUInt64.toNat + buf.length then some .enospc
      else none)
  | .create _ path =>
    match pathToName path with
    | none => some .eisdir
    | some name =>
      if ¬ValidName name.bytes then some .einval
      else if (files name.bytes).isSome then some .eexist
      else none
  | .unlink path => files.missing path
  | .truncate _ path size =>
    if size < 0 then some .einval
    else if maxFileSize < size.toUInt64.toNat then some .enospc
    else files.missing path

theorem find_eq_ok {files : FileStore F} {path : CString} {name : List UInt8}
    {file : StoredFile F} : files.find path = .ok (name, file) ↔
      ∃ text, pathToName path = some text ∧ text.bytes = name ∧ files name = some file := by
  unfold find
  split
  next noName => simp [noName]
  next text named =>
    split
    next absent =>
      simp only [reduceCtorEq, named, Option.some.injEq, false_iff, not_exists, not_and]
      rintro _ rfl rfl
      simp [absent]
    next found stored =>
      simp only [Except.ok.injEq, Prod.mk.injEq, named, Option.some.injEq]
      constructor
      · rintro ⟨rfl, rfl⟩
        exact ⟨text, rfl, rfl, stored⟩
      · rintro ⟨_, rfl, rfl, same⟩
        rw [stored] at same
        exact ⟨rfl, Option.some.inj same⟩

end FileStore

/-! ## The specification -/

/-- What a request may be answered where `files` are stored, and what is stored afterwards. -/
inductive Allows (ops : FileOps UInt8 F) (rootTime : UInt64) (files : FileStore F) :
    Request → Except Errno Answer → FileStore F → Prop where
  | refused {r : Request} {error : Errno} : files.refusal r = some error →
    Allows ops rootTime files r (.error error) files
  | root {path : CString} : path.bytes = [slash] →
    Allows ops rootTime files (.getattr path) (.ok (.stat (directoryStat rootTime))) files
  | stat {path : CString} {name : List UInt8} {file : StoredFile F} {blocks : Nat} :
    files.find path = .ok (name, file) → ops.occupies file.contents blocks →
    Allows ops rootTime files (.getattr path)
      (.ok (.stat (regularStat (UInt64.ofNat (ops.size file.contents)) blocks file.mtime))) files
  | listed {path : CString} {names : List (List UInt8)} : path.bytes = [slash] → names.Nodup →
    (∀ name, name ∈ names ↔ (files name).isSome) →
    Allows ops rootTime files (.readdir path) (.ok (.names ([dot] :: [dot, dot] :: names))) files
  | opened {path : CString} : files.refusal (.openFile path) = none →
    Allows ops rootTime files (.openFile path) (.ok .done) files
  | read {path : CString} {size : Nat} {offset : Int64} {name : List UInt8}
      {file : StoredFile F} : files.refusal (.read path size offset) = none →
    files.find path = .ok (name, file) →
    Allows ops rootTime files (.read path size offset)
      (.ok (.data (ops.read file.contents offset.toUInt64.toNat size))) files
  | written {now : UInt64} {path : CString} {buf : List UInt8} {offset : Int64}
      {name : List UInt8} {file : StoredFile F} :
    files.refusal (.write now path buf offset) = none → files.find path = .ok (name, file) →
    Allows ops rootTime files (.write now path buf offset) (.ok (.count buf.length))
      (Function.update files name
        (some ⟨ops.write file.contents offset.toUInt64.toNat buf, now⟩))
  | full {now : UInt64} {path : CString} {buf : List UInt8} {offset : Int64}
      {name : List UInt8} {file : StoredFile F} {n : Nat} :
    files.refusal (.write now path buf offset) = none → files.find path = .ok (name, file) →
    n < buf.length →
    Allows ops rootTime files (.write now path buf offset) (.error .enospc)
      (Function.update files name
        (some ⟨ops.store file.contents offset.toUInt64.toNat (buf.take n), file.mtime⟩))
  | created {now : UInt64} {path name : CString} : files.refusal (.create now path) = none →
    pathToName path = some name →
    Allows ops rootTime files (.create now path) (.ok .done)
      (Function.update files name.bytes (some ⟨ops.empty, now⟩))
  | noSpace {now : UInt64} {path : CString} : files.refusal (.create now path) = none →
    Allows ops rootTime files (.create now path) (.error .enospc) files
  | removed {path : CString} {name : List UInt8} {file : StoredFile F} :
    files.find path = .ok (name, file) →
    Allows ops rootTime files (.unlink path) (.ok .done) (Function.update files name none)
  | resized {now : UInt64} {path : CString} {size : Int64} {name : List UInt8}
      {file : StoredFile F} : files.refusal (.truncate now path size) = none →
    files.find path = .ok (name, file) →
    Allows ops rootTime files (.truncate now path size) (.ok .done)
      (Function.update files name (some ⟨ops.resize file.contents size.toUInt64.toNat,
        if size.toUInt64.toNat = ops.size file.contents then file.mtime else now⟩))

/-- The specification of a mounted volume whose root directory has the time `rootTime`. -/
def storeSpec (ops : FileOps UInt8 F) (rootTime : UInt64) :
    Spec Request (Except Errno Answer) (FileStore F) :=
  fun r files answer files' => Allows ops rootTime files r answer files'

/-- The file a request may change. -/
def Request.target : Request → Option CString
  | .write _ path _ _ | .create _ path | .unlink path | .truncate _ path _ => pathToName path
  | .getattr _ | .readdir _ | .openFile _ | .read _ _ _ => none

/-- A write within the largest file size that failed for lack of space. -/
def Request.RanFull : Request → Except Errno Answer → Prop
  | .write _ _ buf offset, .error .enospc => offset.toUInt64.toNat + buf.length ≤ maxFileSize
  | _, _ => False

/-- A request changes no file but the one on its path. -/
theorem Allows.frame {ops : FileOps UInt8 F} {rootTime : UInt64} {files files' : FileStore F}
    {r : Request} {answer : Except Errno Answer} (allowed : Allows ops rootTime files r answer files')
    {name : List UInt8} (other : ∀ text, r.target = some text → text.bytes ≠ name) :
    files' name = files name := by
  have apart : ∀ {path : CString} {file : StoredFile F} {found : List UInt8}
      {value : Option (StoredFile F)}, r.target = pathToName path →
      files.find path = .ok (found, file) →
      Function.update files found value name = files name := by
    intro path file found value target named
    obtain ⟨text, onPath, rfl, _⟩ := FileStore.find_eq_ok.1 named
    exact Function.update_of_ne (Ne.symm (other text (target.trans onPath))) ..
  cases allowed with
  | refused _ => rfl
  | root _ => rfl
  | stat _ _ => rfl
  | listed _ _ _ => rfl
  | opened _ => rfl
  | read _ _ => rfl
  | written _ named => exact apart rfl named
  | full _ named _ => exact apart rfl named
  | created _ named => exact Function.update_of_ne (Ne.symm (other _ named)) ..
  | noSpace _ => rfl
  | removed named => exact apart rfl named
  | resized _ named => exact apart rfl named

/-! ## From one kind of file to another -/

def FileStore.map (f : F → G) (files : FileStore F) : FileStore G := fun name =>
  (files name).map fun file => ⟨f file.contents, file.mtime⟩

namespace FileStore

variable {f : F → G} {files : FileStore F}

theorem find_map (f : F → G) (files : FileStore F) (path : CString) :
    (files.map f).find path =
      (files.find path).map fun found => (found.1, ⟨f found.2.contents, found.2.mtime⟩) := by
  unfold find map
  cases pathToName path with
  | none => rfl
  | some name => cases stored : files name.bytes <;> simp [stored, Except.map]

theorem missing_map (f : F → G) (files : FileStore F) (path : CString) :
    (files.map f).missing path = files.missing path := by
  unfold missing
  rw [find_map]
  cases files.find path <;> rfl

@[simp] theorem isSome_map (f : F → G) (files : FileStore F) (name : List UInt8) :
    (files.map f name).isSome = (files name).isSome := by
  simp [map]

theorem refusal_map (f : F → G) (files : FileStore F) (r : Request) :
    (files.map f).refusal r = files.refusal r := by
  cases r <;> simp [refusal, missing_map]

theorem find_map_ok {path : CString} {name : List UInt8} {file : StoredFile F}
    (found : files.find path = .ok (name, file)) :
    (files.map f).find path = .ok (name, ⟨f file.contents, file.mtime⟩) := by
  rw [find_map, found]
  rfl

theorem map_update (f : F → G) (files : FileStore F) (name : List UInt8)
    (value : Option (StoredFile F)) :
    map f (Function.update files name value) = Function.update (files.map f) name
      (value.map fun file => ⟨f file.contents, file.mtime⟩) := by
  funext other
  unfold map
  by_cases here : other = name
  · subst here
    simp
  · simp [here]

/-- Every file is good. -/
def All (good : F → Prop) (files : FileStore F) : Prop :=
  ∀ name file, files name = some file → good file.contents

theorem All.found {good : F → Prop} (all : files.All good) {path : CString} {name : List UInt8}
    {file : StoredFile F} (found : files.find path = .ok (name, file)) : good file.contents := by
  obtain ⟨_, _, _, stored⟩ := find_eq_ok.1 found
  exact all name file stored

end FileStore

/-- What is allowed for good files of one kind is allowed for the files they are mapped to. -/
theorem Allows.map {ops : FileOps UInt8 F} {ops' : FileOps UInt8 G} {good : F → Prop} {f : F → G}
    (hom : FileOps.Hom ops ops' good f) {rootTime : UInt64} {files files' : FileStore F}
    {r : Request} {answer : Except Errno Answer} (all : files.All good)
    (allowed : Allows ops rootTime files r answer files') :
    Allows ops' rootTime (files.map f) r answer (files'.map f) := by
  cases allowed with
  | refused error =>
    apply Allows.refused
    rw [FileStore.refusal_map]
    exact error
  | root path => exact .root path
  | stat found occupies =>
    have good := all.found found
    rw [hom.size _ good]
    exact .stat (FileStore.find_map_ok found) (hom.occupies _ _ good occupies)
  | listed path nodup names =>
    apply Allows.listed path nodup
    intro name
    rw [FileStore.isSome_map]
    exact names name
  | opened fine =>
    apply Allows.opened
    rw [FileStore.refusal_map]
    exact fine
  | read fine found =>
    rw [hom.read _ _ _ (all.found found)]
    rw [← FileStore.refusal_map f] at fine
    exact .read fine (FileStore.find_map_ok found)
  | written fine found =>
    rw [FileStore.map_update, Option.map_some, (hom.write _ _ _ (all.found found)).2]
    rw [← FileStore.refusal_map f] at fine
    exact .written fine (FileStore.find_map_ok found)
  | full fine found short =>
    rw [FileStore.map_update, Option.map_some, hom.store _ _ _ (all.found found)]
    rw [← FileStore.refusal_map f] at fine
    exact .full fine (FileStore.find_map_ok found) short
  | created fine named =>
    rw [FileStore.map_update, Option.map_some, hom.empty.2]
    rw [← FileStore.refusal_map f] at fine
    exact .created fine named
  | noSpace fine =>
    rw [← FileStore.refusal_map f] at fine
    exact .noSpace fine
  | removed found =>
    rw [FileStore.map_update, Option.map_none]
    exact .removed (FileStore.find_map_ok found)
  | resized fine found =>
    have good := all.found found
    rw [FileStore.map_update, Option.map_some, (hom.resize _ _ good).2, hom.size _ good]
    rw [← FileStore.refusal_map f] at fine
    exact .resized fine (FileStore.find_map_ok found)

end DenyFS
