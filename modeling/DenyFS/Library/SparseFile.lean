import Mathlib.Algebra.GroupWithZero.Nat
import Mathlib.Data.Finset.Image
import Mathlib.Data.List.GetD
import Mathlib.Order.Interval.Finset.Nat

/-! # Files as sparse images and as byte strings

The same client interface over two kinds of file.  A sparse image has a size, a set of units of
storage, and bytes that read as zero where nothing is stored; bytes past its size are kept, and
show again when it grows.  A byte string is just its contents.  The contents of an image that
keeps nothing past its size follow the operations on byte strings. -/

namespace SparseFile

variable {β F G : Type}

/-- What a client can do with a file.  `store` is what is left of a write that ran out of storage:
the bytes it has stored so far, under the old size. -/
structure FileOps (β F : Type) where
  empty : F
  size : F → Nat
  occupies : F → Nat → Prop
  read : F → Nat → Nat → List β
  write : F → Nat → List β → F
  store : F → Nat → List β → F
  resize : F → Nat → F

/-- Files of one kind that are good behave as the files of another kind they are mapped to. -/
structure FileOps.Hom (first : FileOps β F) (second : FileOps β G) (good : F → Prop) (map : F → G) :
    Prop where
  empty : good first.empty ∧ map first.empty = second.empty
  size : ∀ file, good file → first.size file = second.size (map file)
  occupies : ∀ file n, good file → first.occupies file n → second.occupies (map file) n
  read : ∀ file offset len, good file →
    first.read file offset len = second.read (map file) offset len
  write : ∀ file offset data, good file → good (first.write file offset data) ∧
    map (first.write file offset data) = second.write (map file) offset data
  store : ∀ file offset data, good file →
    map (first.store file offset data) = second.store (map file) offset data
  resize : ∀ file n, good file → good (first.resize file n) ∧
    map (first.resize file n) = second.resize (map file) n

/-! ## Sparse images -/

/-- A file with bytes beyond its size, and zeros where no unit of storage is mapped. -/
@[ext] structure Image (β : Type) [Zero β] (unit : Nat) where
  size : Nat
  mapped : Finset Nat
  bytes : Nat → β
  hole : ∀ i, i / unit ∉ mapped → bytes i = 0

/-- The byte that `data` puts at position `i` when it is stored from `offset` on. -/
def patch (offset : Nat) (data : List β) (i : Nat) : Option β :=
  if offset ≤ i then data[i - offset]? else none

theorem patch_eq_some {offset : Nat} {data : List β} {i : Nat} {byte : β} :
    patch offset data i = some byte ↔ offset ≤ i ∧ data[i - offset]? = some byte := by
  unfold patch
  split
  next lower => simp [lower]
  next upper => simp [upper]

theorem patch_eq_none {offset : Nat} {data : List β} {i : Nat} :
    patch offset data i = none ↔ i < offset ∨ offset + data.length ≤ i := by
  unfold patch
  split
  next lower =>
    rw [List.getElem?_eq_none_iff]
    omega
  next upper =>
    simp only [true_iff]
    omega

/-- The units of storage that `len` bytes from `offset` on lie in. -/
def touched (unit offset len : Nat) : Finset Nat := (Finset.Ico offset (offset + len)).image (· / unit)

@[simp] theorem mem_touched {unit offset len l : Nat} :
    l ∈ touched unit offset len ↔ ∃ i, (offset ≤ i ∧ i < offset + len) ∧ i / unit = l := by
  simp [touched]

section Image

variable [Zero β] {unit : Nat}

namespace Image

def blank : Image β unit where
  size := 0
  mapped := ∅
  bytes _ := 0
  hole _ _ := rfl

def read (image : Image β unit) (offset len : Nat) : List β :=
  (List.range (min len (image.size - offset))).map fun i => image.bytes (offset + i)

def store (image : Image β unit) (offset : Nat) (data : List β) : Image β unit where
  size := image.size
  mapped := image.mapped ∪ touched unit offset data.length
  bytes i := (patch offset data i).getD (image.bytes i)
  hole i outside := by
    simp only [Finset.mem_union, not_or] at outside
    cases stored : patch offset data i with
    | none => exact image.hole i outside.1
    | some byte =>
      obtain ⟨lower, inside⟩ := patch_eq_some.1 stored
      have upper := (List.getElem?_eq_some_iff.1 inside).1
      exact absurd (mem_touched.2 ⟨i, ⟨lower, by omega⟩, rfl⟩) outside.2

def write (image : Image β unit) (offset : Nat) (data : List β) : Image β unit :=
  { image.store offset data with size := max image.size (offset + data.length) }

def grow (image : Image β unit) (n : Nat) : Image β unit := { image with size := n }

/-- How many units `n` bytes take up. -/
def units (unit n : Nat) : Nat := (n + (unit - 1)) / unit

theorem div_lt_units [NeZero unit] {i n : Nat} (inside : i < n) : i / unit < units unit n := by
  have positive := Nat.pos_of_ne_zero (NeZero.ne unit)
  unfold units
  rw [Nat.div_lt_iff_lt_mul positive]
  have upper := Nat.lt_div_mul_add (a := n + (unit - 1)) positive
  omega

def cut [NeZero unit] (image : Image β unit) (n : Nat) : Image β unit where
  size := n
  mapped := image.mapped.filter (· < units unit n)
  bytes i := if i < n then image.bytes i else 0
  hole i outside := by
    split
    next inside =>
      apply image.hole
      intro mapped
      exact outside (Finset.mem_filter.2 ⟨mapped, div_lt_units inside⟩)
    next past => rfl

def resize [NeZero unit] (image : Image β unit) (n : Nat) : Image β unit :=
  if n < image.size then image.cut n else image.grow n

/-- Nothing is kept past the size. -/
def Clean (image : Image β unit) : Prop := ∀ i, image.size ≤ i → image.bytes i = 0

def contents (image : Image β unit) : List β := (List.range image.size).map image.bytes

end Image

/-- Sparse images; `perUnit` of what the client counts make up one unit. -/
def imageOps (β : Type) [Zero β] (unit perUnit : Nat) [NeZero unit] : FileOps β (Image β unit) where
  empty := .blank
  size := Image.size
  occupies image n := n = image.mapped.card * perUnit
  read := Image.read
  write := Image.write
  store := Image.store
  resize := Image.resize

/-- A read inside what was written last returns it. -/
theorem Image.read_write (image : Image β unit) {offset first len : Nat} {data : List β}
    (lower : offset ≤ first) (upper : first + len ≤ offset + data.length) :
    (image.write offset data).read first len = (data.drop (first - offset)).take len := by
  have size : (image.write offset data).size = max image.size (offset + data.length) := rfl
  unfold read
  rw [size, Nat.min_eq_left (by omega)]
  apply List.ext_getElem
  · simp only [List.length_map, List.length_range, List.length_take, List.length_drop]
    omega
  · intro i inside _
    simp only [List.length_map, List.length_range] at inside
    have byte : (image.write offset data).bytes (first + i) =
        (patch offset data (first + i)).getD (image.bytes (first + i)) := rfl
    have within : first + i - offset < data.length := by omega
    have stored : patch offset data (first + i) = some data[first + i - offset] :=
      patch_eq_some.2 ⟨by omega, List.getElem?_eq_getElem within⟩
    simp only [List.getElem_map, List.getElem_range, List.getElem_take, List.getElem_drop]
    rw [byte, stored, Option.getD_some]
    congr 1
    omega

end Image

/-! ## Byte strings -/

section Strings

variable [Zero β]

/-- `data` at `offset`, over a string that is filled up with zeros where it is too short. -/
def overwrite (text : List β) (offset : Nat) (data : List β) : List β :=
  (text ++ List.replicate (offset - text.length) 0).take offset ++ data ++
    text.drop (offset + data.length)

def setLength (text : List β) (n : Nat) : List β :=
  (text ++ List.replicate (n - text.length) 0).take n

def stringOps (β : Type) [Zero β] : FileOps β (List β) where
  empty := []
  size := List.length
  occupies _ _ := True
  read text offset len := (text.drop offset).take len
  write := overwrite
  store text offset data := (overwrite text offset data).take text.length
  resize := setLength

theorem length_overwrite (text : List β) (offset : Nat) (data : List β) :
    (overwrite text offset data).length = max text.length (offset + data.length) := by
  simp only [overwrite, List.length_append, List.length_take, List.length_replicate,
    List.length_drop]
  omega

theorem getD_overwrite (text : List β) (offset : Nat) (data : List β) (i : Nat) :
    (overwrite text offset data).getD i 0 = (patch offset data i).getD (text.getD i 0) := by
  have front : ((text ++ List.replicate (offset - text.length) 0).take offset).length = offset := by
    simp only [List.length_take, List.length_append, List.length_replicate]
    omega
  unfold overwrite patch
  simp only [List.getD_eq_getElem?_getD]
  by_cases before : i < offset
  · rw [if_neg (by omega), List.append_assoc, List.getElem?_append_left (by omega),
      List.getElem?_take_of_lt before]
    by_cases inside : i < text.length
    · rw [List.getElem?_append_left inside]
      rfl
    · rw [List.getElem?_append_right (by omega), List.getElem?_replicate_of_lt (by omega),
        List.getElem?_eq_none (by omega)]
      rfl
  · rw [if_pos (by omega)]
    by_cases inside : i - offset < data.length
    · rw [List.getElem?_append_left (by rw [List.length_append, front]; omega),
        List.getElem?_append_right (by omega), front, List.getElem?_eq_getElem inside]
      rfl
    · rw [List.getElem?_append_right (by rw [List.length_append, front]; omega), List.length_append,
        front, List.getElem?_drop, List.getElem?_eq_none (by omega : data.length ≤ i - offset)]
      have back : offset + data.length + (i - (offset + data.length)) = i := by omega
      rw [back]
      rfl

theorem length_setLength (text : List β) (n : Nat) : (setLength text n).length = n := by
  simp only [setLength, List.length_take, List.length_append, List.length_replicate]
  omega

theorem getD_setLength (text : List β) (n i : Nat) :
    (setLength text n).getD i 0 = if i < n then text.getD i 0 else 0 := by
  unfold setLength
  simp only [List.getD_eq_getElem?_getD]
  split
  next inside =>
    rw [List.getElem?_take_of_lt inside]
    by_cases short : i < text.length
    · rw [List.getElem?_append_left short]
    · rw [List.getElem?_append_right (by omega), List.getElem?_replicate_of_lt (by omega),
        List.getElem?_eq_none (by omega)]
      rfl
  next past =>
    rw [List.getElem?_eq_none (by rw [List.length_take]; omega)]
    rfl

/-- A string is its length and its bytes. -/
theorem eq_of_getD {first second : List β} (length : first.length = second.length)
    (bytes : ∀ i < first.length, first.getD i 0 = second.getD i 0) : first = second := by
  apply List.ext_getElem length
  intro i here there
  have same := bytes i here
  rwa [List.getD_eq_getElem _ _ here, List.getD_eq_getElem _ _ there] at same

end Strings

/-! ## The contents of an image -/

namespace Image

variable [Zero β] {unit : Nat}

@[simp] theorem length_contents (image : Image β unit) : image.contents.length = image.size := by
  simp [contents]

theorem getD_contents (image : Image β unit) {i : Nat} (inside : i < image.size) :
    image.contents.getD i 0 = image.bytes i := by
  rw [List.getD_eq_getElem _ _ (by simpa using inside)]
  simp [contents]

theorem Clean.getD_contents {image : Image β unit} (clean : image.Clean) (i : Nat) :
    image.contents.getD i 0 = image.bytes i := by
  by_cases inside : i < image.size
  · exact image.getD_contents inside
  · rw [List.getD_eq_default _ _ (by simpa using inside)]
    exact (clean i (by omega)).symm

theorem Clean.write {image : Image β unit} (clean : image.Clean) (offset : Nat) (data : List β) :
    (image.write offset data).Clean := by
  intro i past
  have size : (image.write offset data).size = max image.size (offset + data.length) := rfl
  have unstored : patch offset data i = none := patch_eq_none.2 (.inr (by omega))
  change (patch offset data i).getD (image.bytes i) = 0
  rw [unstored]
  exact clean i (by omega)

theorem Clean.contents_write {image : Image β unit} (clean : image.Clean) (offset : Nat)
    (data : List β) : (image.write offset data).contents = overwrite image.contents offset data := by
  apply eq_of_getD
  · rw [length_contents, length_overwrite, length_contents]
    rfl
  · intro i inside
    rw [(clean.write offset data).getD_contents, getD_overwrite, clean.getD_contents]
    rfl

theorem contents_store (image : Image β unit) (offset : Nat) (data : List β) :
    (image.store offset data).contents =
      (overwrite image.contents offset data).take image.contents.length := by
  have size : (image.store offset data).size = image.size := rfl
  apply eq_of_getD
  · rw [length_contents, List.length_take, length_overwrite, length_contents, size]
    omega
  · intro i inside
    rw [length_contents] at inside
    have short : i < image.contents.length := by rw [length_contents]; exact inside
    rw [getD_contents _ inside, List.getD_eq_getElem?_getD, List.getElem?_take_of_lt short,
      ← List.getD_eq_getElem?_getD, getD_overwrite, image.getD_contents inside]
    rfl

theorem Clean.resize [NeZero unit] {image : Image β unit} (clean : image.Clean) (n : Nat) :
    (image.resize n).Clean := by
  unfold Image.resize
  split
  next shorter =>
    intro i past
    exact if_neg (Nat.not_lt.2 past)
  next longer =>
    intro i past
    have past' : n ≤ i := past
    exact clean i (by omega)

theorem Clean.contents_resize [NeZero unit] {image : Image β unit} (clean : image.Clean) (n : Nat) :
    (image.resize n).contents = setLength image.contents n := by
  have size : (image.resize n).size = n := by
    unfold Image.resize
    split <;> rfl
  apply eq_of_getD
  · rw [length_contents, length_setLength, size]
  · intro i inside
    rw [length_contents, size] at inside
    rw [(clean.resize n).getD_contents, getD_setLength, if_pos inside, clean.getD_contents]
    unfold Image.resize
    split
    next shorter => exact if_pos inside
    next longer => rfl

theorem read_eq_contents (image : Image β unit) (offset len : Nat) :
    image.read offset len = (image.contents.drop offset).take len := by
  apply List.ext_getElem
  · simp [read]
  · intro i _ _
    simp [read, contents]

/-- Images that keep nothing past their size behave as their contents. -/
theorem contents_hom (β : Type) [Zero β] (unit perUnit : Nat) [NeZero unit] :
    FileOps.Hom (imageOps β unit perUnit) (stringOps β) Clean contents where
  empty := ⟨fun _ _ => rfl, rfl⟩
  size image _ := (length_contents image).symm
  occupies _ _ _ _ := trivial
  read image offset len _ := read_eq_contents image offset len
  write _ offset data clean := ⟨clean.write offset data, clean.contents_write offset data⟩
  store image offset data _ := contents_store image offset data
  resize _ n clean := ⟨clean.resize n, clean.contents_resize n⟩

end Image

end SparseFile
