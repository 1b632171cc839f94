import Mathlib.Algebra.BigOperators.Fin
import Mathlib.Logic.Equiv.Fin.Basic

/-! # Packed little-endian records

A packed record without padding *is* its bytes: its layout is an equivalence between the
record and the byte strings of its size.  Layouts of words, pairs and arrays compose, and
both round trips come with the equivalence. -/

namespace Packed

/-- `n` bytes of memory. -/
abbrev Bytes (n : Nat) : Type := Fin n → UInt8

/-- A record type whose values are exactly the byte strings of length `n`. -/
abbrev Layout (α : Type) (n : Nat) : Type := α ≃ Bytes n

def byteEquiv : UInt8 ≃ Fin (2 ^ 8) where
  toFun byte := byte.toFin
  invFun index := UInt8.ofFin index
  left_inv _ := rfl
  right_inv _ := rfl

def word32Equiv : UInt32 ≃ Fin (2 ^ 32) where
  toFun word := word.toFin
  invFun index := UInt32.ofFin index
  left_inv _ := rfl
  right_inv _ := rfl

def word64Equiv : UInt64 ≃ Fin (2 ^ 64) where
  toFun word := word.toFin
  invFun index := UInt64.ofFin index
  left_inv _ := rfl
  right_inv _ := rfl

/-- The digits of a number below `256 ^ n` in base 256, least significant first. -/
def digits (n : Nat) : Fin ((2 ^ 8) ^ n) ≃ Bytes n :=
  finFunctionFinEquiv.symm.trans (Equiv.arrowCongr (Equiv.refl (Fin n)) byteEquiv.symm)

def u8 : Layout UInt8 1 := (Equiv.funUnique (Fin 1) UInt8).symm

def u32 : Layout UInt32 4 := word32Equiv.trans ((finCongr (by decide)).trans (digits 4))

def u64 : Layout UInt64 8 := word64Equiv.trans ((finCongr (by decide)).trans (digits 8))

/-- A byte array is its own layout. -/
def raw (n : Nat) : Layout (Bytes n) n := Equiv.refl _

/-- One field after another. -/
def pair {α β : Type} {m n : Nat} (first : Layout α m) (second : Layout β n) :
    Layout (α × β) (m + n) :=
  (Equiv.prodCongr first second).trans (Fin.appendEquiv m n)

/-- `count` records of `n` bytes, one after another. -/
def array {α : Type} {n : Nat} (count : Nat) (element : Layout α n) :
    Layout (Fin count → α) (count * n) :=
  (Equiv.arrowCongr (Equiv.refl (Fin count)) element).trans
    ((Equiv.curry (Fin count) (Fin n) UInt8).symm.trans
      (Equiv.arrowCongr finProdFinEquiv (Equiv.refl UInt8)))

/-- Byte `j` of element `i` stands at offset `j + n * i`. -/
theorem array_apply {α : Type} {n : Nat} (count : Nat) (element : Layout α n)
    (values : Fin count → α) (i : Fin count) (j : Fin n) :
    array count element values (finProdFinEquiv (i, j)) = element (values i) j := by
  simp [array]

/-! ## Records cut short -/

/-- The first `k` bytes, with zeros after them. -/
def clip (k : Nat) {n : Nat} (bytes : Bytes n) : Bytes n := fun i => if i.val < k then bytes i else 0

theorem pair_apply {α β : Type} {m n : Nat} (first : Layout α m) (second : Layout β n)
    (values : α × β) : pair first second values = Fin.append (first values.1) (second values.2) :=
  rfl

/-- A cut inside the second field leaves the first one alone. -/
theorem clip_pair {α β : Type} {m n : Nat} (k : Nat) (first : Layout α m) (second : Layout β n)
    (values : α × β) :
    clip (m + k) (pair first second values) =
      pair first second (values.1, second.symm (clip k (second values.2))) := by
  rw [pair_apply, pair_apply, Equiv.apply_symm_apply]
  funext i
  refine Fin.addCases (fun front => ?_) (fun back => ?_) i
  · unfold clip
    rw [if_pos (by rw [Fin.val_castAdd]; omega), Fin.append_left, Fin.append_left]
  · unfold clip
    rw [Fin.append_right, Fin.append_right, Fin.val_natAdd]
    by_cases kept : back.val < k
    · rw [if_pos (by omega), if_pos kept]
    · rw [if_neg (by omega), if_neg kept]

end Packed
