import DenyFS.Verified.WellFormed

/-! # Directory entries

What `valid_dirent` accepts, said about the name as a list of bytes, and how the entries that
the operations write and look for relate to it. -/

namespace DenyFS

open Packed

/-- The names a directory may hold: 1 to 250 bytes, no NUL and no `/`, neither `.` nor `..`. -/
structure ValidName (name : List UInt8) : Prop where
  nonempty : 0 < name.length
  short : name.length < 251
  noNul : (0 : UInt8) ∉ name
  noSlash : slash ∉ name
  notDot : name ≠ [dot]
  notDotDot : name ≠ [dot, dot]

theorem ValidName.length {name : List UInt8} (valid : ValidName name) :
    0 < name.length ∧ name.length < 251 := ⟨valid.nonempty, valid.short⟩

namespace Dirent

variable {entry : Dirent} {name : List UInt8}

theorem namePrefix_eq (entry : Dirent) {n : Nat} (short : n ≤ 251) :
    entry.namePrefix n = (List.range n).map entry.nameAt := by
  apply List.ext_getElem
  · rw [namePrefix, List.length_take, List.length_ofFn, List.length_map, List.length_range]
    exact Nat.min_eq_left short
  · intro i inPrefix inRange
    have small : i < n := by simpa using inRange
    have inField : i % 251 = i := Nat.mod_eq_of_lt (by omega)
    simp only [namePrefix, List.getElem_take, List.getElem_ofFn, List.getElem_map,
      List.getElem_range, nameAt, Fin.ofNat, inField]

theorem nameBytes_length (short : entry.nameLen < 251) :
    entry.nameBytes.length = entry.nameLen.toNat := by
  have bound : entry.nameLen.toNat < 251 := UInt8.lt_iff_toNat_lt.1 short
  rw [nameBytes, namePrefix_eq entry (Nat.le_of_lt bound), List.length_map, List.length_range]

/-- An entry of the root directory is unused, or names an inode other than the root under a
valid, terminated name. -/
theorem validDirent_iff (entry : Dirent) :
    validDirent entry = true ↔
      (¬entry.Live ∧ entry.nameLen = 0) ∨
      (entry.Live ∧ entry.inode ≠ 0 ∧ entry.inode < 64 ∧ entry.nameLen < 251 ∧
        entry.nameAt entry.nameLen.toNat = 0 ∧ ValidName entry.nameBytes) := by
  unfold validDirent Live
  by_cases free : entry.inode = invalidIno
  · simp [free]
  rw [if_neg free]
  by_cases bounds : entry.inode = 0 ∨ 64 ≤ entry.inode ∨ entry.nameLen = 0 ∨
      251 ≤ entry.nameLen ∨ entry.nameAt entry.nameLen.toNat ≠ 0
  · rw [if_pos bounds]
    constructor
    · intro impossible
      cases impossible
    · rintro (unused | ⟨_, nonzero, small, short, terminated, valid⟩)
      · exact absurd free unused.1
      · rcases bounds with zero | large | empty | long | unterminated
        · exact absurd zero nonzero
        · exact absurd small (UInt32.not_lt.2 large)
        · have length := nameBytes_length short
          have positive := valid.nonempty
          rw [length, empty] at positive
          cases positive
        · exact absurd short (UInt8.not_lt.2 long)
        · exact absurd terminated unterminated
  · rw [if_neg bounds]
    simp only [not_or, UInt32.not_le, UInt8.not_le, not_not] at bounds
    obtain ⟨nonzero, small, nonempty, short, terminated⟩ := bounds
    have bound : entry.nameLen.toNat < 251 := UInt8.lt_iff_toNat_lt.1 short
    have bytes := namePrefix_eq entry (Nat.le_of_lt bound)
    have length := nameBytes_length short
    have positive : 0 < entry.nameLen.toNat := by
      refine Nat.pos_of_ne_zero fun zero => nonempty ?_
      exact UInt8.toNat_inj.1 zero
    have clean : ((List.range entry.nameLen.toNat).any fun i =>
        entry.nameAt i == 0 || entry.nameAt i == slash) = true ↔
        ¬((0 : UInt8) ∉ entry.nameBytes ∧ slash ∉ entry.nameBytes) := by
      rw [nameBytes, bytes, List.any_eq_true]
      simp only [Bool.or_eq_true, beq_iff_eq, List.mem_map]
      constructor
      · rintro ⟨i, member, zero | equal⟩ ⟨noNul, noSlash⟩
        · exact noNul ⟨i, member, zero⟩
        · exact noSlash ⟨i, member, equal⟩
      · intro dirty
        by_contra none
        refine dirty ⟨?_, ?_⟩
        · rintro ⟨i, member, zero⟩
          exact none ⟨i, member, .inl zero⟩
        · rintro ⟨i, member, equal⟩
          exact none ⟨i, member, .inr equal⟩
    have single : entry.nameBytes = [dot] ↔ entry.nameLen = 1 ∧ entry.nameAt 0 = dot := by
      rw [nameBytes, bytes]
      constructor
      · intro equal
        have one : entry.nameLen.toNat = 1 := by simpa using congrArg List.length equal
        rw [one] at equal
        exact ⟨UInt8.toNat_inj.1 one, by simpa using equal⟩
      · rintro ⟨one, equal⟩
        rw [one]
        simpa using equal
    have double : entry.nameBytes = [dot, dot] ↔
        entry.nameLen = 2 ∧ entry.nameAt 0 = dot ∧ entry.nameAt 1 = dot := by
      rw [nameBytes, bytes]
      constructor
      · intro equal
        have two : entry.nameLen.toNat = 2 := by simpa using congrArg List.length equal
        rw [two] at equal
        exact ⟨UInt8.toNat_inj.1 two, by simpa [List.range_succ] using equal⟩
      · rintro ⟨two, equal⟩
        rw [two]
        simpa [List.range_succ] using equal
    have live : ¬(¬entry.inode ≠ invalidIno ∧ entry.nameLen = 0) := fun both => both.1 free
    by_cases dirty : ((List.range entry.nameLen.toNat).any fun i =>
        entry.nameAt i == 0 || entry.nameAt i == slash) = true
    · rw [if_pos dirty]
      constructor
      · intro impossible
        cases impossible
      · rintro (unused | ⟨_, _, _, _, _, valid⟩)
        · exact absurd unused live
        · exact absurd ⟨valid.noNul, valid.noSlash⟩ (clean.1 dirty)
    · rw [if_neg dirty]
      have noBytes := not_not.1 (fun bad => dirty (clean.2 bad))
      simp only [Bool.not_eq_true', Bool.or_eq_false_iff, Bool.and_eq_false_iff,
        beq_eq_false_iff_ne]
      constructor
      · rintro ⟨notDot, notDotDot⟩
        refine .inr ⟨free, nonzero, small, short, terminated, ?_⟩
        refine ⟨by omega, by omega, noBytes.1, noBytes.2, fun equal => ?_, fun equal => ?_⟩
        · obtain ⟨one, first⟩ := single.1 equal
          exact notDot.elim (fun other => other one) fun other => other first
        · obtain ⟨two, first, second⟩ := double.1 equal
          exact notDotDot.elim (fun either => either.elim (fun other => other two)
            fun other => other first) fun other => other second
      · rintro (unused | ⟨_, _, _, _, _, valid⟩)
        · exact absurd unused live
        · constructor
          · by_cases one : entry.nameLen = 1
            · exact .inr fun first => valid.notDot (single.2 ⟨one, first⟩)
            · exact .inl one
          · by_cases two : entry.nameLen = 2 ∧ entry.nameAt 0 = dot
            · exact .inr fun second => valid.notDotDot (double.2 ⟨two.1, two.2, second⟩)
            · exact .inl (not_and_or.1 two)

/-- A valid entry in use names an inode other than the root directory. -/
theorem validDirent_inode (valid : validDirent entry = true) (live : entry.Live) :
    entry.inode ≠ 0 ∧ entry.inode < 64 := by
  cases (validDirent_iff entry).1 valid with
  | inl unused => exact absurd live unused.1
  | inr used => exact ⟨used.2.1, used.2.2.1⟩

theorem validName (valid : validDirent entry = true) (live : entry.Live) :
    ValidName entry.nameBytes := by
  cases (validDirent_iff entry).1 valid with
  | inl unused => exact absurd live unused.1
  | inr used => exact used.2.2.2.2.2

theorem ofNat_ino_ne_zero {ino : UInt32} (nonzero : ino ≠ 0) (small : ino < 64) :
    Fin.ofNat 64 ino.toNat ≠ 0 := by
  have bound : ino.toNat < 64 := UInt32.lt_iff_toNat_lt.1 small
  have positive : ino.toNat ≠ 0 := fun zero => nonzero (UInt32.toNat_inj.1 zero)
  intro equal
  have value := congrArg Fin.val equal
  simp only [Fin.val_ofNat, Fin.val_zero] at value
  omega

theorem ino_ne_zero (valid : validDirent entry = true) (live : entry.Live) : entry.ino ≠ 0 := by
  obtain ⟨nonzero, small⟩ := validDirent_inode valid live
  exact ofNat_ino_ne_zero nonzero small

/-- A valid entry holds the number of the inode it stands for. -/
theorem inode_eq_ino (valid : validDirent entry = true) (live : entry.Live) :
    entry.inode = UInt32.ofNat entry.ino.val := by
  obtain ⟨_, small⟩ := validDirent_inode valid live
  have bound : entry.inode.toNat < 64 := UInt32.lt_iff_toNat_lt.1 small
  have value : entry.ino.val = entry.inode.toNat := Nat.mod_eq_of_lt bound
  rw [value, UInt32.ofNat_toNat]

theorem nameLen_lt (valid : validDirent entry = true) : entry.nameLen < 251 := by
  cases (validDirent_iff entry).1 valid with
  | inl unused => rw [unused.2]; decide
  | inr used => exact used.2.2.2.1

/-! ## Entries in memory -/

theorem emptyDirent_valid : validDirent emptyDirent = true := by
  rw [validDirent_iff]
  exact .inl ⟨fun live => live rfl, rfl⟩

theorem emptyDirent_not_live : ¬emptyDirent.Live := fun live => live rfl

theorem cleared_valid (entry : Dirent) : validDirent entry.cleared = true := by
  rw [validDirent_iff]
  exact .inl ⟨fun live => live rfl, rfl⟩

theorem cleared_not_live (entry : Dirent) : ¬entry.cleared.Live := fun live => live rfl

theorem nameLen_toNat (short : name.length < 251) :
    (UInt8.ofNat name.length).toNat = name.length := by
  rw [UInt8.toNat_ofNat']
  exact Nat.mod_eq_of_lt (by omega)

theorem nameBytes_withName (entry : Dirent) (ino : UInt32) (short : name.length < 251) :
    (entry.withName ino name).nameBytes = name := by
  have length : (entry.withName ino name).nameLen.toNat = name.length := nameLen_toNat short
  rw [nameBytes, length, namePrefix_eq _ (Nat.le_of_lt short)]
  apply List.ext_getElem
  · rw [List.length_map, List.length_range]
  · intro i inRange inName
    have inField : i % 251 = i := Nat.mod_eq_of_lt (by omega)
    rw [List.getElem_map, List.getElem_range]
    simp only [nameAt, withName, Fin.ofNat, inField, List.getD_eq_getElem?_getD,
      List.getElem?_eq_getElem inName, Option.getD_some]

theorem live_of_small {ino : Fin 64} : UInt32.ofNat ino.val ≠ invalidIno := by
  revert ino
  decide

theorem withName_valid (entry : Dirent) {ino : Fin 64} (nonzero : ino ≠ 0)
    (valid : ValidName name) : validDirent (entry.withName (UInt32.ofNat ino.val) name) = true := by
  have length : (entry.withName (UInt32.ofNat ino.val) name).nameLen.toNat = name.length :=
    nameLen_toNat valid.short
  have number : (UInt32.ofNat ino.val).toNat = ino.val := by
    rw [UInt32.toNat_ofNat']
    exact Nat.mod_eq_of_lt (by omega)
  rw [validDirent_iff]
  refine .inr ⟨live_of_small, fun zero => nonzero ?_, ?_, ?_, ?_, ?_⟩
  · have value : (UInt32.ofNat ino.val).toNat = 0 := congrArg UInt32.toNat zero
    rw [number] at value
    exact Fin.ext value
  · rw [UInt32.lt_iff_toNat_lt]
    change (UInt32.ofNat ino.val).toNat < 64
    rw [number]
    exact ino.isLt
  · rw [UInt8.lt_iff_toNat_lt, length]
    exact valid.short
  · have short := valid.short
    have inField : name.length % 251 = name.length := Nat.mod_eq_of_lt short
    rw [length]
    simp [nameAt, withName, Fin.ofNat, inField]
  · rw [nameBytes_withName entry _ valid.short]
    exact valid

theorem withName_ino (entry : Dirent) (ino : Fin 64) (name : List UInt8) :
    (entry.withName (UInt32.ofNat ino.val) name).ino = ino := by
  have number : (UInt32.ofNat ino.val).toNat = ino.val := by
    rw [UInt32.toNat_ofNat']
    exact Nat.mod_eq_of_lt (by omega)
  apply Fin.ext
  change (UInt32.ofNat ino.val).toNat % 64 = ino.val
  rw [number]
  exact Nat.mod_eq_of_lt ino.isLt

/-! ## What the scans compare -/

/-- The name of a valid entry, read as a C string. -/
theorem cName_eq (valid : validDirent entry = true) (live : entry.Live) :
    entry.cName = entry.nameBytes := by
  cases (validDirent_iff entry).1 valid with
  | inl unused => exact absurd live unused.1
  | inr used =>
    obtain ⟨_, _, _, short, terminated, name⟩ := used
    have bound : entry.nameLen.toNat < 251 := UInt8.lt_iff_toNat_lt.1 short
    have split : List.ofFn entry.name = entry.nameBytes ++
        entry.nameAt entry.nameLen.toNat :: (List.ofFn entry.name).drop (entry.nameLen.toNat + 1) := by
      have inField : entry.nameLen.toNat % 251 = entry.nameLen.toNat := Nat.mod_eq_of_lt bound
      have inName : entry.nameLen.toNat < (List.ofFn entry.name).length := by
        rw [List.length_ofFn]
        exact bound
      have here : entry.nameAt entry.nameLen.toNat =
          (List.ofFn entry.name)[entry.nameLen.toNat] := by
        simp only [nameAt, Fin.ofNat, inField, List.getElem_ofFn]
      rw [here, nameBytes, namePrefix, List.getElem_cons_drop, List.take_append_drop]
    rw [cName, split, terminated]
    refine (List.takeWhile_append_of_pos fun byte member => ?_).trans ?_
    · rw [decide_eq_true_eq]
      rintro rfl
      exact name.noNul member
    · rw [List.takeWhile_cons_of_neg (by simp), List.append_nil]

/-- Comparing lengths and bytes is comparing names. -/
theorem namePrefix_iff (valid : validDirent entry = true) :
    entry.nameLen.toNat = name.length ∧ entry.namePrefix name.length = name ↔
      entry.nameBytes = name := by
  constructor
  · rintro ⟨length, bytes⟩
    rw [nameBytes, length, bytes]
  · intro equal
    have length := nameBytes_length (nameLen_lt valid)
    rw [equal] at length
    refine ⟨length.symm, ?_⟩
    rw [length]
    exact equal

theorem lookupMatches_iff (valid : validDirent entry = true) (short : name.length < 251) :
    lookupMatches name entry = true ↔ entry.Live ∧ entry.nameBytes = name := by
  unfold lookupMatches
  rw [← namePrefix_iff valid]
  simp only [Bool.and_eq_true, bne_iff_ne, beq_iff_eq, Live, and_assoc, ← UInt8.toNat_inj,
    nameLen_toNat short]

theorem removeMatches_iff (name : List UInt8) (valid : validDirent entry = true) :
    removeMatches name entry = true ↔ entry.Live ∧ entry.nameBytes = name := by
  unfold removeMatches
  rw [← namePrefix_iff valid]
  simp only [Bool.and_eq_true, bne_iff_ne, beq_iff_eq, Live, and_assoc]

end Dirent

end DenyFS
