import DenyFS.Verified.Claims
import DenyFS.Verified.Dirents

/-! # The directory scan of the validator

`validate_loaded_metadata` passes over the entries of the root directory once, keeping the
names and the inodes seen so far.  The scan succeeds exactly where the entries are valid, name
files, and repeat neither a name nor an inode; the limit of 63 names is then never reached. -/

namespace DenyFS

open Packed BlockProgram Ownership

variable {count : Nat} {vol : Volume} {disk : Blocks}

/-! ## One entry after the other -/

/-- The name of an entry in use. -/
def Dirent.liveName (entry : Dirent) : Option (List UInt8) :=
  if entry.Live then some entry.nameBytes else none

/-- The inode of an entry in use. -/
def Dirent.liveIno (entry : Dirent) : Option (Fin 64) :=
  if entry.Live then some entry.ino else none

section Singletons

variable {entry : Dirent}

@[simp] theorem liveName_live (live : entry.Live) :
    [entry].filterMap Dirent.liveName = [entry.nameBytes] := by
  simp [Dirent.liveName, live]

@[simp] theorem liveIno_live (live : entry.Live) :
    [entry].filterMap Dirent.liveIno = [entry.ino] := by
  simp [Dirent.liveIno, live]

@[simp] theorem liveName_dead (dead : ¬entry.Live) : [entry].filterMap Dirent.liveName = [] := by
  simp [Dirent.liveName, dead]

@[simp] theorem liveIno_dead (dead : ¬entry.Live) : [entry].filterMap Dirent.liveIno = [] := by
  simp [Dirent.liveIno, dead]

end Singletons

/-- What the scan may have seen without complaint. -/
structure EntriesOk (vol : Volume) (entries : List Dirent) : Prop where
  valid : ∀ entry ∈ entries, validDirent entry = true
  file : ∀ entry ∈ entries, entry.Live → (vol.inodes entry.ino).type = itypeFile
  inodes : (entries.filterMap Dirent.liveIno).Nodup
  names : (entries.filterMap Dirent.liveName).Nodup

/-- The names and inodes recorded are those of the entries passed. -/
structure Names.Lists (seen : Names) (entries : List Dirent) : Prop where
  names : seen.names = entries.filterMap Dirent.liveName
  referenced : ∀ ino, seen.referenced ino = true ↔ ino ∈ entries.filterMap Dirent.liveIno

theorem noNames_lists : Names.Lists { referenced := fun _ => false, names := [] } [] where
  names := rfl
  referenced ino := by simp

/-- The entries in use are at most as many as there are inodes besides the root. -/
theorem EntriesOk.length_le {entries : List Dirent} (ok : EntriesOk vol entries) :
    (entries.filterMap Dirent.liveIno).length ≤ 63 := by
  have inside : (entries.filterMap Dirent.liveIno).toFinset ⊆ Finset.univ.erase 0 := by
    intro ino member
    obtain ⟨entry, listed, points⟩ := List.mem_filterMap.1 (List.mem_toFinset.1 member)
    unfold Dirent.liveIno at points
    split at points
    next live =>
      cases points
      exact Finset.mem_erase.2 ⟨Dirent.ino_ne_zero (ok.valid entry listed) live,
        Finset.mem_univ _⟩
    · cases points
  have bound := Finset.card_le_card inside
  rw [List.toFinset_card_of_nodup ok.inodes, Finset.card_erase_of_mem (Finset.mem_univ _),
    Finset.card_univ, Fintype.card_fin] at bound
  exact bound

theorem liveLengths (entries : List Dirent) :
    (entries.filterMap Dirent.liveName).length = (entries.filterMap Dirent.liveIno).length := by
  rw [List.length_filterMap_eq_countP, List.length_filterMap_eq_countP]
  refine List.countP_congr fun entry _ => ?_
  unfold Dirent.liveName Dirent.liveIno
  split <;> simp

/-- A prefix of what passes the scan passes it. -/
theorem EntriesOk.of_append {first second : List Dirent}
    (ok : EntriesOk vol (first ++ second)) : EntriesOk vol first := by
  obtain ⟨valid, file, inodes, names⟩ := ok
  rw [List.filterMap_append] at inodes names
  exact ⟨fun entry member => valid entry (List.mem_append_left _ member),
    fun entry member => file entry (List.mem_append_left _ member),
    (List.nodup_append.1 inodes).1, (List.nodup_append.1 names).1⟩

/-- One more entry. -/
theorem entriesOk_concat {entries : List Dirent} {entry : Dirent} :
    EntriesOk vol (entries ++ [entry]) ↔ EntriesOk vol entries ∧ validDirent entry = true ∧
      (entry.Live → (vol.inodes entry.ino).type = itypeFile ∧
        entry.ino ∉ entries.filterMap Dirent.liveIno ∧
        entry.nameBytes ∉ entries.filterMap Dirent.liveName) := by
  have last : entry ∈ entries ++ [entry] := List.mem_append_right _ List.mem_cons_self
  constructor
  · intro ok
    refine ⟨ok.of_append, ok.valid entry last, fun live => ⟨ok.file entry last live, ?_, ?_⟩⟩
    · have inodes := ok.inodes
      rw [List.filterMap_append, List.nodup_append] at inodes
      intro member
      refine inodes.2.2 _ member entry.ino ?_ rfl
      rw [liveIno_live live]
      exact List.mem_cons_self
    · have names := ok.names
      rw [List.filterMap_append, List.nodup_append] at names
      intro member
      refine names.2.2 _ member entry.nameBytes ?_ rfl
      rw [liveName_live live]
      exact List.mem_cons_self
  · rintro ⟨ok, valid, fresh⟩
    by_cases live : entry.Live
    · obtain ⟨file, newIno, newName⟩ := fresh live
      refine ⟨fun other member => ?_, fun other member otherLive => ?_, ?_, ?_⟩
      · cases List.mem_append.1 member with
        | inl before => exact ok.valid other before
        | inr now => rw [List.mem_singleton.1 now]; exact valid
      · cases List.mem_append.1 member with
        | inl before => exact ok.file other before otherLive
        | inr now => rw [List.mem_singleton.1 now]; exact file
      · rw [List.filterMap_append, liveIno_live live, List.nodup_append]
        refine ⟨ok.inodes, List.nodup_singleton _, fun a inA b inB equal => ?_⟩
        rw [List.mem_singleton.1 inB] at equal
        exact newIno (equal ▸ inA)
      · rw [List.filterMap_append, liveName_live live, List.nodup_append]
        refine ⟨ok.names, List.nodup_singleton _, fun a inA b inB equal => ?_⟩
        rw [List.mem_singleton.1 inB] at equal
        exact newName (equal ▸ inA)
    · refine ⟨fun other member => ?_, fun other member otherLive => ?_, ?_, ?_⟩
      · cases List.mem_append.1 member with
        | inl before => exact ok.valid other before
        | inr now => rw [List.mem_singleton.1 now]; exact valid
      · cases List.mem_append.1 member with
        | inl before => exact ok.file other before otherLive
        | inr now =>
          rw [List.mem_singleton.1 now] at otherLive
          exact absurd otherLive live
      · rw [List.filterMap_append, liveIno_dead live, List.append_nil]
        exact ok.inodes
      · rw [List.filterMap_append, liveName_dead live, List.append_nil]
        exact ok.names

/-! ## The loops -/

theorem collectNames_iff (entries : Fin 16 → Dirent) (indices : List (Fin 16)) {seen : Names}
    {passed : List Dirent} (lists : seen.Lists passed) (ok : EntriesOk vol passed) :
    (∃ seen', collectNames vol entries indices seen = some seen' ∧
        seen'.Lists (passed ++ indices.map entries) ∧
        EntriesOk vol (passed ++ indices.map entries)) ∨
      (¬EntriesOk vol (passed ++ indices.map entries) ∧
        collectNames vol entries indices seen = none) := by
  induction indices generalizing seen passed with
  | nil => exact .inl ⟨seen, rfl, by simpa using lists, by simpa using ok⟩
  | cons i rest ih =>
    have split : passed ++ (i :: rest).map entries =
        passed ++ [entries i] ++ rest.map entries := by simp
    have refused : ¬EntriesOk vol (passed ++ [entries i]) →
        ¬EntriesOk vol (passed ++ (i :: rest).map entries) := by
      intro bad all
      rw [split] at all
      exact bad all.of_append
    rw [collectNames]
    by_cases free : (entries i).inode = invalidIno
    · have dead : ¬(entries i).Live := fun live => live free
      rw [if_pos free]
      by_cases valid : validDirent (entries i) = true
      · have ok' : EntriesOk vol (passed ++ [entries i]) :=
          entriesOk_concat.2 ⟨ok, valid, fun live => absurd live dead⟩
        have lists' : seen.Lists (passed ++ [entries i]) := by
          refine ⟨?_, fun ino => ?_⟩
          · rw [List.filterMap_append, liveName_dead dead, List.append_nil, lists.names]
          · rw [List.filterMap_append, liveIno_dead dead, List.append_nil, lists.referenced]
        rw [if_pos valid, split]
        exact ih lists' ok'
      · rw [if_neg valid]
        refine .inr ⟨refused fun all => valid ?_, rfl⟩
        exact (entriesOk_concat.1 all).2.1
    · have live : (entries i).Live := free
      rw [if_neg free]
      by_cases bad : validDirent (entries i) = false ∨
          (vol.inodes (Fin.ofNat 64 (entries i).inode.toNat)).type ≠ itypeFile ∨
          seen.referenced (Fin.ofNat 64 (entries i).inode.toNat) = true ∨
          63 ≤ seen.names.length ∨
          (entries i).namePrefix (entries i).nameLen.toNat ∈ seen.names
      · rw [if_pos bad]
        refine .inr ⟨refused fun all => ?_, rfl⟩
        obtain ⟨_, valid, fresh⟩ := entriesOk_concat.1 all
        obtain ⟨file, newIno, newName⟩ := fresh live
        rcases bad with invalid | notFile | repeated | full | sameName
        · rw [valid] at invalid
          cases invalid
        · exact notFile file
        · exact newIno ((lists.referenced _).1 repeated)
        · -- 64 distinct inodes other than the root do not exist
          have bound := all.length_le
          rw [List.filterMap_append, List.length_append, ← liveLengths, ← lists.names,
            liveIno_live live, List.length_singleton] at bound
          omega
        · rw [lists.names] at sameName
          exact newName sameName
      · rw [if_neg bad]
        simp only [not_or, not_not, Bool.not_eq_false] at bad
        obtain ⟨valid, file, newIno, _, newName⟩ := bad
        have ok' : EntriesOk vol (passed ++ [entries i]) := by
          refine entriesOk_concat.2 ⟨ok, valid, fun _ => ⟨file, fun member => ?_, ?_⟩⟩
          · exact newIno ((lists.referenced _).2 member)
          · rw [← lists.names]
            exact newName
        rw [split]
        refine ih ⟨?_, fun ino => ?_⟩ ok'
        · rw [List.filterMap_append, liveName_live live, ← lists.names]
          rfl
        · rw [List.filterMap_append, liveIno_live live, List.mem_append, List.mem_singleton]
          change Function.update seen.referenced (entries i).ino true ino = true ↔ _
          by_cases here : ino = (entries i).ino
          · rw [here, Function.update_self]
            exact iff_of_true rfl (.inr rfl)
          · rw [Function.update_of_ne here, lists.referenced]
            exact (or_iff_left here).symm

/-- The entries of one directory block, in order. -/
def blockEntries (disk : Blocks) (block : UInt32) : List Dirent :=
  (upTo 16).map (direntsSector.symm (disk block))

theorem collectBlocks_iff (vol : Volume) (disk : Blocks) {blocks : List UInt32} (inside : ∀ block ∈ blocks, block.toNat < count)
    {seen : Names} {passed : List Dirent} (lists : seen.Lists passed)
    (ok : EntriesOk vol passed) :
    (∃ seen', Returns count vol disk (collectBlocks vol blocks seen) seen' ∧
        seen'.Lists (passed ++ blocks.flatMap (blockEntries disk)) ∧
        EntriesOk vol (passed ++ blocks.flatMap (blockEntries disk))) ∨
      (¬EntriesOk vol (passed ++ blocks.flatMap (blockEntries disk)) ∧
        ∀ seen', ¬Returns count vol disk (collectBlocks vol blocks seen) seen') := by
  induction blocks generalizing seen passed with
  | nil => exact .inl ⟨seen, returns_pure.2 rfl, by simpa using lists, by simpa using ok⟩
  | cons block rest ih =>
    have here := inside block List.mem_cons_self
    have later := fun b member => inside b (List.mem_cons_of_mem block member)
    have step : ∀ seen', Returns count vol disk (collectBlocks vol (block :: rest) seen) seen' ↔
        ∃ seen₁, collectNames vol (direntsSector.symm (disk block)) (upTo 16) seen = some seen₁ ∧
          Returns count vol disk (collectBlocks vol rest seen₁) seen' := by
      intro seen'
      rw [collectBlocks, returns_bind (Prog.Passive.ofReadAt block)]
      simp only [returns_readBlock here, returns_bind (orInvalid_simple _).passive, returns_orInvalid]
      constructor
      · rintro ⟨_, rfl, rest⟩
        exact rest
      · exact fun rest => ⟨_, rfl, rest⟩
    rw [List.flatMap_cons, ← List.append_assoc]
    rcases collectNames_iff (direntsSector.symm (disk block)) (upTo 16)
      lists ok with ⟨seen₁, collects, lists₁, ok₁⟩ | ⟨refused, fails⟩
    · rcases ih later lists₁ ok₁ with ⟨seen', returns, lists', ok'⟩ | ⟨refused, fails⟩
      · exact .inl ⟨seen', (step seen').2 ⟨seen₁, collects, returns⟩, lists', ok'⟩
      · refine .inr ⟨refused, fun seen' returns => ?_⟩
        obtain ⟨seen₂, collects₂, returns⟩ := (step seen').1 returns
        rw [collects] at collects₂
        cases collects₂
        exact fails seen' returns
    · refine .inr ⟨fun all => refused all.of_append, fun seen' returns => ?_⟩
      obtain ⟨seen₁, collects, _⟩ := (step seen').1 returns
      rw [fails] at collects
      cases collects

end DenyFS
