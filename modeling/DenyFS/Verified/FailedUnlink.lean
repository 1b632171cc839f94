import DenyFS.Library.Requests
import DenyFS.Verified.DirectoryGrowth
import DenyFS.Verified.Space

/-! # Failed unlinks

`denyfs_vol_unlink` clears the directory entry before it releases the blocks, and reads the
pointer tables while it releases them.  Reads and writes fail here as a schedule says: where the
entry is cleared and one of the table reads then fails, the file is neither there nor gone. -/

namespace DenyFS

open Packed BlockProgram Ownership

variable {count : Nat} {vol vol' : Volume} {blocks blocks' : Blocks} {ino : Fin 64}
  {name : CString} {p : DirentSlot} {schedule : Schedule Errno}

/-! ## The reads of a directory scan -/

theorem plainDevice_frozen (count : Nat) (block : UInt32) (blocks : Blocks) :
    ((plainDevice count).read block blocks).2 = blocks := by
  simp only [plainDevice]

section Count

variable {δ : Type} {device : Device δ UInt32 Sector Errno}

@[simp] theorem readCount_findInBlock (wanted : Dirent → Bool) (block : UInt32)
    (state : Volume × δ) : Prog.readCount device (findInBlock wanted block) state = 1 := by
  unfold findInBlock
  rw [Prog.readCount_bind, Prog.readCount_elseThrow]
  have one : Prog.readCount device (readBlock block) state = 1 := rfl
  rw [one, Nat.add_eq_left]
  split
  next data state' _ =>
    dsimp only
    cases scanEntries wanted (direntsSector.symm data) (upTo 16) with
    | ok found => rfl
    | error error => rfl
  · rfl

end Count

/-- A scan reads the blocks it passes over and the one it stops at. -/
theorem readCount_findDirent (stopAtHole : Bool) (wanted : Dirent → Bool)
    {before after : List UInt32} {block : UInt32}
    (good : ∀ b ∈ before ++ [block], GoodBlock count blocks b)
    (present : ∀ b ∈ before ++ [block], b ≠ invalidBlock)
    (pass : ∀ b ∈ before, ∀ i, wanted (direntsSector.symm (blocks b) i) = false)
    (hit : ∃ i, wanted (direntsSector.symm (blocks block) i) = true) :
    Prog.readCount (plainDevice count) (findDirent stopAtHole wanted (before ++ block :: after))
      (vol, blocks) = before.length + 1 := by
  induction before with
  | nil =>
    obtain ⟨i, wants⟩ := hit
    have here := good block List.mem_cons_self
    rw [List.nil_append, findDirent, if_neg (present block List.mem_cons_self)]
    cases exec_findInBlock vol wanted here with
    | inl found =>
      obtain ⟨j, _, returns⟩ := found
      rw [Prog.readCount_bind_ok returns, readCount_findInBlock]
      rfl
    | inr none =>
      rw [none.1 i] at wants
      cases wants
  | cons b rest ih =>
    have later := ih (fun c listed => good c (List.mem_cons_of_mem _ listed))
      (fun c listed => present c (List.mem_cons_of_mem _ listed))
      fun c listed => pass c (List.mem_cons_of_mem _ listed)
    rw [List.cons_append, findDirent, if_neg (present b List.mem_cons_self)]
    cases exec_findInBlock vol wanted (good b List.mem_cons_self) with
    | inl found =>
      obtain ⟨j, wants, _⟩ := found
      rw [pass b List.mem_cons_self j] at wants
      cases wants
    | inr none =>
      rw [Prog.readCount_bind_ok none.2, readCount_findInBlock]
      dsimp only
      rw [later, List.length_cons]
      omega

/-- The blocks of the directory before the one of a slot, that one, and the rest. -/
theorem rootBlocks_split (vol : Volume) (k : Fin 20) : vol.rootBlocks =
    (vol.rootBlocks.take k.val) ++ (vol.inodes 0).direct k :: vol.rootBlocks.drop (k.val + 1) := by
  have size : k.val < vol.rootBlocks.length := by
    rw [Volume.rootBlocks, List.length_ofFn]
    exact k.isLt
  have here : vol.rootBlocks[k.val] = (vol.inodes 0).direct k := by
    simp only [Volume.rootBlocks, List.getElem_ofFn]
  rw [← here, ← List.drop_eq_getElem_cons size, List.take_append_drop]

/-- The scan for the first entry that is wanted reads the blocks up to the one it stands in. -/
theorem RootDirectory.readCount_scan (root : RootDirectory count vol blocks) (stopAtHole : Bool)
    (wanted : Dirent → Bool) (present : (vol.inodes 0).direct p.1 ≠ invalidBlock)
    (wants : wanted (entryAt vol blocks p) = true)
    (alone : ∀ q : DirentSlot, q.1 < p.1 → wanted (entryAt vol blocks q) = false) :
    Prog.readCount (plainDevice count) (findDirent stopAtHole wanted vol.rootBlocks)
      (vol, blocks) = p.1.val + 1 := by
  have filled : ∀ j : Fin 20, j ≤ p.1 → (vol.inodes 0).direct j ≠ invalidBlock := by
    intro j early
    have upper := (root.direct p.1).1 present
    have := Fin.le_def.1 early
    exact (root.direct j).2 (by omega)
  have earlier : ∀ b ∈ vol.rootBlocks.take p.1.val, ∃ j < p.1, b = (vol.inodes 0).direct j := by
    intro b listed
    obtain ⟨n, small, rfl⟩ := List.mem_iff_getElem.1 listed
    have first : n < p.1.val := lt_of_lt_of_le small (List.length_take_le _ _)
    refine ⟨⟨n, by omega⟩, Fin.lt_def.2 first, ?_⟩
    simp only [List.getElem_take, Volume.rootBlocks, List.getElem_ofFn]
  have upTo : ∀ b ∈ vol.rootBlocks.take p.1.val ++ [(vol.inodes 0).direct p.1],
      ∃ j ≤ p.1, b = (vol.inodes 0).direct j := by
    intro b listed
    cases List.mem_append.1 listed with
    | inl first =>
      obtain ⟨j, early, same⟩ := earlier b first
      exact ⟨j, Fin.le_of_lt early, same⟩
    | inr last => exact ⟨p.1, le_refl _, List.mem_singleton.1 last⟩
  have reads : Prog.readCount (plainDevice count) (findDirent stopAtHole wanted
      (vol.rootBlocks.take p.1.val ++
        (vol.inodes 0).direct p.1 :: vol.rootBlocks.drop (p.1.val + 1))) (vol, blocks) =
      (vol.rootBlocks.take p.1.val).length + 1 := readCount_findDirent stopAtHole wanted
    (fun b listed => by
      obtain ⟨j, early, rfl⟩ := upTo b listed
      exact root.goodBlock _ (List.mem_ofFn.2 ⟨j, rfl⟩) (filled j early))
    (fun b listed => by
      obtain ⟨j, early, rfl⟩ := upTo b listed
      exact filled j early)
    (fun b listed i => by
      obtain ⟨j, early, rfl⟩ := earlier b listed
      have passed := alone (j, i) early
      rwa [entryAt_present (p := (j, i)) (filled j (Fin.le_of_lt early))] at passed)
    ⟨p.2, by rw [← entryAt_present present]; exact wants⟩
  rw [← rootBlocks_split, List.length_take, Volume.rootBlocks, List.length_ofFn] at reads
  rw [Volume.rootBlocks, reads]
  omega

/-! ## Finding and clearing the entry -/

theorem Sound.readCount_scanName (sound : Sound count vol blocks) {wanted : Dirent → Bool}
    {bytes : List UInt8} (named : nameRef vol blocks p = some bytes)
    (meaning : ∀ entry, validDirent entry = true →
      (wanted entry = true ↔ entry.Live ∧ entry.nameBytes = bytes)) :
    Prog.readCount (plainDevice count) (findDirent false wanted vol.rootBlocks) (vol, blocks) =
      p.1.val + 1 := by
  have live := nameRef_eq_some.1 named
  apply sound.rootDirectory.readCount_scan false wanted (present_of_live live.1)
    ((meaning _ (sound.directory.valid p)).2 live)
  intro q earlier
  rw [Bool.eq_false_iff]
  intro wants
  -- no two entries carry one name
  have too := nameRef_eq_some.2 ((meaning _ (sound.directory.valid q)).1 wants)
  have same := sound.directory.names q p _ too named
  rw [same] at earlier
  exact lt_irrefl _ earlier

/-- The number a lookup returns for an entry. -/
def numberOf (vol : Volume) (blocks : Blocks) (p : DirentSlot) : UInt32 :=
  UInt32.ofNat (entryAt vol blocks p).ino.val

/-- The lookup of a name succeeds where the schedule serves its reads. -/
theorem Sound.lookup_faulty (sound : Sound count vol blocks)
    (named : nameRef vol blocks p = some name.bytes) (schedule : Schedule Errno) :
    (schedule.Serves (p.1.val + 1) 0 ∧
      Prog.exec (faulty (plainDevice count)) (volLookup name) (vol, blocks, schedule) =
        (.ok (numberOf vol blocks p), vol, blocks, schedule.after (p.1.val + 1) 0)) ∨
    (¬schedule.Serves (p.1.val + 1) 0 ∧ ∃ error schedule',
      Prog.exec (faulty (plainDevice count)) (volLookup name) (vol, blocks, schedule) =
        (.error error, vol, blocks, schedule')) := by
  have valid := sound.validName_of_named named
  have finds := sound.rootDirectory.exec_volLookup valid.nonempty valid.short
  have returns : Prog.exec (plainDevice count) (volLookup name) (vol, blocks) =
      (.ok (numberOf vol blocks p), vol, blocks) := by
    cases finds with
    | inl found =>
      obtain ⟨q, names, returns⟩ := found
      obtain rfl : q = p := sound.directory.names q p _ names named
      exact returns
    | inr absent => exact absurd named (absent.1 p)
  have reads : Prog.readCount (plainDevice count) (volLookup name) (vol, blocks) =
      p.1.val + 1 := by
    have scan := sound.readCount_scanName named fun entry valid' =>
      Dirent.lookupMatches_iff valid' valid.short
    unfold volLookup
    rw [if_neg (by have := valid.nonempty; have := valid.short; omega),
      Prog.readCount_bind_ok (Prog.exec_get _ _), Prog.readCount_get, Nat.zero_add,
      Prog.readCount_bind]
    dsimp only
    rw [scan, Nat.add_eq_left]
    split
    next found _ _ => cases found <;> rfl
    · rfl
  have outcome := Prog.exec_faulty_simple (volLookup_simple name) (plainDevice_frozen count)
    returns schedule
  rwa [reads] at outcome

/-- Where a read of `remove_dirent` or its write fails, nothing has changed. -/
theorem Sound.removeDirent_faulty (sound : Sound count vol blocks)
    (named : nameRef vol blocks p = some name.bytes) (schedule : Schedule Errno) :
    (schedule.Serves (p.1.val + 1) 1 ∧
      Prog.exec (faulty (plainDevice count)) (removeDirent name) (vol, blocks, schedule) =
        (.ok (), vol, clearedBlocks vol blocks p, schedule.after (p.1.val + 1) 1)) ∨
    (¬schedule.Serves (p.1.val + 1) 1 ∧ ∃ error schedule',
      Prog.exec (faulty (plainDevice count)) (removeDirent name) (vol, blocks, schedule) =
        (.error error, vol, blocks, schedule')) := by
  have live := (nameRef_eq_some.1 named).1
  have scan := sound.readCount_scanName named fun entry valid =>
    Dirent.removeMatches_iff name.bytes valid
  have outcome := Prog.exec_faulty_simple
    (findDirent_simple false (removeMatches name.bytes) vol.rootBlocks)
    (plainDevice_frozen count) (sound.exec_scanRemove named) schedule
  rw [scan] at outcome
  cases outcome with
  | inl found =>
    obtain ⟨serves, returns⟩ := found
    rw [exec_removeDirent_found live returns]
    cases first : fate schedule.writes 0 with
    | none =>
      left
      have next : fate (schedule.after (p.1.val + 1) 0).writes 0 = none := first
      rw [faulty_writeBlock next (sound.rootDirectory.inVolume (present_of_live live))]
      refine ⟨⟨serves.reads, fun n small => ?_⟩, ?_⟩
      · rw [Nat.lt_one_iff.1 small]
        exact first
      · simp only [Schedule.after, List.drop_zero, List.drop_one, clearedBlocks]
    | some error =>
      right
      have next : fate (schedule.after (p.1.val + 1) 0).writes 0 = some error := first
      rw [faulty_writeBlock_failed next]
      constructor
      · intro serves
        rw [serves.writes 0 Nat.zero_lt_one] at first
        cases first
      · exact ⟨error, _, rfl⟩
  | inr failed =>
    obtain ⟨spoiled, error, schedule', fails⟩ := failed
    right
    constructor
    · intro serves
      apply spoiled
      constructor
      · exact serves.reads
      · intro n impossible
        exact absurd impossible (Nat.not_lt_zero n)
    · refine ⟨error, schedule', ?_⟩
      unfold removeDirent
      rw [Prog.exec_bind_ok (Prog.exec_get _ _), Prog.exec_bind_error fails]

/-! ## The reads of `free_inode` -/

/-- The slots of a block map that point to pointer tables. -/
def tableSlots : List FileSlot := .single :: .root :: (upTo 1024).map .child

/-- How many pointer tables a file has. -/
def pointerTables (inode : Inode) (disk : Blocks) : Nat :=
  tableSlots.countP fun s => decide (fileRef inode disk s ≠ none)

section Count

variable {δ : Type} {device : Device δ UInt32 Sector Errno} {state state' : Volume × δ}

@[simp] theorem readCount_modifyInode (f : Inode → Inode) :
    Prog.readCount device (modifyInode ino f) state = 0 := rfl

theorem readCount_readPointerTable {table : UInt32} {pointers : Pointers}
    (returns : Prog.exec device ((readPointerTable table).elseThrow .eio) state =
      (.ok pointers, state')) :
    Prog.readCount device ((readPointerTable table).elseThrow .eio) state = 1 := by
  rw [Prog.readCount_elseThrow]
  unfold readPointerTable at returns ⊢
  rw [Prog.readCount_bind_ok (Prog.exec_get _ _), Prog.readCount_get, Nat.zero_add]
  by_cases inUse : state.1.allocated table
  · rw [if_neg (not_not_intro inUse), Prog.readCount_bind]
    have one : Prog.readCount device (readBlock table) state = 1 := rfl
    rw [one, Nat.add_eq_left]
    split <;> rfl
  · -- an unused block is refused before it is read
    have fails : Prog.exec device (do
        let vol ← get
        if ¬vol.allocated table then throw .eperm
        else do
          let data ← readBlock table
          return pointersSector.symm data) state = (.error .eperm, state) := by
      rw [Prog.exec_bind_ok (Prog.exec_get _ _), if_pos inUse, Prog.exec_throw]
    rw [Prog.exec_elseThrow_error fails] at returns
    cases returns

theorem readCount_freeChildren (outers : List (Fin 1024)) (roots : Pointers)
    (returns : Prog.exec device (freeChildren outers roots) state = (.ok (), state')) :
    Prog.readCount device (freeChildren outers roots) state =
      outers.countP fun outer => decide (roots outer ≠ invalidBlock) := by
  induction outers generalizing state with
  | nil => rfl
  | cons outer rest ih =>
    rw [freeChildren] at returns ⊢
    by_cases hole : roots outer = invalidBlock
    · rw [if_pos hole] at returns ⊢
      rw [ih returns, List.countP_cons_of_neg (by simp [hole])]
    · rw [if_neg hole] at returns ⊢
      rw [List.countP_cons_of_pos (by simp [hole])]
      cases reads : Prog.exec device ((readPointerTable (roots outer)).elseThrow .eio) state with
      | mk outcome middle =>
        cases outcome with
        | error error =>
          rw [Prog.exec_bind_error reads] at returns
          cases returns
        | ok pointers =>
          rw [Prog.exec_bind_ok reads, Prog.exec_bind_ok (Prog.exec_modify _ _ _)] at returns
          rw [Prog.readCount_bind_ok reads, readCount_readPointerTable reads,
            Prog.readCount_bind_ok (Prog.exec_modify _ _ _), Prog.readCount_modify, ih returns]
          omega

theorem readCount_freeSingle (returns : Prog.exec device (freeSingle ino) state =
      (.ok (), state')) :
    Prog.readCount device (freeSingle ino) state =
      if (state.1.inodes ino).indirectBlock = invalidBlock then 0 else 1 := by
  unfold freeSingle at returns ⊢
  rw [Prog.exec_bind_ok (Prog.exec_get _ _)] at returns
  rw [Prog.readCount_bind_ok (Prog.exec_get _ _), Prog.readCount_get, Nat.zero_add]
  dsimp only at returns ⊢
  by_cases absent : (state.1.inodes ino).indirectBlock = invalidBlock
  · rw [if_pos absent, if_pos absent, Prog.readCount_pure]
  · rw [if_neg absent] at returns ⊢
    rw [if_neg absent]
    cases reads : Prog.exec device
        ((readPointerTable (state.1.inodes ino).indirectBlock).elseThrow .eio) state with
    | mk outcome middle =>
      cases outcome with
      | error error =>
        rw [Prog.exec_bind_error reads] at returns
        cases returns
      | ok pointers =>
        rw [Prog.readCount_bind_ok reads, readCount_readPointerTable reads]
        rfl

end Count

theorem exec_readPointerTable_ok {table : UInt32} {pointers : Pointers} {state : Volume × Blocks}
    (returns : Prog.exec (plainDevice count) ((readPointerTable table).elseThrow .eio)
      (vol, blocks) = (.ok pointers, state)) :
    pointers = pointersSector.symm (blocks table) ∧ state = (vol, blocks) := by
  by_cases inUse : vol.allocated table
  · by_cases inside : table.toNat < count
    · have reads : Prog.exec (plainDevice count) (readPointerTable table) (vol, blocks) =
          (.ok (pointersSector.symm (blocks table)), vol, blocks) := by
        unfold readPointerTable
        rw [Prog.exec_bind_ok (Prog.exec_get _ _), if_neg (not_not_intro inUse),
          Prog.exec_bind_ok (exec_readBlock inside)]
        rfl
      rw [Prog.exec_elseThrow_ok reads] at returns
      cases returns
      exact ⟨rfl, rfl⟩
    · have fails : Prog.exec (plainDevice count) (readPointerTable table) (vol, blocks) =
          (.error .eperm, vol, blocks) := by
        unfold readPointerTable
        rw [Prog.exec_bind_ok (Prog.exec_get _ _), if_neg (not_not_intro inUse),
          Prog.exec_bind, Prog.exec_readAt]
        simp only [plainDevice, if_neg inside]
      rw [Prog.exec_elseThrow_error fails] at returns
      cases returns
  · have fails : Prog.exec (plainDevice count) (readPointerTable table) (vol, blocks) =
        (.error .eperm, vol, blocks) := by
      unfold readPointerTable
      rw [Prog.exec_bind_ok (Prog.exec_get _ _), if_pos inUse, Prog.exec_throw]
    rw [Prog.exec_elseThrow_error fails] at returns
    cases returns

theorem readCount_freeDouble {state : Volume × Blocks}
    (returns : Prog.exec (plainDevice count) (freeDouble ino) (vol, blocks) = (.ok (), state)) :
    Prog.readCount (plainDevice count) (freeDouble ino) (vol, blocks) =
      if (vol.inodes ino).doubleIndirectBlock = invalidBlock then 0
      else 1 + (upTo 1024).countP fun outer =>
        decide (pointersSector.symm (blocks (vol.inodes ino).doubleIndirectBlock) outer ≠
          invalidBlock) := by
  unfold freeDouble at returns ⊢
  rw [Prog.exec_bind_ok (Prog.exec_get _ _)] at returns
  rw [Prog.readCount_bind_ok (Prog.exec_get _ _), Prog.readCount_get, Nat.zero_add]
  dsimp only at returns ⊢
  by_cases absent : (vol.inodes ino).doubleIndirectBlock = invalidBlock
  · rw [if_pos absent, if_pos absent, Prog.readCount_pure]
  · rw [if_neg absent] at returns ⊢
    rw [if_neg absent]
    cases reads : Prog.exec (plainDevice count)
        ((readPointerTable (vol.inodes ino).doubleIndirectBlock).elseThrow .eio)
        (vol, blocks) with
    | mk outcome middle =>
      cases outcome with
      | error error =>
        rw [Prog.exec_bind_error reads] at returns
        cases returns
      | ok roots =>
        obtain ⟨rfl, rfl⟩ := exec_readPointerTable_ok reads
        rw [Prog.exec_bind_ok reads] at returns
        rw [Prog.readCount_bind_ok reads, readCount_readPointerTable reads]
        cases children : Prog.exec (plainDevice count) (freeChildren (upTo 1024)
            (pointersSector.symm (blocks (vol.inodes ino).doubleIndirectBlock)))
            (vol, blocks) with
        | mk outcome last =>
          cases outcome with
          | error error =>
            rw [Prog.exec_bind_error children] at returns
            cases returns
          | ok done =>
            rw [Prog.readCount_bind_ok children, readCount_freeChildren _ _ children,
              Prog.readCount_bind_ok (Prog.exec_modify _ _ _), Prog.readCount_modify,
              readCount_modifyInode, Nat.add_zero]

/-! ## What releasing the blocks leaves alone -/

section Keeps

variable {δ : Type} {device : Device δ UInt32 Sector Errno} {inside : UInt32 → Prop}
  {sound : δ → Prop} {view : δ → Blocks} (storage : Storage device inside sound view)
  {inv : (Fin 64 → Inode) → Prop}

/-- A program keeps an assertion on the inode table. -/
def KeepsInodes (device : Device δ UInt32 Sector Errno) (sound : δ → Prop) (view : δ → Blocks)
    (inv : (Fin 64 → Inode) → Prop) {α : Type} (program : Op α) : Prop :=
  Keeps device sound view (fun vol _ => inv vol.inodes) program fun _ => True

theorem freePointers_inodes (pointers : Pointers) (vol : Volume) :
    (freePointers pointers vol).inodes = vol.inodes := by
  unfold freePointers
  generalize upTo 1024 = indices
  induction indices generalizing vol with
  | nil => rfl
  | cons i rest ih =>
    rw [List.foldl_cons, ih]
    split
    · exact freeBlock_inodes vol _
    · rfl

variable (inv) in
theorem foldl_freeDirectAt_keeps (direct : ∀ inodes d, inv inodes →
      inv (Function.update inodes ino { inodes ino with direct := d }))
    (indices : List (Fin 20)) (vol : Volume) (holds : inv vol.inodes) :
    inv (indices.foldl (freeDirectAt ino) vol).inodes := by
  induction indices generalizing vol with
  | nil => exact holds
  | cons i rest ih =>
    rw [List.foldl_cons]
    apply ih
    unfold freeDirectAt
    dsimp only
    split
    · rw [Volume.setInode_inodes, freeBlock_inodes]
      exact direct vol.inodes _ holds
    · exact holds

include storage

theorem keeps_readTable (table : UInt32) : KeepsInodes device sound view inv
    ((readPointerTable table).elseThrow .eio) :=
  (Keeps.ofPassive storage (readPointerTable_simple table).passive).elseThrow _

variable (inv) in
theorem keeps_freeSingle_inodes (ino : Fin 64) (single : ∀ inodes, inv inodes →
      inv (Function.update inodes ino { inodes ino with indirectBlock := invalidBlock })) :
    KeepsInodes device sound view inv (freeSingle ino) := by
  apply Keeps.get_bind
  intro vol _ _
  dsimp only
  split
  · exact Keeps.pure trivial
  · apply (keeps_readTable storage _).bind
    intro pointers _
    have frees : KeepsInodes device sound view inv (modify fun vol' : Volume =>
        freeBlock (freePointers pointers vol') (vol.inodes ino).indirectBlock) := by
      apply Keeps.modify _ trivial
      intro vol' _ holds
      rw [freeBlock_inodes, freePointers_inodes]
      exact holds
    apply frees.bind
    intro _ _
    apply Keeps.modify _ trivial
    intro vol' _ holds
    exact single vol'.inodes holds

theorem keeps_freeChildren_inodes (outers : List (Fin 1024)) (roots : Pointers) :
    KeepsInodes device sound view inv (freeChildren outers roots) := by
  induction outers with
  | nil => exact Keeps.pure trivial
  | cons outer rest ih =>
    rw [freeChildren]
    split
    · exact ih
    · apply (keeps_readTable storage _).bind
      intro pointers _
      have frees : KeepsInodes device sound view inv (modify fun vol : Volume =>
          freeBlock (freePointers pointers vol) (roots outer)) := by
        apply Keeps.modify _ trivial
        intro vol _ holds
        rw [freeBlock_inodes, freePointers_inodes]
        exact holds
      exact frees.bind fun _ _ => ih

theorem keeps_freeDouble_inodes (double : ∀ inodes, inv inodes →
      inv (Function.update inodes ino { inodes ino with doubleIndirectBlock := invalidBlock })) :
    KeepsInodes device sound view inv (freeDouble ino) := by
  apply Keeps.get_bind
  intro vol _ _
  dsimp only
  split
  · exact Keeps.pure trivial
  · apply (keeps_readTable storage _).bind
    intro roots _
    apply (keeps_freeChildren_inodes storage (upTo 1024) roots).bind
    intro _ _
    have frees : KeepsInodes device sound view inv (modify fun vol' : Volume =>
        freeBlock vol' (vol.inodes ino).doubleIndirectBlock) := by
      apply Keeps.modify _ trivial
      intro vol' _ holds
      rw [freeBlock_inodes]
      exact holds
    apply frees.bind
    intro _ _
    apply Keeps.modify _ trivial
    intro vol' _ holds
    exact double vol'.inodes holds

variable (inv) in
theorem keeps_releaseInode (ino : Fin 64) (direct : ∀ inodes d, inv inodes →
      inv (Function.update inodes ino { inodes ino with direct := d }))
    (single : ∀ inodes, inv inodes →
      inv (Function.update inodes ino { inodes ino with indirectBlock := invalidBlock }))
    (double : ∀ inodes, inv inodes →
      inv (Function.update inodes ino { inodes ino with doubleIndirectBlock := invalidBlock })) :
    KeepsInodes device sound view inv (releaseInode ino) := by
  have loop : KeepsInodes device sound view inv
      (modify fun vol : Volume => (upTo 20).foldl (freeDirectAt ino) vol) :=
    Keeps.modify (fun vol _ holds => foldl_freeDirectAt_keeps inv direct _ vol holds) trivial
  apply loop.bind
  intro _ _
  exact (keeps_freeSingle_inodes storage inv ino single).bind fun _ _ =>
    keeps_freeDouble_inodes storage double

end Keeps

/-! ## `free_inode` under a schedule -/

open Prog.ReadOnly in
theorem readPointerTable_readOnly (table : UInt32) :
    Prog.ReadOnly ((readPointerTable table).elseThrow .eio) :=
  elseThrow (readPointerTable_simple table).passive.readOnly _

open Prog.Strict in
theorem readPointerTable_strict (table : UInt32) :
    Prog.Strict ((readPointerTable table).elseThrow .eio) :=
  elseThrow (readPointerTable_simple table).strict _

open Prog.ReadOnly in
theorem freeChildren_readOnly (outers : List (Fin 1024)) (roots : Pointers) :
    Prog.ReadOnly (freeChildren outers roots) := by
  induction outers with
  | nil => exact ofPure ()
  | cons outer rest ih =>
    rw [freeChildren]
    split
    · exact ih
    · exact bind (readPointerTable_readOnly _) fun _ => bind (ofModify _) fun _ => ih

open Prog.Strict in
theorem freeChildren_strict (outers : List (Fin 1024)) (roots : Pointers) :
    Prog.Strict (freeChildren outers roots) := by
  induction outers with
  | nil => exact ofPure ()
  | cons outer rest ih =>
    rw [freeChildren]
    split
    · exact ih
    · exact bind (readPointerTable_strict _) fun _ => bind (ofModify _) fun _ => ih

open Prog.ReadOnly in
theorem freeSingle_readOnly (ino : Fin 64) : Prog.ReadOnly (freeSingle ino) := by
  apply bind ofGet
  intro vol
  dsimp only
  split
  · exact ofPure ()
  · exact bind (readPointerTable_readOnly _) fun _ => bind (ofModify _) fun _ => ofModify _

open Prog.ReadOnly in
/-- `free_inode` writes no block: what it changes is in memory. -/
theorem freeInode_readOnly (ino : Fin 64) : Prog.ReadOnly (freeInode ino) := by
  have double : Prog.ReadOnly (freeDouble ino) := by
    apply bind ofGet
    intro vol
    dsimp only
    split
    · exact ofPure ()
    · exact bind (readPointerTable_readOnly _) fun _ => bind (freeChildren_readOnly _ _) fun _ =>
        bind (ofModify _) fun _ => ofModify _
  exact bind (ofModify _) fun _ => bind (freeSingle_readOnly ino) fun _ => bind double fun _ =>
    bind (ofModify _) fun _ => ofModify _

open Prog.Strict in
theorem freeInode_strict (ino : Fin 64) : Prog.Strict (freeInode ino) := by
  have single : Prog.Strict (freeSingle ino) := by
    apply get_bind
    intro vol
    dsimp only
    split
    · exact ofPure ()
    · exact bind (readPointerTable_strict _) fun _ => bind (ofModify _) fun _ => ofModify _
  have double : Prog.Strict (freeDouble ino) := by
    apply get_bind
    intro vol
    dsimp only
    split
    · exact ofPure ()
    · exact bind (readPointerTable_strict _) fun _ => bind (freeChildren_strict _ _) fun _ =>
        bind (ofModify _) fun _ => ofModify _
  exact bind (ofModify _) fun _ => bind single fun _ => bind double fun _ =>
    bind (ofModify _) fun _ => ofModify _

theorem exec_plain_readOnly (count : Nat) {α : Type} {program : Op α}
    (readOnly : Prog.ReadOnly program) (vol : Volume) (blocks : Blocks) :
    (Prog.exec (plainDevice count) program (vol, blocks)).2.2 = blocks :=
  Prog.exec_readOnly (plainDevice count) (fun before after => after = before) (fun _ => rfl)
    (fun first second => second.trans first) (plainDevice_frozen count) readOnly (vol, blocks)

theorem pointerTables_eq (inode : Inode) (disk : Blocks) : pointerTables inode disk =
    (if inode.indirectBlock = invalidBlock then 0 else 1) +
      if inode.doubleIndirectBlock = invalidBlock then 0
      else 1 + (upTo 1024).countP fun outer =>
        decide (pointersSector.symm (disk inode.doubleIndirectBlock) outer ≠ invalidBlock) := by
  have first : (if decide (fileRef inode disk .single ≠ none) = true then 1 else 0) =
      if inode.indirectBlock = invalidBlock then 0 else 1 := by
    simp only [fileRef, pointer_eq_none, decide_eq_true_eq, ne_eq, ite_not]
  have children : ((upTo 1024).map FileSlot.child).countP
      (fun s => decide (fileRef inode disk s ≠ none)) =
      (upTo 1024).countP fun outer => decide (inode.rootTable disk outer ≠ invalidBlock) := by
    rw [List.countP_map]
    congr 1
    funext outer
    simp only [Function.comp_apply, fileRef, ne_eq, pointer_eq_none]
  unfold pointerTables tableSlots
  rw [List.countP_cons, List.countP_cons, first, children]
  by_cases absent : inode.doubleIndirectBlock = invalidBlock
  · have none : (upTo 1024).countP
        (fun outer => decide (inode.rootTable disk outer ≠ invalidBlock)) = 0 := by
      rw [List.countP_eq_zero]
      intro outer _
      simp only [Inode.rootTable, absent, tableAt_invalid, emptyPointers, ne_eq, not_true,
        decide_false, Bool.false_eq_true, not_false_eq_true]
    rw [none, if_pos absent]
    simp only [fileRef, absent, pointer_invalid, ne_eq, not_true, decide_false,
      Bool.false_eq_true, if_false, Nat.add_zero, Nat.zero_add]
  · rw [if_neg absent]
    simp only [fileRef, ne_eq, pointer_eq_none, absent, not_false_eq_true, decide_true, if_true,
      Inode.rootTable, tableAt_of_ne absent]
    omega

/-- Where `free_inode` returns it has read every pointer table of the file. -/
theorem readCount_freeInode {state : Volume × Blocks}
    (returns : Prog.exec (plainDevice count) (freeInode ino) (vol, blocks) = (.ok (), state)) :
    Prog.readCount (plainDevice count) (freeInode ino) (vol, blocks) =
      pointerTables (vol.inodes ino) blocks := by
  have kept := foldl_freeDirectAt_keeps (fun inodes =>
      (inodes ino).indirectBlock = (vol.inodes ino).indirectBlock ∧
      (inodes ino).doubleIndirectBlock = (vol.inodes ino).doubleIndirectBlock)
    (fun inodes d holds => by rw [Function.update_self]; exact holds) (upTo 20) vol ⟨rfl, rfl⟩
  unfold freeInode at returns ⊢
  rw [Prog.exec_bind_ok (Prog.exec_modify _ _ _)] at returns
  rw [Prog.readCount_bind_ok (Prog.exec_modify _ _ _), Prog.readCount_modify, Nat.zero_add,
    pointerTables_eq]
  dsimp only at returns ⊢
  generalize (upTo 20).foldl (freeDirectAt ino) vol = vol₁ at returns kept ⊢
  have inner := keeps_freeSingle_inodes (plainDevice_storage count)
    (fun inodes => (inodes ino).doubleIndirectBlock = (vol.inodes ino).doubleIndirectBlock) ino
    (fun inodes holds => by rw [Function.update_self]; exact holds) vol₁ blocks trivial kept.2
  have single : Prog.ReadOnly (freeSingle ino) := freeSingle_readOnly ino
  have same := exec_plain_readOnly count single vol₁ blocks
  cases first : Prog.exec (plainDevice count) (freeSingle ino) (vol₁, blocks) with
  | mk outcome middle =>
    rw [first] at inner same
    obtain ⟨vol₂, blocks₂⟩ := middle
    obtain rfl : blocks₂ = blocks := same
    cases outcome with
    | error error =>
      rw [Prog.exec_bind_error first] at returns
      cases returns
    | ok done =>
      rw [Prog.exec_bind_ok first] at returns
      rw [Prog.readCount_bind_ok first, readCount_freeSingle first, kept.1]
      have root : (vol₂.inodes ino).doubleIndirectBlock = (vol.inodes ino).doubleIndirectBlock :=
        inner.2.1
      cases second : Prog.exec (plainDevice count) (freeDouble ino) (vol₂, blocks₂) with
      | mk outcome last =>
        cases outcome with
        | error error =>
          rw [Prog.exec_bind_error second] at returns
          cases returns
        | ok done =>
          rw [Prog.readCount_bind_ok second, readCount_freeDouble second, root]
          rfl

/-- Where a read of `free_inode` fails the inode keeps its type, and no block has changed. -/
theorem freeInode_faulty (nonzero : ino ≠ 0) {state : Volume × Blocks}
    (returns : Prog.exec (plainDevice count) (freeInode ino) (vol, blocks) = (.ok (), state))
    (schedule : Schedule Errno) :
    (schedule.Serves (pointerTables (vol.inodes ino) blocks) 0 ∧
      Prog.exec (faulty (plainDevice count)) (freeInode ino) (vol, blocks, schedule) =
        (.ok (), state.1, state.2, schedule.after (pointerTables (vol.inodes ino) blocks) 0)) ∨
    (¬schedule.Serves (pointerTables (vol.inodes ino) blocks) 0 ∧ ∃ error vol' schedule',
      Prog.exec (faulty (plainDevice count)) (freeInode ino) (vol, blocks, schedule) =
        (.error error, vol', blocks, schedule') ∧
      (vol'.inodes ino).type = (vol.inodes ino).type ∧ vol'.inodes 0 = vol.inodes 0) := by
  have reads := readCount_freeInode returns
  have silent : Prog.writeCount (plainDevice count) (freeInode ino) (vol, blocks) = 0 :=
    Prog.writeCount_readOnly (freeInode_readOnly ino)
  by_cases serves : schedule.Serves (pointerTables (vol.inodes ino) blocks) 0
  · left
    have run : Prog.exec (faulty (plainDevice count)) (freeInode ino) (vol, blocks, schedule) = _ :=
      Prog.exec_faulty_served (by rw [silent, reads]; exact serves)
    rw [silent, reads, returns] at run
    exact ⟨serves, run⟩
  · right
    obtain ⟨error, fails⟩ := Prog.exec_faulty_failed (freeInode_strict ino)
      (by rw [silent, reads]; exact serves)
    have same : (Prog.exec (faulty (plainDevice count)) (freeInode ino)
        (vol, blocks, schedule)).2.2.1 = blocks :=
      Prog.exec_faulty_readOnly (freeInode_readOnly ino) (plainDevice_frozen count)
    -- the type is cleared after the last read
    have kept := keeps_releaseInode (faulty_storage (plainDevice_storage count))
      (fun inodes => (inodes ino).type = (vol.inodes ino).type ∧ inodes 0 = vol.inodes 0) ino
      (fun inodes d holds => by
        rw [Function.update_self, Function.update_of_ne (Ne.symm nonzero)]
        exact holds)
      (fun inodes holds => by
        rw [Function.update_self, Function.update_of_ne (Ne.symm nonzero)]
        exact holds)
      (fun inodes holds => by
        rw [Function.update_self, Function.update_of_ne (Ne.symm nonzero)]
        exact holds) vol (blocks, schedule) trivial ⟨rfl, rfl⟩
    rw [exec_freeInode_parts] at fails same ⊢
    cases released : Prog.exec (faulty (plainDevice count)) (releaseInode ino)
        (vol, blocks, schedule) with
    | mk outcome after =>
      rw [released] at kept
      cases outcome with
      | ok done =>
        rw [Prog.exec_bind_ok released] at fails
        cases fails
      | error failure =>
        rw [Prog.exec_bind_error released] at same ⊢
        obtain ⟨vol', blocks', schedule'⟩ := after
        obtain rfl : blocks' = blocks := same
        exact ⟨serves, failure, vol', schedule', rfl, kept.2.1⟩

/-! ## Lookups look at the root inode and its blocks alone -/

theorem exec_findInBlock_same (count : Nat) (wanted : Dirent → Bool) (block : UInt32)
    (blocks : Blocks) : ∃ result, ∀ vol,
      Prog.exec (plainDevice count) (findInBlock wanted block) (vol, blocks) =
        (result, vol, blocks) := by
  by_cases inside : block.toNat < count
  · cases scan : scanEntries wanted (direntsSector.symm (blocks block)) (upTo 16) with
    | ok found =>
      refine ⟨.ok (found.map fun index => ⟨block, direntsSector.symm (blocks block), index⟩),
        fun vol => ?_⟩
      unfold findInBlock
      rw [Prog.exec_bind_ok (Prog.exec_elseThrow_ok (exec_readBlock inside) _)]
      dsimp only
      rw [scan]
      rfl
    | error error =>
      refine ⟨.error error, fun vol => ?_⟩
      unfold findInBlock
      rw [Prog.exec_bind_ok (Prog.exec_elseThrow_ok (exec_readBlock inside) _)]
      dsimp only
      rw [scan]
      rfl
  · refine ⟨.error .eio, fun vol => ?_⟩
    have fails : Prog.exec (plainDevice count) (readBlock block) (vol, blocks) =
        (.error .eperm, vol, blocks) := by
      rw [Prog.exec_readAt]
      simp only [plainDevice, if_neg inside]
    unfold findInBlock
    rw [Prog.exec_bind_error (Prog.exec_elseThrow_error fails _)]

theorem exec_findDirent_same (count : Nat) (stopAtHole : Bool) (wanted : Dirent → Bool)
    (list : List UInt32) (blocks : Blocks) : ∃ result, ∀ vol,
      Prog.exec (plainDevice count) (findDirent stopAtHole wanted list) (vol, blocks) =
        (result, vol, blocks) := by
  induction list with
  | nil => exact ⟨.ok none, fun vol => rfl⟩
  | cons block rest ih =>
    obtain ⟨later, reads⟩ := ih
    by_cases hole : block = invalidBlock
    · cases stopAtHole with
      | true =>
        refine ⟨.ok none, fun vol => ?_⟩
        rw [findDirent, if_pos hole, if_pos rfl]
        rfl
      | false =>
        refine ⟨later, fun vol => ?_⟩
        rw [findDirent, if_pos hole, if_neg Bool.false_ne_true]
        exact reads vol
    · obtain ⟨here, scans⟩ := exec_findInBlock_same count wanted block blocks
      cases here with
      | error error =>
        refine ⟨.error error, fun vol => ?_⟩
        rw [findDirent, if_neg hole, Prog.exec_bind_error (scans vol)]
      | ok found =>
        cases found with
        | none =>
          refine ⟨later, fun vol => ?_⟩
          rw [findDirent, if_neg hole, Prog.exec_bind_ok (scans vol)]
          exact reads vol
        | some position =>
          refine ⟨.ok (some position), fun vol => ?_⟩
          rw [findDirent, if_neg hole, Prog.exec_bind_ok (scans vol)]
          rfl

theorem lookupResult_congr (root : vol'.inodes 0 = vol.inodes 0) (blocks : Blocks)
    (name : CString) : lookupResult count vol' blocks name = lookupResult count vol blocks name := by
  have same : vol'.rootBlocks = vol.rootBlocks := by
    unfold Volume.rootBlocks
    rw [root]
  obtain ⟨result, scans⟩ := exec_findDirent_same count false (lookupMatches name.bytes)
    vol.rootBlocks blocks
  unfold lookupResult volLookup
  by_cases badLength : name.bytes.length = 0 ∨ 251 ≤ name.bytes.length
  · rw [if_pos badLength]
    rfl
  · rw [if_neg badLength, Prog.exec_bind_ok (Prog.exec_get _ _),
      Prog.exec_bind_ok (Prog.exec_get _ _), same]
    cases result with
    | error error =>
      rw [Prog.exec_bind_error (scans vol'), Prog.exec_bind_error (scans vol)]
    | ok found =>
      rw [Prog.exec_bind_ok (scans vol'), Prog.exec_bind_ok (scans vol)]
      cases found <;> rfl

/-! ## All or nothing -/

/-- The file of an entry is there as before. -/
structure FileIntact (count : Nat) (vol vol' : Volume) (blocks blocks' : Blocks) (name : CString)
    (p : DirentSlot) : Prop where
  lookup : lookupResult count vol' blocks' name = .ok (numberOf vol blocks p)
  inode : vol'.inodes (entryAt vol blocks p).ino = vol.inodes (entryAt vol blocks p).ino
  refs : fileRef (vol'.inodes (entryAt vol blocks p).ino) blocks' =
    fileRef (vol.inodes (entryAt vol blocks p).ino) blocks
  bytes : byteAt (vol'.inodes (entryAt vol blocks p).ino) blocks' =
    byteAt (vol.inodes (entryAt vol blocks p).ino) blocks
  allocated : ∀ s b, fileRef (vol'.inodes (entryAt vol blocks p).ino) blocks' s = some b →
    vol'.allocated b

/-- Nothing is left of the file of an entry. -/
structure FileGone (vol vol' : Volume) (blocks blocks' : Blocks) (name : CString)
    (p : DirentSlot) : Prop where
  name : ∀ q, nameRef vol' blocks' q ≠ some name.bytes
  entry : ∀ q, inodeRef vol' blocks' q ≠ some (entryAt vol blocks p).ino
  inode : (vol'.inodes (entryAt vol blocks p).ino).type = itypeFree
  blocks : ∀ s b, fileRef (vol.inodes (entryAt vol blocks p).ino) blocks s = some b →
    ¬vol'.allocated b

/-- Where an unlink returned an error, it removed the whole file or nothing of it. -/
def UnlinkAtomic (count : Nat) (vol : Volume) (blocks : Blocks) (name : CString) (p : DirentSlot)
    (after : Except Errno Unit × (Volume × Blocks × Schedule Errno)) : Prop :=
  ∀ error, after.1 = .error error →
    FileIntact count vol after.2.1 blocks after.2.2.1 name p ∨
      FileGone vol after.2.1 blocks after.2.2.1 name p

/-- The schedule lets the unlink clear the entry, and then fails one of the reads of the file's
pointer tables. -/
structure UnlinkOrphans (vol : Volume) (blocks : Blocks) (p : DirentSlot)
    (schedule : Schedule Errno) : Prop where
  scans : ∀ n < 2 * (p.1.val + 1), fate schedule.reads n = none
  entry : fate schedule.writes 0 = none
  table : ∃ n < pointerTables (vol.inodes (entryAt vol blocks p).ino) blocks,
    fate schedule.reads (2 * (p.1.val + 1) + n) ≠ none

theorem Sound.intact (sound : Sound count vol blocks) (named : nameRef vol blocks p = some name.bytes) :
    FileIntact count vol vol blocks blocks name p := by
  have valid := sound.validName_of_named named
  refine ⟨?_, rfl, rfl, rfl, fun s b points => sound.accounted.allocated_of_fileRef points⟩
  unfold lookupResult
  cases sound.rootDirectory.exec_volLookup valid.nonempty valid.short with
  | inl found =>
    obtain ⟨q, names, returns⟩ := found
    obtain rfl : q = p := sound.directory.names q p _ names named
    rw [returns]
    rfl
  | inr absent => exact absurd named (absent.1 p)

/-- After the file is removed, whatever becomes of the flush, nothing is left of it. -/
theorem Removed.gone {vol₁ : Volume} {blocks₁ : Blocks}
    (removed : Removed count vol vol₁ blocks blocks₁ p) (sound : Sound count vol blocks)
    (named : nameRef vol blocks p = some name.bytes) (alike : Alike vol₁ vol' blocks₁ blocks') :
    FileGone vol vol' blocks blocks' name p := by
  have entries := fun q => alike.entryAt_eq removed.accounted q
  constructor
  case name =>
    intro q carries
    obtain ⟨live, same⟩ := nameRef_eq_some.1 carries
    rw [entries, removed.entries] at live same
    by_cases here : q = p
    · rw [if_pos here] at live
      exact Dirent.cleared_not_live _ live
    · rw [if_neg here] at live same
      exact here (sound.directory.names q p _ (nameRef_eq_some.2 ⟨live, same⟩) named)
  case entry =>
    intro q points
    obtain ⟨live, same⟩ := inodeRef_eq_some.1 points
    rw [entries, removed.entries] at live same
    by_cases here : q = p
    · rw [if_pos here] at live
      exact Dirent.cleared_not_live _ live
    · rw [if_neg here] at live same
      exact here (sound.directory.inodes q p _ (inodeRef_eq_some.2 ⟨live, same⟩)
        (inodeRef_eq_some.2 ⟨removed.live, rfl⟩))
  case inode =>
    rw [alike.inodes]
    exact removed.free
  case blocks =>
    intro s b points inUse
    rw [alike.allocated_iff] at inUse
    cases (removed.accounted.ledger.used_iff b).1 inUse with
    | inl held => cases held
    | inr referred =>
      obtain ⟨⟨j, t⟩, refers⟩ := referred
      unfold ref at refers
      by_cases here : j = (entryAt vol blocks p).ino
      · -- the inode of the file maps nothing any more
        dsimp only at refers
        rw [here, removed.blank.fileRef_eq_none] at refers
        cases refers
      · dsimp only at refers
        rw [removed.refs j here] at refers
        exact FileStep.apart sound.accounted here refers s points

/-- Once the entry is cleared no lookup finds the name. -/
theorem Sound.lookup_cleared (sound : Sound count vol blocks)
    (named : nameRef vol blocks p = some name.bytes) :
    lookupResult count vol (clearedBlocks vol blocks p) name = .error .enoent := by
  have live := (nameRef_eq_some.1 named).1
  have valid := sound.validName_of_named named
  obtain ⟨_, root, entries⟩ := sound.clearEntry live
  unfold lookupResult
  cases root.exec_volLookup valid.nonempty valid.short with
  | inl found =>
    obtain ⟨q, names, _⟩ := found
    obtain ⟨still, same⟩ := nameRef_eq_some.1 names
    rw [entries] at still same
    by_cases here : q = p
    · rw [if_pos here] at still
      exact absurd still (Dirent.cleared_not_live _)
    · rw [if_neg here] at still same
      exact absurd (sound.directory.names q p _ (nameRef_eq_some.2 ⟨still, same⟩) named) here
  | inr absent => rw [absent.2]

/-- The requests of an unlink in the terms of its parts. -/
theorem unlinkOrphans_iff : UnlinkOrphans vol blocks p schedule ↔
    schedule.Serves (p.1.val + 1) 0 ∧
    (schedule.after (p.1.val + 1) 0).Serves (p.1.val + 1) 1 ∧
    ¬((schedule.after (p.1.val + 1) 0).after (p.1.val + 1) 1).Serves
      (pointerTables (vol.inodes (entryAt vol blocks p).ino) blocks) 0 := by
  have twice : p.1.val + 1 + (p.1.val + 1) = 2 * (p.1.val + 1) := by omega
  rw [← and_assoc, ← Schedule.serves_add, Schedule.after_after, twice, Nat.zero_add]
  constructor
  · intro orphans
    refine ⟨⟨orphans.scans, fun n small => ?_⟩, fun serves => ?_⟩
    · rw [Nat.lt_one_iff.1 small]
      exact orphans.entry
    · obtain ⟨n, small, fails⟩ := orphans.table
      have served := serves.reads n small
      rw [Schedule.after, fate_drop] at served
      exact fails served
  · intro parts
    obtain ⟨first, spoiled⟩ := parts
    refine ⟨first.reads, first.writes 0 Nat.zero_lt_one, ?_⟩
    by_contra all
    push Not at all
    apply spoiled
    refine ⟨fun n small => ?_, fun n impossible => absurd impossible (Nat.not_lt_zero n)⟩
    rw [Schedule.after, fate_drop]
    exact all n small

/-- How an unlink of an existing name ends under a schedule. -/
inductive UnlinkRun (count : Nat) (vol : Volume) (blocks : Blocks) (p : DirentSlot)
    (schedule : Schedule Errno) : Except Errno Unit × (Volume × Blocks × Schedule Errno) → Prop where
  | untouched (error : Errno) (schedule' : Schedule Errno) :
    ¬UnlinkOrphans vol blocks p schedule →
    UnlinkRun count vol blocks p schedule (.error error, vol, blocks, schedule')
  | orphaned (error : Errno) (vol' : Volume) (schedule' : Schedule Errno) :
    UnlinkOrphans vol blocks p schedule →
    (vol'.inodes (entryAt vol blocks p).ino).type = itypeFile → vol'.inodes 0 = vol.inodes 0 →
    UnlinkRun count vol blocks p schedule
      (.error error, vol', clearedBlocks vol blocks p, schedule')
  | removed (result : Except Errno Unit) (vol₁ vol' : Volume) (blocks₁ blocks' : Blocks)
    (schedule' : Schedule Errno) : ¬UnlinkOrphans vol blocks p schedule →
    Removed count vol vol₁ blocks blocks₁ p → Alike vol₁ vol' blocks₁ blocks' →
    UnlinkRun count vol blocks p schedule (result, vol', blocks', schedule')

theorem Sound.volUnlink_faulty (sound : Sound count vol blocks)
    (named : nameRef vol blocks p = some name.bytes) (crypto : Crypto) (mount : Mount)
    (schedule : Schedule Errno) :
    UnlinkRun count vol blocks p schedule (Prog.exec (faulty (plainDevice count))
      (volUnlink crypto mount name) (vol, blocks, schedule)) := by
  have live := (nameRef_eq_some.1 named).1
  have file := sound.file_of_live live
  have nonzero := sound.tree.ne_root file
  have number : Fin.ofNat 64 (numberOf vol blocks p).toNat = (entryAt vol blocks p).ino :=
    ofNat_ino _
  have orphans : UnlinkOrphans vol blocks p schedule ↔ _ := unlinkOrphans_iff
  unfold volUnlink
  cases sound.lookup_faulty named schedule with
  | inr failed =>
    obtain ⟨spoiled, error, schedule', fails⟩ := failed
    rw [Prog.exec_bind_error (Prog.exec_elseThrow_error fails _)]
    exact .untouched _ _ fun bad => spoiled (orphans.1 bad).1
  | inl finds =>
    obtain ⟨found, returns⟩ := finds
    rw [Prog.exec_bind_ok (Prog.exec_elseThrow_ok returns _), number]
    generalize schedule.after (p.1.val + 1) 0 = schedule₁ at orphans ⊢
    cases sound.removeDirent_faulty named schedule₁ with
    | inr failed =>
      obtain ⟨spoiled, error, schedule', fails⟩ := failed
      rw [Prog.exec_bind_error fails]
      exact .untouched _ _ fun bad => spoiled (orphans.1 bad).2.1
    | inl clears =>
      obtain ⟨cleared, removes⟩ := clears
      rw [Prog.exec_bind_ok removes]
      generalize schedule₁.after (p.1.val + 1) 1 = schedule₂ at orphans ⊢
      obtain ⟨step, _, _⟩ := sound.clearEntry live
      obtain ⟨vol₁, blocks₁, removed, releases⟩ := sound.exec_freeInode live
      -- clearing the entry changed no block map
      have tables : pointerTables (vol.inodes (entryAt vol blocks p).ino)
          (clearedBlocks vol blocks p) =
          pointerTables (vol.inodes (entryAt vol blocks p).ino) blocks := by
        unfold pointerTables
        rw [step.others_ref sound.accounted nonzero]
      have outcome := freeInode_faulty nonzero releases schedule₂
      rw [tables] at outcome
      cases outcome with
      | inl frees =>
        obtain ⟨served, frees⟩ := frees
        rw [Prog.exec_bind_ok (Prog.exec_elseThrow_ok frees _)]
        generalize schedule₂.after
          (pointerTables (vol.inodes (entryAt vol blocks p).ino) blocks) 0 = schedule₃
        have alike := exec_flushOrEio_alike (faulty_storage (plainDevice_storage count)) crypto
          mount removed.accounted.layout (blocks₁, schedule₃) trivial
        exact .removed _ vol₁ _ blocks₁ _ _ (fun bad => (orphans.1 bad).2.2 served) removed alike
      | inr failed =>
        obtain ⟨spoiled, error, vol', schedule', fails, type, root⟩ := failed
        rw [Prog.exec_bind_error (Prog.exec_elseThrow_error fails _)]
        exact .orphaned _ vol' _ (orphans.2 ⟨found, cleared, spoiled⟩) (type.trans file) root

/-- An orphaned inode is neither an intact file nor a file that is gone. -/
theorem Sound.orphaned_not_atomic (sound : Sound count vol blocks)
    (named : nameRef vol blocks p = some name.bytes) {error : Errno}
    (type : (vol'.inodes (entryAt vol blocks p).ino).type = itypeFile)
    (root : vol'.inodes 0 = vol.inodes 0) (schedule : Schedule Errno) :
    ¬UnlinkAtomic count vol blocks name p
      (.error error, vol', clearedBlocks vol blocks p, schedule) := by
  intro atomic
  cases atomic error rfl with
  | inl intact =>
    have lookup := intact.lookup
    dsimp only at lookup
    rw [lookupResult_congr root, sound.lookup_cleared named] at lookup
    cases lookup
  | inr gone =>
    have free := gone.inode
    dsimp only at free
    rw [type] at free
    exact absurd free (by decide)

/-- An unlink that returns an error has removed the whole file or nothing of it in exactly the
runs in which no read of a pointer table fails after the entry is cleared. -/
theorem unlink_all_or_nothing (sound : Sound count vol blocks)
    (named : nameRef vol blocks p = some name.bytes) (crypto : Crypto) (mount : Mount)
    (schedule : Schedule Errno) :
    UnlinkAtomic count vol blocks name p (Prog.exec (faulty (plainDevice count))
        (volUnlink crypto mount name) (vol, blocks, schedule)) ↔
      ¬UnlinkOrphans vol blocks p schedule := by
  have run := sound.volUnlink_faulty named crypto mount schedule
  generalize Prog.exec (faulty (plainDevice count)) (volUnlink crypto mount name)
    (vol, blocks, schedule) = after at run ⊢
  cases run with
  | untouched error schedule' clean =>
    exact iff_of_true (fun _ _ => .inl (sound.intact named)) clean
  | orphaned error vol' schedule' orphans type root =>
    exact iff_of_false (sound.orphaned_not_atomic named type root schedule')
      (not_not_intro orphans)
  | removed result vol₁ vol' blocks₁ blocks' schedule' clean removed alike =>
    exact iff_of_true (fun _ _ => .inr (removed.gone sound named alike)) clean

/-! ## A small container -/

theorem nameRef_newEntry (ino : Fin 64) (valid : ValidName name.bytes)
    (entry : entryAt vol blocks p = newEntry ino name) :
    nameRef vol blocks p = some name.bytes ∧ (entryAt vol blocks p).ino = ino := by
  constructor
  · rw [nameRef_eq_some, entry]
    exact ⟨Dirent.live_of_small, Dirent.nameBytes_withName emptyDirent _ valid.short⟩
  · rw [entry]
    exact Dirent.withName_ino emptyDirent ino name.bytes

/-- A small container with an empty file. -/
theorem smallContainer_listed :
    ∃ vol blocks p, Sound (outerMount zeroRandomness 4).blockCount vol blocks ∧
      nameRef vol blocks p = some nameA.bytes ∧
      fileView (vol.inodes (entryAt vol blocks p).ino) blocks = blankView ∧
      vol.sb.freeBlocks.toNat = 507 := by
  obtain ⟨disk, vol, _, reached, asNew⟩ := smallContainer_reached
  obtain ⟨ino, _, _, _, blank, free, p, entries⟩ :=
    asNew.new_file transparentCrypto_sectors reached 0 nameA_valid
  have sound := ((reached.called (.create 0 nameA)).shows transparentCrypto_sectors).sound
  obtain ⟨named, same⟩ := nameRef_newEntry ino nameA_valid
    ((entries p).trans (if_pos rfl))
  refine ⟨_, _, p, sound, named, ?_, ?_⟩
  · rw [same]
    exact blank
  · rw [free]
    exact asNew.free_small

/-- The unlink of an empty file is all or nothing, here where its first read fails. -/
theorem unlink_all_or_nothing_small :
    ∃ vol blocks p, UnlinkAtomic (outerMount zeroRandomness 4).blockCount vol blocks nameA p
      (Prog.exec (faulty (plainDevice (outerMount zeroRandomness 4).blockCount))
        (volUnlink transparentCrypto (outerMount zeroRandomness 4) nameA)
        (vol, blocks, ⟨[some .eperm], []⟩)) := by
  obtain ⟨vol, blocks, p, sound, named, _⟩ := smallContainer_listed
  refine ⟨vol, blocks, p, (unlink_all_or_nothing sound named transparentCrypto
    (outerMount zeroRandomness 4) ⟨[some .eperm], []⟩).2 fun orphans => ?_⟩
  have served := orphans.scans 0 (by omega)
  cases served

/-- A byte far into an empty file needs a pointer table. -/
theorem Sound.write_far (sound : Sound count vol blocks) (crypto : Crypto) (mount : Mount)
    {number : UInt32} (small : number < 64)
    (file : (vol.inodes (inodeOf number)).type = itypeFile)
    (blank : fileView (vol.inodes (inodeOf number)) blocks = blankView)
    (free : 2 ≤ vol.sb.freeBlocks.toNat) :
    let after := call crypto mount (plainDevice count) (.write 0 number [1] 81920) (vol, blocks)
    Sound count after.2.1 after.2.2 ∧ SameDirectory vol after.2.1 blocks after.2.2 ∧
      0 < pointerTables (after.2.1.inodes (inodeOf number)) after.2.2 := by
  intro after
  have outcome : CallOutcome count crypto mount vol blocks (.write 0 number [1] 81920) after :=
    sound.call_outcome _
  have ends : Sound count after.2.1 after.2.2 := (sound.after_call crypto mount _).1
  have size : (vol.inodes (inodeOf number)).size = 0 := (of_fileView blank).1
  have offset : (81920 : UInt64).toNat = 81920 := by decide
  have touched : touchedBlocks (81920 : UInt64).toNat [(1 : UInt8)].length = [20] := by
    rw [offset]
    rfl
  have path : (place 20).path = [.single, .entry 0] := by
    have placed : place 20 = .entry 0 := by decide
    rw [placed]
    rfl
  generalize after = result at outcome ends ⊢
  cases outcome with
  | write written =>
    have same := written.sameDirectory sound
    refine ⟨ends, same, ?_⟩
    cases written with
    | rejected error rejected =>
      rw [writeError_eq_none small file (by decide) (by decide)] at rejected
      cases rejected
    | full m vol₁ blocks₁ _ stops stored full =>
      -- two blocks are enough
      rw [touched] at stops full
      have none : m = 0 := Nat.lt_one_iff.1 stops
      subst none
      have need : (neededSlots (vol.inodes (inodeOf number)) blocks [20]).card ≤ 2 := by
        rw [card_neededSlots_one, missing, path]
        exact List.countP_le_length
      change _ < (neededSlots (vol.inodes (inodeOf number)) blocks [20]).card at full
      omega
    | written vol₁ blocks₁ blocks' accepted stored shows =>
      have view := view_setMeta_flushed stored.step.accounted shows
      have present : fileRef (vol₁.inodes (inodeOf number)) blocks₁ .single ≠ none := by
        intro hole
        rw [touched] at stored
        have unused := ((stored.refs .single).1 hole).2 20 List.mem_cons_self
        rw [path] at unused
        exact unused List.mem_cons_self
      dsimp only
      unfold pointerTables
      rw [(of_fileView view).2.1, List.countP_pos_iff]
      exact ⟨.single, List.mem_cons_self, decide_eq_true present⟩

/-- A file with a pointer table: the entry is cleared, the read of the table fails, and the inode
stays behind. -/
theorem failed_unlink_leaves_orphan :
    ∃ vol blocks p, Sound (outerMount zeroRandomness 4).blockCount vol blocks ∧
      nameRef vol blocks p = some nameA.bytes ∧
      ¬UnlinkAtomic (outerMount zeroRandomness 4).blockCount vol blocks nameA p
        (Prog.exec (faulty (plainDevice (outerMount zeroRandomness 4).blockCount))
          (volUnlink transparentCrypto (outerMount zeroRandomness 4) nameA)
          (vol, blocks, ⟨failAt (2 * (p.1.val + 1)) .eperm, []⟩)) := by
  obtain ⟨vol, blocks, p, sound, named, blank, free⟩ := smallContainer_listed
  have live := (nameRef_eq_some.1 named).1
  have same : inodeOf (numberOf vol blocks p) = (entryAt vol blocks p).ino := ofNat_ino _
  have small : numberOf vol blocks p < 64 := ofNat_ino_lt (entryAt vol blocks p).ino
  obtain ⟨ends, directory, tables⟩ := sound.write_far transparentCrypto
    (outerMount zeroRandomness 4) small (by rw [same]; exact sound.file_of_live live)
    (by rw [same]; exact blank) (by omega)
  rw [same] at tables
  generalize call transparentCrypto (outerMount zeroRandomness 4)
    (plainDevice (outerMount zeroRandomness 4).blockCount)
    (.write 0 (numberOf vol blocks p) [1] 81920) (vol, blocks) = after at ends directory tables
  obtain ⟨_, vol', blocks'⟩ := after
  have entry : entryAt vol' blocks' p = entryAt vol blocks p := directory.entries p
  have named' : nameRef vol' blocks' p = some nameA.bytes := by
    rw [nameRef_eq_some, entry]
    exact nameRef_eq_some.1 named
  refine ⟨vol', blocks', p, ends, named', ?_⟩
  have orphans : UnlinkOrphans vol' blocks' p
      ⟨failAt (2 * (p.1.val + 1)) .eperm, []⟩ := by
    constructor
    case scans =>
      intro n early
      exact fate_failAt_before early Errno.eperm
    case entry => rfl
    case table =>
      refine ⟨0, ?_, ?_⟩
      · rw [entry]
        exact tables
      · intro served
        have fails := fate_failAt (2 * (p.1.val + 1)) Errno.eperm
        cases fails.symm.trans served
  have run := ends.volUnlink_faulty named' transparentCrypto (outerMount zeroRandomness 4)
    ⟨failAt (2 * (p.1.val + 1)) .eperm, []⟩
  generalize Prog.exec (faulty (plainDevice (outerMount zeroRandomness 4).blockCount))
    (volUnlink transparentCrypto (outerMount zeroRandomness 4) nameA)
    (vol', blocks', ⟨failAt (2 * (p.1.val + 1)) .eperm, []⟩) = result at run ⊢
  cases run with
  | untouched error schedule' clean => exact absurd orphans clean
  | orphaned error vol'' schedule' _ type root =>
    exact ends.orphaned_not_atomic named' type root schedule'
  | removed result vol₁ vol'' blocks₁ blocks'' schedule' clean _ _ => exact absurd orphans clean

end DenyFS
