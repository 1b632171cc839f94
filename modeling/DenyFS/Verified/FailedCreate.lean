import DenyFS.Library.Faulty
import DenyFS.Verified.DirectoryGrowth

/-! # Failed creates

`denyfs_vol_create` undoes what it did to the inode table where `add_dirent` fails.  It does not
undo what `add_dirent` did to the root directory before it failed, and nothing at all where the
closing flush fails.  Writes fail here as a schedule says; these two are the only ways in which a
create that returns an error leaves something behind. -/

namespace DenyFS

open Packed BlockProgram Ownership

variable {count : Nat} {vol vol' : Volume} {blocks blocks' : Blocks} {crypto : Crypto}
  {mount : Mount} {name : CString} {writes : List (Option Errno)}

/-! ## What a failed create must leave alone -/

/-- The root inode, the bitmap, the counters, the types of the inodes and what lookups and
listings find are as before. -/
structure CreateUndone (count : Nat) (vol vol' : Volume) (blocks blocks' : Blocks) : Prop where
  root : vol'.inodes 0 = vol.inodes 0
  bitmap : vol'.bitmap = vol.bitmap
  freeBlocks : vol'.sb.freeBlocks = vol.sb.freeBlocks
  freeInodes : vol'.sb.freeInodes = vol.sb.freeInodes
  types : ∀ ino, (vol'.inodes ino).type = (vol.inodes ino).type
  lookups : ∀ name, lookupResult count vol' blocks' name = lookupResult count vol blocks name
  listing : readdirResult count vol' blocks' = readdirResult count vol blocks

theorem CreateUndone.refl (count : Nat) (vol : Volume) (blocks : Blocks) :
    CreateUndone count vol vol blocks blocks :=
  ⟨rfl, rfl, rfl, rfl, fun _ => rfl, fun _ => rfl, rfl⟩

/-- Where a create returned an error, it left everything alone. -/
def CreateAtomic (count : Nat) (vol : Volume) (blocks : Blocks)
    (after : Except Errno UInt32 × (Volume × Blocks × Schedule Errno)) : Prop :=
  ∀ error, after.1 = .error error → CreateUndone count vol after.2.1 blocks after.2.2.1

/-- A failed `add_dirent` that did not touch the root directory is undone. -/
theorem Sound.returned (sound : Sound count vol blocks) {ino : Fin 64} (nonzero : ino ≠ 0)
    (free : (vol.inodes ino).type = itypeFree) (now : UInt64) :
    CreateUndone count vol ((vol.claimInode ino now).returnInode ino) blocks blocks := by
  rw [returnInode_claimInode (sound.tree.blank ino free) free]
  have root : (vol.setInode ino { vol.inodes ino with mtime := now }).inodes 0 = vol.inodes 0 :=
    Function.update_of_ne (Ne.symm nonzero) ..
  obtain ⟨lookups, listing⟩ := sound.same_answers (sound.setMtime nonzero free now) fun p => by
    unfold entryAt
    rw [root]
  refine ⟨root, rfl, rfl, rfl, fun j => ?_, lookups, listing⟩
  by_cases here : j = ino
  · subst here
    rw [Volume.setInode_inodes, Function.update_self]
  · rw [Volume.setInode_inodes, Function.update_of_ne here]

/-! ## The writes that matter -/

/-- The create gets as far as `add_dirent`. -/
structure EntersFile (vol : Volume) (blocks : Blocks) (name : CString) : Prop where
  valid : ValidName name.bytes
  absent : ∀ p, nameRef vol blocks p ≠ some name.bytes
  unused : ∃ ino, ino ≠ 0 ∧ (vol.inodes ino).type = itypeFree

/-- No slot of the directory is unused. -/
def DirectoryFull (vol : Volume) (blocks : Blocks) : Prop :=
  ∀ q : DirentSlot, (vol.inodes 0).direct q.1 ≠ invalidBlock → (entryAt vol blocks q).Live

/-- The directory can be given another block. -/
def Volume.Extendable (vol : Volume) : Prop :=
  (vol.inodes 0).blockCount.toNat < 20 ∧ 0 < vol.sb.freeBlocks.toNat

/-- The failures a create does not undo: of its first write, where that is to a new directory
block, and of a write of the flush that follows a first write that succeeded. -/
inductive CreateSpoils (vol : Volume) (blocks : Blocks) (writes : List (Option Errno)) : Prop where
  | newBlock : DirectoryFull vol blocks → vol.Extendable → fate writes 0 ≠ none →
    CreateSpoils vol blocks writes
  | flushOld (n : Nat) : ¬DirectoryFull vol blocks → fate writes 0 = none →
    n < vol.flushWrites.length → fate writes (n + 1) ≠ none → CreateSpoils vol blocks writes
  | flushNew (n : Nat) : DirectoryFull vol blocks → vol.Extendable → fate writes 0 = none →
    n < (allocBlock vol).2.flushWrites.length → fate writes (n + 1) ≠ none →
    CreateSpoils vol blocks writes

section Entering

variable (crypto mount) in
/-- Once the entry is stored, only the flush is left, and a failed flush undoes nothing. -/
theorem flush_atomic {vol₁ : Volume} {blocks₁ : Blocks} {schedule : Schedule Errno}
    (layout : vol₁.sb.Layout count) (claimed : vol₁.sb.freeInodes = vol.sb.freeInodes - 1)
    (number : UInt32) :
    CreateAtomic count vol blocks (Prog.exec (faulty (plainDevice count)) (do
        flushOrEio crypto mount
        return number) (vol₁, blocks₁, schedule)) ↔
      ∀ n < vol₁.flushWrites.length, fate schedule.writes n = none := by
  have succeeds := exec_volFlush_faulty crypto mount layout blocks₁ schedule
  have counter := exec_volFlush_freeInodes crypto mount (faulty (plainDevice count)) vol₁
    (blocks₁, schedule)
  rw [← succeeds]
  unfold flushOrEio
  cases run : Prog.exec (faulty (plainDevice count)) (volFlush crypto mount)
      (vol₁, blocks₁, schedule) with
  | mk result state =>
    rw [run] at counter
    cases result with
    | ok value =>
      rw [Prog.exec_bind_ok (Prog.exec_elseThrow_ok run _)]
      simp [CreateAtomic]
    | error failure =>
      rw [Prog.exec_bind_error (Prog.exec_elseThrow_error run _)]
      simp only [reduceCtorEq, iff_false]
      intro atomic
      -- the inode it claimed stays claimed
      have undone := (atomic .eio rfl).freeInodes
      dsimp only at counter undone
      rw [counter, claimed] at undone
      have differs : vol.sb.freeInodes - 1 ≠ vol.sb.freeInodes := by
        intro same
        have wraps := congrArg UInt32.toNat same
        rw [UInt32.toNat_sub, UInt32.toNat_one] at wraps
        have := vol.sb.freeInodes.toNat_lt
        omega
      exact differs undone

variable (sound : Sound count vol blocks) {ino : Fin 64} (nonzero : ino ≠ 0)
  (free : (vol.inodes ino).type = itypeFree) (valid : ValidName name.bytes) (now : UInt64)

/-- How many blocks a flush writes. -/
theorem flushWrites_length {vol vol' : Volume} (dirty : vol'.bitmapDirty = vol.bitmapDirty)
    (bitmap : vol'.sb.bitmapBlocks = vol.sb.bitmapBlocks)
    (inodes : vol'.sb.inodeBlocks = vol.sb.inodeBlocks) :
    vol'.flushWrites.length = vol.flushWrites.length := by
  simp [Volume.flushWrites, Volume.bitmapWrites, Volume.inodeWrites, dirty, bitmap, inodes]

/-- `alloc_block` does not look at the inode table. -/
theorem allocBlock_claimInode (vol : Volume) (ino : Fin 64) (now : UInt64) :
    allocBlock (vol.claimInode ino now) =
      ((allocBlock vol).1, (allocBlock vol).2.claimInode ino now) := by
  have same : (List.range' (vol.claimInode ino now).sb.dataStart.toNat
      ((vol.claimInode ino now).sb.totalBlocks.toNat -
        (vol.claimInode ino now).sb.dataStart.toNat)).find?
          (fun i => !(vol.claimInode ino now).bit i) =
      (List.range' vol.sb.dataStart.toNat
        (vol.sb.totalBlocks.toNat - vol.sb.dataStart.toNat)).find? fun i => !vol.bit i := rfl
  unfold allocBlock
  rw [same]
  cases (List.range' vol.sb.dataStart.toNat
      (vol.sb.totalBlocks.toNat - vol.sb.dataStart.toNat)).find? fun i => !vol.bit i <;> rfl

include sound nonzero free valid in
/-- From the claimed inode on, a create is all or nothing unless one of its writes spoils it. -/
theorem enterFile_atomic :
    CreateAtomic count vol blocks (Prog.exec (faulty (plainDevice count))
        (enterFile crypto mount name ino) (vol.claimInode ino now, blocks, ⟨[], writes⟩)) ↔
      ¬CreateSpoils vol blocks writes := by
  obtain ⟨root, entries⟩ := claimInode_root now sound free nonzero
  have rootInode : (vol.claimInode ino now).inodes 0 = vol.inodes 0 :=
    claimInode_other now (Ne.symm nonzero)
  have layout := root.accounted.layout
  have alike : ReadsAs (faulty (plainDevice count)) (blocks, ⟨[], writes⟩) (plainDevice count)
      blocks := faulty_readsAs (fun _ => rfl) writes
  have undone := sound.returned nonzero free now
  unfold enterFile
  cases root.addDirent_runs alike valid with
  | inl found =>
    obtain ⟨p, present, dead, runs⟩ := found
    have notFull : ¬DirectoryFull vol blocks := by
      intro full
      rw [entries] at dead
      rw [rootInode] at present
      exact dead (full p present)
    have served := root.inVolume present
    cases first : fate writes 0 with
    | none =>
      have request := runs.trans (faulty_writeBlock first served _)
      have many : (vol.claimInode ino now).flushWrites.length = vol.flushWrites.length :=
        flushWrites_length rfl rfl rfl
      rw [Prog.exec_bind_ok (Prog.exec_rollback_ok request _), flush_atomic crypto mount layout rfl,
        many]
      simp only [fate_tail]
      constructor
      · intro all spoils
        cases spoils with
        | newBlock full _ _ => exact notFull full
        | flushOld n _ _ small fails => exact fails (all n small)
        | flushNew n full _ _ _ _ => exact notFull full
      · intro clean n small
        by_contra fails
        exact clean (.flushOld n notFull first small fails)
    | some error =>
      have request := runs.trans (faulty_writeBlock_failed first _)
      rw [Prog.exec_bind_error (Prog.exec_rollback_error request _)]
      apply iff_of_true
      · intro _ _
        exact undone
      · intro spoils
        cases spoils with
        | newBlock full _ _ => exact notFull full
        | flushOld n _ served _ _ => rw [first] at served; cases served
        | flushNew n full _ _ _ _ => exact notFull full
  | inr taken =>
    obtain ⟨taken, either⟩ := taken
    have full : DirectoryFull vol blocks := by
      intro q present
      rw [← entries]
      exact taken q (by rw [rootInode]; exact present)
    cases either with
    | inl noRoom =>
      obtain ⟨why, runs⟩ := noRoom
      rw [Prog.exec_bind_error (Prog.exec_rollback_error runs _)]
      rw [rootInode] at why
      have closed : ¬vol.Extendable := by
        intro room
        cases why with
        | inl many => exact absurd room.1 (by omega)
        | inr none => exact absurd room.2 (by rw [show vol.sb.freeBlocks.toNat = 0 from none]; simp)
      apply iff_of_true
      · intro _ _
        exact undone
      · intro spoils
        cases spoils with
        | newBlock _ room _ => exact closed room
        | flushOld n notFull _ _ _ => exact notFull full
        | flushNew n _ room _ _ _ => exact closed room
    | inr new =>
      obtain ⟨block, room, takes, inData, clear, runs⟩ := new
      obtain ⟨added, spent⟩ :=
        root.extend (Dirent.withName_valid emptyDirent nonzero valid) room inData clear
      have roomy : vol.Extendable := by
        constructor
        · rw [rootInode] at room
          exact room
        · have before : (vol.claimInode ino now).sb.freeBlocks = vol.sb.freeBlocks := rfl
          rw [before] at spent
          omega
      cases first : fate writes 0 with
      | none =>
        have request := runs.trans
          (faulty_writeBlock first (root.accounted.inVolume_of_data inData) _)
        have many : ((vol.claimInode ino now).growRoot block).flushWrites.length =
            (allocBlock vol).2.flushWrites.length := by
          rw [allocBlock_claimInode] at takes
          have taken : (allocBlock vol).2.claimInode ino now =
              (vol.claimInode ino now).takeBlock block.toNat := congrArg Prod.snd takes
          calc ((vol.claimInode ino now).growRoot block).flushWrites.length
              = ((vol.claimInode ino now).takeBlock block.toNat).flushWrites.length :=
                flushWrites_length rfl rfl rfl
            _ = ((allocBlock vol).2.claimInode ino now).flushWrites.length := by rw [taken]
            _ = (allocBlock vol).2.flushWrites.length := flushWrites_length rfl rfl rfl
        rw [Prog.exec_bind_ok (Prog.exec_rollback_ok request _),
          flush_atomic crypto mount added.step.accounted.layout rfl, many]
        simp only [fate_tail]
        constructor
        · intro all spoils
          cases spoils with
          | newBlock _ _ fails => exact fails first
          | flushOld n notFull _ _ _ => exact notFull full
          | flushNew n _ _ _ small fails => exact fails (all n small)
        · intro clean n small
          by_contra fails
          exact clean (.flushNew n full roomy first small fails)
      | some error =>
        have request := runs.trans (faulty_writeBlock_failed first _)
        rw [Prog.exec_bind_error (Prog.exec_rollback_error request _)]
        have spoils : CreateSpoils vol blocks writes :=
          .newBlock full roomy (by rw [first]; simp)
        apply iff_of_false _ (not_not_intro spoils)
        intro atomic
        -- the root directory keeps the block that was never written
        have same := congrArg Inode.blockCount (atomic error rfl).root
        have kept : (((vol.claimInode ino now).growRoot block).returnInode ino).inodes 0 =
            (vol.inodes 0).addDirect block := by
          unfold Volume.returnInode
          simp [nonzero.symm, Volume.growRoot, rootInode]
        rw [kept] at same
        have wraps := congrArg UInt32.toNat same
        unfold Inode.addDirect at wraps
        rw [UInt32.toNat_add, UInt32.toNat_one] at wraps
        have := roomy.1
        omega

end Entering

/-! ## A full directory block -/

/-- A name of so many letters. -/
def letters (n : Nat) : CString := ⟨List.replicate n 65, by simp [List.mem_replicate]⟩

theorem letters_valid {n : Nat} (positive : 0 < n) (short : n < 251) :
    ValidName (letters n).bytes := by
  have onlyA : ∀ byte ∈ (letters n).bytes, byte = 65 := fun byte listed =>
    (List.mem_replicate.1 listed).2
  have size : (letters n).bytes.length = n := List.length_replicate
  refine ⟨by omega, by omega, (letters n).noNul, fun slashes => ?_, fun same => ?_, fun same => ?_⟩
  · exact absurd (onlyA slash slashes) (by decide)
  · exact absurd (onlyA dot (by rw [same]; simp)) (by decide)
  · exact absurd (onlyA dot (by rw [same]; simp)) (by decide)

/-- A directory of one block fills up: as long as a slot is unused, another file can be
created, with a name longer than those there are. -/
theorem Sound.fills (sound : Sound count vol blocks) (crypto : Crypto) (mount : Mount)
    (one : (vol.inodes 0).blockCount.toNat = 1)
    (short : ∀ p name, nameRef vol blocks p = some name → name.length ≤ vol.liveFiles)
    {unused : Nat} (room : vol.liveFiles + unused = 16) :
    ∃ vol' blocks', Sound count vol' blocks' ∧ DirectoryFull vol' blocks' ∧
      (vol'.inodes 0).blockCount.toNat = 1 ∧ vol'.sb.freeBlocks = vol.sb.freeBlocks ∧
      vol'.liveFiles = 16 ∧ ∀ p name, nameRef vol' blocks' p = some name → name.length ≤ 16 := by
  induction unused generalizing vol blocks with
  | zero =>
    refine ⟨vol, blocks, sound, fun q present => ?_, one, rfl, room, ?_⟩
    · by_contra dead
      have fewer := sound.liveFiles_lt present dead
      omega
    · intro p name named
      have := short p name named
      omega
  | succ unused ih =>
    have notFull : ¬DirectoryFull vol blocks := by
      intro full
      have all := sound.liveFiles_full full
      omega
    have outcome := sound.exec_volCreate crypto mount 0 (letters (vol.liveFiles + 1))
    generalize Prog.exec (plainDevice count) (volCreate crypto mount 0 (letters (vol.liveFiles + 1)))
      (vol, blocks) = result at outcome
    have after := outcome.sound sound
    have grows := outcome.rootGrows sound
    cases outcome with
    | badName bad => exact absurd (letters_valid (by omega) (by omega)) bad
    | taken p _ named =>
      have small := short p _ named
      have size : (letters (vol.liveFiles + 1)).bytes.length = vol.liveFiles + 1 :=
        List.length_replicate
      omega
    | noInode _ _ all =>
      have := sound.tree.liveFiles_all all
      omega
    | noRoom ino _ _ _ _ full _ => exact absurd full notFull
    | created ino p vol₁ blocks₁ blocks' valid absent nonzero free added how shows =>
      have more : (vol₁.flushed crypto mount).liveFiles = vol.liveFiles + 1 :=
        Volume.liveFiles_add free (added.types nonzero)
      have same : vol₁ = vol.claimInode ino 0 := how.resolve_right fun grown => notFull grown.1
      have root : ((vol₁.flushed crypto mount).inodes 0).blockCount.toNat = 1 := by
        cases grows with
        | inl kept => rw [kept, one]
        | inr grown =>
          have many := grown.2
          dsimp only at many
          omega
      have free' : (vol₁.flushed crypto mount).sb.freeBlocks = vol.sb.freeBlocks := by
        rw [same]
        rfl
      have flushed := flush_alike crypto mount added.step.accounted.layout shows
      have before := (claimInode_root 0 sound free nonzero).2
      have short' : ∀ q name, nameRef (vol₁.flushed crypto mount) blocks' q = some name →
          name.length ≤ (vol₁.flushed crypto mount).liveFiles := by
        intro q name named
        rw [more]
        rw [nameRef, flushed.entryAt_eq added.step.accounted, added.entries, before] at named
        by_cases here : q = p
        · rw [if_pos here, if_pos (by exact Dirent.live_of_small)] at named
          have bytes := Dirent.nameBytes_withName emptyDirent (UInt32.ofNat ino.val) valid.short
          have size : (letters (vol.liveFiles + 1)).bytes.length = vol.liveFiles + 1 :=
            List.length_replicate
          rw [← Option.some.inj named, newEntry, bytes]
          omega
        · rw [if_neg here] at named
          have := short q name named
          omega
      obtain ⟨vol', blocks'', filled⟩ := ih after root short' (by dsimp only; omega)
      rw [free'] at filled
      exact ⟨vol', blocks'', filled⟩

/-! ## Every create -/

/-- A create that returns an error leaves the root inode, the bitmap, the counters, the types of
the inodes and the answers of lookups and listings as they were, in exactly the runs in which it
is refused before it enters the file or no write spoils it: whatever writes the schedule lets
fail, every failure but that of a new directory block's write and that of the closing flush is
undone. -/
theorem create_all_or_nothing (sound : Sound count vol blocks) (crypto : Crypto) (mount : Mount)
    (now : UInt64) (name : CString) (writes : List (Option Errno)) :
    CreateAtomic count vol blocks (Prog.exec (faulty (plainDevice count))
        (volCreate crypto mount now name) (vol, blocks, ⟨[], writes⟩)) ↔
      (EntersFile vol blocks name → ¬CreateSpoils vol blocks writes) := by
  have alike : ReadsAs (faulty (plainDevice count)) (blocks, ⟨[], writes⟩) (plainDevice count)
      blocks := faulty_readsAs (fun _ => rfl) writes
  have refused : ∀ error, CreateAtomic count vol blocks (.error error, vol, blocks, ⟨[], writes⟩) :=
    fun _ _ _ => .refl count vol blocks
  by_cases valid : ValidName name.bytes
  case neg =>
    rw [exec_volCreate_badName _ crypto mount now valid]
    exact iff_of_true (refused .einval) fun enters => absurd enters.valid valid
  cases sound.volCreate_runs alike crypto mount now valid with
  | inl found =>
    obtain ⟨p, named, runs⟩ := found
    rw [runs]
    exact iff_of_true (refused .eexist) fun enters => absurd named (enters.absent p)
  | inr absent =>
    obtain ⟨absent, either⟩ := absent
    cases either with
    | inl full =>
      rw [full.2]
      apply iff_of_true (refused .enospc)
      intro enters
      obtain ⟨ino, nonzero, free⟩ := enters.unused
      rw [full.1 ino nonzero] at free
      exact absurd free (by decide)
    | inr claims =>
      obtain ⟨ino, nonzero, free, runs⟩ := claims
      rw [runs, enterFile_atomic sound nonzero free valid now]
      constructor
      · intro clean _
        exact clean
      · intro clean
        exact clean ⟨valid, absent, ino, nonzero, free⟩

/-- On a new small container the first create is undone where its first write fails. -/
theorem create_all_or_nothing_small :
    ∃ count vol blocks, CreateAtomic count vol blocks (Prog.exec (faulty (plainDevice count))
      (volCreate transparentCrypto (outerMount zeroRandomness 4) 0 nameA)
      (vol, blocks, ⟨[], [some .eperm]⟩)) := by
  obtain ⟨disk, vol, _, reached, asNew⟩ := smallContainer_reached
  have sound := (reached.shows transparentCrypto_sectors).sound
  refine ⟨_, _, _, (create_all_or_nothing sound transparentCrypto (outerMount zeroRandomness 4) 0
    nameA [some .eperm]).2 fun _ spoils => ?_⟩
  have first : (vol.inodes 0).direct 0 ≠ invalidBlock :=
    (sound.tree.rootDirect 0).2 sound.tree.rootCount.1
  have notFull : ¬DirectoryFull vol
      ((outerMount zeroRandomness 4).blocks transparentCrypto disk.container) :=
    fun full => asNew.dead transparentCrypto_sectors reached (0, 0) (full (0, 0) first)
  cases spoils with
  | newBlock full _ _ => exact notFull full
  | flushOld n _ served _ _ => cases served
  | flushNew n full _ _ _ _ => exact notFull full

/-- With sixteen files the directory needs a second block for the next one; where the write of
that block fails, it has the block all the same. -/
theorem failed_create_keeps_block :
    ∃ count vol blocks, Sound count vol blocks ∧ vol.liveFiles = 16 ∧
      ¬CreateAtomic count vol blocks (Prog.exec (faulty (plainDevice count))
        (volCreate transparentCrypto (outerMount zeroRandomness 4) 0 (letters 17))
        (vol, blocks, ⟨[], [some .eperm]⟩)) := by
  have positive : 0 < (4 : UInt64).toNat := by decide
  have small : (4 : UInt64).toNat ≤ 1024 := by decide
  obtain ⟨disk, vol₀, _, fresh, asNew⟩ := smallContainer_fresh positive small
  have start := (fresh.reached.shows transparentCrypto_sectors).sound
  have dead := asNew.dead transparentCrypto_sectors fresh.reached
  have none : vol₀.liveFiles = 0 := by
    rw [← start.card_liveSlots, Finset.card_eq_zero, Finset.eq_empty_iff_forall_notMem]
    intro p live
    exact dead p (mem_liveSlots.1 live)
  obtain ⟨_, _, _, placed, formats, same⟩ := fresh.formats
  obtain ⟨_, _, _, opened⟩ := fresh.opens
  have tracked := (FormattedReached.formatted placed formats same.symm opened).tracked
    transparentCrypto_sectors
  have one : (vol₀.inodes 0).blockCount.toNat = 1 := by
    rw [tracked.filled.blockCount, none]
    rfl
  obtain ⟨vol, blocks, sound, full, one', free, files, short⟩ :=
    start.fills transparentCrypto (outerMount zeroRandomness 4) one
      (fun p name named => absurd (nameRef_eq_some.1 named).1 (dead p))
      (by rw [none] : vol₀.liveFiles + 16 = 16)
  have valid : ValidName (letters 17).bytes := letters_valid (by decide) (by decide)
  have size : (letters 17).bytes.length = 17 := List.length_replicate
  refine ⟨_, vol, blocks, sound, files, ?_⟩
  have alike : ReadsAs (faulty (plainDevice (outerMount zeroRandomness 4).blockCount))
      (blocks, ⟨[], [some .eperm]⟩) (plainDevice _) blocks := faulty_readsAs (fun _ => rfl) _
  cases sound.volCreate_runs alike transparentCrypto (outerMount zeroRandomness 4) 0 valid with
  | inl found =>
    obtain ⟨p, named, _⟩ := found
    have := short p _ named
    omega
  | inr absent =>
    cases absent.2 with
    | inl all =>
      have := sound.tree.liveFiles_all all.1
      omega
    | inr claims =>
      obtain ⟨ino, nonzero, unused, runs⟩ := claims
      rw [runs, enterFile_atomic sound nonzero unused valid 0, not_not]
      have room : vol.Extendable := by
        constructor
        · omega
        · rw [free, asNew.free_small]
          decide
      exact .newBlock full room (by simp)

end DenyFS
