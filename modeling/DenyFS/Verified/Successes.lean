import DenyFS.Verified.BlockMapLaw
import DenyFS.Verified.FailedUnlink
import DenyFS.Verified.Stores

/-! # What succeeds can be trusted

Block I/O may fail at any time, and with a protected range it does.  No operation goes on after a
block request that failed as if nothing had happened: where it returns, all its requests were
served.  So whatever failed before and after, the answers that are no errors are those of a store
of named files, as long as every update succeeded. -/

namespace DenyFS

open Packed BlockProgram SparseFile Refinement

variable {crypto : Crypto} {mount : Mount} {vol : Volume} {disk : Disk}

/-! ## Lookups -/

section Lookup

open Prog.FailsWith

theorem findInBlock_failsWith (wanted : Dirent → Bool) (block : UInt32) :
    Prog.FailsWith (· = .eio) (findInBlock wanted block) := by
  apply Prog.FailsWith.bind
  · exact elseThrow (.ofReadAt block) rfl
  · intro data
    dsimp only
    split
    · exact ofThrow _
    · exact ofPure _

theorem findDirent_failsWith (stopAtHole : Bool) (wanted : Dirent → Bool) (blocks : List UInt32) :
    Prog.FailsWith (· = .eio) (findDirent stopAtHole wanted blocks) := by
  induction blocks with
  | nil => exact ofPure _
  | cons block rest ih =>
    rw [findDirent]
    split
    · split
      · exact ofPure _
      · exact ih
    · apply bind (findInBlock_failsWith wanted block)
      intro position
      split
      · exact ofPure _
      · exact ih

/-- A lookup whose I/O fails says so: it is not taken for one that found nothing. -/
theorem volLookup_failsWith (name : CString) : Prog.FailsWith (· = .eio) (volLookup name) := by
  unfold volLookup
  split
  · exact ofThrow _
  · apply bind ofGet
    intro vol
    apply bind (findDirent_failsWith _ _ _)
    intro found
    split
    · exact ofPure _
    · exact ofThrow _

end Lookup

/-! ## Operations fail where their I/O fails -/

section Strict

open Prog.Strict

theorem truncateChildren_strict (ino : Fin 64) (newBlockCount : Nat) (outers : List (Fin 1024))
    (roots : Pointers) (remaining : Nat) :
    Prog.Strict (truncateChildren ino newBlockCount outers roots remaining) := by
  induction outers generalizing roots remaining with
  | nil => exact ofPure _
  | cons outer rest ih =>
    rw [truncateChildren]
    split
    · exact ih _ _
    · apply bind (readPointerTable_strict _)
      intro pointers
      apply bind (ofModifyGet _)
      intro pruned
      dsimp only
      split
      · exact bind (ofModify _) fun _ => ih _ _
      · exact bind (elseThrow (ofWriteAt _ _) _) fun _ => ih _ _

theorem truncateSingle_strict (ino : Fin 64) (newBlockCount : Nat) :
    Prog.Strict (truncateSingle ino newBlockCount) := by
  apply get_bind
  intro vol
  dsimp only
  split
  · exact ofPure ()
  · apply bind (readPointerTable_strict _)
    intro pointers
    apply bind (ofModifyGet _)
    intro pruned
    split
    · exact bind (ofModify _) fun _ => ofModify _
    · exact elseThrow (ofWriteAt _ _) _

theorem truncateDouble_strict (ino : Fin 64) (newBlockCount : Nat) :
    Prog.Strict (truncateDouble ino newBlockCount) := by
  apply get_bind
  intro vol
  dsimp only
  split
  · exact ofPure ()
  · apply bind (readPointerTable_strict _)
    intro roots
    apply bind (truncateChildren_strict _ _ _ _ _)
    intro pruned
    split
    · exact bind (ofModify _) fun _ => ofModify _
    · exact elseThrow (ofWriteAt _ _) _

theorem truncateFileBlocks_strict (ino : Fin 64) (newBlockCount : Nat) :
    Prog.Strict (truncateFileBlocks ino newBlockCount) :=
  bind (ofModify _) fun _ => bind (truncateSingle_strict _ _) fun _ => truncateDouble_strict _ _

theorem flushBitmap_strict (sectors : List Nat) : Prog.Strict (flushBitmap sectors) := by
  induction sectors with
  | nil => exact ofPure ()
  | cons i rest ih =>
    apply get_bind
    intro vol
    split
    · exact bind (elseThrow (ofWriteAt _ _) _) fun _ => ih
    · exact ih

theorem flushInodes_strict (sectors : List Nat) : Prog.Strict (flushInodes sectors) := by
  induction sectors with
  | nil => exact ofPure ()
  | cons i rest ih => exact get_bind fun vol => bind (elseThrow (ofWriteAt _ _) _) fun _ => ih

theorem volFlush_strict (crypto : Crypto) (mount : Mount) : Prog.Strict (volFlush crypto mount) := by
  apply bind (ofModify _)
  intro _
  apply get_bind
  intro vol
  apply bind (elseThrow (ofWriteAt _ _) _)
  intro _
  exact bind (flushBitmap_strict _) fun _ => bind (flushInodes_strict _) fun _ => ofModify _

theorem flushOrEio_strict (crypto : Crypto) (mount : Mount) :
    Prog.Strict (flushOrEio crypto mount) := elseThrow (volFlush_strict crypto mount) _

theorem addDirent_strict (name : CString) (ino : UInt32) : Prog.Strict (addDirent name ino) := by
  unfold addDirent
  split
  · exact ofThrow _
  · apply get_bind
    intro vol
    apply bind (findDirent_simple _ _ _).strict
    intro found
    split
    · exact ofWriteAt _ _
    · split
      · exact ofThrow _
      · apply bind (ofModifyGet _)
        intro block
        split
        · exact ofThrow _
        · exact bind (modifyInode_strict _ _) fun _ => ofWriteAt _ _

theorem removeDirent_strict (name : CString) : Prog.Strict (removeDirent name) := by
  apply get_bind
  intro vol
  apply bind (findDirent_simple _ _ _).strict
  intro found
  split
  · exact ofWriteAt _ _
  · exact ofThrow _

theorem volCreate_strict (crypto : Crypto) (mount : Mount) (now : UInt64) (name : CString) :
    Prog.Strict (volCreate crypto mount now name) := by
  unfold volCreate
  split
  · exact ofThrow _
  · apply (volLookup_failsWith name).attempt_bind
    · intro outcome
      split
      · exact ofThrow _
      · apply bind (ofModifyGet _)
        intro ino
        split
        · exact ofThrow _
        · apply bind (modifyInode_strict _ _)
          intro _
          apply bind (rollback (addDirent_strict _ _) _)
          intro _
          exact bind (flushOrEio_strict crypto mount) fun _ => ofPure _
      · exact ofThrow _
    · rintro _ rfl
      rfl

theorem volUnlink_strict (crypto : Crypto) (mount : Mount) (name : CString) :
    Prog.Strict (volUnlink crypto mount name) := by
  apply bind (elseThrow (volLookup_simple name).strict _)
  intro ino
  apply bind (removeDirent_strict name)
  intro _
  exact bind (elseThrow (freeInode_strict _) _) fun _ => flushOrEio_strict crypto mount

theorem writeChunks_strict (ino : Fin 64) (fuel pos : Nat) (src : List UInt8) :
    Prog.Strict (writeChunks ino fuel pos src) := by
  induction fuel generalizing pos src with
  | zero => exact ofPure ()
  | succ fuel ih =>
    rw [writeChunks]
    split
    · exact ofPure ()
    · have block : Prog.Strict (blockForWrite ino (pos / 4096)) := by
        apply get_bind
        intro vol
        apply bind (getFileDataBlock_simple _ _).strict
        intro mapped
        split
        · exact allocateFileDataBlock_strict _ _
        · exact ofPure _
      apply bind block
      intro physicalBlock
      have store : Prog.Strict (writeChunk physicalBlock (pos % 4096)
          (src.take (min (4096 - pos % 4096) src.length))) :=
        bind (elseThrow (ofReadAt _) _) fun data => ofWriteAt _ _
      exact bind store fun _ => ih _ _

theorem volWrite_strict (crypto : Crypto) (mount : Mount) (now : UInt64) (ino : UInt32)
    (buf : List UInt8) (offset : UInt64) :
    Prog.Strict (volWrite crypto mount now ino buf offset) := by
  unfold volWrite
  split
  · exact ofThrow _
  split
  · exact ofThrow _
  · apply get_bind
    intro vol
    dsimp only
    split
    · exact ofThrow _
    split
    · exact ofThrow _
    · apply bind (writeChunks_strict _ _ _ _)
      intro _
      apply bind (modifyInode_strict _ _)
      intro _
      exact bind (flushOrEio_strict crypto mount) fun _ => ofPure _

theorem shrinkFile_strict (ino : Fin 64) (newSize : Nat) : Prog.Strict (shrinkFile ino newSize) := by
  have clears : Prog.Strict (clearTail ino newSize) := by
    apply get_bind
    intro vol
    apply bind (getFileDataBlock_simple _ _).strict
    intro physicalBlock
    split
    · exact ofPure ()
    · exact bind (elseThrow (ofReadAt _) _) fun data => elseThrow (ofWriteAt _ _) _
  exact bind (clears.when _) fun _ => elseThrow (truncateFileBlocks_strict _ _) _

theorem volTruncate_strict (crypto : Crypto) (mount : Mount) (now : UInt64) (ino : UInt32)
    (newSize : UInt64) : Prog.Strict (volTruncate crypto mount now ino newSize) := by
  unfold volTruncate
  split
  · exact ofThrow _
  · apply get_bind
    intro vol
    dsimp only
    split
    · exact ofThrow _
    split
    · exact ofThrow _
    split
    · exact ofPure ()
    · apply Prog.Strict.bind ((shrinkFile_strict _ _).when _)
      intro _
      exact bind (modifyInode_strict _ _) fun _ => flushOrEio_strict crypto mount

theorem fuseLookup_strict (path : CString) (noName : Errno) :
    Prog.Strict (fuseLookup path noName) := by
  unfold fuseLookup
  split
  · exact ofThrow _
  · exact elseThrow (volLookup_simple _).strict _

theorem fuseReaddir_strict {τ : Type} (filler : τ → List UInt8 → τ × Bool) (path : CString)
    (buf : τ) : Prog.Strict (fuseReaddir filler path buf) := by
  unfold fuseReaddir
  split
  · exact ofThrow _
  · split
    · exact ofPure _
    · split
      · exact ofPure _
      · exact (volReaddir_simple _ _).strict

/-- No callback answers a request whose block I/O failed as if it had not. -/
theorem serve_strict (crypto : Crypto) (mount : Mount) (r : Request) :
    Prog.Strict (serve crypto mount r) := by
  cases r with
  | getattr path =>
    apply bind _ fun _ => ofPure _
    apply get_bind
    intro vol
    split
    · exact ofPure _
    · exact bind (fuseLookup_strict path _) fun _ => ofPure _
  | readdir path => exact bind (fuseReaddir_strict _ path _) fun _ => ofPure _
  | openFile path => exact bind (bind (fuseLookup_strict path _) fun _ => ofPure _) fun _ => ofPure _
  | read path size offset =>
    apply bind _ fun _ => ofPure _
    unfold fuseRead
    split
    · exact ofThrow _
    · exact bind (fuseLookup_strict path _) fun ino => (volRead_simple ino size _).strict
  | write now path buf offset =>
    apply bind _ fun _ => ofPure _
    unfold fuseWrite
    split
    · exact ofThrow _
    · exact bind (fuseLookup_strict path _) fun ino => volWrite_strict crypto mount now ino buf _
  | create now path =>
    apply bind _ fun _ => ofPure _
    unfold fuseCreate
    split
    · exact ofThrow _
    · exact bind (volCreate_strict crypto mount now _) fun _ => ofPure _
  | unlink path =>
    apply bind _ fun _ => ofPure _
    unfold fuseUnlink
    split
    · exact ofThrow _
    · exact volUnlink_strict crypto mount _
  | truncate now path size =>
    apply bind _ fun _ => ofPure _
    unfold fuseTruncate
    split
    · exact ofThrow _
    split
    · exact ofThrow _
    · exact bind (fuseLookup_strict path _) fun ino => volTruncate_strict crypto mount now ino _

end Strict

/-! ## One request -/

section Step

variable {rootTime : UInt64} {files : FileStore (Image UInt8 4096)}
  (holds : HoldsFiles crypto mount rootTime (vol, disk) files)
include holds

/-- A program that only looks leaves the files alone, whatever fails. -/
theorem HoldsFiles.looked {α : Type} {program : Op α} (passive : Prog.Passive program) :
    HoldsFiles crypto mount rootTime
      (Prog.exec (volumeDevice crypto mount) program (vol, disk)).2 files := by
  have memory := passive.exec_memory (volumeDevice crypto mount) (vol, disk)
  have container := Prog.exec_readOnly (volumeDevice crypto mount)
    (fun before after : Disk => after.container = before.container) (fun _ => rfl)
    (fun first second => second.trans first) (readBlockAt_keeps crypto mount) passive.readOnly
    (vol, disk)
  generalize Prog.exec (volumeDevice crypto mount) program (vol, disk) = result
    at memory container ⊢
  obtain ⟨answer, vol', disk'⟩ := result
  dsimp only at memory container
  subst memory
  obtain ⟨⟨placed, sound⟩, time, stored⟩ := holds
  constructor
  case holds =>
    constructor
    · rw [container]
      exact placed
    · rw [container]
      exact sound
  case rootTime => exact time
  case files =>
    rw [container]
    exact stored

/-- An answer that is no error is one of the store, and so is what it leaves behind. -/
theorem HoldsFiles.succeeded (roundTrip : crypto.SectorRoundTrip) {r : Request} {value : Answer}
    {state' : Volume × Disk}
    (returns : request crypto mount (volumeDevice crypto mount) r (vol, disk) =
      (.ok value, state')) :
    ∃ files', Allows imageStore rootTime files r (.ok value) files' ∧
      HoldsFiles crypto mount rootTime state' files' := by
  obtain ⟨vol', disk'⟩ := state'
  obtain ⟨⟨placed, sound⟩, rfl, rfl⟩ := holds
  obtain ⟨plain, placed'⟩ := exec_returned roundTrip placed (serve_strict crypto mount r) returns
  have accords := sound.request_accords crypto mount r
  have same : request crypto mount (plainDevice mount.blockCount) r
      (vol, mount.blocks crypto disk.container) =
        (.ok value, vol', mount.blocks crypto disk'.container) := plain
  rw [same] at accords
  exact ⟨_, accords.allowed, ⟨placed', accords.sound⟩, accords.rootTime, rfl⟩

end Step

/-! ## Runs -/

/-- The requests that were answered without an error, with their answers. -/
def successes (requests : List Request) (answers : List (Except Errno Answer)) :
    List (Request × Except Errno Answer) :=
  (requests.zip answers).filter fun entry => entry.2.isOk

/-- No update failed. -/
def Updated (requests : List Request) (answers : List (Except Errno Answer)) : Prop :=
  ∀ entry ∈ requests.zip answers, entry.1.updates = true → entry.2.isOk = true

theorem HoldsFiles.run_successes (roundTrip : crypto.SectorRoundTrip) {rootTime : UInt64}
    {files : FileStore (Image UInt8 4096)} {state : Volume × Disk}
    (holds : HoldsFiles crypto mount rootTime state files) {requests : List Request}
    (updated : Updated requests
      (runRequests crypto mount (volumeDevice crypto mount) requests state).1) :
    let after := runRequests crypto mount (volumeDevice crypto mount) requests state
    ∃ files', Follows imageStore rootTime files (successes requests after.1) files' ∧
      HoldsFiles crypto mount rootTime after.2 files' := by
  induction requests generalizing state files with
  | nil => exact ⟨files, .nil, holds⟩
  | cons r rest ih =>
    unfold runRequests at updated ih ⊢
    rw [Machine.run_cons] at updated ⊢
    dsimp only at updated ⊢
    have later : Updated rest (Machine.run (request crypto mount (volumeDevice crypto mount)) rest
        (request crypto mount (volumeDevice crypto mount) r state).2).1 :=
      fun entry listed => updated entry (List.mem_cons_of_mem _ listed)
    have first := updated _ List.mem_cons_self
    obtain ⟨vol, disk⟩ := state
    cases returns : request crypto mount (volumeDevice crypto mount) r (vol, disk) with
    | mk answer state' =>
      rw [returns] at later first
      cases answer with
      | ok value =>
        obtain ⟨middle, allowed, held⟩ := holds.succeeded roundTrip returns
        obtain ⟨files', follows, final⟩ := ih held later
        exact ⟨files', Traces.cons allowed follows, final⟩
      | error error =>
        -- only a request that just looks may have failed
        have looks : r.updates = false := by
          cases kind : r.updates with
          | false => rfl
          | true => exact absurd (first kind) (by simp [Except.isOk, Except.toBool])
        have held := holds.looked (serve_passive crypto mount looks)
        have same : Prog.exec (volumeDevice crypto mount) (serve crypto mount r) (vol, disk) =
          (.error error, state') := returns
        rw [same] at held
        exact ih held later

/-- On any volume `denyfs_vol_open` accepts, protected or not, with block I/O that fails now and
then: as long as every update succeeded, the requests that were answered without an error were
answered as a store of named files, and the files in memory and on the disk are at last its. -/
theorem successes_refine_store (roundTrip : crypto.SectorRoundTrip) {password : List UInt8}
    {hiddenPassword : Option (List UInt8)} {protectHidden : Bool} {start : Disk}
    (opened : volOpen crypto password hiddenPassword protectHidden start =
      (some (mount, vol), disk)) {requests : List Request}
    (updated : Updated requests
      (runRequests crypto mount (volumeDevice crypto mount) requests (vol, disk)).1) :
    let after := runRequests crypto mount (volumeDevice crypto mount) requests (vol, disk)
    Follows imageStore (vol.inodes 0).mtime (filesOf vol (mount.blocks crypto disk.container))
      (successes requests after.1)
      (filesOf after.2.1 (mount.blocks crypto after.2.2.container)) := by
  intro after
  obtain ⟨files, follows, final⟩ :=
    (volOpen_holdsFiles roundTrip opened).run_successes roundTrip updated
  have last : filesOf after.2.1 (mount.blocks crypto after.2.2.container) = files := final.files
  rw [last]
  exact follows

theorem successes_refine_store_small :
    ∃ disk vol, smallContainer 4 = some disk ∧
      volOpen transparentCrypto [1] none false disk =
        (some (outerMount zeroRandomness 4, vol), disk) ∧
      let requests : List Request :=
        [.create 5 pathA, .write 6 pathA [1, 2, 3] 0, .read pathA 2 (-1), .read pathA 2 1]
      let after := runRequests transparentCrypto (outerMount zeroRandomness 4)
        (volumeDevice transparentCrypto (outerMount zeroRandomness 4)) requests (vol, disk)
      Follows imageStore (vol.inodes 0).mtime
        (filesOf vol ((outerMount zeroRandomness 4).blocks transparentCrypto disk.container))
        (successes requests after.1)
        (filesOf after.2.1
          ((outerMount zeroRandomness 4).blocks transparentCrypto after.2.2.container)) := by
  obtain ⟨disk, vol, made, _, _, opened, created, written⟩ := smallContainer_written
  refine ⟨disk, vol, made, opened, ?_⟩
  apply successes_refine_store transparentCrypto_sectors opened
  simp only [Updated, runRequests, Machine.run_cons]
  rw [created, written]
  intro entry listed updates
  simp only [List.zip_cons_cons, List.mem_cons] at listed
  rcases listed with rfl | rfl | rfl | rfl | last
  · rfl
  · rfl
  · cases updates
  · cases updates
  · cases last

/-- In such a state, whenever the listing of the root returns, it has handed the names of the files
to the filler, each one once, up to the first that found it full. -/
theorem readdir_offers_names (roundTrip : crypto.SectorRoundTrip) {password : List UInt8}
    {hiddenPassword : Option (List UInt8)} {protectHidden : Bool} {start : Disk}
    (opened : volOpen crypto password hiddenPassword protectHidden start =
      (some (mount, vol), disk)) {requests : List Request}
    (updated : Updated requests
      (runRequests crypto mount (volumeDevice crypto mount) requests (vol, disk)).1)
    {τ : Type} {filler : τ → List UInt8 → τ × Bool} {path : CString} {buf result : τ}
    {state' : Volume × Disk}
    (returns : Prog.exec (volumeDevice crypto mount) (fuseReaddir filler path buf)
      (runRequests crypto mount (volumeDevice crypto mount) requests (vol, disk)).2 =
        (.ok result, state')) :
    let after := runRequests crypto mount (volumeDevice crypto mount) requests (vol, disk)
    let files := filesOf after.2.1 (mount.blocks crypto after.2.2.container)
    ∃ names : List (List UInt8), names.Nodup ∧ (∀ name, name ∈ names ↔ (files name).isSome) ∧
      result = offerNames filler ([dot] :: [dot, dot] :: names) buf := by
  intro after files
  obtain ⟨_, _, final⟩ := (volOpen_holdsFiles roundTrip opened).run_successes roundTrip updated
  obtain ⟨plain, _⟩ := exec_returned roundTrip final.holds.placed
    (fuseReaddir_strict filler path buf) returns
  have sound := final.holds.sound
  by_cases isRoot : path.bytes = [slash]
  · rw [sound.exec_fuseReaddir filler isRoot] at plain
    obtain ⟨nodup, names⟩ := sound.listing_names
    exact ⟨_, nodup, names, (Except.ok.inj (congrArg Prod.fst plain)).symm⟩
  · unfold fuseReaddir at plain
    rw [if_pos isRoot] at plain
    cases congrArg Prod.fst plain

/-- A filler with room for two names. -/
def fillTwo (names : List (List UInt8)) (name : List UInt8) : List (List UInt8) × Bool :=
  if names.length < 2 then (names ++ [name], false) else (names, true)

theorem readdir_offers_names_small :
    ∃ disk vol result state', smallContainer 4 = some disk ∧
      volOpen transparentCrypto [1] none false disk =
        (some (outerMount zeroRandomness 4, vol), disk) ∧
      Prog.exec (volumeDevice transparentCrypto (outerMount zeroRandomness 4))
        (fuseReaddir fillTwo ⟨[47], by decide⟩ []) (vol, disk) = (.ok result, state') ∧
      ∃ names : List (List UInt8), names.Nodup ∧
        result = offerNames fillTwo ([dot] :: [dot, dot] :: names) [] := by
  obtain ⟨disk, vol, made, faultless, _, opened, _⟩ := smallContainer_written
  obtain ⟨running, _⟩ := Running.opened transparentCrypto_sectors faultless rfl opened
  have shows := running.shows
  obtain ⟨answer, _⟩ := Prog.exec_simulation
    (volumeDevice_simulates transparentCrypto_sectors shows.unprotected)
    (fuseReaddir fillTwo ⟨[47], by decide⟩ []) vol shows.decrypts
  rw [shows.sound.exec_fuseReaddir fillTwo rfl] at answer
  have updated : Updated [] (runRequests transparentCrypto (outerMount zeroRandomness 4)
      (volumeDevice transparentCrypto (outerMount zeroRandomness 4)) [] (vol, disk)).1 :=
    fun entry listed => absurd listed List.not_mem_nil
  cases returns : Prog.exec (volumeDevice transparentCrypto (outerMount zeroRandomness 4))
      (fuseReaddir fillTwo ⟨[47], by decide⟩ []) (vol, disk) with
  | mk reply state' =>
    rw [returns] at answer
    dsimp only at answer
    subst answer
    obtain ⟨names, nodup, _, same⟩ :=
      readdir_offers_names transparentCrypto_sectors opened updated returns
    exact ⟨disk, vol, _, state', made, opened, returns, names, nodup, same⟩

end DenyFS
