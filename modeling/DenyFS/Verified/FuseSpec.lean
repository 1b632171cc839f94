import DenyFS.Verified.StoreView

/-! # The FUSE callbacks meet the specification

On a sound volume whose block I/O does not fail, every callback answers as the specification of
named files says, and the files of the volume are then what it says. -/

namespace DenyFS

open Packed BlockProgram SparseFile

variable {count : Nat} {crypto : Crypto} {mount : Mount} {vol : Volume} {disk : Blocks}

/-- Sparse images of 4096-byte blocks, which `st_blocks` counts in units of 512 bytes. -/
noncomputable abbrev imageStore : FileOps UInt8 (Image UInt8 4096) := imageOps UInt8 4096 8

/-- A request on a sound volume was answered as the specification allows. -/
structure Accords (count : Nat) (vol : Volume) (disk : Blocks) (r : Request)
    (result : Except Errno Answer × (Volume × Blocks)) : Prop where
  sound : Sound count result.2.1 result.2.2
  rootTime : (result.2.1.inodes 0).mtime = (vol.inodes 0).mtime
  allowed : Allows imageStore (vol.inodes 0).mtime (filesOf vol disk) r result.1
    (filesOf result.2.1 result.2.2)

/-! ## Paths -/

section Paths

variable (sound : Sound count vol disk) {path : CString}
include sound

/-- A callback that needs an existing file has it, or fails as the path says. -/
theorem Sound.exec_onFile {α : Type} (path : CString) (next : UInt32 → Op α) :
    (∃ error, (filesOf vol disk).missing path = some error ∧
        Prog.exec (plainDevice count) (fuseLookup path .eisdir >>= next) (vol, disk) =
          (.error error, vol, disk)) ∨
      ∃ name p, nameRef vol disk p = some name ∧ (filesOf vol disk).missing path = none ∧
        (filesOf vol disk).find path =
          .ok (name, storedFile (vol.inodes (entryAt vol disk p).ino) disk) ∧
        Prog.exec (plainDevice count) (fuseLookup path .eisdir >>= next) (vol, disk) =
          Prog.exec (plainDevice count) (next (UInt32.ofNat (entryAt vol disk p).ino.val))
            (vol, disk) := by
  cases onPath : pathToName path with
  | none =>
    have found : (filesOf vol disk).find path = .error .eisdir := by
      simp [FileStore.find, onPath]
    refine .inl ⟨.eisdir, by simp [FileStore.missing, found], ?_⟩
    simp only [fuseLookup, onPath]
    exact Prog.exec_bind_error rfl
  | some name =>
    have lookup := sound.lookup name
    -- a lookup that fails, for whatever reason, means that no entry has the name
    have fails : (∀ p, nameRef vol disk p ≠ some name.bytes) → ∀ error,
        Prog.exec (plainDevice count) (volLookup name) (vol, disk) = (.error error, vol, disk) →
        (filesOf vol disk).missing path = some .enoent ∧
          Prog.exec (plainDevice count) (fuseLookup path .eisdir >>= next) (vol, disk) =
            (.error .enoent, vol, disk) := by
      intro absent error returns
      have found : (filesOf vol disk).find path = .error .enoent := by
        simp [FileStore.find, onPath, filesOf_eq_none.2 absent]
      constructor
      · simp [FileStore.missing, found]
      · simp only [fuseLookup, onPath]
        exact Prog.exec_bind_error (Prog.exec_elseThrow_error returns _)
    generalize run : Prog.exec (plainDevice count) (volLookup name) (vol, disk) = result
      at lookup
    cases lookup with
    | badLength bad =>
      apply Or.inl
      apply Exists.intro
      exact fails (fun p named => bad (sound.validName_of_named named).length) _ run
    | missing _ _ absent => exact .inl ⟨.enoent, fails absent _ run⟩
    | found p named =>
      have found : (filesOf vol disk).find path =
          .ok (name.bytes, storedFile (vol.inodes (entryAt vol disk p).ino) disk) := by
        simp [FileStore.find, onPath, sound.filesOf_named named]
      refine .inr ⟨name.bytes, p, named, by simp [FileStore.missing, found], found, ?_⟩
      simp only [fuseLookup, onPath]
      exact Prog.exec_bind_ok (Prog.exec_elseThrow_ok run _)

/-- The inode an entry leads to is a file. -/
theorem Sound.file_of_named {name : List UInt8} {p : DirentSlot}
    (named : nameRef vol disk p = some name) :
    (vol.inodes (entryAt vol disk p).ino).type = itypeFile ∧ (entryAt vol disk p).ino ≠ 0 := by
  have file := sound.file_of_live (nameRef_eq_some.1 named).1
  exact ⟨file, sound.tree.ne_root file⟩

/-- What leaves the volume alone needs only be allowed. -/
theorem Sound.accords_same {r : Request} {answer : Except Errno Answer}
    (allowed : Allows imageStore (vol.inodes 0).mtime (filesOf vol disk) r answer
      (filesOf vol disk)) : Accords count vol disk r (answer, vol, disk) :=
  ⟨sound, rfl, allowed⟩

theorem Sound.accords_refused {r : Request} {error : Errno}
    (refused : (filesOf vol disk).refusal r = some error) :
    Accords count vol disk r (.error error, vol, disk) :=
  sound.accords_same (.refused refused)

end Paths

/-! ## Requests that change nothing -/

section Looking

variable (sound : Sound count vol disk)
include sound

theorem Sound.getattr_accords (path : CString) :
    Accords count vol disk (.getattr path)
      (request crypto mount (plainDevice count) (.getattr path) (vol, disk)) := by
  unfold request
  rw [serve, Prog.exec_bind_pure]
  by_cases isRoot : path.bytes = [slash]
  · have stat : Prog.exec (plainDevice count) (fuseGetattr path) (vol, disk) =
        (.ok (directoryStat (vol.inodes 0).mtime), vol, disk) := by
      unfold fuseGetattr
      rw [Prog.exec_bind_ok (Prog.exec_get _ _), if_pos isRoot]
      rfl
    rw [stat]
    exact sound.accords_same (.root isRoot)
  · let next : UInt32 → Op Stat := fun ino =>
      let inode := vol.inodes (Fin.ofNat 64 ino.toNat)
      return regularStat inode.size (inode.blockCount.toNat * (4096 / 512)) inode.mtime
    -- with `ENOENT` for a path without a name, getattr fails as the other callbacks do
    have run : Prog.exec (plainDevice count) (fuseGetattr path) (vol, disk) =
        Prog.exec (plainDevice count) (fuseLookup path .enoent >>= next) (vol, disk) := by
      unfold fuseGetattr
      rw [Prog.exec_bind_ok (Prog.exec_get _ _), if_neg isRoot]
    cases sound.exec_onFile path next with
    | inl fails =>
      obtain ⟨error, missing, returns⟩ := fails
      have refused : (filesOf vol disk).refusal (.getattr path) = some .enoent := by
        simp [FileStore.refusal, isRoot, missing]
      have stat : Prog.exec (plainDevice count) (fuseGetattr path) (vol, disk) =
          (.error .enoent, vol, disk) := by
        rw [run]
        cases onPath : pathToName path with
        | none =>
          simp only [fuseLookup, onPath]
          exact Prog.exec_bind_error rfl
        | some name =>
          simp only [fuseLookup, onPath] at returns ⊢
          rw [returns]
          have found : (filesOf vol disk).find path = .error error := by
            unfold FileStore.missing at missing
            split at missing
            next same => rw [same, Option.some.inj missing]
            next => cases missing
          unfold FileStore.find at found
          rw [onPath] at found
          dsimp only at found
          split at found
          · cases found
            rfl
          · cases found
      rw [stat]
      exact sound.accords_refused refused
    | inr succeeds =>
      obtain ⟨name, p, named, _, found, returns⟩ := succeeds
      have same : Prog.exec (plainDevice count) (fuseLookup path .enoent >>= next) (vol, disk) =
          Prog.exec (plainDevice count) (fuseLookup path .eisdir >>= next) (vol, disk) := by
        obtain ⟨text, onPath, _⟩ := FileStore.find_eq_ok.1 found
        simp only [fuseLookup, onPath]
      rw [run, same, returns]
      have units := sound.card_mapped (entryAt vol disk p).ino
      have size : UInt64.ofNat (imageStore.size
          (storedFile (vol.inodes (entryAt vol disk p).ino) disk).contents) =
          (vol.inodes (entryAt vol disk p).ino).size := UInt64.ofNat_toNat
      have occupies : imageStore.occupies
          (storedFile (vol.inodes (entryAt vol disk p).ino) disk).contents
          ((vol.inodes (entryAt vol disk p).ino).blockCount.toNat * 8) := by
        rw [← units]
        rfl
      have allowed : Allows imageStore (vol.inodes 0).mtime (filesOf vol disk) (.getattr path) _ _ :=
        .stat found occupies
      rw [size] at allowed
      show Accords count vol disk (.getattr path) (.ok (.stat (regularStat _ _ _)), vol, disk)
      rw [ofNat_ino]
      exact sound.accords_same allowed

theorem Sound.open_accords (path : CString) :
    Accords count vol disk (.openFile path)
      (request crypto mount (plainDevice count) (.openFile path) (vol, disk)) := by
  unfold request
  rw [serve, Prog.exec_bind_pure, fuseOpen]
  cases sound.exec_onFile path fun _ => (return () : Op Unit) with
  | inl fails =>
    obtain ⟨error, missing, returns⟩ := fails
    rw [returns]
    exact sound.accords_refused missing
  | inr succeeds =>
    obtain ⟨name, p, _, fine, _, returns⟩ := succeeds
    rw [returns]
    exact sound.accords_same (.opened fine)

theorem Sound.read_accords (path : CString) (size : Nat) (offset : Int64) :
    Accords count vol disk (.read path size offset)
      (request crypto mount (plainDevice count) (.read path size offset) (vol, disk)) := by
  unfold request
  rw [serve, Prog.exec_bind_pure, fuseRead]
  by_cases negative : offset < 0
  · rw [if_pos negative]
    exact sound.accords_refused (if_pos negative)
  rw [if_neg negative]
  cases sound.exec_onFile path fun ino => volRead ino size offset.toUInt64 with
  | inl fails =>
    obtain ⟨error, missing, returns⟩ := fails
    rw [returns]
    apply sound.accords_refused
    simp [FileStore.refusal, negative, missing]
  | inr succeeds =>
    obtain ⟨name, p, named, fine, found, returns⟩ := succeeds
    rw [returns, exec_volRead sound.accounted sound.tree.sizes]
    have small := UInt32.not_le.2 (ofNat_ino_lt (entryAt vol disk p).ino)
    unfold readResult readError
    rw [ofNat_ino]
    by_cases long : intMax < size
    · rw [if_pos (.inr long)]
      apply sound.accords_refused
      simp [FileStore.refusal, negative, fine, long]
    · rw [if_neg (not_or.2 ⟨small, long⟩),
        if_neg (not_not_intro (sound.file_of_named named).1)]
      have allowed : Allows imageStore (vol.inodes 0).mtime (filesOf vol disk)
          (.read path size offset) _ _ :=
        .read (by simp [FileStore.refusal, negative, fine, long]) found
      have bytes : imageStore.read (storedFile (vol.inodes (entryAt vol disk p).ino) disk).contents
          offset.toUInt64.toNat size =
          bytesFrom (vol.inodes (entryAt vol disk p).ino) disk offset.toUInt64.toNat size := by
        show Image.read (fileView _ disk).image _ _ = _
        unfold Image.read bytesFrom
        rw [image_bytes]
        rfl
      rw [bytes] at allowed
      exact sound.accords_same allowed

end Looking

/-! ## Listing, with any filler -/

section Listing

variable {τ : Type}

/-- Hands the entries on one after the other, until the callback asks to stop. -/
def offer (cb : τ → List UInt8 → UInt32 → τ × Bool) : List (List UInt8 × UInt32) → τ → τ × Bool
  | [], userdata => (userdata, false)
  | (name, ino) :: rest, userdata =>
    match cb userdata name ino with
    | (userdata, true) => (userdata, true)
    | (userdata, false) => offer cb rest userdata

theorem offer_append (cb : τ → List UInt8 → UInt32 → τ × Bool)
    (first second : List (List UInt8 × UInt32)) (userdata : τ) :
    offer cb (first ++ second) userdata =
      if (offer cb first userdata).2 then offer cb first userdata
      else offer cb second (offer cb first userdata).1 := by
  induction first generalizing userdata with
  | nil => rfl
  | cons entry rest ih =>
    obtain ⟨name, ino⟩ := entry
    rcases reply : cb userdata name ino with ⟨userdata', stop⟩
    cases stop with
    | true => simp [offer, reply]
    | false => simp [offer, reply, ih]

theorem readdirEntries_offer (cb : τ → List UInt8 → UInt32 → τ × Bool) {entries : Fin 16 → Dirent}
    (valid : ∀ i, validDirent (entries i) = true) (indices : List (Fin 16)) (userdata : τ) :
    readdirEntries cb entries indices userdata =
      .ok (offer cb (indices.filterMap fun i => reported (entries i)) userdata) := by
  induction indices generalizing userdata with
  | nil => rfl
  | cons i rest ih =>
    have ok : ¬(!validDirent (entries i)) = true := by simp [valid i]
    rw [readdirEntries, if_neg ok]
    by_cases live : (entries i).inode ≠ invalidIno
    · have report : reported (entries i) = some ((entries i).nameBytes, (entries i).inode) :=
        if_pos live
      rw [if_pos live, List.filterMap_cons_some (f := fun j => reported (entries j)) report,
        Dirent.cName_eq (valid i) live, offer]
      cases cb userdata (entries i).nameBytes (entries i).inode with
      | mk userdata' stop =>
        cases stop with
        | true => rfl
        | false => exact ih userdata'
    · have report : reported (entries i) = none := if_neg live
      rw [if_neg live, List.filterMap_cons_none (f := fun j => reported (entries j)) report]
      exact ih userdata

theorem exec_readdirBlocks_offer (cb : τ → List UInt8 → UInt32 → τ × Bool) {blocks : List UInt32}
    (good : ∀ block ∈ blocks, block ≠ invalidBlock → GoodBlock count disk block) (userdata : τ) :
    Prog.exec (plainDevice count) (readdirBlocks cb blocks userdata) (vol, disk) =
      (.ok (offer cb (blocks.flatMap fun block => if block = invalidBlock then [] else
        (upTo 16).filterMap fun i => reported (direntsSector.symm (disk block) i)) userdata).1,
        vol, disk) := by
  induction blocks generalizing userdata with
  | nil => rfl
  | cons block rest ih =>
    have later := fun b listed => good b (List.mem_cons_of_mem block listed)
    rw [readdirBlocks, List.flatMap_cons]
    by_cases hole : block = invalidBlock
    · rw [if_pos hole, if_pos hole, List.nil_append]
      exact ih later userdata
    · have here := good block List.mem_cons_self hole
      generalize listed : ((upTo 16).filterMap fun i =>
        reported (direntsSector.symm (disk block) i)) = entries
      have reads : Prog.exec (plainDevice count) (readdirBlock cb block userdata) (vol, disk) =
          (.ok (offer cb entries userdata), vol, disk) := by
        unfold readdirBlock
        rw [Prog.exec_bind_ok (Prog.exec_elseThrow_ok (exec_readBlock here.inside) _),
          readdirEntries_offer cb here.valid, listed]
        rfl
      rw [if_neg hole, if_neg hole, Prog.exec_bind_ok reads, offer_append]
      rcases offer cb entries userdata with ⟨userdata', stop⟩
      cases stop with
      | true => rfl
      | false => exact ih later userdata'

/-- `denyfs_vol_readdir` offers the entries in use until the callback asks to stop. -/
theorem Sound.exec_readdir_offer (sound : Sound count vol disk)
    (cb : τ → List UInt8 → UInt32 → τ × Bool) (userdata : τ) :
    Prog.exec (plainDevice count) (volReaddir cb userdata) (vol, disk) =
      (.ok (offer cb (listing vol disk) userdata).1, vol, disk) := by
  unfold volReaddir
  rw [Prog.exec_bind_ok (Prog.exec_get _ _), exec_readdirBlocks_offer cb sound.rootDirectory.goodBlock]
  have blocks : vol.rootBlocks = (upTo 20).map (vol.inodes 0).direct := by
    rw [Volume.rootBlocks, upTo_eq, List.ofFn_eq_map]
  rw [blocks, List.flatMap_map, listing, direntSlots, List.filterMap_flatMap]
  congr 4
  apply List.flatMap_congr
  intro k _
  rw [List.filterMap_map]
  by_cases hole : (vol.inodes 0).direct k = invalidBlock
  · rw [if_pos hole, eq_comm, List.filterMap_eq_nil_iff]
    intro i _
    have dead : entryAt vol disk (k, i) = emptyDirent := entryAt_hole hole
    simp only [Function.comp, dead]
    rfl
  · rw [if_neg hole]
    apply List.filterMap_congr
    intro i _
    have entry : entryAt vol disk (k, i) = _ := entryAt_present hole
    simp only [Function.comp, entry]

/-- Hands names to a filler, until it is full. -/
def offerNames (filler : τ → List UInt8 → τ × Bool) : List (List UInt8) → τ → τ
  | [], buf => buf
  | name :: rest, buf =>
    match filler buf name with
    | (buf, true) => buf
    | (buf, false) => offerNames filler rest buf

theorem offer_names (filler : τ → List UInt8 → τ × Bool) (entries : List (List UInt8 × UInt32))
    (buf : τ) : (offer (fun buf name _ => filler buf name) entries buf).1 =
      offerNames filler (entries.map Prod.fst) buf := by
  induction entries generalizing buf with
  | nil => rfl
  | cons entry rest ih =>
    simp only [offer, offerNames, List.map_cons]
    cases filler buf entry.1 with
    | mk buf' full =>
      cases full with
      | true => rfl
      | false => exact ih buf'

theorem offerNames_fill (names seen : List (List UInt8)) :
    offerNames fillNames names seen = seen ++ names := by
  induction names generalizing seen with
  | nil => simp [offerNames]
  | cons name rest ih => simp [offerNames, fillNames, ih]

/-- Listing the root hands its names to the filler, whatever that is. -/
theorem Sound.exec_fuseReaddir (sound : Sound count vol disk) (filler : τ → List UInt8 → τ × Bool)
    {path : CString} (isRoot : path.bytes = [slash]) (buf : τ) :
    Prog.exec (plainDevice count) (fuseReaddir filler path buf) (vol, disk) =
      (.ok (offerNames filler ([dot] :: [dot, dot] :: (listing vol disk).map Prod.fst) buf),
        vol, disk) := by
  have list := sound.exec_readdir_offer fun buf name _ => filler buf name
  unfold fuseReaddir
  rw [if_neg (not_not_intro isRoot)]
  simp only [offerNames]
  cases filler buf [dot] with
  | mk buf₁ full =>
    cases full with
    | true => rfl
    | false =>
      dsimp only
      cases filler buf₁ [dot, dot] with
      | mk buf₂ full =>
        cases full with
        | true => rfl
        | false =>
          dsimp only
          rw [list, offer_names]

theorem Sound.readdir_accords (sound : Sound count vol disk) (path : CString) :
    Accords count vol disk (.readdir path)
      (request crypto mount (plainDevice count) (.readdir path) (vol, disk)) := by
  unfold request
  rw [serve, Prog.exec_bind_pure]
  by_cases isRoot : path.bytes = [slash]
  · rw [sound.exec_fuseReaddir fillNames isRoot, offerNames_fill, List.nil_append]
    obtain ⟨nodup, names⟩ := sound.listing_names
    exact sound.accords_same (.listed isRoot nodup names)
  · have fails : Prog.exec (plainDevice count) (fuseReaddir fillNames path []) (vol, disk) =
        (.error .enoent, vol, disk) := by
      unfold fuseReaddir
      rw [if_pos isRoot]
      rfl
    rw [fails]
    exact sound.accords_refused (if_neg isRoot)

end Listing

end DenyFS
