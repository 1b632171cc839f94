import DenyFS.Verified.FuseSpec

/-! # Callbacks that change files

Write, truncate, create and unlink do to the files of a volume what the specification says, and
so does every request. -/

namespace DenyFS

open Packed BlockProgram SparseFile

variable {count : Nat} {crypto : Crypto} {mount : Mount} {vol vol' : Volume} {disk disk' : Blocks}

theorem Untouched.stored {j : Fin 64} (untouched : Untouched vol vol' disk disk' j) :
    storedFile (vol'.inodes j) disk' = storedFile (vol.inodes j) disk := by
  unfold storedFile
  rw [untouched.view, untouched.inode]

section Named

variable (sound : Sound count vol disk) {name : List UInt8} {p : DirentSlot}
  (named : nameRef vol disk p = some name)
include sound named

/-! ## Write -/

/-- The error of a write to a file is that of its arguments. -/
theorem Sound.writeError_named (len : Nat) (offset : UInt64) :
    writeError vol (UInt32.ofNat (entryAt vol disk p).ino.val) len offset =
      if intMax < len then some .einval
      else if maxFileSize < offset.toNat + len then some .enospc
      else none := by
  have small := UInt32.not_le.2 (ofNat_ino_lt (entryAt vol disk p).ino)
  have file := (sound.file_of_named named).1
  unfold writeError
  rw [ofNat_ino]
  by_cases long : intMax < len
  · rw [if_pos (.inr long), if_pos long]
  · rw [if_neg (not_or.2 ⟨small, long⟩), if_neg (not_not_intro file), if_neg long]
    by_cases past : maxFileSize < offset.toNat + len
    · rw [if_pos past, if_pos (by omega)]
    · rw [if_neg past, if_neg (by omega)]

/-- What a write does to the files of a volume. -/
theorem Sound.write_stores {now : UInt64} {number : UInt32} {buf : List UInt8} {offset : UInt64}
    {result : Except Errno Nat × (Volume × Blocks)}
    (outcome : WriteOutcome count crypto mount now number buf offset vol disk result)
    (same : inodeOf number = (entryAt vol disk p).ino) :
    let before := storedFile (vol.inodes (entryAt vol disk p).ino) disk
    Sound count result.2.1 result.2.2 ∧ (result.2.1.inodes 0).mtime = (vol.inodes 0).mtime ∧
      ((∃ error, writeError vol number buf.length offset = some error ∧
          result = (.error error, vol, disk)) ∨
        writeError vol number buf.length offset = none ∧
        (result.1 = .ok buf.length ∧ filesOf result.2.1 result.2.2 =
            Function.update (filesOf vol disk) name
              (some ⟨before.contents.write offset.toNat buf, now⟩) ∨
          ∃ n < buf.length, result.1 = .error .enospc ∧ filesOf result.2.1 result.2.2 =
            Function.update (filesOf vol disk) name
              (some ⟨before.contents.store offset.toNat (buf.take n), before.mtime⟩))) := by
  intro before
  have root := (sound.file_of_named named).2
  have sound' := outcome.sound sound
  have directory := outcome.sameDirectory sound
  have others := fun j (apart : j ≠ (entryAt vol disk p).ino) =>
    outcome.untouched sound fun _ => same ▸ apart
  have files := sound.filesOf_update sound' directory named fun j _ apart => (others j apart).stored
  have rootTime : (result.2.1.inodes 0).mtime = (vol.inodes 0).mtime := by
    rw [(others 0 (Ne.symm root)).inode]
  refine ⟨sound', rootTime, ?_⟩
  dsimp only [before]
  rw [← same] at files ⊢
  cases outcome with
  | rejected error rejected => exact .inl ⟨error, rejected, rfl⟩
  | written vol₁ disk₁ disk' accepted stored shows =>
    refine .inr ⟨accepted, .inl ⟨rfl, ?_⟩⟩
    have fits := (of_writeError_none accepted).2.2
    have view := view_setMeta_flushed stored.step.accounted shows
    have image : (FileView.mk (writtenSize (vol.inodes (inodeOf number)).size offset.toNat buf.length)
        (fileRef (vol₁.inodes (inodeOf number)) disk₁)
        (byteAt (vol₁.inodes (inodeOf number)) disk₁)).image = _ :=
      image_written fits rfl stored.refs stored.bytes
    have time : (((vol₁.setMeta (inodeOf number) (writtenSize (vol.inodes (inodeOf number)).size
        offset.toNat buf.length) now).flushed crypto mount).inodes (inodeOf number)).mtime = now := by
      change (Function.update vol₁.inodes (inodeOf number) _ (inodeOf number)).mtime = now
      rw [Function.update_self]
    rw [files]
    unfold storedFile
    dsimp only
    rw [view, image, time]
  | full m vol₁ disk₁ accepted stops stored full =>
    have part := touchedBlocks_storedPart stops
    have fits := (of_writeError_none accepted).2.2
    refine .inr ⟨accepted, .inr ⟨(storedPart offset.toNat m buf).length, ?_, rfl, ?_⟩⟩
    · -- a part as long as the whole would have touched every block
      refine lt_of_le_of_ne part.1 fun whole => ?_
      have touches := congrArg List.length part.2
      rw [whole, List.length_take] at touches
      omega
    · have prefixed : buf.take (storedPart offset.toNat m buf).length = storedPart offset.toNat m buf := by
        unfold storedPart
        rw [List.length_take, List.take_eq_take_iff]
        omega
      have size : (vol₁.inodes (inodeOf number)).size = (vol.inodes (inodeOf number)).size := by
        rw [stored.step.inode]
      have time : (vol₁.inodes (inodeOf number)).mtime = (vol.inodes (inodeOf number)).mtime := by
        rw [stored.step.inode]
      have image : (fileView (vol₁.inodes (inodeOf number)) disk₁).image = _ :=
        image_partly (by omega : offset.toNat + (storedPart offset.toNat m buf).length ≤ maxFileSize)
          size (fun s => by rw [part.2]; exact stored.refs s) stored.bytes
      rw [files, prefixed]
      unfold storedFile
      dsimp only
      rw [image, time]

/-! ## Truncate -/

theorem Sound.truncateError_named {newSize : UInt64} (fits : newSize.toNat ≤ maxFileSize) :
    truncateError vol (UInt32.ofNat (entryAt vol disk p).ino.val) newSize = none := by
  have same : inodeOf (UInt32.ofNat (entryAt vol disk p).ino.val) = (entryAt vol disk p).ino :=
    ofNat_ino _
  exact truncateError_eq_none (ofNat_ino_lt _) (by rw [same]; exact (sound.file_of_named named).1) fits

/-- What a truncate does to the files of a volume. -/
theorem Sound.truncate_stores {now : UInt64} {number : UInt32} {newSize : UInt64}
    {result : Except Errno Unit × (Volume × Blocks)}
    (outcome : TruncateOutcome count crypto mount now number newSize vol disk result)
    (inode : inodeOf number = (entryAt vol disk p).ino)
    (accepted : truncateError vol number newSize = none) :
    let before := storedFile (vol.inodes (entryAt vol disk p).ino) disk
    Sound count result.2.1 result.2.2 ∧ (result.2.1.inodes 0).mtime = (vol.inodes 0).mtime ∧
      result.1 = .ok () ∧ filesOf result.2.1 result.2.2 = Function.update (filesOf vol disk) name
        (some ⟨before.contents.resize newSize.toNat,
          if newSize.toNat = before.contents.size then before.mtime else now⟩) := by
  intro before
  have root := (sound.file_of_named named).2
  have sound' := outcome.sound sound
  have directory := outcome.sameDirectory sound
  have others := fun j (apart : j ≠ (entryAt vol disk p).ino) =>
    outcome.untouched sound fun _ => inode ▸ apart
  have files := sound.filesOf_update sound' directory named fun j _ apart => (others j apart).stored
  have rootTime : (result.2.1.inodes 0).mtime = (vol.inodes 0).mtime := by
    rw [(others 0 (Ne.symm root)).inode]
  refine ⟨sound', rootTime, ?_⟩
  subst before
  rw [← inode] at files ⊢
  cases outcome with
  | rejected error rejected =>
    rw [accepted] at rejected
    cases rejected
  | same _ unchanged =>
    refine ⟨rfl, ?_⟩
    have grown : (FileView.mk newSize (fileRef (vol.inodes (inodeOf number)) disk)
        (byteAt (vol.inodes (inodeOf number)) disk)).image = _ := image_grown (unchanged ▸ UInt64.le_refl _)
    refine files.trans ?_
    unfold storedFile
    dsimp only
    rw [← grown, if_pos (by rw [unchanged]; rfl), unchanged]
    rfl
  | resized vol₁ disk₁ disk' _ other cut shows =>
    refine ⟨rfl, ?_⟩
    have apart : newSize.toNat ≠ (vol.inodes (inodeOf number)).size.toNat :=
      fun equal => other (UInt64.toNat_inj.1 equal)
    have time : (((vol₁.setMeta (inodeOf number) newSize now).flushed crypto mount).inodes
        (inodeOf number)).mtime = now := by
      change (Function.update vol₁.inodes (inodeOf number) _ (inodeOf number)).mtime = now
      rw [Function.update_self]
    have image : (fileView (((vol₁.setMeta (inodeOf number) newSize now).flushed crypto mount).inodes
        (inodeOf number)) disk').image =
        (fileView (vol.inodes (inodeOf number)) disk).image.resize newSize.toNat := by
      unfold CutTo at cut
      split at cut
      next shorter =>
        rw [view_setMeta_flushed cut.step.accounted shows]
        exact image_cut shorter rfl cut.data cut.bytes
      next longer =>
        obtain ⟨rfl, rfl⟩ := cut
        rw [view_setMeta_flushed sound.accounted shows]
        exact image_grown (UInt64.not_lt.1 longer)
    rw [files]
    unfold storedFile
    dsimp only
    rw [image, time, if_neg]
    exact apart

/-! ## Unlink -/

/-- What an unlink does to the files of a volume. -/
theorem Removed.files (removed : Removed count vol vol' disk disk' p) (sound' : Sound count vol' disk') :
    filesOf vol' disk' = Function.update (filesOf vol disk) name none := by
  have live := (nameRef_eq_some.1 named).1
  have names : ∀ q, q ≠ p → nameRef vol' disk' q = nameRef vol disk q := fun q apart => by
    rw [nameRef, nameRef, removed.entries, if_neg apart]
  have gone : nameRef vol' disk' p = none := by
    unfold nameRef
    rw [removed.entries, if_pos rfl]
    exact if_neg fun live => live rfl
  funext other
  by_cases here : other = name
  · subst here
    rw [Function.update_self, filesOf_eq_none]
    intro q named'
    by_cases slot : q = p
    · rw [slot, gone] at named'
      cases named'
    · rw [names q slot] at named'
      exact slot (sound.directory.names q p other named' named)
  · rw [Function.update_of_ne here]
    by_cases listed : ∃ q, nameRef vol disk q = some other
    · obtain ⟨q, named'⟩ := listed
      have slot : q ≠ p := by
        rintro rfl
        exact here (Option.some.inj (named'.symm.trans named))
      have live' := (nameRef_eq_some.1 named').1
      have apart : (entryAt vol disk q).ino ≠ (entryAt vol disk p).ino := fun equal =>
        slot (sound.directory.inodes q p _ (inodeRef_eq_some.2 ⟨live', equal⟩)
          (inodeRef_eq_some.2 ⟨live, rfl⟩))
      have nonzero := (sound.file_of_named named').2
      have view : fileView (vol'.inodes (entryAt vol disk q).ino) disk' =
          fileView (vol.inodes (entryAt vol disk q).ino) disk := by
        unfold fileView
        rw [removed.refs _ apart, removed.bytes _ apart nonzero, removed.others _ apart]
      rw [sound'.filesOf_named ((names q slot).trans named'), sound.filesOf_named named',
        removed.entries, if_neg slot]
      unfold storedFile
      rw [view, removed.others _ apart]
    · rw [filesOf_eq_none.2 fun q named' => listed ⟨q, named'⟩, filesOf_eq_none]
      intro q named'
      by_cases slot : q = p
      · rw [slot, gone] at named'
        cases named'
      · exact listed ⟨q, (names q slot).symm.trans named'⟩

end Named

/-- A flush changes no file. -/
theorem Sound.filesOf_flushed (sound : Sound count vol disk)
    (shows : FlushedTo crypto mount vol disk disk') :
    filesOf (vol.flushed crypto mount) disk' = filesOf vol disk := by
  have alike := flush_alike crypto mount sound.accounted.layout shows
  have entries := alike.entryAt_eq sound.accounted
  have names : nameRef (vol.flushed crypto mount) disk' = nameRef vol disk := by
    funext p
    rw [nameRef, nameRef, entries]
  funext name
  unfold filesOf
  rw [names]
  congr 1
  funext p
  rw [entries, (untouched_flush sound.accounted shows _).stored]

/-! ## Create -/

/-- What a create does to the files of a volume. -/
theorem Added.files (sound : Sound count vol disk) {ino : Fin 64} {now : UInt64} {name : CString}
    {p : DirentSlot}
    (added : Added count (vol.claimInode ino now) vol' disk disk' p (newEntry ino name))
    (nonzero : ino ≠ 0) (free : (vol.inodes ino).type = itypeFree) (valid : ValidName name.bytes)
    (absent : ∀ q, nameRef vol disk q ≠ some name.bytes) :
    filesOf vol' disk' =
      Function.update (filesOf vol disk) name.bytes (some ⟨Image.blank, now⟩) := by
  have sound' := added.sound sound nonzero free valid absent
  have claimed := claimInode_accounted now sound free
  have before := (claimInode_root now sound free nonzero).2
  have entries : ∀ q, entryAt vol' disk' q = if q = p then newEntry ino name else entryAt vol disk q :=
    fun q => by rw [added.entries, before]
  have here : entryAt vol' disk' p = newEntry ino name := by rw [entries, if_pos rfl]
  have names : ∀ q, q ≠ p → nameRef vol' disk' q = nameRef vol disk q := fun q apart => by
    rw [nameRef, nameRef, entries, if_neg apart]
  have dead : nameRef vol disk p = none := if_neg (before p ▸ added.dead)
  have named := nameRef_newEntry ino valid here
  funext other
  by_cases same : other = name.bytes
  · subst same
    rw [Function.update_self, sound'.filesOf_named named.1, named.2]
    have inode : vol'.inodes ino = (vol.inodes ino).newFile now := by
      rw [added.step.others ino nonzero, claimInode_self]
    have view : fileView (vol'.inodes ino) disk' = blankView := by
      apply fileView_blank
      · rw [inode]
        rfl
      · intro s
        rw [added.step.others_ref claimed nonzero, claimInode_self]
        exact newFile_fileRef _ now s
    unfold storedFile
    rw [view, blankView_image, inode]
    rfl
  · rw [Function.update_of_ne same]
    by_cases listed : ∃ q, nameRef vol disk q = some other
    · obtain ⟨q, named'⟩ := listed
      have slot : q ≠ p := by
        rintro rfl
        rw [dead] at named'
        cases named'
      have file := sound.file_of_named named'
      have apart : (entryAt vol disk q).ino ≠ ino := by
        rintro rfl
        rw [file.1] at free
        exact absurd free (by decide)
      have view : fileView (vol'.inodes (entryAt vol disk q).ino) disk' =
          fileView (vol.inodes (entryAt vol disk q).ino) disk := by
        unfold fileView
        rw [added.step.others_ref claimed file.2, added.step.others_bytes claimed file.2,
          added.step.others _ file.2, claimInode_other now apart]
      rw [sound'.filesOf_named ((names q slot).trans named'), sound.filesOf_named named', entries,
        if_neg slot]
      unfold storedFile
      rw [view, added.step.others _ file.2, claimInode_other now apart]
    · rw [filesOf_eq_none.2 fun q named' => listed ⟨q, named'⟩, filesOf_eq_none]
      intro q named'
      by_cases slot : q = p
      · rw [slot, named.1] at named'
        exact same (Option.some.inj named').symm
      · exact listed ⟨q, (names q slot).symm.trans named'⟩

/-- The time of an inode no entry leads to is no file's. -/
theorem Sound.filesOf_setMtime (sound : Sound count vol disk) {ino : Fin 64} (nonzero : ino ≠ 0)
    (free : (vol.inodes ino).type = itypeFree) (mtime : UInt64) :
    filesOf (vol.setInode ino { vol.inodes ino with mtime }) disk = filesOf vol disk := by
  have untouched := fun j (other : j ≠ ino) =>
    untouched_setInode vol disk nonzero other { vol.inodes ino with mtime }
  have sound' := sound.setMtime nonzero free mtime
  have root : (vol.setInode ino { vol.inodes ino with mtime }).inodes 0 = vol.inodes 0 :=
    Function.update_of_ne (Ne.symm nonzero) ..
  have entries : ∀ p, entryAt (vol.setInode ino { vol.inodes ino with mtime }) disk p =
      entryAt vol disk p := fun p => by rw [entryAt, entryAt, root]
  have names : ∀ p, nameRef (vol.setInode ino { vol.inodes ino with mtime }) disk p =
      nameRef vol disk p := fun p => by rw [nameRef, nameRef, entries]
  funext name
  by_cases listed : ∃ p, nameRef vol disk p = some name
  · obtain ⟨p, named⟩ := listed
    rw [sound'.filesOf_named ((names p).trans named), sound.filesOf_named named, entries,
      (untouched _ _).stored]
    intro equal
    have file := (sound.file_of_named named).1
    rw [equal, free] at file
    exact absurd file (by decide)
  · rw [filesOf_eq_none.2 fun p named => listed ⟨p, named⟩,
      filesOf_eq_none.2 fun p named => listed ⟨p, (names p).symm.trans named⟩]

/-! ## Requests -/

section Requests

variable (sound : Sound count vol disk)
include sound

theorem Sound.write_accords (now : UInt64) (path : CString) (buf : List UInt8) (offset : Int64) :
    Accords count vol disk (.write now path buf offset)
      (request crypto mount (plainDevice count) (.write now path buf offset) (vol, disk)) := by
  unfold request
  rw [serve, Prog.exec_bind_pure, fuseWrite]
  by_cases negative : offset < 0
  · rw [if_pos negative]
    exact sound.accords_refused (if_pos negative)
  rw [if_neg negative]
  cases sound.exec_onFile path fun ino => volWrite crypto mount now ino buf offset.toUInt64 with
  | inl fails =>
    obtain ⟨error, missing, returns⟩ := fails
    rw [returns]
    apply sound.accords_refused
    simp [FileStore.refusal, negative, missing]
  | inr succeeds =>
    obtain ⟨name, p, named, fine, found, returns⟩ := succeeds
    have errors := sound.writeError_named named buf.length offset.toUInt64
    have refusal : (filesOf vol disk).refusal (.write now path buf offset) =
        writeError vol (UInt32.ofNat (entryAt vol disk p).ino.val) buf.length offset.toUInt64 := by
      simp [FileStore.refusal, negative, fine, errors]
    rw [returns]
    have outcome := sound.exec_volWrite crypto mount now
      (UInt32.ofNat (entryAt vol disk p).ino.val) buf offset.toUInt64
    generalize Prog.exec (plainDevice count) _ (vol, disk) = result at outcome
    obtain ⟨sound', rootTime, stores⟩ := sound.write_stores named outcome (ofNat_ino _)
    cases stores with
    | inl rejected =>
      obtain ⟨error, rejected, same⟩ := rejected
      rw [same]
      exact sound.accords_refused (refusal.trans rejected)
    | inr accepted =>
      obtain ⟨accepted, ends⟩ := accepted
      refine ⟨sound', rootTime, ?_⟩
      cases ends with
      | inl written =>
        rw [written.1, written.2]
        exact .written (refusal.trans accepted) found
      | inr full =>
        obtain ⟨n, short, fails, files⟩ := full
        rw [fails, files]
        exact .full (refusal.trans accepted) found short

theorem Sound.truncate_accords (now : UInt64) (path : CString) (size : Int64) :
    Accords count vol disk (.truncate now path size)
      (request crypto mount (plainDevice count) (.truncate now path size) (vol, disk)) := by
  unfold request
  rw [serve, Prog.exec_bind_pure, fuseTruncate]
  by_cases negative : size < 0
  · rw [if_pos negative]
    exact sound.accords_refused (if_pos negative)
  rw [if_neg negative]
  by_cases large : maxFileSize < size.toUInt64.toNat
  · rw [if_pos large]
    apply sound.accords_refused
    simp [FileStore.refusal, negative, large]
  rw [if_neg large]
  cases sound.exec_onFile path fun ino => volTruncate crypto mount now ino size.toUInt64 with
  | inl fails =>
    obtain ⟨error, missing, returns⟩ := fails
    rw [returns]
    apply sound.accords_refused
    simp [FileStore.refusal, negative, large, missing]
  | inr succeeds =>
    obtain ⟨name, p, named, fine, found, returns⟩ := succeeds
    rw [returns]
    have outcome := sound.exec_volTruncate crypto mount now
      (UInt32.ofNat (entryAt vol disk p).ino.val) size.toUInt64
    have accepted := sound.truncateError_named named (Nat.not_lt.1 large)
    generalize Prog.exec (plainDevice count) _ (vol, disk) = result at outcome
    obtain ⟨sound', rootTime, done, files⟩ :=
      sound.truncate_stores named outcome (ofNat_ino _) accepted
    refine ⟨sound', rootTime, ?_⟩
    rw [done, files]
    exact .resized (by simp [FileStore.refusal, negative, large, fine]) found

theorem Sound.unlink_accords (path : CString) :
    Accords count vol disk (.unlink path)
      (request crypto mount (plainDevice count) (.unlink path) (vol, disk)) := by
  unfold request
  rw [serve, Prog.exec_bind_pure, fuseUnlink]
  cases onPath : pathToName path with
  | none =>
    apply sound.accords_refused
    simp [FileStore.refusal, FileStore.missing, FileStore.find, onPath]
  | some name =>
    dsimp only
    have outcome := sound.exec_volUnlink crypto mount name
    have sound' := outcome.sound sound
    generalize Prog.exec (plainDevice count) _ (vol, disk) = result at outcome sound'
    cases outcome with
    | missing absent =>
      apply sound.accords_refused
      simp [FileStore.refusal, FileStore.missing, FileStore.find, onPath, filesOf_eq_none.2 absent]
    | removed p vol₁ disk₁ disk' named removed shows =>
      have root := (sound.file_of_named named).2
      have before := removed.sound sound
      have found : (filesOf vol disk).find path =
          .ok (name.bytes, storedFile (vol.inodes (entryAt vol disk p).ino) disk) := by
        simp [FileStore.find, onPath, sound.filesOf_named named]
      refine ⟨sound', ?_, ?_⟩
      · show (vol₁.inodes 0).mtime = (vol.inodes 0).mtime
        rw [removed.others 0 (Ne.symm root)]
      · have files : filesOf (vol₁.flushed crypto mount) disk' =
            Function.update (filesOf vol disk) name.bytes none := by
          rw [before.filesOf_flushed shows]
          exact Removed.files sound named removed before
        show Allows _ _ _ _ _ (filesOf (vol₁.flushed crypto mount) disk')
        rw [files]
        exact .removed found

theorem Sound.create_accords (now : UInt64) (path : CString) :
    Accords count vol disk (.create now path)
      (request crypto mount (plainDevice count) (.create now path) (vol, disk)) := by
  unfold request
  rw [serve, Prog.exec_bind_pure, fuseCreate]
  cases onPath : pathToName path with
  | none =>
    apply sound.accords_refused
    simp [FileStore.refusal, onPath]
  | some name =>
    dsimp only
    rw [Prog.exec_bind_pure]
    have outcome := sound.exec_volCreate crypto mount now name
    have sound' := outcome.sound sound
    generalize Prog.exec (plainDevice count) _ (vol, disk) = result at outcome sound'
    have fine : ValidName name.bytes → (∀ p, nameRef vol disk p ≠ some name.bytes) →
        (filesOf vol disk).refusal (.create now path) = none := by
      intro valid absent
      simp [FileStore.refusal, onPath, valid, filesOf_eq_none.2 absent]
    cases outcome with
    | badName bad =>
      apply sound.accords_refused
      simp [FileStore.refusal, onPath, bad]
    | taken p valid named =>
      apply sound.accords_refused
      simp [FileStore.refusal, onPath, valid, sound.filesOf_named named]
    | noInode valid absent _ => exact sound.accords_same (.noSpace (fine valid absent))
    | noRoom ino valid absent nonzero free _ _ =>
      refine ⟨sound', ?_, ?_⟩
      · show (Function.update vol.inodes ino _ 0).mtime = (vol.inodes 0).mtime
        rw [Function.update_of_ne (Ne.symm nonzero)]
      · have files := sound.filesOf_setMtime nonzero free now
        show Allows _ _ _ _ _ (filesOf (vol.setInode ino _) disk)
        rw [files]
        exact .noSpace (fine valid absent)
    | created ino p vol₁ disk₁ disk' valid absent nonzero free added _ shows =>
      have before := added.sound sound nonzero free valid absent
      refine ⟨sound', ?_, ?_⟩
      · show (vol₁.inodes 0).mtime = (vol.inodes 0).mtime
        rw [added.step.inode]
        show ((vol.claimInode ino now).inodes 0).mtime = (vol.inodes 0).mtime
        rw [claimInode_other now (Ne.symm nonzero)]
      · have files : filesOf (vol₁.flushed crypto mount) disk' =
            Function.update (filesOf vol disk) name.bytes (some ⟨Image.blank, now⟩) := by
          rw [before.filesOf_flushed shows]
          exact added.files sound nonzero free valid absent
        show Allows _ _ _ _ _ (filesOf (vol₁.flushed crypto mount) disk')
        rw [files]
        exact .created (fine valid absent) onPath

/-- Every request on a sound volume is answered as the specification says. -/
theorem Sound.request_accords (crypto : Crypto) (mount : Mount) (r : Request) :
    Accords count vol disk r (request crypto mount (plainDevice count) r (vol, disk)) := by
  cases r with
  | getattr path => exact sound.getattr_accords path
  | readdir path => exact sound.readdir_accords path
  | openFile path => exact sound.open_accords path
  | read path size offset => exact sound.read_accords path size offset
  | write now path buf offset => exact sound.write_accords now path buf offset
  | create now path => exact sound.create_accords now path
  | unlink path => exact sound.unlink_accords path
  | truncate now path size => exact sound.truncate_accords now path size

end Requests

end DenyFS
