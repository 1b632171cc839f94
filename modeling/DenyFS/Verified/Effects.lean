import DenyFS.Verified.Reached

/-! # What a call does to each file

A call on a sound volume whose I/O does not fail ends in one of a few ways, and does one of a
few things to the size, the block map and the bytes of each file. -/

namespace DenyFS

open Packed BlockProgram

variable {count : Nat} {crypto : Crypto} {mount : Mount} {vol : Volume} {disk : Blocks}
  {ino j : Fin 64}

/-! ## Outcomes of calls -/

/-- How a call ended. -/
inductive CallOutcome (count : Nat) (crypto : Crypto) (mount : Mount) (vol : Volume)
    (disk : Blocks) : Call → Except Errno Reply × (Volume × Blocks) → Prop where
  | lookup {name : CString} {result : Except Errno UInt32 × (Volume × Blocks)} :
    LookupOutcome name vol disk result →
    CallOutcome count crypto mount vol disk (.lookup name) (result.1.map .ino, result.2)
  | create {now : UInt64} {name : CString} {result : Except Errno UInt32 × (Volume × Blocks)} :
    CreateOutcome count crypto mount now name vol disk result →
    CallOutcome count crypto mount vol disk (.create now name) (result.1.map .ino, result.2)
  | unlink {name : CString} {result : Except Errno Unit × (Volume × Blocks)} :
    UnlinkOutcome count crypto mount name vol disk result →
    CallOutcome count crypto mount vol disk (.unlink name) (result.1.map fun _ => .done, result.2)
  | read {number : UInt32} {size : Nat} {offset : UInt64} :
    CallOutcome count crypto mount vol disk (.read number size offset)
      ((readResult vol disk number size offset).map .data, vol, disk)
  | write {now : UInt64} {number : UInt32} {buf : List UInt8} {offset : UInt64}
      {result : Except Errno Nat × (Volume × Blocks)} :
    WriteOutcome count crypto mount now number buf offset vol disk result →
    CallOutcome count crypto mount vol disk (.write now number buf offset)
      (result.1.map .count, result.2)
  | truncate {now : UInt64} {number : UInt32} {newSize : UInt64}
      {result : Except Errno Unit × (Volume × Blocks)} :
    TruncateOutcome count crypto mount now number newSize vol disk result →
    CallOutcome count crypto mount vol disk (.truncate now number newSize)
      (result.1.map fun _ => .done, result.2)
  | readdir : CallOutcome count crypto mount vol disk .readdir
      (.ok (.names (listing vol disk)), vol, disk)
  | flush (disk' : Blocks) : FlushedTo crypto mount vol disk disk' →
    CallOutcome count crypto mount vol disk .flush (.ok .done, vol.flushed crypto mount, disk')

theorem Sound.call_outcome (sound : Sound count vol disk) (c : Call) :
    CallOutcome count crypto mount vol disk c
      (call crypto mount (plainDevice count) c (vol, disk)) := by
  unfold call
  cases c with
  | lookup name =>
    rw [perform, Prog.exec_bind_pure]
    exact .lookup (sound.lookup name)
  | create now name =>
    rw [perform, Prog.exec_bind_pure]
    exact .create (sound.exec_volCreate crypto mount now name)
  | unlink name =>
    rw [perform, Prog.exec_bind_pure]
    exact .unlink (sound.exec_volUnlink crypto mount name)
  | read number size offset =>
    rw [perform, Prog.exec_bind_pure, exec_volRead sound.accounted sound.tree.sizes]
    exact .read
  | write now number buf offset =>
    rw [perform, Prog.exec_bind_pure]
    exact .write (sound.exec_volWrite crypto mount now number buf offset)
  | truncate now number newSize =>
    rw [perform, Prog.exec_bind_pure]
    exact .truncate (sound.exec_volTruncate crypto mount now number newSize)
  | readdir =>
    rw [perform, Prog.exec_bind_pure, sound.exec_volReaddir]
    exact .readdir
  | flush =>
    rw [perform, Prog.exec_bind_pure]
    obtain ⟨disk', flushes, shows⟩ :=
      exec_volFlush_plain crypto mount sound.accounted.layout disk
    rw [flushes]
    exact .flush disk' shows

/-! ## Views of a file -/

/-- The size, the block map and the bytes of a file. -/
structure FileView where
  size : UInt64
  refs : FileSlot → Option UInt32
  bytes : Nat → UInt8

def fileView (inode : Inode) (disk : Blocks) : FileView :=
  ⟨inode.size, fileRef inode disk, byteAt inode disk⟩

def blankView : FileView := ⟨0, fun _ => none, fun _ => 0⟩

/-- An inode that maps nothing and has no size. -/
theorem of_fileView {inode : Inode} {view : FileView} (same : fileView inode disk = view) :
    inode.size = view.size ∧ fileRef inode disk = view.refs ∧ byteAt inode disk = view.bytes := by
  subst same
  exact ⟨rfl, rfl, rfl⟩

theorem fileView_blank {inode : Inode} (size : inode.size = 0)
    (unmapped : ∀ s, fileRef inode disk s = none) : fileView inode disk = blankView := by
  have refs : fileRef inode disk = fun _ => none := funext unmapped
  have bytes : byteAt inode disk = fun _ => 0 := funext fun i => byteAt_hole (unmapped _)
  unfold fileView blankView
  rw [size, refs, bytes]

theorem fileRef_setFields (inode : Inode) (disk : Blocks) (size mtime : UInt64) :
    fileRef { inode with size, mtime } disk = fileRef inode disk := by
  funext s
  cases s <;> rfl

theorem byteAt_setFields (inode : Inode) (disk : Blocks) (size mtime : UInt64) :
    byteAt { inode with size, mtime } disk = byteAt inode disk :=
  byteAt_congr (fileRef_setFields inode disk size mtime) fun _ _ _ _ => rfl

theorem fileView_setFields (inode : Inode) (disk : Blocks) (size mtime : UInt64) :
    fileView { inode with size, mtime } disk = ⟨size, fileRef inode disk, byteAt inode disk⟩ := by
  unfold fileView
  rw [fileRef_setFields, byteAt_setFields]

theorem Untouched.view {vol' : Volume} {disk' : Blocks} (untouched : Untouched vol vol' disk disk' j) :
    fileView (vol'.inodes j) disk' = fileView (vol.inodes j) disk := by
  unfold fileView
  rw [untouched.refs, untouched.bytes, untouched.inode]

/-- A flush changes no file. -/
theorem FlushedTo.view {disk' : Blocks} (accounted : Accounted count vol disk [])
    (shows : FlushedTo crypto mount vol disk disk') (j : Fin 64) :
    fileView ((vol.flushed crypto mount).inodes j) disk' = fileView (vol.inodes j) disk :=
  (untouched_flush accounted shows j).view

/-- The closing steps of write and truncate: they set size and time and flush. -/
theorem view_setMeta_flushed {disk' : Blocks} {size mtime : UInt64}
    (accounted : Accounted count vol disk [])
    (shows : FlushedTo crypto mount (vol.setMeta ino size mtime) disk disk') :
    fileView (((vol.setMeta ino size mtime).flushed crypto mount).inodes ino) disk' =
      ⟨size, fileRef (vol.inodes ino) disk, byteAt (vol.inodes ino) disk⟩ := by
  have self : (vol.setMeta ino size mtime).inodes ino = { vol.inodes ino with size, mtime } :=
    Function.update_self ..
  rw [shows.view (accounted_setMeta accounted), self, fileView_setFields]

/-- What a call did to inode `j`, given the view of it afterwards. -/
inductive Effect (vol : Volume) (disk : Blocks) (j : Fin 64) : Call → FileView → Prop where
  | same (c : Call) : Effect vol disk j c (fileView (vol.inodes j) disk)
  | created {now : UInt64} {name : CString} : (vol.inodes j).type = itypeFree →
    Effect vol disk j (.create now name) blankView
  | removed {name : CString} : Effect vol disk j (.unlink name) blankView
  | written {now : UInt64} {number : UInt32} {buf : List UInt8} {offset : UInt64}
      {after : FileView} :
    writeError vol number buf.length offset = none → inodeOf number = j →
    after.size = writtenSize (vol.inodes j).size offset.toNat buf.length →
    (∀ s, after.refs s = none ↔ fileRef (vol.inodes j) disk s = none ∧
      ∀ l ∈ touchedBlocks offset.toNat buf.length, s ∉ (place l).path) →
    (∀ i, after.bytes i =
      (chunkPatch offset.toNat buf i).getD (byteAt (vol.inodes j) disk i)) →
    Effect vol disk j (.write now number buf offset) after
  | full {now : UInt64} {number : UInt32} {buf : List UInt8} {offset : UInt64}
      {after : FileView} (m : Nat) :
    writeError vol number buf.length offset = none → inodeOf number = j →
    m < (touchedBlocks offset.toNat buf.length).length →
    (neededSlots (vol.inodes j) disk ((touchedBlocks offset.toNat buf.length).take m)).card ≤
      vol.sb.freeBlocks.toNat →
    vol.sb.freeBlocks.toNat <
      (neededSlots (vol.inodes j) disk
        ((touchedBlocks offset.toNat buf.length).take (m + 1))).card →
    after.size = (vol.inodes j).size →
    (∀ s, after.refs s = none ↔ fileRef (vol.inodes j) disk s = none ∧
      ∀ l ∈ (touchedBlocks offset.toNat buf.length).take m, s ∉ (place l).path) →
    (∀ i, after.bytes i = (chunkPatch offset.toNat (storedPart offset.toNat m buf) i).getD
      (byteAt (vol.inodes j) disk i)) →
    Effect vol disk j (.write now number buf offset) after
  | cut {now : UInt64} {number : UInt32} {newSize : UInt64} {after : FileView} :
    truncateError vol number newSize = none → inodeOf number = j →
    newSize < (vol.inodes j).size → after.size = newSize →
    (∀ s : FileSlot, s.IsData → after.refs s =
      if s.logical < (newSize.toNat + 4095) / 4096 then fileRef (vol.inodes j) disk s else none) →
    (∀ i, after.bytes i = if i < newSize.toNat then byteAt (vol.inodes j) disk i else 0) →
    Effect vol disk j (.truncate now number newSize) after
  | grown {now : UInt64} {number : UInt32} {newSize : UInt64} :
    truncateError vol number newSize = none → inodeOf number = j →
    (vol.inodes j).size < newSize →
    Effect vol disk j (.truncate now number newSize)
      ⟨newSize, fileRef (vol.inodes j) disk, byteAt (vol.inodes j) disk⟩

section Outcomes

variable (sound : Sound count vol disk) (file : j ≠ 0)
include sound

theorem WriteOutcome.effect {now : UInt64} {number : UInt32} {buf : List UInt8} {offset : UInt64}
    {result : Except Errno Nat × (Volume × Blocks)}
    (outcome : WriteOutcome count crypto mount now number buf offset vol disk result) :
    Effect vol disk j (.write now number buf offset) (fileView (result.2.1.inodes j) result.2.2) := by
  by_cases named : inodeOf number = j
  case neg =>
    rw [(outcome.untouched sound fun _ => Ne.symm named).view]
    exact .same _
  subst named
  cases outcome with
  | rejected error _ => exact .same _
  | written vol₁ disk₁ disk' accepted stored shows =>
    dsimp only
    rw [view_setMeta_flushed stored.step.accounted shows]
    exact .written accepted rfl rfl stored.refs stored.bytes
  | full m vol₁ disk₁ accepted stops stored full =>
    have spent := stored.spent
    have size : (vol₁.inodes (inodeOf number)).size = (vol.inodes (inodeOf number)).size := by
      rw [stored.step.inode]
    exact .full m accepted rfl stops (by omega) full size stored.refs stored.bytes

theorem TruncateOutcome.effect {now : UInt64} {number : UInt32} {newSize : UInt64}
    {result : Except Errno Unit × (Volume × Blocks)}
    (outcome : TruncateOutcome count crypto mount now number newSize vol disk result) :
    Effect vol disk j (.truncate now number newSize)
      (fileView (result.2.1.inodes j) result.2.2) := by
  by_cases named : inodeOf number = j
  case neg =>
    rw [(outcome.untouched sound fun _ => Ne.symm named).view]
    exact .same _
  subst named
  cases outcome with
  | rejected error _ => exact .same _
  | same _ _ => exact .same _
  | resized vol₁ disk₁ disk' accepted other cut shows =>
    dsimp only
    unfold CutTo at cut
    by_cases shorter : newSize < (vol.inodes (inodeOf number)).size
    · rw [if_pos shorter] at cut
      rw [view_setMeta_flushed cut.step.accounted shows]
      exact .cut accepted rfl shorter rfl cut.data cut.bytes
    · rw [if_neg shorter] at cut
      obtain ⟨rfl, rfl⟩ := cut
      rw [view_setMeta_flushed sound.accounted shows]
      refine .grown accepted rfl ?_
      rw [UInt64.lt_iff_toNat_lt] at shorter ⊢
      have apart : newSize.toNat ≠ (vol₁.inodes (inodeOf number)).size.toNat :=
        fun same => other (UInt64.toNat_inj.1 same)
      omega

include file

theorem CreateOutcome.effect {now : UInt64} {name : CString}
    {result : Except Errno UInt32 × (Volume × Blocks)}
    (outcome : CreateOutcome count crypto mount now name vol disk result) :
    Effect vol disk j (.create now name) (fileView (result.2.1.inodes j) result.2.2) := by
  cases outcome with
  | badName _ => exact .same _
  | taken p _ _ => exact .same _
  | noInode _ _ _ => exact .same _
  | noRoom ino _ _ root free _ _ =>
    dsimp only
    by_cases here : j = ino
    · subst here
      have self : (vol.setInode j { vol.inodes j with mtime := now }).inodes j =
          { vol.inodes j with size := (vol.inodes j).size, mtime := now } := Function.update_self ..
      rw [self, fileView_setFields]
      exact .same _
    · rw [(untouched_setInode vol disk root here _).view]
      exact .same _
  | created ino p vol₁ disk₁ disk' valid absent root free added _ shows =>
    dsimp only
    rw [shows.view added.step.accounted]
    have claimed := claimInode_accounted now sound free
    have refs := added.step.others_ref claimed file
    have same : vol₁.inodes j = (vol.claimInode ino now).inodes j := added.step.others j file
    by_cases here : j = ino
    · subst here
      have blank : fileView (vol₁.inodes j) disk₁ = blankView := by
        refine fileView_blank ?_ fun s => ?_
        · rw [same, claimInode_self]
          rfl
        · rw [refs, claimInode_self]
          exact newFile_fileRef _ now s
      rw [blank]
      exact .created free
    · have bytes := added.step.others_bytes claimed file
      have kept : fileView (vol₁.inodes j) disk₁ = fileView (vol.inodes j) disk := by
        unfold fileView
        rw [refs, bytes, same, claimInode_other now here]
      rw [kept]
      exact .same _

omit sound in
theorem UnlinkOutcome.effect {name : CString} {result : Except Errno Unit × (Volume × Blocks)}
    (outcome : UnlinkOutcome count crypto mount name vol disk result) :
    Effect vol disk j (.unlink name) (fileView (result.2.1.inodes j) result.2.2) := by
  cases outcome with
  | missing _ => exact .same _
  | removed p vol₁ disk₁ disk' named removed shows =>
    dsimp only
    rw [shows.view removed.accounted]
    by_cases here : j = (entryAt vol disk p).ino
    · subst here
      rw [fileView_blank removed.blank.size fun s => removed.blank.fileRef_eq_none disk₁ s]
      exact .removed
    · have kept : fileView (vol₁.inodes j) disk₁ = fileView (vol.inodes j) disk := by
        unfold fileView
        rw [removed.refs j here, removed.bytes j here file, removed.others j here]
      rw [kept]
      exact .same _

/-- Each inode but the root directory's under any call. -/
theorem CallOutcome.effect {c : Call} {result : Except Errno Reply × (Volume × Blocks)}
    (outcome : CallOutcome count crypto mount vol disk c result) :
    Effect vol disk j c (fileView (result.2.1.inodes j) result.2.2) := by
  cases outcome with
  | lookup ends =>
    dsimp only
    rw [ends.unchanged.1]
    exact .same _
  | create ends => exact ends.effect sound file
  | unlink ends => exact ends.effect file
  | read => exact .same _
  | write ends => exact ends.effect sound
  | truncate ends => exact ends.effect sound
  | readdir => exact .same _
  | flush disk' shows =>
    dsimp only
    rw [shows.view sound.accounted]
    exact .same _

end Outcomes

/-! ## The directory -/

/-- The directory entries and the types of the inodes are as before. -/
structure SameDirectory (vol vol' : Volume) (disk disk' : Blocks) : Prop where
  entries : ∀ p, entryAt vol' disk' p = entryAt vol disk p
  types : ∀ j, (vol'.inodes j).type = (vol.inodes j).type

namespace SameDirectory

variable {vol' vol'' : Volume} {disk' disk'' : Blocks}

theorem refl (vol : Volume) (disk : Blocks) : SameDirectory vol vol disk disk :=
  ⟨fun _ => rfl, fun _ => rfl⟩

theorem trans (first : SameDirectory vol vol' disk disk')
    (second : SameDirectory vol' vol'' disk' disk'') : SameDirectory vol vol'' disk disk'' :=
  ⟨fun p => (second.entries p).trans (first.entries p),
    fun j => (second.types j).trans (first.types j)⟩

theorem ofStep (step : FileStep count vol vol' disk disk' ino)
    (accounted : Accounted count vol disk []) (file : ino ≠ 0) :
    SameDirectory vol vol' disk disk' := by
  constructor
  · exact step.entryAt_eq accounted file
  · intro j
    by_cases here : j = ino
    · rw [here, step.inode]
    · rw [step.others j here]

theorem ofAlike (alike : Alike vol vol' disk disk') (accounted : Accounted count vol disk []) :
    SameDirectory vol vol' disk disk' :=
  ⟨alike.entryAt_eq accounted, fun j => by rw [alike.inodes]⟩

theorem setMeta (vol : Volume) (disk : Blocks) (file : ino ≠ 0) (size mtime : UInt64) :
    SameDirectory vol (vol.setMeta ino size mtime) disk disk := by
  have root : (vol.setMeta ino size mtime).inodes 0 = vol.inodes 0 :=
    Function.update_of_ne (Ne.symm file) ..
  constructor
  · intro p
    unfold entryAt
    rw [root]
  · intro j
    by_cases here : j = ino
    · subst here
      unfold Volume.setMeta
      rw [Volume.setInode_inodes, Function.update_self]
    · unfold Volume.setMeta
      rw [Volume.setInode_inodes, Function.update_of_ne here]

/-- The closing steps of write and truncate. -/
theorem closed (same : SameDirectory vol vol' disk disk') (accounted : Accounted count vol' disk' [])
    (file : ino ≠ 0) {size mtime : UInt64}
    (shows : FlushedTo crypto mount (vol'.setMeta ino size mtime) disk' disk'') :
    SameDirectory vol ((vol'.setMeta ino size mtime).flushed crypto mount) disk disk'' := by
  have set : Accounted count (vol'.setMeta ino size mtime) disk' [] := accounted_setMeta accounted
  exact same.trans ((setMeta vol' disk' file size mtime).trans
    (ofAlike (flush_alike crypto mount set.layout shows) set))

end SameDirectory

theorem WriteOutcome.sameDirectory (sound : Sound count vol disk) {now : UInt64} {number : UInt32}
    {buf : List UInt8} {offset : UInt64} {result : Except Errno Nat × (Volume × Blocks)}
    (outcome : WriteOutcome count crypto mount now number buf offset vol disk result) :
    SameDirectory vol result.2.1 disk result.2.2 := by
  cases outcome with
  | rejected error _ => exact .refl vol disk
  | written vol₁ disk₁ disk' accepted stored shows =>
    have file := sound.tree.ne_root (of_writeError_none accepted).2.1
    exact (SameDirectory.ofStep stored.step sound.accounted file).closed stored.step.accounted
      file shows
  | full m vol₁ disk₁ accepted _ stored _ =>
    exact .ofStep stored.step sound.accounted
      (sound.tree.ne_root (of_writeError_none accepted).2.1)

theorem TruncateOutcome.sameDirectory (sound : Sound count vol disk) {now : UInt64}
    {number : UInt32} {newSize : UInt64} {result : Except Errno Unit × (Volume × Blocks)}
    (outcome : TruncateOutcome count crypto mount now number newSize vol disk result) :
    SameDirectory vol result.2.1 disk result.2.2 := by
  cases outcome with
  | rejected error _ => exact .refl vol disk
  | same _ _ => exact .refl vol disk
  | resized vol₁ disk₁ disk' accepted other cut shows =>
    have file := sound.tree.ne_root (of_truncateError_none accepted).2.1
    unfold CutTo at cut
    split at cut
    · exact (SameDirectory.ofStep cut.step sound.accounted file).closed cut.step.accounted file
        shows
    · obtain ⟨rfl, rfl⟩ := cut
      exact (SameDirectory.refl vol₁ disk₁).closed sound.accounted file shows

end DenyFS
