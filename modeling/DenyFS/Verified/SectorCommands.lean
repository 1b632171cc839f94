import DenyFS.Model.Commands
import DenyFS.Verified.Stores

/-! # Raw sectors

`write-sector` and `read-sector` reach the blocks of a volume past its filesystem.  They agree with
each other, whatever I/O fails in between, and with the filesystem: a sector that belongs to a file
is a part of that file. -/

namespace DenyFS

open Packed BlockProgram SparseFile Refinement

variable {crypto : Crypto} {mount : Mount} {container : Container} {password : List UInt8}
  {lba : UInt64}

/-! ## The volume of a command -/

/-- What a password opens in a container when no protection is asked for. -/
structure OpensPlain (crypto : Crypto) (container : Container) (password : List UInt8)
    (mount : Mount) : Prop where
  sized : container.WellSized
  mounted : container.mountFor crypto password none false = some mount
  loadable : Loadable crypto mount (mount.blocks crypto container)

theorem OpensPlain.of_opened (roundTrip : crypto.SectorRoundTrip) {vol : Volume} {disk disk' : Disk}
    (opened : volOpen crypto password none false disk = (some (mount, vol), disk')) :
    OpensPlain crypto disk.container password mount ∧ disk'.container = disk.container := by
  obtain ⟨sized, mounted, _⟩ := volOpen_some opened
  obtain ⟨same, _, _, loadable⟩ := volOpen_loaded roundTrip opened
  exact ⟨⟨sized, mounted, loadable⟩, same⟩

section Opens

variable (opens : OpensPlain crypto container password mount)
include opens

theorem OpensPlain.placed : mount.Placed container.size :=
  mountFor_placed opens.sized opens.mounted

/-- A sector below the end of the volume is one of its blocks, and its offset does not wrap. -/
theorem OpensPlain.sector (below : ¬mount.volumeSize / 4096 ≤ lba) :
    ∃ block : UInt32, block.toUInt64 = lba ∧ mount.Inside block ∧
      (mount.volStartOffset + lba * 4096).toNat =
        mount.volStartOffset.toNat + block.toNat * 4096 := by
  have few : mount.blockCount < 2 ^ 32 := opens.loadable.superblock.layout.count_lt
  rw [UInt64.le_iff_toNat_le, UInt64.toNat_div, Nat.not_le] at below
  have small : lba.toNat < mount.blockCount := below
  have narrow : lba.toNat < UInt32.size := small.trans few
  have same : (UInt32.ofNat lba.toNat).toUInt64 = lba := by
    apply UInt64.toNat_inj.1
    rw [UInt32.toNat_toUInt64, UInt32.toNat_ofNat_of_lt' narrow]
  have inside : mount.Inside (UInt32.ofNat lba.toNat) := by
    unfold Mount.Inside
    rw [UInt32.toNat_ofNat_of_lt' narrow]
    exact small
  refine ⟨UInt32.ofNat lba.toNat, same, inside, ?_⟩
  have offset := opens.placed.blockOffset_toNat inside
  unfold blockOffset at offset
  rwa [same] at offset

/-- The password opens the same volume in a container with the same headers. -/
theorem OpensPlain.mounts_same {other : Container} (size : other.size = container.size)
    (kept : ∀ i < container.size, ¬mount.Range i → other.byte i = container.byte i) :
    other.mountFor crypto password none false = some mount := by
  have placed := opens.placed
  have start : Carries container ⟨container, []⟩ := ⟨rfl, rfl, rfl, rfl⟩
  have after : Carries container ⟨other, []⟩ := by
    apply start.after opens.sized size rfl
    intro i header inFile
    apply kept i inFile
    intro inRange
    have first := placed.afterHeader
    have last := placed.beforeTail
    have lower := inRange.1
    have upper := inRange.2
    omega
  exact (after.mountFor password none false).trans opens.mounted

end Opens

/-! ## Writing a sector -/

/-- What `write-sector` can do: nothing, or store one encrypted sector of the volume. -/
inductive WritesSector (crypto : Crypto) (password : List UInt8) (lba : UInt64)
    (dataFile : Option (List UInt8)) (disk : Disk) : Outcome × Disk → Prop where
  | refused {outcome : Outcome} {disk' : Disk} : outcome.status = 1 →
    disk'.container = disk.container → WritesSector crypto password lba dataFile disk (outcome, disk')
  | written {outcome : Outcome} {disk' : Disk} {mount : Mount} {block : UInt32} {bytes : List UInt8}
      (fits : mount.volStartOffset.toNat + block.toNat * 4096 + 4096 ≤ longMax) :
    outcome.status = 0 → OpensPlain crypto disk.container password mount → block.toUInt64 = lba →
    mount.Inside block → dataFile = some bytes →
    disk'.container = disk.container.store (mount.volStartOffset.toNat + block.toNat * 4096)
      (crypto.xtsEncrypt mount.volumeKey block.toUInt64 (paddedSector bytes)) fits →
    WritesSector crypto password lba dataFile disk (outcome, disk')

theorem handleWriteSector_cases (roundTrip : crypto.SectorRoundTrip) (password : List UInt8)
    (lba : UInt64) (dataFile : Option (List UInt8)) (strerror : List UInt8) (disk : Disk) :
    WritesSector crypto password lba dataFile disk
      (handleWriteSector crypto password lba dataFile strerror disk) := by
  have kept := volOpen_container crypto password none false disk
  unfold handleWriteSector
  split
  next disk' refused =>
    rw [refused] at kept
    exact .refused (Outcome.failed_status _ _) kept
  next mount vol disk' opened =>
    obtain ⟨opens, same⟩ := OpensPlain.of_opened roundTrip opened
    dsimp only
    split
    · exact .refused (Outcome.failed_status _ _) same
    next below =>
      split
      · exact .refused (Outcome.failed_status _ _) same
      next bytes =>
        obtain ⟨block, isLba, inside, offset⟩ := opens.sector below
        rw [offset]
        have stored := disk'.fwrite_cases (mount.volStartOffset.toNat + block.toNat * 4096)
          (crypto.xtsEncrypt mount.volumeKey lba (paddedSector bytes))
        split
        next disk'' fails =>
          rw [fails] at stored
          cases stored with
          | inl unchanged => exact .refused (Outcome.failed_status _ _) (unchanged.1.trans same)
          | inr stored =>
            obtain ⟨_, done, _⟩ := stored
            cases done
        next disk'' done =>
          rw [done] at stored
          cases stored with
          | inl unchanged => cases unchanged.2
          | inr stored =>
            obtain ⟨fits, _, after⟩ := stored
            rw [same] at after
            subst isLba
            exact .written fits (Outcome.succeeded_status _) opens rfl inside rfl after

/-! ## Reading a sector -/

/-- What `read-sector` can do: nothing, or leave the decrypted sector in its output file. -/
inductive ReadsSector (crypto : Crypto) (password : List UInt8) (lba : UInt64) (disk : Disk) :
    (Outcome × Option (List UInt8)) × Disk → Prop where
  | refused {outcome : Outcome} {disk' : Disk} : outcome.status = 1 →
    disk'.container = disk.container → ReadsSector crypto password lba disk ((outcome, none), disk')
  | shown {outcome : Outcome} {disk' : Disk} {mount : Mount} {block : UInt32} :
    outcome.status = 0 → disk'.container = disk.container →
    OpensPlain crypto disk.container password mount → block.toUInt64 = lba → mount.Inside block →
    ReadsSector crypto password lba disk
      ((outcome, some (List.ofFn (mount.blocks crypto disk.container block))), disk')

theorem handleReadSector_cases (roundTrip : crypto.SectorRoundTrip) (password : List UInt8)
    (lba : UInt64) (outOpens : Bool) (strerror : List UInt8) (disk : Disk) :
    ReadsSector crypto password lba disk
      (handleReadSector crypto password lba outOpens strerror disk) := by
  have kept := volOpen_container crypto password none false disk
  unfold handleReadSector
  split
  next disk' refused =>
    rw [refused] at kept
    exact .refused (Outcome.failed_status _ _) kept
  next mount vol disk' opened =>
    obtain ⟨opens, same⟩ := OpensPlain.of_opened roundTrip opened
    dsimp only
    split
    · exact .refused (Outcome.failed_status _ _) same
    next below =>
      obtain ⟨block, isLba, inside, offset⟩ := opens.sector below
      have inFile := opens.placed.end_le inside
      rw [← same] at inFile
      rw [offset, disk'.fread_inside inFile]
      have after : disk'.afterIo.container = disk.container :=
        (Disk.afterIo_container disk').trans same
      cases disk'.ioFails with
      | true => exact .refused (Outcome.failed_status _ _) after
      | false =>
        cases outOpens with
        | false => exact .refused (Outcome.failed_status _ _) after
        | true =>
          have here : block.toNat < mount.blockCount := inside
          have shows : mount.blocks crypto disk.container block = crypto.xtsDecrypt mount.volumeKey lba
              (disk'.container.sectorAt (mount.volStartOffset.toNat + block.toNat * 4096)) := by
            unfold Mount.blocks
            rw [if_pos here, isLba, same]
          simp only [Bool.false_eq_true, if_false, if_true, ← shows]
          exact .shown (Outcome.succeeded_status _) after opens isLba inside

/-! ## Commands in sequence -/

/-- A command on one sector, with the text of `strerror` and the I/O failures it meets. -/
inductive SectorCommand where
  | writeSector (lba : UInt64) (dataFile : Option (List UInt8)) (strerror : List UInt8)
    (faults : List Bool)
  | readSector (lba : UInt64) (outOpens : Bool) (strerror : List UInt8) (faults : List Bool)

/-- A command opens the container anew; it answers with its outcome and its output file. -/
def sectorCommand (crypto : Crypto) (password : List UInt8) (command : SectorCommand)
    (container : Container) : (Outcome × Option (List UInt8)) × Container :=
  match command with
  | .writeSector lba dataFile strerror faults =>
    let result := handleWriteSector crypto password lba dataFile strerror ⟨container, faults⟩
    ((result.1, none), result.2.container)
  | .readSector lba outOpens strerror faults =>
    let result := handleReadSector crypto password lba outOpens strerror ⟨container, faults⟩
    (result.1, result.2.container)

/-- Numbered sectors: a command fails, stores its sector or shows one. -/
inductive SectorAllows (sectors : Blocks) :
    SectorCommand → Outcome × Option (List UInt8) → Blocks → Prop where
  | refused {command : SectorCommand} {outcome : Outcome} : outcome.status = 1 →
    SectorAllows sectors command (outcome, none) sectors
  | written {block : UInt32} {bytes strerror : List UInt8} {faults : List Bool} {outcome : Outcome} :
    outcome.status = 0 →
    SectorAllows sectors (.writeSector block.toUInt64 (some bytes) strerror faults) (outcome, none)
      (Function.update sectors block (paddedSector bytes))
  | shown {block : UInt32} {outOpens : Bool} {strerror : List UInt8} {faults : List Bool}
    {outcome : Outcome} : outcome.status = 0 →
    SectorAllows sectors (.readSector block.toUInt64 outOpens strerror faults)
      (outcome, some (List.ofFn (sectors block))) sectors

/-- The container of a volume after commands on its sectors. -/
structure SectorsAre (crypto : Crypto) (mount : Mount) (password : List UInt8) (base : Container)
    (container : Container) (sectors : Blocks) : Prop where
  size : container.size = base.size
  mounted : container.mountFor crypto password none false = some mount
  outside : ∀ i < base.size, ¬mount.Range i → container.byte i = base.byte i
  sectors : sectors = mount.blocks crypto container

theorem SectorsAre.same {base container container' : Container} {sectors : Blocks}
    (are : SectorsAre crypto mount password base container sectors)
    (same : container' = container) : SectorsAre crypto mount password base container' sectors := by
  rw [same]
  exact are

/-- A sector of the volume is stored. -/
theorem SectorsAre.stored (roundTrip : crypto.SectorRoundTrip) {base container : Container}
    {sectors : Blocks} (are : SectorsAre crypto mount password base container sectors)
    (opens : OpensPlain crypto container password mount) {block : UInt32}
    (inside : mount.Inside block) (data : Sector)
    (fits : mount.volStartOffset.toNat + block.toNat * 4096 + 4096 ≤ longMax) :
    SectorsAre crypto mount password base
      (container.store (mount.volStartOffset.toNat + block.toNat * 4096)
        (crypto.xtsEncrypt mount.volumeKey block.toUInt64 data) fits)
      (Function.update sectors block data) := by
  have placed := opens.placed
  have inFile := placed.end_le inside
  have here : block.toNat < mount.volumeSize.toNat / 4096 := inside
  have size := container.store_size (crypto.xtsEncrypt mount.volumeKey block.toUInt64 data) fits inFile
  have outside : ∀ i < container.size, ¬mount.Range i →
      (container.store (mount.volStartOffset.toNat + block.toNat * 4096)
        (crypto.xtsEncrypt mount.volumeKey block.toUInt64 data) fits).byte i = container.byte i := by
    intro i below notMine
    apply container.byte_store_outside _ fits below
    rintro ⟨lower, upper⟩
    apply notMine
    constructor <;> omega
  constructor
  · exact size.trans are.size
  · exact opens.mounts_same size outside
  · intro i below notMine
    rw [outside i (by rw [are.size]; exact below) notMine, are.outside i below notMine]
  · rw [are.sectors, blocks_store roundTrip placed inside]

/-- Each command on the sectors of a volume is one on numbered sectors. -/
theorem sectorCommand_refines (roundTrip : crypto.SectorRoundTrip) (base : Container) :
    Refines (sectorCommand crypto password)
      (fun command before answer after => SectorAllows before command answer after) (fun _ _ => True)
      (SectorsAre crypto mount password base) := by
  intro command container sectors are _
  cases command with
  | writeSector lba dataFile strerror faults =>
    have cases := handleWriteSector_cases roundTrip password lba dataFile strerror ⟨container, faults⟩
    dsimp only [sectorCommand]
    generalize handleWriteSector crypto password lba dataFile strerror ⟨container, faults⟩ = result
      at cases ⊢
    cases cases with
    | refused failed same => exact ⟨sectors, .refused failed, are.same same⟩
    | @written outcome disk' mount' block bytes fits done opens isLba inside file after =>
      obtain rfl : mount' = mount := Option.some.inj (opens.mounted.symm.trans are.mounted)
      subst isLba file
      refine ⟨Function.update sectors block (paddedSector bytes), .written done, ?_⟩
      dsimp only at after ⊢
      rw [after]
      exact are.stored roundTrip opens inside _ fits
  | readSector lba outOpens strerror faults =>
    have cases := handleReadSector_cases roundTrip password lba outOpens strerror ⟨container, faults⟩
    dsimp only [sectorCommand]
    generalize handleReadSector crypto password lba outOpens strerror ⟨container, faults⟩ = result
      at cases ⊢
    cases cases with
    | refused failed same => exact ⟨sectors, .refused failed, are.same same⟩
    | @shown outcome disk' mount' block done same opens isLba inside =>
      obtain rfl : mount' = mount := Option.some.inj (opens.mounted.symm.trans are.mounted)
      subst isLba
      refine ⟨sectors, ?_, are.same same⟩
      rw [← are.sectors]
      exact .shown done

/-- Commands on the sectors of one volume, whatever I/O fails under them: those that succeed read
and write numbered sectors, those that fail change nothing, and no byte outside of the volume ever
changes. -/
theorem sector_commands_refine_sectors (roundTrip : crypto.SectorRoundTrip) {container : Container}
    (mounted : container.mountFor crypto password none false = some mount)
    (commands : List SectorCommand) :
    let after := Machine.run (sectorCommand crypto password) commands container
    Traces (fun command before answer after => SectorAllows before command answer after) commands
        (mount.blocks crypto container) after.1 (mount.blocks crypto after.2) ∧
      after.2.size = container.size ∧
      ∀ i < container.size, ¬mount.Range i → after.2.byte i = container.byte i := by
  intro after
  have start : SectorsAre crypto mount password container container (mount.blocks crypto container) :=
    ⟨rfl, mounted, fun _ _ _ => rfl, rfl⟩
  obtain ⟨last, trace, are⟩ := (sectorCommand_refines roundTrip container).run start
    (meetsAll_of_mem (fun _ _ _ => trivial) _)
  rw [are.sectors] at trace
  exact ⟨trace, are.size, are.outside⟩

theorem sector_commands_refine_sectors_small :
    ∃ disk, smallContainer 4 = some disk ∧
      let mount := outerMount zeroRandomness 4
      let commands : List SectorCommand :=
        [.writeSector 200 (some [1, 2, 3]) [] [], .readSector 200 true [] [true],
          .readSector 200 true [] []]
      let after := Machine.run (sectorCommand transparentCrypto [1]) commands disk.container
      Traces (fun command before answer after => SectorAllows before command answer after) commands
          (mount.blocks transparentCrypto disk.container) after.1
          (mount.blocks transparentCrypto after.2) ∧
        after.2.size = disk.container.size ∧
        ∀ i < disk.container.size, ¬mount.Range i → after.2.byte i = disk.container.byte i := by
  obtain ⟨disk, _, made, _, hosts, _⟩ := smallContainer_written
  exact ⟨disk, made, sector_commands_refine_sectors transparentCrypto_sectors
    (hosts.mountFor transparentCrypto_headers none) _⟩

/-! ## Sectors and files -/

/-- The block is the one at index `l` of the file `name`. -/
def HasBlock (vol : Volume) (disk : Blocks) (name : List UInt8) (l : Nat) (block : UInt32) : Prop :=
  l < maxFileBlocks ∧ ∃ p, nameRef vol disk p = some name ∧
    fileRef (vol.inodes (entryAt vol disk p).ino) disk (place l) = some block

/-- A block that is not metadata, no table and no part of the directory. -/
structure Loose (vol : Volume) (disk : Blocks) (block : UInt32) : Prop where
  inData : vol.sb.dataStart.toNat ≤ block.toNat
  refs : ∀ j s, fileRef (vol.inodes j) disk s = some block → j ≠ 0 ∧ ¬s.IsTable

/-- A sector in a loose block leaves the tables and the directory as they are. -/
theorem Loose.same_update {vol : Volume} {disk : Blocks} {block : UInt32} (loose : Loose vol disk block)
    (data : Sector) (j : Fin 64) (s : FileSlot) (b : UInt32)
    (points : fileRef (vol.inodes j) disk s = some b) (kept : j = 0 ∨ s.IsTable) :
    Function.update disk block data b = disk b := by
  apply Function.update_of_ne
  rintro rfl
  obtain ⟨file, isData⟩ := loose.refs j s points
  cases kept with
  | inl root => exact file root
  | inr isTable => exact isData isTable

section Rewriting

variable {blocks : Blocks} {block : UInt32} (loadable : Loadable crypto mount blocks)
include loadable

theorem Loadable.loaded_update (inData : (loadedVolume blocks).sb.dataStart.toNat ≤ block.toNat)
    (data : Sector) : loadedVolume (Function.update blocks block data) = loadedVolume blocks := by
  apply loadedVolume_congr loadable.superblock.layout
  intro other before
  apply Function.update_of_ne
  rintro rfl
  omega

/-- The volume opens again with another sector in a loose block. -/
theorem Loadable.update (loose : Loose (loadedVolume blocks) blocks block) (data : Sector) :
    Loadable crypto mount (Function.update blocks block data) := by
  have loaded := loadable.loaded_update loose.inData data
  have same := loose.same_update data
  have refs : ∀ j, fileRef ((loadedVolume blocks).inodes j) (Function.update blocks block data) =
      fileRef ((loadedVolume blocks).inodes j) blocks := fun j =>
    funext (fileRef_congr fun s isTable b points => same j s b points (.inr isTable))
  constructor
  · rw [loaded]
    exact loadable.superblock
  · rw [loaded]
    exact loadable.hmac
  · rw [loaded]
    refine ⟨loadable.wellFormed.sound.rewritten same, fun j nonzero s isData mapped => ?_⟩
    rw [refs] at mapped
    exact loadable.wellFormed.within j nonzero s isData mapped

end Rewriting

theorem touchedBlocks_sector (l : Nat) : touchedBlocks (4096 * l) 4096 = [l] := by
  have first : 4096 * l / 4096 = l := by omega
  have last : (4096 * l + 4096 - 1) / 4096 - l + 1 = 1 := by omega
  unfold touchedBlocks
  rw [first, if_neg (by decide), last]
  rfl

theorem chunkPatch_sector (l : Nat) (data : Sector) (i : Nat) :
    chunkPatch (4096 * l) (List.ofFn data) i =
      if i / 4096 = l then some (data (Fin.ofNat 4096 i)) else none := by
  unfold chunkPatch
  by_cases here : i / 4096 = l
  · have lower : 4096 * l ≤ i := by omega
    have inside : i - 4096 * l < 4096 := by omega
    have same : (⟨i - 4096 * l, inside⟩ : Fin 4096) = Fin.ofNat 4096 i := by
      apply Fin.ext
      show i - 4096 * l = i % 4096
      omega
    rw [if_pos here, if_pos lower, List.getElem?_ofFn, dif_pos inside, same]
  · rw [if_neg here]
    split
    next lower =>
      rw [List.getElem?_ofFn, dif_neg]
      omega
    next => rfl

section Files

variable {count : Nat} {vol : Volume} {disk : Blocks} {j : Fin 64} {l : Nat} {block : UInt32}
  (sound : Sound count vol disk)
include sound

/-- A sector in a block of a file is that much of a write. -/
theorem Sound.stored_sector (small : l < maxFileBlocks)
    (points : fileRef (vol.inodes j) disk (place l) = some block) (data : Sector) :
    Stored count vol vol disk (Function.update disk block data) j [l]
      (chunkPatch (4096 * l) (List.ofFn data)) := by
  have mapped : ∀ k ∈ [l], fileRef (vol.inodes j) disk (place k) ≠ none := by
    intro k listed
    rw [List.mem_singleton.1 listed, points]
    exact Option.some_ne_none block
  have start := Stored.start sound.accounted (sound.counted j) (sound.compact j) mapped
  apply (start.write small List.mem_cons_self points data).with_patch
  intro i
  rw [chunkPatch_sector]

theorem Sound.image_sector (small : l < 1048576)
    (points : fileRef (vol.inodes j) disk (place l) = some block) (data : Sector) :
    (fileView (vol.inodes j) (Function.update disk block data)).image =
      (fileView (vol.inodes j) disk).image.store (4096 * l) (List.ofFn data) := by
  have limits : maxFileSize = 4096 * 1048576 ∧ maxFileBlocks = 1049620 := ⟨rfl, rfl⟩
  have stored := sound.stored_sector (by omega) points data
  have length : (List.ofFn data).length = 4096 := List.length_ofFn
  apply image_partly
  · rw [length]
    omega
  · rfl
  · rw [length, touchedBlocks_sector]
    exact stored.refs
  · exact stored.bytes

/-- The other files have no part in a block of this one. -/
theorem Sound.other_sector (file : j ≠ 0) (small : l < maxFileBlocks)
    (points : fileRef (vol.inodes j) disk (place l) = some block) (data : Sector) {k : Fin 64}
    (other : k ≠ j) :
    storedFile (vol.inodes k) (Function.update disk block data) = storedFile (vol.inodes k) disk :=
  ((sound.stored_sector small points data).step.untouched sound.accounted file other).stored

/-- A block of a file is loose. -/
theorem Sound.loose (file : j ≠ 0) (points : fileRef (vol.inodes j) disk (place l) = some block) :
    Loose vol disk block := by
  constructor
  · exact UInt32.le_iff_toNat_le.1 (sound.accounted.allocated_of_fileRef points).1
  · intro k s same
    have slot := sound.accounted.ledger.injective (s := (k, s)) (t := (j, place l)) same points
    obtain ⟨rfl, rfl⟩ := Prod.mk.inj slot
    exact ⟨file, fun isTable => isTable.not_isData (place_isData l)⟩

/-- A block nobody uses is loose, and no file shows what it holds. -/
theorem Sound.loose_of_free (inData : vol.sb.dataStart.toNat ≤ block.toNat)
    (free : ¬vol.allocated block) : Loose vol disk block :=
  ⟨inData, fun _ _ points => absurd (sound.accounted.allocated_of_fileRef points) free⟩

theorem Sound.filesOf_free (free : ¬vol.allocated block) (data : Sector) :
    filesOf vol (Function.update disk block data) = filesOf vol disk := by
  have kept : ∀ b, vol.allocated b → Function.update disk block data b = disk b := by
    intro b inUse
    apply Function.update_of_ne
    rintro rfl
    exact free inUse
  have alike : Alike vol vol disk (Function.update disk block data) := ⟨rfl, rfl, rfl, kept⟩
  have entries := alike.entryAt_eq sound.accounted
  funext name
  unfold filesOf nameRef
  simp only [entries, (alike.untouched sound.accounted _).stored]

end Files

/-- The blocks of a file have few enough numbers for its size. -/
theorem WellFormed.small {count : Nat} {vol : Volume} {disk : Blocks} (formed : WellFormed count vol disk)
    {j : Fin 64} (file : j ≠ 0) {l : Nat} (small : l < maxFileBlocks)
    (mapped : fileRef (vol.inodes j) disk (place l) ≠ none) : l < 1048576 := by
  have within := formed.within j file _ (place_isData l) mapped
  have size := formed.sound.tree.sizes j
  have limit : maxFileSize = 4096 * 1048576 := rfl
  rw [logical_place small] at within
  omega

section Edits

variable {blocks : Blocks} {name : List UInt8} {l : Nat} {block : UInt32}
  (loadable : Loadable crypto mount blocks)
include loadable

/-- A sector of a file is a part of its contents. -/
theorem Loadable.shows_file (has : HasBlock (loadedVolume blocks) blocks name l block) :
    ∃ file, filesOf (loadedVolume blocks) blocks name = some file ∧
      List.ofFn (blocks block) = (List.range 4096).map fun k => file.contents.bytes (4096 * l + k) := by
  obtain ⟨small, p, named, points⟩ := has
  refine ⟨_, loadable.wellFormed.sound.filesOf_named named, ?_⟩
  show _ = (List.range 4096).map fun k => (fileView _ blocks).image.bytes (4096 * l + k)
  apply List.ext_getElem
  · rw [List.length_ofFn, List.length_map, List.length_range]
  · intro k inside _
    rw [List.length_ofFn] at inside
    have index : (4096 * l + k) / 4096 = l := by omega
    have offset : Fin.ofNat 4096 (4096 * l + k) = ⟨k, inside⟩ := by
      apply Fin.ext
      show (4096 * l + k) % 4096 = k
      omega
    have points' : fileRef ((loadedVolume blocks).inodes (entryAt (loadedVolume blocks) blocks p).ino)
        blocks (place ((4096 * l + k) / 4096)) = some block := by
      rw [index]
      exact points
    rw [List.getElem_ofFn, List.getElem_map, List.getElem_range, image_bytes,
      byteAt_mapped (by rw [index]; exact small) points', offset]

/-- Another sector in a block of a file changes that file and nothing else. -/
theorem Loadable.edits_file (has : HasBlock (loadedVolume blocks) blocks name l block) (data : Sector) :
    ∃ file, filesOf (loadedVolume blocks) blocks name = some file ∧
      Loadable crypto mount (Function.update blocks block data) ∧
      filesOf (loadedVolume (Function.update blocks block data)) (Function.update blocks block data) =
        Function.update (filesOf (loadedVolume blocks) blocks) name
          (some ⟨file.contents.store (4096 * l) (List.ofFn data), file.mtime⟩) := by
  obtain ⟨small, p, named, points⟩ := has
  have sound := loadable.wellFormed.sound
  have file := (sound.file_of_named named).2
  have loose := sound.loose file points
  have mapped : fileRef ((loadedVolume blocks).inodes (entryAt (loadedVolume blocks) blocks p).ino)
      blocks (place l) ≠ none := by
    rw [points]
    exact Option.some_ne_none block
  have few := loadable.wellFormed.small file small mapped
  have stored := sound.stored_sector small points data
  refine ⟨_, sound.filesOf_named named, loadable.update loose data, ?_⟩
  rw [loadable.loaded_update loose.inData]
  rw [sound.filesOf_update (sound.rewritten (loose.same_update data))
    (.ofStep stored.step sound.accounted file) named fun k _ other =>
      sound.other_sector file small points data other]
  unfold storedFile
  rw [sound.image_sector few points]

end Edits

/-- What `read-sector` shows of a block of a file are the bytes of the file there. -/
theorem OpensPlain.shows_file (roundTrip : crypto.SectorRoundTrip) {block : UInt32}
    (opens : OpensPlain crypto container password mount) {outOpens : Bool}
    {strerror output : List UInt8} {faults : List Bool}
    (left : (handleReadSector crypto password block.toUInt64 outOpens strerror
      ⟨container, faults⟩).1.2 = some output) {name : List UInt8} {l : Nat}
    (has : HasBlock (loadedVolume (mount.blocks crypto container)) (mount.blocks crypto container) name
      l block) :
    ∃ file, filesOf (loadedVolume (mount.blocks crypto container)) (mount.blocks crypto container) name =
        some file ∧
      output = (List.range 4096).map fun k => file.contents.bytes (4096 * l + k) := by
  have cases := handleReadSector_cases roundTrip password block.toUInt64 outOpens strerror
    ⟨container, faults⟩
  generalize handleReadSector crypto password block.toUInt64 outOpens strerror
    ⟨container, faults⟩ = result at cases left
  cases cases with
  | refused => cases left
  | @shown outcome disk' mount' block' _ _ opens' isLba inside =>
    obtain rfl : mount' = mount := Option.some.inj (opens'.mounted.symm.trans opens.mounted)
    obtain rfl : block' = block := UInt32.toUInt64_inj.1 isLba
    obtain ⟨file, stored, shows⟩ := opens.loadable.shows_file has
    exact ⟨file, stored, (Option.some.inj left).symm.trans shows⟩

/-- The container after a sector of the volume was stored opens if its blocks make a volume. -/
theorem OpensPlain.stored {container' : Container} (opens : OpensPlain crypto container password mount)
    {sectors : Blocks} (are : SectorsAre crypto mount password container container' sectors)
    (loadable : Loadable crypto mount sectors) : OpensPlain crypto container' password mount := by
  constructor
  · constructor
    · rw [are.size]
      exact opens.sized.large
    · rw [are.size]
      exact opens.sized.sectors
  · exact are.mounted
  · rw [← are.sectors]
    exact loadable

/-- A `write-sector` that succeeds has replaced its block. -/
theorem OpensPlain.sector_written (roundTrip : crypto.SectorRoundTrip) {block : UInt32}
    {bytes : List UInt8} {faults : List Bool} (opens : OpensPlain crypto container password mount)
    {result : Outcome × Disk}
    (writes : WritesSector crypto password block.toUInt64 (some bytes) ⟨container, faults⟩ result)
    (done : result.1.status = 0) :
    SectorsAre crypto mount password container result.2.container
      (Function.update (mount.blocks crypto container) block (paddedSector bytes)) := by
  cases writes with
  | refused failed =>
    rw [failed] at done
    cases done
  | @written outcome disk' mount' block' bytes' fits _ opens' isLba inside given after =>
    obtain rfl : mount' = mount := Option.some.inj (opens'.mounted.symm.trans opens.mounted)
    obtain rfl : block' = block := UInt32.toUInt64_inj.1 isLba
    obtain rfl : bytes = bytes' := Option.some.inj given
    have start : SectorsAre crypto mount' password container container (mount'.blocks crypto container) :=
      ⟨rfl, opens.mounted, fun _ _ _ => rfl, rfl⟩
    dsimp only at after ⊢
    rw [after]
    exact start.stored roundTrip opens inside _ fits

/-- Raw sectors and files agree.  What `read-sector` shows of a block of a file are the bytes of
the file there.  When `write-sector` has stored a sector in a block of a file, that file has the
new bytes, all others are as they were, and the volume opens; in a block nobody uses it changes no
file. -/
theorem sectors_are_parts_of_files (roundTrip : crypto.SectorRoundTrip) {block : UInt32}
    (opens : OpensPlain crypto container password mount) (strerror : List UInt8) (faults : List Bool) :
    let blocks := mount.blocks crypto container
    let vol := loadedVolume blocks
    (∀ outOpens output, (handleReadSector crypto password block.toUInt64 outOpens strerror
        ⟨container, faults⟩).1.2 = some output →
      ∀ name l, HasBlock vol blocks name l block → ∃ file, filesOf vol blocks name = some file ∧
        output = (List.range 4096).map fun k => file.contents.bytes (4096 * l + k)) ∧
    ∀ bytes,
      let written := handleWriteSector crypto password block.toUInt64 (some bytes) strerror
        ⟨container, faults⟩
      let blocks' := mount.blocks crypto written.2.container
      written.1.status = 0 →
      (∀ name l, HasBlock vol blocks name l block → ∃ file, filesOf vol blocks name = some file ∧
        OpensPlain crypto written.2.container password mount ∧
        filesOf (loadedVolume blocks') blocks' = Function.update (filesOf vol blocks) name
          (some ⟨file.contents.store (4096 * l) (List.ofFn (paddedSector bytes)), file.mtime⟩)) ∧
      (vol.sb.dataStart.toNat ≤ block.toNat → ¬vol.allocated block →
        OpensPlain crypto written.2.container password mount ∧
        filesOf (loadedVolume blocks') blocks' = filesOf vol blocks) := by
  intro blocks vol
  refine ⟨fun _ _ left _ _ has => opens.shows_file roundTrip left has, ?_⟩
  intro bytes written blocks' done
  have are : SectorsAre crypto mount password container written.2.container
      (Function.update blocks block (paddedSector bytes)) :=
    opens.sector_written roundTrip
      (handleWriteSector_cases roundTrip password block.toUInt64 (some bytes) strerror _) done
  have image : blocks' = Function.update blocks block (paddedSector bytes) := are.sectors.symm
  rw [image]
  constructor
  · intro name l has
    obtain ⟨file, stored, loadable, files⟩ := opens.loadable.edits_file has (paddedSector bytes)
    exact ⟨file, stored, opens.stored are loadable, files⟩
  · intro inData free
    have sound := opens.loadable.wellFormed.sound
    have loose := sound.loose_of_free inData free
    constructor
    · exact opens.stored are (opens.loadable.update loose _)
    · rw [opens.loadable.loaded_update inData]
      exact sound.filesOf_free free _

theorem sectors_are_parts_of_files_small :
    ∃ disk, smallContainer 4 = some disk ∧
      let mount := outerMount zeroRandomness 4
      let blocks := mount.blocks transparentCrypto disk.container
      let vol := loadedVolume blocks
      (∀ outOpens output, (handleReadSector transparentCrypto [1] (200 : UInt32).toUInt64 outOpens []
          ⟨disk.container, []⟩).1.2 = some output →
        ∀ name l, HasBlock vol blocks name l 200 → ∃ file, filesOf vol blocks name = some file ∧
          output = (List.range 4096).map fun k => file.contents.bytes (4096 * l + k)) ∧
      ∀ bytes,
        let written := handleWriteSector transparentCrypto [1] (200 : UInt32).toUInt64 (some bytes) []
          ⟨disk.container, []⟩
        let blocks' := mount.blocks transparentCrypto written.2.container
        written.1.status = 0 →
        (∀ name l, HasBlock vol blocks name l 200 → ∃ file, filesOf vol blocks name = some file ∧
          OpensPlain transparentCrypto written.2.container [1] mount ∧
          filesOf (loadedVolume blocks') blocks' = Function.update (filesOf vol blocks) name
            (some ⟨file.contents.store (4096 * l) (List.ofFn (paddedSector bytes)), file.mtime⟩)) ∧
        (vol.sb.dataStart.toNat ≤ (200 : UInt32).toNat → ¬vol.allocated 200 →
          OpensPlain transparentCrypto written.2.container [1] mount ∧
          filesOf (loadedVolume blocks') blocks' = filesOf vol blocks) := by
  obtain ⟨disk, _, made, _, _, opened, _⟩ := smallContainer_written
  exact ⟨disk, made, sectors_are_parts_of_files transparentCrypto_sectors
    (OpensPlain.of_opened transparentCrypto_sectors opened).1 [] []⟩

end DenyFS
