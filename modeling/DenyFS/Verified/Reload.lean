import DenyFS.Verified.FormatImage

/-! # Reading stored metadata back

What `denyfs_vol_flush` or `format_volume` left in the metadata blocks is what
`denyfs_vol_open` reads into memory, apart from the dirty flags and from bitmap bytes past the
last sector of the bitmap, which nothing looks at. -/

namespace DenyFS

open Packed BlockProgram Ownership

variable {count : Nat} {vol vol' : Volume} {disk : Blocks}

/-- The same metadata in memory, as far as any operation looks. -/
structure Volume.Agrees (vol vol' : Volume) : Prop where
  sb : vol'.sb = vol.sb
  inodes : vol'.inodes = vol.inodes
  bitmap : ∀ k < vol.bitmapBytes, vol'.bitmap k = vol.bitmap k

namespace Volume.Agrees

theorem bitmapImage (agrees : vol.Agrees vol') : vol'.bitmapImage = vol.bitmapImage := by
  unfold Volume.bitmapImage Volume.bitmapBytes
  rw [agrees.sb]
  refine List.map_congr_left fun k listed => agrees.bitmap k ?_
  exact List.mem_range.1 listed

theorem bit (agrees : vol.Agrees vol') (layout : vol.sb.Layout count) {i : Nat} (small : i < count) :
    vol'.bit i = vol.bit i := by
  have sectors := layout.bitmapBlocks
  unfold Volume.bit bitAt
  rw [agrees.bitmap (i / 8) (by unfold Volume.bitmapBytes; omega)]

theorem dataBlocks (agrees : vol.Agrees vol') : vol'.dataBlocks = vol.dataBlocks := by
  unfold Volume.dataBlocks
  rw [agrees.sb]

theorem allocated (agrees : vol.Agrees vol') (layout : vol.sb.Layout count) (block : UInt32) :
    vol'.allocated block ↔ vol.allocated block := by
  rw [Volume.allocated_iff, Volume.allocated_iff, agrees.dataBlocks]
  refine and_congr_right fun inData => ?_
  rw [Volume.mem_dataBlocks, layout.totalBlocks] at inData
  rw [agrees.bit layout inData.2]

theorem usedCount (agrees : vol.Agrees vol') (layout : vol.sb.Layout count) :
    vol'.usedCount = vol.usedCount := by
  unfold Volume.usedCount
  rw [agrees.dataBlocks]
  refine List.countP_congr fun i listed => ?_
  rw [Volume.mem_dataBlocks, layout.totalBlocks] at listed
  rw [agrees.bit layout listed.2]

theorem ref (agrees : vol.Agrees vol') (slot : Slot) : ref vol' disk slot = ref vol disk slot := by
  unfold DenyFS.ref
  rw [agrees.inodes]

theorem liveInodes (agrees : vol.Agrees vol') : vol'.liveInodes = vol.liveInodes := by
  unfold Volume.liveInodes
  rw [agrees.inodes]

theorem entryAt (agrees : vol.Agrees vol') : entryAt vol' disk = entryAt vol disk := by
  funext p
  unfold DenyFS.entryAt
  rw [agrees.inodes]

theorem inodeRef (agrees : vol.Agrees vol') : inodeRef vol' disk = inodeRef vol disk := by
  funext p
  unfold DenyFS.inodeRef
  rw [agrees.entryAt]

theorem nameRef (agrees : vol.Agrees vol') : nameRef vol' disk = nameRef vol disk := by
  funext p
  unfold DenyFS.nameRef
  rw [agrees.entryAt]

theorem accounted (agrees : vol.Agrees vol') (accounted : Accounted count vol disk []) :
    Accounted count vol' disk [] where
  layout := by
    rw [agrees.sb]
    exact accounted.layout
  ledger := accounted.ledger.congr agrees.ref (agrees.allocated accounted.layout)
  space := by
    have space := accounted.space
    unfold Volume.Space at space ⊢
    rw [agrees.usedCount accounted.layout, agrees.sb]
    exact space
  metadataBits := by
    intro i below
    rw [agrees.sb] at below
    have room := accounted.layout.room
    rw [agrees.bit accounted.layout (by omega)]
    exact accounted.metadataBits i below

theorem tree (agrees : vol.Agrees vol') (tree : Tree vol) : Tree vol' where
  rootType := by rw [agrees.inodes]; exact tree.rootType
  rootSize := by rw [agrees.inodes]; exact tree.rootSize
  rootCount := by rw [agrees.inodes]; exact tree.rootCount
  rootDirect := by rw [agrees.inodes]; exact tree.rootDirect
  rootSingle := by rw [agrees.inodes]; exact tree.rootSingle
  rootDouble := by rw [agrees.inodes]; exact tree.rootDouble
  types := by rw [agrees.inodes]; exact tree.types
  blank := by rw [agrees.inodes]; exact tree.blank
  sizes := by rw [agrees.inodes]; exact tree.sizes
  freeInodes := by rw [agrees.sb, agrees.liveInodes]; exact tree.freeInodes

theorem directory (agrees : vol.Agrees vol') (directory : Directory vol disk) :
    Directory vol' disk where
  valid := by rw [agrees.entryAt]; exact directory.valid
  names := by rw [agrees.nameRef]; exact directory.names
  inodes := by rw [agrees.inodeRef]; exact directory.inodes
  file := by rw [agrees.inodeRef, agrees.inodes]; exact directory.file
  listed := by rw [agrees.inodeRef, agrees.inodes]; exact directory.listed

theorem sound (agrees : vol.Agrees vol') (sound : Sound count vol disk) : Sound count vol' disk where
  accounted := agrees.accounted sound.accounted
  counted := by
    intro ino
    rw [agrees.inodes]
    exact sound.counted ino
  compact := by
    intro ino
    rw [agrees.inodes]
    exact sound.compact ino
  tree := agrees.tree sound.tree
  directory := agrees.directory sound.directory

theorem wellFormed (agrees : vol.Agrees vol') (wellFormed : WellFormed count vol disk) :
    WellFormed count vol' disk where
  sound := agrees.sound wellFormed.sound
  within := by
    intro ino
    rw [agrees.inodes]
    exact wellFormed.within ino

end Volume.Agrees

/-! ## What is read back -/

theorem Volume.Stored.superblock (layout : vol.sb.Layout count) (stored : vol.Stored disk) :
    superblockSector.symm (disk 0) = vol.sb := by
  have dataStart := layout.dataStart
  have here : disk 0 = superblockSector vol.sb :=
    stored 0 (by change 0 < _; omega)
  rw [here, Equiv.symm_apply_apply]

theorem Volume.Stored.bitmap (layout : vol.sb.Layout count) (stored : vol.Stored disk) {k : Nat}
    (small : k < vol.bitmapBytes) : vol.sb.loadedBitmap disk k = vol.bitmap k := by
  have inSectors : k / 4096 < vol.sb.bitmapBlocks.toNat := by
    unfold Volume.bitmapBytes at small
    omega
  have place := layout.bitmapStart_add inSectors
  have dataStart := layout.dataStart
  unfold Superblock.loadedBitmap
  rw [if_pos inSectors, stored _ (by rw [place]; omega), metadataBlock_bitmap layout inSectors]
  unfold Volume.bitmapSector
  rw [show k / 4096 * 4096 + (Fin.ofNat 4096 k).val = k from Nat.div_add_mod' k 4096]

theorem Volume.Stored.inode (layout : vol.sb.Layout count) (stored : vol.Stored disk) (j : Fin 64) :
    vol.sb.loadedInodes disk j = vol.inodes j := by
  have small : j.val / 32 < 2 := by omega
  have place := layout.inodeStart_add small
  have dataStart := layout.dataStart
  unfold Superblock.loadedInodes
  rw [stored _ (by rw [place]; omega), metadataBlock_inode layout small]
  unfold Volume.inodeSector
  rw [Equiv.symm_apply_apply]
  refine congrArg vol.inodes (Fin.ext ?_)
  change (32 * (j.val / 32) + j.val % 32) % 64 = j.val
  omega

/-- Reading back what is stored. -/
theorem Volume.Stored.loaded (layout : vol.sb.Layout count) (stored : vol.Stored disk) :
    vol.Agrees (loadedVolume disk) where
  sb := stored.superblock layout
  inodes := by
    funext j
    change (superblockSector.symm (disk 0)).loadedInodes disk j = _
    rw [stored.superblock layout]
    exact stored.inode layout j
  bitmap := by
    intro k small
    change (superblockSector.symm (disk 0)).loadedBitmap disk k = _
    rw [stored.superblock layout]
    exact stored.bitmap layout small

theorem loadedVolume_clean (disk : Blocks) : (loadedVolume disk).bitmapDirty = fun _ => false := rfl

/-! ## Acceptance -/

theorem Tree.liveInodes_pos (tree : Tree vol) : 0 < vol.liveInodes := by
  unfold Volume.liveInodes
  refine List.countP_pos_iff.2 ⟨0, by rw [upTo_eq]; exact List.mem_finRange 0, ?_⟩
  rw [tree.rootType]
  rfl

/-- The stored HMAC is the one of the bitmap. -/
def Volume.Sealed (crypto : Crypto) (mount : Mount) (vol : Volume) : Prop :=
  crypto.hmac mount.hmacKey vol.bitmapImage = vol.sb.bitmapHmac

theorem Sound.likely {volumeSize : UInt64} (aligned : volumeSize.toNat % 4096 = 0)
    (sound : Sound (volumeSize.toNat / 4096) vol disk) : vol.sb.Plausible volumeSize where
  aligned := aligned
  blocks := by
    have layout := sound.accounted.layout
    have sectors := layout.bitmapBlocks
    have dataStart := layout.dataStart
    have room := layout.room
    omega
  layout := sound.accounted.layout
  freeBlocks := by
    have space := sound.accounted.space
    unfold Volume.Space at space
    omega
  freeInodes := by
    have live := sound.tree.liveInodes_pos
    have all := sound.tree.freeInodes
    omega

/-- Well formed metadata under its HMAC is accepted once it is stored. -/
theorem Volume.Stored.loadable {crypto : Crypto} {mount : Mount}
    (aligned : mount.volumeSize.toNat % 4096 = 0) (stored : vol.Stored disk)
    (wellFormed : WellFormed mount.blockCount vol disk) (hmac : vol.Sealed crypto mount) :
    Loadable crypto mount disk where
  superblock := by
    have likely := Sound.likely aligned wellFormed.sound
    rw [(stored.loaded wellFormed.sound.accounted.layout).sb]
    exact likely
  hmac := by
    have agrees := stored.loaded wellFormed.sound.accounted.layout
    rw [agrees.bitmapImage, agrees.sb]
    exact hmac
  wellFormed := (stored.loaded wellFormed.sound.accounted.layout).wellFormed wellFormed

end DenyFS
