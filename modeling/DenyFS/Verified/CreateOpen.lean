import DenyFS.Verified.Creation

/-! # Creation and opening agree

The writers (`denyfs_container_create`, `denyfs_container_create_hidden`) and the reader
(`denyfs_vol_open`) compute the same offsets and sizes, for every size the writers accept. -/

namespace DenyFS

open Packed BlockProgram

variable {crypto : Crypto} {random random' : Randomness} {sizeMb hiddenSizeMb : UInt64}
  {outerPassword hiddenPassword : List UInt8}

/-- Only the bytes of its range show through a mount. -/
theorem Mount.blocks_congr {mount : Mount} {first second : Container}
    (same : ∀ i, mount.Range i → first.byte i = second.byte i) :
    mount.blocks crypto first = mount.blocks crypto second := by
  funext block
  unfold Mount.blocks
  by_cases inside : block.toNat < mount.blockCount
  · rw [if_pos inside, if_pos inside]
    refine congrArg _ (Container.sectorAt_of_bytes fun i start below => same i ⟨by omega, ?_⟩)
    have count : mount.blockCount = mount.volumeSize.toNat / 4096 := rfl
    omega
  · rw [if_neg inside, if_neg inside]

theorem Hosts.of_same {container container' : Container}
    (hosts : Hosts crypto random sizeMb outerPassword container)
    (size : container'.size = container.size)
    (header : container'.sectorAt 0 = container.sectorAt 0) :
    Hosts crypto random sizeMb outerPassword container' where
  positive := hosts.positive
  size := size.trans hosts.size
  header := by
    unfold Container.outerHeader
    rw [header]
    exact hosts.header

/-- The outer mount with the sectors from the hidden volume on protected. -/
def guardedMount (random : Randomness) (sizeMb hiddenSizeMb : UInt64) (container : Container) :
    Mount :=
  { outerMount random sizeMb with
    protectHidden := true
    protectStartSector := (container.hiddenHeaderOffset - hiddenSize hiddenSizeMb) / 4096
    protectEndSector := UInt64.ofNat container.size / 4096 - 1 }

theorem guardedMount_blocks (container other : Container) :
    (guardedMount random sizeMb hiddenSizeMb container).blocks crypto other =
      (outerMount random sizeMb).blocks crypto other := rfl

theorem guardedMount_loadable (hiddenSizeMb : UInt64) (container : Container) {disk : Blocks}
    (loadable : Loadable crypto (outerMount random sizeMb) disk) :
    Loadable crypto (guardedMount random sizeMb hiddenSizeMb container) disk :=
  ⟨loadable.superblock, loadable.hmac, loadable.wellFormed⟩

section Both

variable {container : Container} (hosts : Hosts crypto random sizeMb outerPassword container)
  (fits : HiddenFits sizeMb hiddenSizeMb)
include hosts fits

/-- The protected sectors run from the first one of the hidden volume to the last one of the
container. -/
theorem guardedMount_sectors :
    (guardedMount random sizeMb hiddenSizeMb container).protectStartSector.toNat * 4096 =
        container.size - 32768 - hiddenSizeMb.toNat * 1048576 ∧
      ((guardedMount random sizeMb hiddenSizeMb container).protectEndSector.toNat + 1) * 4096 =
        container.size := by
  have start := hosts.hiddenStart fits
  have size := hosts.size
  have positive := hosts.positive
  have room := fits.room
  have inFile := container.size_le
  unfold longMax at inFile
  constructor
  · change ((container.hiddenHeaderOffset - hiddenSize hiddenSizeMb) / 4096).toNat * 4096 = _
    rw [UInt64.toNat_div, start]
    change _ / 4096 * 4096 = _
    omega
  · have whole : (UInt64.ofNat container.size / 4096).toNat = container.size / 4096 := by
      rw [UInt64.toNat_div, UInt64.toNat_ofNat']
      change container.size % 2 ^ 64 / 4096 = _
      rw [Nat.mod_eq_of_lt (by omega)]
    have one : (1 : UInt64) ≤ UInt64.ofNat container.size / 4096 := by
      rw [UInt64.le_iff_toNat_le, whole]
      change 1 ≤ _
      omega
    change ((UInt64.ofNat container.size / 4096 - 1).toNat + 1) * 4096 = _
    rw [UInt64.toNat_sub_of_le _ _ one, whole]
    change (container.size / 4096 - 1 + 1) * 4096 = _
    omega

/-- The protected range does not reach into the outer volume. -/
theorem guardedMount_unprotected :
    (guardedMount random sizeMb hiddenSizeMb container).Unprotected := by
  intro block inside
  obtain ⟨first, _⟩ := guardedMount_sectors hosts fits
  have bytes := hosts.outerSize_toNat
  have size := hosts.size
  have room := fits.room
  have small : block.toNat < (outerSize sizeMb).toNat / 4096 := inside
  have place : ((guardedMount random sizeMb hiddenSizeMb container).volStartOffset / 4096 +
      block.toUInt64).toNat = (outerMount random sizeMb).volStartOffset.toNat / 4096 +
        block.toNat := hosts.placed.absoluteSector_toNat small
  have start : (outerMount random sizeMb).volStartOffset.toNat = 4096 := rfl
  have before : ¬(guardedMount random sizeMb hiddenSizeMb container).protectStartSector ≤
      (guardedMount random sizeMb hiddenSizeMb container).volStartOffset / 4096 +
        block.toUInt64 := by
    rw [UInt64.le_iff_toNat_le, place, start]
    omega
  unfold Mount.protects
  dsimp only
  rw [decide_eq_false before]
  simp

theorem guardedMount_mounted (gcm : crypto.HeaderRoundTrip)
    (header : container.hiddenHeader =
      newHeader crypto random' hiddenPassword (hiddenSize hiddenSizeMb)) :
    container.mountFor crypto outerPassword (some hiddenPassword) true =
      some (guardedMount random sizeMb hiddenSizeMb container) := by
  have found : (authenticate crypto container.hiddenHeader hiddenPassword).filter (fun payload =>
      validHiddenRange payload.volumeSize container.hiddenHeaderOffset) =
        some (newPayload random' (hiddenSize hiddenSizeMb)).stored := by
    rw [header, authenticate_newHeader gcm, Option.filter_some]
    exact if_pos (hosts.hiddenRange fits)
  unfold Container.mountFor
  rw [hosts.select gcm, Option.bind_some]
  have wanted : (true && !(outerMount random sizeMb).isHidden) = true := rfl
  unfold protectVolume
  rw [if_pos wanted]
  dsimp only
  rw [found]
  rfl

/-- The hidden password selects the hidden volume: it does not open the outer header. -/
theorem hiddenMount_mounted (gcm : crypto.HeaderRoundTrip)
    (rejects : crypto.HeaderRejects (headerKey crypto outerPassword random.salt)
      (headerKey crypto hiddenPassword random.salt))
    (header : container.hiddenHeader =
      newHeader crypto random' hiddenPassword (hiddenSize hiddenSizeMb))
    (secret : Option (List UInt8)) (protectHidden : Bool) :
    container.mountFor crypto hiddenPassword secret protectHidden =
      some (hiddenMount random' hiddenSizeMb container) := by
  have found : (authenticate crypto container.hiddenHeader hiddenPassword).filter (fun payload =>
      validHiddenRange payload.volumeSize container.hiddenHeaderOffset) =
        some (newPayload random' (hiddenSize hiddenSizeMb)).stored := by
    rw [header, authenticate_newHeader gcm, Option.filter_some]
    exact if_pos (hosts.hiddenRange fits)
  have selected : container.select crypto hiddenPassword =
      some (hiddenMount random' hiddenSizeMb container) := by
    unfold Container.select selectVolume
    rw [hosts.header, authenticate_other rejects, found]
    rfl
  unfold Container.mountFor
  rw [selected, Option.bind_some]
  unfold protectVolume
  refine if_neg ?_
  change ¬(protectHidden && !true) = true
  simp

end Both

theorem hiddenMount_congr {container container' : Container} (size : container'.size = container.size) :
    hiddenMount random hiddenSizeMb container' = hiddenMount random hiddenSizeMb container := by
  unfold hiddenMount Container.hiddenHeaderOffset
  rw [size]

theorem guardedMount_congr {container container' : Container} (size : container'.size = container.size) :
    guardedMount random sizeMb hiddenSizeMb container' =
      guardedMount random sizeMb hiddenSizeMb container := by
  unfold guardedMount Container.hiddenHeaderOffset
  rw [size]

/-- Creation and opening agree, for every size and whatever was done to the outer volume before
the hidden one was created. -/
theorem creation_agrees_with_opening (roundTrip : crypto.SectorRoundTrip)
    (gcm : crypto.HeaderRoundTrip) {fill : Nat → UInt8} {now : UInt64} {faults : List Bool}
    {created : Disk}
    (outer : containerCreate crypto random fill sizeMb outerPassword now faults = some created) :
    (created.container.size = sizeMb.toNat * 1048576 ∧
      (outerMount random sizeMb).volStartOffset.toNat = 4096 ∧
      (outerMount random sizeMb).volumeSize.toNat = created.container.size / 2 ∧
      4096 + (outerMount random sizeMb).volumeSize.toNat ≤ created.container.size - 32768 ∧
      ∃ vol, volOpen crypto outerPassword none false ⟨created.container, []⟩ =
          (some (outerMount random sizeMb, vol), ⟨created.container, []⟩) ∧
        OpenedNew crypto (outerMount random sizeMb) vol ⟨created.container, []⟩) ∧
    ∀ (used disk' : Disk) (now' : UInt64),
      used.container.size = created.container.size →
      used.container.sectorAt 0 = created.container.sectorAt 0 →
      crypto.HeaderRejects (headerKey crypto outerPassword random.salt)
        (headerKey crypto hiddenPassword random.salt) →
      containerCreateHidden crypto random' outerPassword hiddenPassword hiddenSizeMb now' used =
        (.ok (), disk') →
      let hidden := hiddenMount random' hiddenSizeMb used.container
      let guarded := guardedMount random sizeMb hiddenSizeMb used.container
      (hidden.volStartOffset.toNat =
          created.container.size - 32768 - hiddenSizeMb.toNat * 1048576 ∧
        hidden.volumeSize.toNat = hiddenSizeMb.toNat * 1048576 ∧
        ∀ secret protectHidden, ∃ vol,
          volOpen crypto hiddenPassword secret protectHidden ⟨disk'.container, []⟩ =
            (some (hidden, vol), ⟨disk'.container, []⟩) ∧
          OpenedNew crypto hidden vol ⟨disk'.container, []⟩) ∧
      ((∀ i < 4096 + (outerMount random sizeMb).volumeSize.toNat,
          disk'.container.byte i = used.container.byte i) ∧
        ∀ vol, (volOpen crypto outerPassword none false ⟨used.container, []⟩).1 =
            some (outerMount random sizeMb, vol) →
          volOpen crypto outerPassword none false ⟨disk'.container, []⟩ =
              (some (outerMount random sizeMb, vol), ⟨disk'.container, []⟩) ∧
            volOpen crypto outerPassword (some hiddenPassword) true ⟨disk'.container, []⟩ =
              (some (guarded, vol), ⟨disk'.container, []⟩)) ∧
      (guarded.protectHidden = true ∧
        guarded.protectStartSector.toNat * 4096 = hidden.volStartOffset.toNat ∧
        (guarded.protectEndSector.toNat + 1) * 4096 = disk'.container.size) ∧
      4096 + (outerMount random sizeMb).volumeSize.toNat ≤ hidden.volStartOffset.toNat ∧
      hidden.volStartOffset.toNat + hidden.volumeSize.toNat ≤ disk'.container.size - 32768 ∧
      disk'.container.size = created.container.size := by
  obtain ⟨hosts, formattable, formatted, _⟩ := containerCreate_some roundTrip outer
  constructor
  · obtain ⟨vol, opened, asNew⟩ := open_formatted roundTrip hosts.wellSized
      (hosts.mountFor gcm none) (outerMount_unprotected random sizeMb) formattable formatted
    have bytes : (outerMount random sizeMb).volumeSize.toNat = sizeMb.toNat * 524288 :=
      hosts.outerSize_toNat
    have size := hosts.size
    have positive := hosts.positive
    exact ⟨size, rfl, by omega, by omega, vol, opened, asNew⟩
  intro used disk' now' sameSize sameHeader rejects hiddenCreated hidden guarded
  have usedHosts := hosts.of_same sameSize sameHeader
  obtain ⟨fits, size', below, header, formattable', formatted'⟩ :=
    containerCreateHidden_ok roundTrip gcm usedHosts hiddenCreated
  have positive := hosts.positive
  have size := hosts.size
  have room := fits.room
  have bytes : (outerMount random sizeMb).volumeSize.toNat = sizeMb.toNat * 524288 :=
    hosts.outerSize_toNat
  have hiddenBytes : hidden.volumeSize.toNat = hiddenSizeMb.toNat * 1048576 :=
    fits.hiddenSize_toNat
  have start : hidden.volStartOffset.toNat =
      used.container.size - 32768 - hiddenSizeMb.toNat * 1048576 := usedHosts.hiddenStart fits
  have finalHosts := usedHosts.of_same size' (Container.sectorAt_of_bytes fun i _ small =>
    below i (by omega))
  have kept : ∀ i < 4096 + (outerMount random sizeMb).volumeSize.toNat,
      disk'.container.byte i = used.container.byte i := fun i small => below i (by omega)
  have outerStart : (outerMount random sizeMb).volStartOffset.toNat = 4096 := rfl
  have sameBlocks : (outerMount random sizeMb).blocks crypto disk'.container =
      (outerMount random sizeMb).blocks crypto used.container := by
    refine Mount.blocks_congr fun i inRange => kept i ?_
    have last := inRange.2
    omega
  have sameHidden : hiddenMount random' hiddenSizeMb disk'.container = hidden :=
    hiddenMount_congr size'
  have sameGuarded : guardedMount random sizeMb hiddenSizeMb disk'.container = guarded :=
    guardedMount_congr size'
  obtain ⟨firstSector, lastSector⟩ := guardedMount_sectors finalHosts fits
  rw [sameGuarded] at firstSector lastSector
  refine ⟨⟨start.trans (by rw [sameSize]), hiddenBytes, fun secret protectHidden => ?_⟩,
    ⟨kept, fun vol opened => ?_⟩, ⟨rfl, firstSector.trans (by rw [start, size']), lastSector⟩,
    by rw [start, bytes]; omega, by rw [start, hiddenBytes, size']; omega, size'.trans sameSize⟩
  · have mounted := hiddenMount_mounted finalHosts fits gcm rejects header secret protectHidden
    rw [sameHidden] at mounted
    exact open_formatted roundTrip finalHosts.wellSized mounted (unprotected_of_flag rfl)
      formattable' formatted'
  · have before := volOpen_faultless ⟨used.container, []⟩ roundTrip outerPassword
      none false rfl usedHosts.wellSized (usedHosts.mountFor gcm none)
      (outerMount_unprotected random sizeMb)
    cases before with
    | inr refused =>
      rw [refused.2] at opened
      cases opened
    | inl accepted =>
      obtain ⟨loadable, result⟩ := accepted
      rw [result] at opened
      cases opened
      rw [← sameBlocks] at loadable
      have guardedLoadable := guardedMount_loadable hiddenSizeMb
        disk'.container loadable
      have mounted := guardedMount_mounted finalHosts fits gcm header
      constructor
      · have after := volOpen_faultless ⟨disk'.container, []⟩ roundTrip
          outerPassword none false rfl finalHosts.wellSized (finalHosts.mountFor gcm none)
          (outerMount_unprotected random sizeMb)
        cases after with
        | inr refused => exact absurd loadable refused.1
        | inl accepted =>
          rw [accepted.2, sameBlocks]
      · have after := volOpen_faultless ⟨disk'.container, []⟩ roundTrip
          outerPassword (some hiddenPassword) true rfl finalHosts.wellSized mounted
          (guardedMount_unprotected finalHosts fits)
        cases after with
        | inr refused => exact absurd guardedLoadable refused.1
        | inl accepted =>
          rw [accepted.2, guardedMount_blocks, sameBlocks, sameGuarded]

/-- A small container with a hidden volume of 1 MiB under the password `[2]`. -/
theorem smallContainer_hides :
    ∃ created disk vol, smallContainer 4 = some created ∧ created.faults = [] ∧
      Hosts transparentCrypto zeroRandomness 4 [1] created.container ∧
      volOpen transparentCrypto [1] none false created =
        (some (outerMount zeroRandomness 4, vol), created) ∧
      containerCreateHidden transparentCrypto zeroRandomness [1] [2] 1 0 created =
        (.ok (), disk) ∧ disk.faults = [] := by
  have positive : 0 < (4 : UInt64).toNat := by decide
  have small : (4 : UInt64).toNat ≤ 1024 := by decide
  obtain ⟨created, vol, isSmall, faultless, hosts, opened, _⟩ := smallContainer_opens positive small
  obtain ⟨container, faults⟩ := created
  obtain rfl : faults = [] := faultless
  have fits : HiddenFits 4 1 := ⟨by decide, by decide, by decide⟩
  obtain ⟨disk, hides, faultless'⟩ := containerCreateHidden_succeeds 0 hosts
    opened (by decide : ([1] : List UInt8) ≠ []) (by decide : ([2] : List UInt8) ≠ [])
    (by decide) fits (by decide)
  exact ⟨_, disk, vol, isSmall, rfl, hosts, opened, hides, faultless'⟩

theorem smallContainer_rejects :
    transparentCrypto.HeaderRejects (headerKey transparentCrypto [1] zeroRandomness.salt)
      (headerKey transparentCrypto [2] zeroRandomness.salt) :=
  transparentCrypto_rejects (by decide)

theorem creation_agrees_with_opening_small :
    ∃ created disk vol, smallContainer 4 = some created ∧
      containerCreateHidden transparentCrypto zeroRandomness [1] [2] 1 0 created =
        (.ok (), disk) ∧
      volOpen transparentCrypto [2] none false ⟨disk.container, []⟩ =
        (some (hiddenMount zeroRandomness 1 created.container, vol), ⟨disk.container, []⟩) ∧
      OpenedNew transparentCrypto (hiddenMount zeroRandomness 1 created.container) vol
        ⟨disk.container, []⟩ ∧
      (hiddenMount zeroRandomness 1 created.container).volStartOffset.toNat =
        created.container.size - 32768 - 1048576 := by
  obtain ⟨created, disk, _, isSmall, _, _, _, hides, _⟩ := smallContainer_hides
  obtain ⟨⟨start, _, opens⟩, _⟩ := (creation_agrees_with_opening transparentCrypto_sectors
    transparentCrypto_headers isSmall).2 created disk 0 rfl rfl smallContainer_rejects hides
  obtain ⟨vol, opened, asNew⟩ := opens none false
  exact ⟨created, disk, vol, isSmall, hides, opened, asNew, start⟩

end DenyFS
