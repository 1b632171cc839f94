import DenyFS.Verified.Steady
import DenyFS.Verified.FreshRuns

/-! # The block allocator on every volume

`alloc_block` returns an index of up to 32 bits as a C `int`.  A volume may have more than `2^31`
blocks, but the slots that can own one are far fewer, so the first free block never lies that far
out: whatever `data_start` is, at most `2^27` blocks after it are in use. -/

namespace DenyFS

open Packed BlockProgram Ownership

variable {crypto : Crypto} {mount : Mount} {vol : Volume} {disk : Disk} {count : Nat}
  {held : List UInt32}

/-- What `alloc_block` may do: nothing where every bit of the data region is set, or take the
block of the least clear bit, whose index is returned as it is. -/
inductive FirstFit (vol : Volume) : Int × Volume → Prop where
  | full : (∀ i, vol.sb.dataStart.toNat ≤ i → i < vol.sb.totalBlocks.toNat → vol.bit i = true) →
    FirstFit vol (-1, vol)
  | taken (i : Nat) (vol' : Volume) :
    vol.sb.dataStart.toNat ≤ i → i < vol.sb.totalBlocks.toNat → vol.bit i = false →
    (∀ j, vol.sb.dataStart.toNat ≤ j → j < i → vol.bit j = true) → i < 2 ^ 31 →
    (∀ j, vol'.bit j = (vol.bit j || decide (j = i))) →
    0 < vol.sb.freeBlocks.toNat → vol'.sb.freeBlocks.toNat = vol.sb.freeBlocks.toNat - 1 →
    vol' = { vol with
      bitmap := vol'.bitmap
      sb := { vol.sb with freeBlocks := vol'.sb.freeBlocks }
      bitmapDirty := vol'.bitmapDirty } →
    FirstFit vol ((i : Int), vol')

/-- A volume without free blocks has no clear bit in its data region. -/
theorem Volume.Space.all_set (space : vol.Space) (none : vol.sb.freeBlocks = 0) {i : Nat}
    (inData : i ∈ vol.dataBlocks) : vol.bit i = true := by
  have length : vol.dataBlocks.length = vol.sb.totalBlocks.toNat - vol.sb.dataStart.toNat :=
    List.length_range'
  have all : vol.usedCount = vol.dataBlocks.length := by
    unfold Volume.Space at space
    rw [none] at space
    have zero : (0 : UInt32).toNat = 0 := rfl
    omega
  exact List.countP_eq_length.1 all i inData

/-- With exact accounts and at most two blocks in hand, as inside an operation, the allocator
takes the first free block. -/
theorem Accounted.firstFit {blocks : Blocks} (accounted : Accounted count vol blocks held)
    (few : held.length ≤ 2) : FirstFit vol (allocBlock vol) := by
  have bounded : ∀ blocks : Finset UInt32, (∀ c ∈ blocks, vol.allocated c) →
      blocks.card ≤ 2 + 2 ^ 27 := by
    intro blocks inUse
    have := accounted.bounded blocks inUse
    omega
  have room : vol.sb.dataStart.toNat + (2 + 2 ^ 27) < 2 ^ 31 := by
    have := accounted.layout.dataStart_le
    omega
  cases DenyFS.allocBlock_cases accounted.space bounded room with
  | inl none =>
    obtain ⟨empty, stays⟩ := none
    rw [stays]
    apply FirstFit.full
    intro i lower upper
    exact accounted.space.all_set empty (vol.mem_dataBlocks.2 ⟨lower, upper⟩)
  | inr some =>
    obtain ⟨block, positive, takes, inData, clear, first⟩ := some
    obtain ⟨lower, upper⟩ := vol.mem_dataBlocks.1 inData
    -- the first fit lies at most as far out as there are blocks in use
    have small := first_fit_small bounded block.toNat_lt upper first
    have fewer := (Volume.takeBlock_space accounted.space inData clear).2
    rw [takes]
    apply FirstFit.taken block.toNat _ lower upper clear
    · intro j above below
      exact first j (vol.mem_dataBlocks.2 ⟨above, by omega⟩) below
    · omega
    · exact fun j => Volume.takeBlock_bit vol block.toNat j
    · exact positive
    · omega
    · rfl

/-- On every volume `denyfs_vol_open` accepts and in every state calls reach on it, `alloc_block`
is an exact first fit; so it is in the states inside an operation, where up to two blocks are in
hand. -/
theorem allocBlock_never_loses (roundTrip : crypto.SectorRoundTrip)
    (reached : SteadyReached crypto mount vol disk) :
    FirstFit vol (allocBlock vol) ∧
      ∀ (vol' : Volume) (blocks : Blocks) (held : List UInt32),
        Accounted mount.blockCount vol' blocks held → held.length ≤ 2 →
          FirstFit vol' (allocBlock vol') := by
  have holds := reached.holds roundTrip
  constructor
  · exact holds.sound.accounted.firstFit (Nat.zero_le 2)
  · intro vol' blocks held accounted few
    exact accounted.firstFit few

/-- A small container after a call. -/
theorem allocBlock_never_loses_small :
    ∃ disk vol, SteadyReached transparentCrypto (outerMount zeroRandomness 4) vol disk ∧
      FirstFit vol (allocBlock vol) := by
  obtain ⟨disk, vol, _, reached, _⟩ := smallContainer_file
  have steady := reached.steady transparentCrypto_sectors
  exact ⟨disk, vol, steady, (allocBlock_never_loses transparentCrypto_sectors steady).1⟩

end DenyFS
