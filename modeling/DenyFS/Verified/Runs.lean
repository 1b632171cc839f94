import DenyFS.Library.Strict
import DenyFS.Model.Session

/-! # Runs of calls

What every request respects, every run of calls respects; and which calls only read. -/

namespace DenyFS

open BlockProgram

variable {δ δ₁ δ₂ : Type} {crypto : Crypto} {mount : Mount}

theorem runCalls_frame {device : Device δ UInt32 Sector Errno} {frame : δ → δ → Prop}
    (refl : ∀ disk, frame disk disk)
    (trans : ∀ {a b c}, frame a b → frame b c → frame a c)
    (read : ∀ address disk, frame disk (device.read address disk).2)
    (write : ∀ address data disk, frame disk (device.write address data disk).2)
    (calls : List Call) (state : Volume × δ) :
    frame state.2 (runCalls crypto mount device calls state).2.2 :=
  Machine.run_frame (fun before after => frame before.2 after.2) (fun state => refl state.2) trans
    (fun c state => Prog.exec_frame device refl trans read write (perform crypto mount c) state)
    calls state

theorem runCalls_simulation {first : Device δ₁ UInt32 Sector Errno}
    {second : Device δ₂ UInt32 Sector Errno} {related : δ₁ → δ₂ → Prop}
    (simulates : Io.Simulates first second related) (calls : List Call) (vol : Volume)
    {disk₁ : δ₁} {disk₂ : δ₂} (start : related disk₁ disk₂) :
    (runCalls crypto mount first calls (vol, disk₁)).1 =
        (runCalls crypto mount second calls (vol, disk₂)).1 ∧
      (runCalls crypto mount first calls (vol, disk₁)).2.1 =
        (runCalls crypto mount second calls (vol, disk₂)).2.1 ∧
      related (runCalls crypto mount first calls (vol, disk₁)).2.2
        (runCalls crypto mount second calls (vol, disk₂)).2.2 := by
  refine Machine.run_related
    (fun (state₁ : Volume × δ₁) (state₂ : Volume × δ₂) => state₁.1 = state₂.1 ∧ related state₁.2 state₂.2)
    (fun c _ state₁ state₂ same => ?_) ⟨rfl, start⟩
  obtain ⟨memory, disks⟩ := same
  obtain ⟨vol₁, disk₁⟩ := state₁
  obtain rfl : vol₁ = state₂.1 := memory
  exact Prog.exec_simulation simulates (perform crypto mount c) state₂.1 disks

/-! ## Operations that only read -/

open Prog.Simple in
theorem readPointerTable_simple (table : UInt32) : Prog.Simple (readPointerTable table) := by
  refine bind ofGet fun vol => ?_
  split
  · exact ofThrow _
  · exact bind (ofReadAt _) fun _ => ofPure _

open Prog.Simple in
theorem checkMapped_simple (block : UInt32) : Prog.Simple (checkMapped block) := by
  refine bind ofGet fun vol => ?_
  split
  · exact ofThrow _
  · exact ofPure _

open Prog.Simple in
theorem getFileDataBlock_simple (inode : Inode) (logicalBlock : Nat) :
    Prog.Simple (getFileDataBlock inode logicalBlock) := by
  unfold getFileDataBlock
  split
  · exact ofThrow _
  split
  · exact checkMapped_simple _
  split
  · split
    · exact ofPure _
    · exact bind (elseThrow (readPointerTable_simple _) _) fun _ => checkMapped_simple _
  · split
    · exact ofPure _
    · refine bind (elseThrow (readPointerTable_simple _) _) fun roots => ?_
      dsimp only
      split
      · exact ofPure _
      · exact bind (elseThrow (readPointerTable_simple _) _) fun _ => checkMapped_simple _

open Prog.Simple in
theorem findInBlock_simple (wanted : Dirent → Bool) (block : UInt32) :
    Prog.Simple (findInBlock wanted block) := by
  refine bind (elseThrow (ofReadAt _) _) fun data => ?_
  dsimp only
  split
  · exact ofThrow _
  · exact ofPure _

open Prog.Simple in
theorem findDirent_simple (stopAtHole : Bool) (wanted : Dirent → Bool) (blocks : List UInt32) :
    Prog.Simple (findDirent stopAtHole wanted blocks) := by
  induction blocks with
  | nil => exact ofPure _
  | cons block rest ih =>
    rw [findDirent]
    split
    · split
      · exact ofPure _
      · exact ih
    · refine bind (findInBlock_simple wanted block) fun found => ?_
      split
      · exact ofPure _
      · exact ih

open Prog.Simple in
theorem volLookup_simple (name : CString) : Prog.Simple (volLookup name) := by
  unfold volLookup
  split
  · exact ofThrow _
  · refine bind ofGet fun vol => bind (findDirent_simple _ _ _) fun found => ?_
    split
    · exact ofPure _
    · exact ofThrow _

open Prog.Simple in
theorem readdirBlock_simple {τ : Type} (cb : τ → List UInt8 → UInt32 → τ × Bool)
    (block : UInt32) (userdata : τ) : Prog.Simple (readdirBlock cb block userdata) := by
  refine bind (elseThrow (ofReadAt _) _) fun data => ?_
  split
  · exact ofThrow _
  · exact ofPure _

open Prog.Simple in
theorem readdirBlocks_simple {τ : Type} (cb : τ → List UInt8 → UInt32 → τ × Bool)
    (blocks : List UInt32) (userdata : τ) : Prog.Simple (readdirBlocks cb blocks userdata) := by
  induction blocks generalizing userdata with
  | nil => exact ofPure _
  | cons block rest ih =>
    rw [readdirBlocks]
    split
    · exact ih _
    · refine bind (readdirBlock_simple cb block userdata) fun outcome => ?_
      obtain ⟨userdata, stop⟩ := outcome
      dsimp only
      split
      · exact ofPure _
      · exact ih _

open Prog.Simple in
theorem volReaddir_simple {τ : Type} (cb : τ → List UInt8 → UInt32 → τ × Bool)
    (userdata : τ) : Prog.Simple (volReaddir cb userdata) :=
  bind ofGet fun _ => readdirBlocks_simple cb _ userdata

open Prog.Simple in
theorem readChunk_simple (physicalBlock : UInt32) (offset chunk : Nat) :
    Prog.Simple (readChunk physicalBlock offset chunk) := by
  unfold readChunk
  split
  · exact ofPure _
  · exact bind (elseThrow (ofReadAt _) _) fun _ => ofPure _

open Prog.Simple in
theorem readChunks_simple (inode : Inode) (fuel pos remaining : Nat) :
    Prog.Simple (readChunks inode fuel pos remaining) := by
  induction fuel generalizing pos remaining with
  | zero => exact ofPure _
  | succ fuel ih =>
    rw [readChunks]
    split
    · exact ofPure _
    · exact bind (getFileDataBlock_simple _ _) fun block =>
        bind (readChunk_simple _ _ _) fun bytes => bind (ih _ _) fun rest => ofPure _

open Prog.Simple in
theorem volRead_simple (ino : UInt32) (size : Nat) (offset : UInt64) :
    Prog.Simple (volRead ino size offset) := by
  unfold volRead
  split
  · exact ofThrow _
  split
  · exact ofThrow _
  · refine bind ofGet fun vol => ?_
    dsimp only
    split
    · exact ofThrow _
    split
    · exact ofPure _
    · exact readChunks_simple _ _ _ _

/-! ## So does validation -/

theorem orInvalid_simple {α : Type} (found : Option α) : Prog.Simple (orInvalid found) := by
  cases found with
  | none => exact Prog.Simple.ofThrow _
  | some value => exact Prog.Simple.ofPure _

open Prog.Simple in
theorem claimTable_simple (vol : Volume) (fileBlocks start : Nat) (table : UInt32)
    (claims : Claims) : Prog.Simple (claimTable vol fileBlocks start table claims) := by
  refine bind (orInvalid_simple _) fun claims =>
    bind (readPointerTable_simple _) fun pointers =>
      bind (orInvalid_simple _) fun counted => ?_
  dsimp only
  split
  · exact ofThrow _
  · exact ofPure _

open Prog.Simple in
theorem claimChildren_simple (vol : Volume) (fileBlocks : Nat) (roots : Pointers)
    (outers : List (Fin 1024)) (state : Claims × Nat × Nat) :
    Prog.Simple (claimChildren vol fileBlocks roots outers state) := by
  induction outers generalizing state with
  | nil => exact ofPure _
  | cons outer rest ih =>
    obtain ⟨claims, rootEntries, actual⟩ := state
    rw [claimChildren]
    dsimp only
    split
    · exact ih _
    split
    · exact ofThrow _
    · exact bind (claimTable_simple _ _ _ _ _) fun counted => ih _

open Prog.Simple in
theorem claimSingle_simple (vol : Volume) (inode : Inode) (fileBlocks : Nat)
    (claims : Claims) : Prog.Simple (claimSingle vol inode fileBlocks claims) := by
  unfold claimSingle
  split
  · exact ofPure _
  · exact claimTable_simple _ _ _ _ _

open Prog.Simple in
theorem claimDouble_simple (vol : Volume) (inode : Inode) (fileBlocks : Nat)
    (claims : Claims) : Prog.Simple (claimDouble vol inode fileBlocks claims) := by
  unfold claimDouble
  split
  · exact ofPure _
  · refine bind (orInvalid_simple _) fun claims =>
      bind (readPointerTable_simple _) fun roots =>
        bind (claimChildren_simple _ _ _ _ _) fun counted => ?_
    dsimp only
    split
    · exact ofThrow _
    · exact ofPure _

open Prog.Simple in
theorem validateInode_simple (vol : Volume) (ino : Fin 64) (claims : Claims)
    (allocatedInodes : Nat) : Prog.Simple (validateInode vol ino claims allocatedInodes) := by
  unfold validateInode
  dsimp only
  split
  · split
    · exact ofThrow _
    · exact ofPure _
  by_cases root : ino = 0 <;> simp only [root, if_true, if_false]
  · split
    · exact ofThrow _
    · exact bind (orInvalid_simple _) fun direct => ofPure _
  split
  · exact ofThrow _
  · refine bind (orInvalid_simple _) fun direct => ?_
    refine bind (claimSingle_simple _ _ _ _) fun single =>
      bind (claimDouble_simple _ _ _ _) fun double => ?_
    split
    · exact ofThrow _
    · exact ofPure _

open Prog.Simple in
theorem validateInodes_simple (vol : Volume) (inos : List (Fin 64)) (claims : Claims)
    (allocatedInodes : Nat) : Prog.Simple (validateInodes vol inos claims allocatedInodes) := by
  induction inos generalizing claims allocatedInodes with
  | nil => exact ofPure _
  | cons ino rest ih => exact bind (validateInode_simple _ _ _ _) fun counted => ih _ _

open Prog.Simple in
theorem collectBlocks_simple (vol : Volume) (blocks : List UInt32) (seen : Names) :
    Prog.Simple (collectBlocks vol blocks seen) := by
  induction blocks generalizing seen with
  | nil => exact ofPure _
  | cons block rest ih =>
    exact bind (ofReadAt _) fun data => bind (orInvalid_simple _) fun seen => ih _

open Prog.Simple in
theorem validateLoadedMetadata_simple : Prog.Simple validateLoadedMetadata := by
  refine bind ofGet fun vol => ?_
  dsimp only
  split
  · exact ofThrow _
  refine bind (validateInodes_simple _ _ _ _) fun counted => ?_
  split
  · exact ofThrow _
  split
  · exact ofThrow _
  split
  · exact ofThrow _
  refine bind (collectBlocks_simple _ _ _) fun seen => ?_
  split
  · exact ofThrow _
  · exact ofPure _

/-! ## Loading writes nothing -/

open Prog.ReadOnly in
theorem loadBitmap_readOnly (sectors : List Nat) : Prog.ReadOnly (loadBitmap sectors) := by
  induction sectors with
  | nil => exact ofPure _
  | cons i rest ih =>
    exact bind ofGet fun vol => bind (ofReadAt _) fun data => bind (ofModify _) fun _ => ih

open Prog.ReadOnly in
theorem loadInodes_readOnly (sectors : List Nat) : Prog.ReadOnly (loadInodes sectors) := by
  induction sectors with
  | nil => exact ofPure _
  | cons i rest ih =>
    exact bind ofGet fun vol => bind (ofReadAt _) fun data => bind (ofModify _) fun _ => ih

open Prog.ReadOnly in
theorem loadVolume_readOnly (crypto : Crypto) (mount : Mount) :
    Prog.ReadOnly (loadVolume crypto mount) := by
  refine bind (ofReadAt _) fun data => bind (ofModify _) fun _ => ?_
  dsimp only
  split
  · exact ofThrow _
  refine bind (loadBitmap_readOnly _) fun _ => bind ofGet fun vol => ?_
  split
  · exact ofThrow _
  · exact bind (loadInodes_readOnly _) fun _ => validateLoadedMetadata_simple.passive.readOnly

/-! ## Loading fails where a read fails -/

open Prog.Strict in
theorem loadBitmap_strict (sectors : List Nat) : Prog.Strict (loadBitmap sectors) := by
  induction sectors with
  | nil => exact ofPure _
  | cons i rest ih =>
    exact bind ofGet fun vol => bind (ofReadAt _) fun data => bind (ofModify _) fun _ => ih

open Prog.Strict in
theorem loadInodes_strict (sectors : List Nat) : Prog.Strict (loadInodes sectors) := by
  induction sectors with
  | nil => exact ofPure _
  | cons i rest ih =>
    exact bind ofGet fun vol => bind (ofReadAt _) fun data => bind (ofModify _) fun _ => ih

open Prog.Strict in
theorem loadVolume_strict (crypto : Crypto) (mount : Mount) :
    Prog.Strict (loadVolume crypto mount) := by
  refine bind (ofReadAt _) fun data => bind (ofModify _) fun _ => ?_
  dsimp only
  split
  · exact ofThrow _
  refine bind (loadBitmap_strict _) fun _ => bind ofGet fun vol => ?_
  split
  · exact ofThrow _
  · exact bind (loadInodes_strict _) fun _ => validateLoadedMetadata_simple.strict

end DenyFS
