import DenyFS.Verified.Release

/-! # Unlink's release path

`free_inode` releases the blocks of an inode with loops of its own, which keep neither the
pointer tables nor `block_count` up to date.  Run side by side with `truncate_file_blocks` to
length zero, on any device, it makes the same requests, fails in the same places and leaves the
same volume but for `block_count`. -/

namespace DenyFS

open Packed BlockProgram Ownership

variable {count : Nat} {vol vol' : Volume} {disk disk' : Blocks} {ino : Fin 64} {c : UInt32}

/-! ## Forgetting `block_count` -/

def Volume.recount (vol : Volume) (ino : Fin 64) (blockCount : UInt32) : Volume :=
  vol.setInode ino { vol.inodes ino with blockCount }

theorem recount_inode (vol : Volume) (ino : Fin 64) (c : UInt32) :
    (vol.recount ino c).inodes ino = { vol.inodes ino with blockCount := c } :=
  Function.update_self ..

theorem freeBlock_recount (vol : Volume) (ino : Fin 64) (c block : UInt32) :
    freeBlock (vol.recount ino c) block = (freeBlock vol block).recount ino c := by
  unfold Volume.recount
  rw [freeBlock_setInode, freeBlock_inodes]

theorem setInode_recount (vol : Volume) (inode : Inode) :
    (vol.setInode ino inode).recount ino c = vol.setInode ino { inode with blockCount := c } := by
  unfold Volume.recount Volume.setInode
  simp only [Function.update_self, Function.update_idem]

/-- Setting an inode does not see what `block_count` was before. -/
theorem recount_setInode (vol : Volume) (inode : Inode) :
    (vol.recount ino c).setInode ino inode = vol.setInode ino inode := by
  unfold Volume.recount Volume.setInode
  simp only [Function.update_idem]

/-! ## The loops in memory -/

theorem freeDirectAt_recount (vol : Volume) (i : Fin 20) :
    freeDirectAt ino (vol.recount ino c) i = (truncateDirectAt ino 0 vol i).recount ino c := by
  unfold freeDirectAt truncateDirectAt
  simp only [recount_inode, Nat.zero_le, true_and]
  by_cases present : (vol.inodes ino).direct i ≠ invalidBlock
  · simp only [if_pos present]
    rw [freeBlock_recount, recount_setInode, setInode_recount]
  · simp only [if_neg present]

theorem foldl_freeDirectAt_recount (indices : List (Fin 20)) (vol : Volume) :
    indices.foldl (freeDirectAt ino) (vol.recount ino c) =
      (indices.foldl (truncateDirectAt ino 0) vol).recount ino c := by
  induction indices generalizing vol with
  | nil => rfl
  | cons i rest ih => rw [List.foldl_cons, List.foldl_cons, freeDirectAt_recount, ih]

/-- Pruning a table to length zero keeps no entry and releases all of them. -/
theorem foldl_prune_recount (ino : Fin 64) (c : UInt32) (start : Nat) {pointers : Pointers}
    (indices : List (Fin 1024))
    (nodup : indices.Nodup) (s : Pruning) (same : ∀ i ∈ indices, s.pointers i = pointers i) :
    (indices.foldl (prunePointerAt ino start 0) s).vol.recount ino c =
        indices.foldl (fun vol i =>
          if pointers i ≠ invalidBlock then freeBlock vol (pointers i) else vol)
          (s.vol.recount ino c) ∧
      (indices.foldl (prunePointerAt ino start 0) s).remaining = s.remaining := by
  induction indices generalizing s with
  | nil => exact ⟨rfl, rfl⟩
  | cons i rest ih =>
    obtain ⟨absent, nodup⟩ := List.nodup_cons.1 nodup
    have here := same i List.mem_cons_self
    rw [List.foldl_cons, List.foldl_cons]
    by_cases present : s.pointers i ≠ invalidBlock
    · rw [prunePointerAt_dropped (Nat.zero_le _) present, if_pos (here ▸ present)]
      obtain ⟨volume, remaining⟩ := ih nodup
        ⟨(freeBlock s.vol (s.pointers i)).setInode ino
          { s.vol.inodes ino with blockCount := (s.vol.inodes ino).blockCount - 1 },
          Function.update s.pointers i invalidBlock, s.remaining⟩ fun j member => by
            have other : j ≠ i := fun equal => absent (equal ▸ member)
            dsimp only
            rw [Function.update_of_ne other]
            exact same j (List.mem_cons_of_mem _ member)
      refine ⟨volume.trans ?_, remaining⟩
      have step : ((freeBlock s.vol (s.pointers i)).setInode ino
          { s.vol.inodes ino with blockCount := (s.vol.inodes ino).blockCount - 1 }).recount ino c =
          freeBlock (s.vol.recount ino c) (pointers i) := by
        rw [setInode_recount, freeBlock_recount, Volume.recount, freeBlock_inodes, here]
      dsimp only
      rw [step]
    · rw [prunePointerAt_kept fun both => present both.2, if_neg present,
        if_neg (here ▸ present)]
      exact ih nodup ⟨s.vol, s.pointers, s.remaining + 0⟩
        fun j member => same j (List.mem_cons_of_mem _ member)

/-! ## Side by side -/

variable {δ α : Type} (device : Device δ UInt32 Sector Errno)

/-- An outcome with `block_count` replaced. -/
def recounted (ino : Fin 64) (c : UInt32) (outcome : Except Errno α × (Volume × δ)) :
    Except Errno α × (Volume × δ) :=
  (outcome.1, outcome.2.1.recount ino c, outcome.2.2)

theorem exec_readTable_recount (table : UInt32) (vol : Volume) (state : δ) (error : Errno) :
    ∃ result state', (∀ v : Volume, v.sb = vol.sb → v.bitmap = vol.bitmap →
      Prog.exec device ((readPointerTable table).elseThrow error) (v, state) =
        (result, v, state')) := by
  by_cases inUse : vol.allocated table
  · rcases reply : device.read table state with ⟨data, state'⟩
    cases data with
    | ok data =>
      refine ⟨.ok (pointersSector.symm data), state', fun v sb bitmap => ?_⟩
      have inUse' : v.allocated table := by
        unfold Volume.allocated Volume.bit
        rw [sb, bitmap]
        exact inUse
      refine Prog.exec_elseThrow_ok ?_ error
      unfold readPointerTable
      rw [Prog.exec_bind_ok (Prog.exec_get _ _), if_neg (not_not_intro inUse'),
        Prog.exec_bind, Prog.exec_readAt, reply]
      rfl
    | error failure =>
      refine ⟨.error error, state', fun v sb bitmap => ?_⟩
      have inUse' : v.allocated table := by
        unfold Volume.allocated Volume.bit
        rw [sb, bitmap]
        exact inUse
      have fails : Prog.exec device (readPointerTable table) (v, state) =
          (.error failure, v, state') := by
        unfold readPointerTable
        rw [Prog.exec_bind_ok (Prog.exec_get _ _), if_neg (not_not_intro inUse'),
          Prog.exec_bind, Prog.exec_readAt, reply]
      exact Prog.exec_elseThrow_error fails error
  · refine ⟨.error error, state, fun v sb bitmap => ?_⟩
    have free : ¬v.allocated table := by
      unfold Volume.allocated Volume.bit
      rw [sb, bitmap]
      exact inUse
    have fails : Prog.exec device (readPointerTable table) (v, state) =
        (.error .eperm, v, state) := by
      unfold readPointerTable
      rw [Prog.exec_bind_ok (Prog.exec_get _ _), if_pos free, Prog.exec_throw]
    exact Prog.exec_elseThrow_error fails error

theorem exec_prune_recount (ino : Fin 64) (c : UInt32) (start : Nat) (pointers : Pointers) (vol : Volume) (state : δ) :
    ∃ vol' pointers', vol'.recount ino c = freePointers pointers (vol.recount ino c) ∧
      Prog.exec device (prunePointers ino start 0 pointers) (vol, state) =
        (.ok (pointers', 0), vol', state) := by
  have pruned := foldl_prune_recount ino c start (upTo 1024) (upTo_nodup 1024) ⟨vol, pointers, 0⟩
    fun i _ => rfl
  rcases result : (upTo 1024).foldl (prunePointerAt ino start 0) ⟨vol, pointers, 0⟩ with
    ⟨vol', pointers', left⟩
  rw [result] at pruned
  obtain ⟨volume, remaining⟩ := pruned
  dsimp only at volume remaining
  refine ⟨vol', pointers', volume, ?_⟩
  unfold prunePointers
  rw [Prog.exec_modifyGet, result, remaining]

theorem exec_freeSingle (vol : Volume) (state : δ) :
    Prog.exec device (freeSingle ino) (vol.recount ino c, state) =
      recounted ino c (Prog.exec device (truncateSingle ino 0) (vol, state)) := by
  unfold freeSingle truncateSingle
  rw [Prog.exec_bind_ok (Prog.exec_get _ _), Prog.exec_bind_ok (Prog.exec_get _ _)]
  simp only [recount_inode]
  by_cases absent : (vol.inodes ino).indirectBlock = invalidBlock
  · rw [if_pos absent, if_pos absent]
    rfl
  rw [if_neg absent, if_neg absent]
  obtain ⟨result, state', reads⟩ := exec_readTable_recount device
    (vol.inodes ino).indirectBlock vol state .eio
  cases result with
  | error error =>
    rw [Prog.exec_bind_error (reads vol rfl rfl), Prog.exec_bind_error (reads (vol.recount ino c) rfl rfl)]
    rfl
  | ok pointers =>
    rw [Prog.exec_bind_ok (reads vol rfl rfl), Prog.exec_bind_ok (reads (vol.recount ino c) rfl rfl)]
    obtain ⟨vol', pointers', volume, prunes⟩ :=
      exec_prune_recount device ino c 20 pointers vol state'
    rw [Prog.exec_bind_ok prunes]
    dsimp only
    rw [if_pos rfl, Prog.exec_bind_ok (Prog.exec_modify _ _ _),
      Prog.exec_bind_ok (Prog.exec_modify _ _ _), ← volume, freeBlock_recount]
    unfold modifyInode recounted
    rw [Prog.exec_modify, Prog.exec_modify]
    dsimp only
    rw [recount_inode, recount_setInode, setInode_recount]

theorem exec_freeChildren (ino : Fin 64) (c : UInt32) (outers : List (Fin 1024)) (nodup : outers.Nodup) (roots roots' : Pointers)
    (same : ∀ outer ∈ outers, roots' outer = roots outer) (remaining : Nat) (vol : Volume)
    (state : δ) :
    match Prog.exec device (truncateChildren ino 0 outers roots' remaining) (vol, state) with
    | (.ok (_, left), vol', state') => left = remaining ∧
      Prog.exec device (freeChildren outers roots) (vol.recount ino c, state) =
        (.ok (), vol'.recount ino c, state')
    | (.error error, vol', state') =>
      Prog.exec device (freeChildren outers roots) (vol.recount ino c, state) =
        (.error error, vol'.recount ino c, state') := by
  induction outers generalizing vol state roots' remaining with
  | nil => exact ⟨rfl, rfl⟩
  | cons outer rest ih =>
    obtain ⟨absent, nodup⟩ := List.nodup_cons.1 nodup
    have here := same outer List.mem_cons_self
    have later := fun o (member : o ∈ rest) => same o (List.mem_cons_of_mem _ member)
    rw [truncateChildren, freeChildren, here]
    by_cases hole : roots outer = invalidBlock
    · rw [if_pos hole, if_pos hole]
      exact ih nodup roots' later remaining vol state
    rw [if_neg hole, if_neg hole]
    obtain ⟨result, state', reads⟩ := exec_readTable_recount device
      (roots outer) vol state .eio
    cases result with
    | error error =>
      rw [Prog.exec_bind_error (reads vol rfl rfl)]
      dsimp only
      rw [Prog.exec_bind_error (reads (vol.recount ino c) rfl rfl)]
    | ok pointers =>
      rw [Prog.exec_bind_ok (reads vol rfl rfl)]
      obtain ⟨vol', pointers', volume, prunes⟩ := exec_prune_recount device
        ino c (20 + 1024 + outer.val * 1024) pointers vol state'
      have step : Prog.exec device (freeChildren rest roots)
          (freeBlock (freePointers pointers (vol.recount ino c)) (roots outer), state') =
          Prog.exec device (freeChildren rest roots)
            ((freeBlock vol' (roots outer)).recount ino c, state') := by
        rw [← volume, freeBlock_recount]
      have unfolded : Prog.exec device (((readPointerTable (roots outer)).elseThrow .eio) >>=
          fun pointers => (modify fun vol =>
            freeBlock (freePointers pointers vol) (roots outer)) >>= fun _ =>
            freeChildren rest roots) (vol.recount ino c, state) =
          Prog.exec device (freeChildren rest roots)
            ((freeBlock vol' (roots outer)).recount ino c, state') := by
        rw [Prog.exec_bind_ok (reads (vol.recount ino c) rfl rfl), Prog.exec_bind_ok (Prog.exec_modify _ _ _), step]
      rw [unfolded, Prog.exec_bind_ok prunes]
      dsimp only
      rw [if_pos rfl, Prog.exec_bind_ok (Prog.exec_modify _ _ _)]
      refine ih nodup (Function.update roots' outer invalidBlock) (fun o member => ?_) remaining _ _
      have other : o ≠ outer := fun equal => absent (equal ▸ member)
      rw [Function.update_of_ne other]
      exact later o member

theorem exec_freeDouble (vol : Volume) (state : δ) :
    Prog.exec device (freeDouble ino) (vol.recount ino c, state) =
      recounted ino c (Prog.exec device (truncateDouble ino 0) (vol, state)) := by
  unfold freeDouble truncateDouble
  rw [Prog.exec_bind_ok (Prog.exec_get _ _), Prog.exec_bind_ok (Prog.exec_get _ _)]
  simp only [recount_inode]
  by_cases absent : (vol.inodes ino).doubleIndirectBlock = invalidBlock
  · rw [if_pos absent, if_pos absent]
    rfl
  rw [if_neg absent, if_neg absent]
  obtain ⟨result, state', reads⟩ := exec_readTable_recount device
    (vol.inodes ino).doubleIndirectBlock vol state .eio
  cases result with
  | error error =>
    rw [Prog.exec_bind_error (reads vol rfl rfl), Prog.exec_bind_error (reads (vol.recount ino c) rfl rfl)]
    rfl
  | ok roots =>
    rw [Prog.exec_bind_ok (reads vol rfl rfl), Prog.exec_bind_ok (reads (vol.recount ino c) rfl rfl)]
    have children := exec_freeChildren device ino c (upTo 1024)
      (upTo_nodup 1024) roots roots (fun _ _ => rfl) 0 vol state'
    rcases loop : Prog.exec device (truncateChildren ino 0 (upTo 1024) roots 0) (vol, state') with
      ⟨outcome, vol', state''⟩
    rw [loop] at children
    cases outcome with
    | error error =>
      rw [Prog.exec_bind_error loop, Prog.exec_bind_error children]
      rfl
    | ok left =>
      obtain ⟨roots', left⟩ := left
      obtain ⟨rfl, frees⟩ := children
      rw [Prog.exec_bind_ok loop, Prog.exec_bind_ok frees]
      dsimp only
      rw [if_pos rfl, Prog.exec_bind_ok (Prog.exec_modify _ _ _),
        Prog.exec_bind_ok (Prog.exec_modify _ _ _), freeBlock_recount]
      unfold modifyInode recounted
      rw [Prog.exec_modify, Prog.exec_modify]
      dsimp only
      rw [recount_inode, recount_setInode, setInode_recount]

/-- The releasing part of `free_inode`, without the last two assignments. -/
def releaseInode (ino : Fin 64) : Op Unit := do
  modify fun vol => (upTo 20).foldl (freeDirectAt ino) vol
  freeSingle ino
  freeDouble ino

/-- Releasing the blocks of an inode is truncating its block map to nothing, but for
`block_count`. -/
theorem exec_releaseInode (ino : Fin 64) (c : UInt32) (vol : Volume) (state : δ) :
    Prog.exec device (releaseInode ino) (vol.recount ino c, state) =
      recounted ino c (Prog.exec device (truncateFileBlocks ino 0) (vol, state)) := by
  unfold releaseInode truncateFileBlocks
  rw [Prog.exec_bind_ok (Prog.exec_modify _ _ _), Prog.exec_bind_ok (Prog.exec_modify _ _ _)]
  dsimp only
  rw [foldl_freeDirectAt_recount, Prog.exec_bind, Prog.exec_bind, exec_freeSingle device]
  rcases Prog.exec device (truncateSingle ino 0)
    ((upTo 20).foldl (truncateDirectAt ino 0) vol, state) with ⟨outcome, vol', state'⟩
  cases outcome with
  | error error => rfl
  | ok _ => exact exec_freeDouble device vol' state'

theorem recount_self (vol : Volume) (ino : Fin 64) :
    vol.recount ino (vol.inodes ino).blockCount = vol := by
  unfold Volume.recount Volume.setInode
  rw [Function.update_eq_self]

end DenyFS
