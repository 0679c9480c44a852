/-
Module: NuageKubemon.Pool.Fragment
Purpose: The pool never merges blocks. `Free` puts a subnet back as it is, next to the halves
  that `Alloc` split off around it, and no code path joins two halves again (`Merge` exists but
  nothing calls it). So over every run within the pool's contract (`Alloc` at sizes `0..32`,
  `Free` only of outstanding allocations) the blocks, free or handed out, only get finer: each
  block at the end lies inside a block at the start whose mask is no longer. Once every block is
  finer than `/j`, no later `Alloc(j)` of such a run succeeds, whichever allocations it frees:
  after the first `Alloc(24)` from a `/14` cluster block, `Alloc(14)` fails as long as only
  outstanding allocations are freed.
Trusted boundary: none beyond that of `Pool.Run`.
Main exports: PoolState.Finer, PoolState.run_finer, PoolState.run_alloc_fails
-/
import NuageKubemon.Pool.Run

namespace NuageKubemon

namespace PoolState

/-- Every block of `st'` lies inside a block of `st` whose mask is no longer: `st'` cuts the
addresses at least as finely as `st` does. -/
def Finer (st' st : PoolState) : Prop :=
  ∀ b' ∈ st'.blocks, ∃ b ∈ st.blocks, b'.SubsetOf b ∧ b.cidrMask ≤ b'.cidrMask

section Finer

variable {st st₁ st' : PoolState}

theorem Finer.refl (st : PoolState) : st.Finer st :=
  fun b hb => ⟨b, hb, .refl b, le_rfl⟩

theorem Finer.trans (h₁ : st₁.Finer st) (h₂ : st'.Finer st₁) : st'.Finer st := fun b' hb' => by
  obtain ⟨b₁, hb₁, hsub₁, hm₁⟩ := h₂ b' hb'
  obtain ⟨b, hb, hsub, hm⟩ := h₁ b₁ hb₁
  exact ⟨b, hb, hsub₁.trans hsub, le_trans hm hm₁⟩

theorem Finer.of_perm (h : List.Perm st'.blocks st.blocks) : st'.Finer st :=
  fun b hb => ⟨b, h.subset hb, .refl b, le_rfl⟩

/-- A successful `Free` moves its subnet from the outstanding list to the pool. -/
theorem blocks_perm_of_free_ok {s : IPv4Subnet} (hs : s ∈ st.outstanding)
    (h : st.pool.free s = some (.ok st'.pool)) (hout : st'.outstanding = st.outstanding.erase s) :
    List.Perm st'.blocks st.blocks := by
  rw [blocks, blocks, hout]
  calc List.Perm _ ((s :: st.pool.entries) ++ st.outstanding.erase s) :=
        (IPv4SubnetPool.free_ok_entries h).append_right _
    List.Perm _ (st.pool.entries ++ s :: st.outstanding.erase s) := List.perm_middle.symm
    List.Perm _ _ := (List.perm_cons_erase hs).symm.append_left _

/-- What `Alloc` hands out and splits off lies inside the block it took, at a mask no shorter. -/
theorem finer_of_alloc_ok (hlev : st.pool.Levels) {k : Nat} (hk : k ≤ 32) {r : IPv4Subnet}
    (h : st.pool.alloc k = some (st'.pool, .ok r)) (hout : st'.outstanding = r :: st.outstanding) :
    st'.Finer st := by
  obtain ⟨j, B, hjk, hB, hBm, rfl, hE⟩ := IPv4SubnetPool.alloc_ok_entries hlev hk h
  obtain ⟨-, hsub, -⟩ := IPv4Subnet.partition_descend B (by omega) (k - j) (by omega)
  have hB' : B ∈ st.blocks := List.mem_append_left _ hB
  intro b' hb'
  rw [blocks, hout] at hb'
  rcases List.mem_append.1 hb' with hb' | hb'
  · rcases List.mem_append.1 (hE.subset hb') with hb' | hb'
    · -- a free block `Alloc` did not touch
      exact ⟨b', List.mem_append_left _ (List.mem_of_mem_erase hb'), .refl b', le_rfl⟩
    · -- a high half split off `B`
      refine ⟨B, hB', hsub b' (List.mem_cons_of_mem _ hb'), ?_⟩
      obtain ⟨i, -, rfl⟩ := List.mem_map.1 hb'
      rw [IPv4Subnet.cidrMask_upperHalf_descend]
      omega
  · rcases List.mem_cons.1 hb' with rfl | hb'
    · -- the subnet handed out
      refine ⟨B, hB', hsub _ (List.mem_cons_self _ _), ?_⟩
      rw [IPv4Subnet.cidrMask_descend]
      omega
    · exact ⟨b', List.mem_append_right _ hb', .refl b', le_rfl⟩

/-- One call within the contract keeps the lists at their own mask and makes the blocks finer. -/
theorem levels_finer_step (hlev : st.pool.Levels) {op : PoolOp} (h : st.step op = some st') :
    st'.pool.Levels ∧ st'.Finer st := by
  rcases step_cases h with ⟨k, hk, r, halloc, hout⟩ | ⟨k, hk, e, halloc, hout⟩ |
    ⟨s, hs, hfree, hout⟩ | rfl
  · exact ⟨(IPv4SubnetPool.alloc_ok_levels hlev hk halloc).1, finer_of_alloc_ok hlev hk halloc hout⟩
  · have hpool := IPv4SubnetPool.alloc_error_eq hlev hk halloc
    exact ⟨hpool ▸ hlev, .of_perm (by rw [blocks, blocks, hpool, hout])⟩
  · exact ⟨IPv4SubnetPool.free_ok_levels hlev hfree, .of_perm (blocks_perm_of_free_ok hs hfree hout)⟩
  · exact ⟨hlev, .refl _⟩

theorem levels_finer_run :
    ∀ {st st' : PoolState} (ops : List PoolOp), st.pool.Levels → st.run ops = some st' →
      st'.pool.Levels ∧ st'.Finer st
  | _, _, [], hlev, h => by cases h; exact ⟨hlev, .refl _⟩
  | _, _, op :: ops, hlev, h => by
    obtain ⟨st₁, h₁, h₂⟩ := Option.bind_eq_some.1 h
    obtain ⟨hlev₁, hfin₁⟩ := levels_finer_step hlev h₁
    obtain ⟨hlev', hfin'⟩ := levels_finer_run ops hlev₁ h₂
    exact ⟨hlev', hfin₁.trans hfin'⟩

end Finer

/-- Over every run of pool calls from a pool whose lists hold their own mask, the blocks only get
finer: every free block and outstanding allocation at the end lies inside a free block or
outstanding allocation at the start, whose mask is no longer. No run ever joins two blocks. -/
theorem run_finer {st st' : PoolState} (hlev : st.pool.Levels) (ops : List PoolOp)
    (h : st.run ops = some st') :
    ∀ b' ∈ st'.pool.entries ++ st'.outstanding, ∃ b ∈ st.pool.entries ++ st.outstanding,
      b'.SubsetOf b ∧ b.cidrMask ≤ b'.cidrMask :=
  (levels_finer_run ops hlev h).2

/-- `Alloc(24)` from the cluster block `10.128.0.0/14`: every block afterwards lies inside it. -/
theorem run_finer_cluster :
    ∃ st', PoolState.run ⟨IPv4SubnetPool.empty.set 14 [⟨⟨10, 128, 0, 0⟩, 14⟩], []⟩ [.alloc 24] =
        some st' ∧
      ∀ b' ∈ st'.pool.entries ++ st'.outstanding,
        ∃ b ∈ (IPv4SubnetPool.empty.set 14 [⟨⟨10, 128, 0, 0⟩, 14⟩]).entries ++ [],
          b'.SubsetOf b ∧ b.cidrMask ≤ b'.cidrMask := by
  obtain ⟨st', h⟩ : ∃ st', PoolState.run
      ⟨IPv4SubnetPool.empty.set 14 [⟨⟨10, 128, 0, 0⟩, 14⟩], []⟩ [.alloc 24] = some st' :=
    ⟨_, rfl⟩
  have hfin := run_finer (reachable_invariant clusterSeed).levels _ h
  exact ⟨st', h, hfin⟩

/-- Once every block, free or handed out, is finer than `/j`, `Alloc(j)` fails at the end of every
later run within the contract, whichever outstanding allocations the run frees: the pool has no
list at mask `j` or shorter left. -/
theorem run_alloc_fails {st st' : PoolState} (hlev : st.pool.Levels) {j : Nat} (hj : j ≤ 32)
    (hfine : ∀ b ∈ st.pool.entries ++ st.outstanding, j < b.cidrMask) (ops : List PoolOp)
    (h : st.run ops = some st') : st'.pool.alloc j = some (st'.pool, .error .invalidSize) := by
  obtain ⟨hlev', hfin⟩ := levels_finer_run ops hlev h
  have hempty : ∀ i ≤ j, st'.pool.get i = [] := fun i hi => by
    refine List.eq_nil_iff_forall_not_mem.2 fun s hs => ?_
    obtain ⟨b, hb, -, hm⟩ := hfin s (List.mem_append_left _ (IPv4SubnetPool.mem_entries.2 ⟨i, hs⟩))
    have := hfine b hb
    have := hlev' i s hs
    omega
  rw [IPv4SubnetPool.alloc_eq_allocAt _ hj]
  exact IPv4SubnetPool.allocAt_of_empty hempty

set_option maxRecDepth 2000 in
/-- From `10.128.0.0/14`, one `Alloc(24)` splits the cluster block; freeing the `/24` again does
not restore it, and `Alloc(14)` fails. -/
theorem run_alloc_fails_cluster :
    ∃ st st' : PoolState, st.Reachable ⟨⟨10, 128, 0, 0⟩, 14⟩ ∧
      st.run [.free ⟨⟨10, 128, 0, 0⟩, 24⟩] = some st' ∧
      st'.pool.alloc 14 = some (st'.pool, .error .invalidSize) := by
  obtain ⟨st, hst, hfine, hrun⟩ := clusterSeed.exists_of_run [.alloc 24]
    (fun st => (∀ b ∈ st.pool.entries ++ st.outstanding, 14 < b.cidrMask) ∧
      (st.run [.free ⟨⟨10, 128, 0, 0⟩, 24⟩]).isSome) (by decide)
  obtain ⟨st', hst'⟩ := Option.isSome_iff_exists.1 hrun
  exact ⟨st, st', hst, hst',
    run_alloc_fails (reachable_invariant hst).levels (by decide) hfine _ hst'⟩

end PoolState

end NuageKubemon
