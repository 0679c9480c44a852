/-
Module: NuageKubemon.Pool.Run
Purpose: The pool as the controller drives it. A run starts from the zero pool into which the
  cluster block `C` was freed, and then makes any sequence of `Alloc(k)` with `0 ≤ k ≤ 32` and of
  `Free(s)` of an `s` that an earlier `Alloc` returned and no `Free` has taken back. The state keeps
  the outstanding allocations next to the pool. Over every run the lists hold only their own mask,
  and the pool's blocks and the outstanding allocations are pairwise disjoint, lie inside `C` and
  cover it. A `Free` that fails keeps its subnet outstanding here; the callers in the controller
  drop it instead, and that is where its addresses leave the pool for good. A concrete run from
  `10.128.0.0/14` has such a `Free` report a double free for a subnet that is outstanding.
Trusted boundary: none
Main exports: PoolOp, PoolState, PoolState.step, PoolState.run, PoolState.Reachable,
  PoolState.Invariant, PoolState.reachable_invariant
-/
import NuageKubemon.Pool.Alloc

namespace NuageKubemon

/-- A call a client makes on the pool. -/
inductive PoolOp where
  | alloc (size : Int)
  | free (subnet : IPv4Subnet)
deriving DecidableEq, Repr

/-- The pool with the subnets `Alloc` has handed out and no `Free` has taken back. -/
structure PoolState where
  pool : IPv4SubnetPool
  outstanding : List IPv4Subnet
deriving DecidableEq

namespace PoolState

/-- One call within the pool's contract: `Alloc` of a size in `0..32`, or `Free` of an
outstanding subnet. A call outside the contract, or a panic inside the pool, is `none`. -/
def step (st : PoolState) : PoolOp → Option PoolState
  | .alloc size =>
    if 0 ≤ size ∧ size ≤ 32 then
      (st.pool.alloc size).map fun
        | (pool, .ok s) => ⟨pool, s :: st.outstanding⟩
        | (pool, .error _) => ⟨pool, st.outstanding⟩
    else none
  | .free s =>
    if s ∈ st.outstanding then
      (st.pool.free s).map fun
        | .ok pool => ⟨pool, st.outstanding.erase s⟩
        | .error _ => st
    else none

/-- A sequence of calls, stopping at the first one outside the contract or that panics. -/
def run (st : PoolState) : List PoolOp → Option PoolState
  | [] => some st
  | op :: ops => (st.step op).bind fun st' => st'.run ops

/-- The states of the runs from the zero pool into which the cluster block `C` was freed. -/
inductive Reachable (C : IPv4Subnet) : PoolState → Prop
  | seed {pool : IPv4SubnetPool} : IPv4SubnetPool.empty.free C = some (.ok pool) →
      Reachable C ⟨pool, []⟩
  | step {st st' : PoolState} (op : PoolOp) : Reachable C st → st.step op = some st' →
      Reachable C st'

theorem Reachable.run {C : IPv4Subnet} {st st' : PoolState} (h : st.Reachable C) :
    ∀ ops : List PoolOp, st.run ops = some st' → st'.Reachable C
  | [], hrun => by cases hrun; exact h
  | op :: ops, hrun => by
    simp only [PoolState.run, Option.bind_eq_some] at hrun
    obtain ⟨st'', hstep, hrun⟩ := hrun
    exact (h.step op hstep).run ops hrun

/-- A decidable property checked on the end state of a run holds of a reachable state. -/
theorem Reachable.exists_of_run {C : IPv4Subnet} {st : PoolState} (h : st.Reachable C)
    (ops : List PoolOp) (P : PoolState → Prop) [DecidablePred P]
    (hp : (st.run ops).any (fun st' => decide (P st')) = true) : ∃ st', st'.Reachable C ∧ P st' := by
  cases hr : st.run ops with
  | none => simp [hr] at hp
  | some st' => exact ⟨st', h.run ops hr, by simpa [hr] using hp⟩

/-! ### What one call does -/

/-- Everything a call within the contract can do: a successful `Alloc(k)`, a failed one that
changes nothing, a successful `Free` of an outstanding subnet, or a failed one that changes
nothing. -/
theorem step_cases {st st' : PoolState} {op : PoolOp} (h : st.step op = some st') :
    (∃ k : Nat, k ≤ 32 ∧ ∃ r, st.pool.alloc k = some (st'.pool, .ok r) ∧
      st'.outstanding = r :: st.outstanding) ∨
    (∃ k : Nat, k ≤ 32 ∧ ∃ e, st.pool.alloc k = some (st'.pool, .error e) ∧
      st'.outstanding = st.outstanding) ∨
    (∃ s ∈ st.outstanding, st.pool.free s = some (.ok st'.pool) ∧
      st'.outstanding = st.outstanding.erase s) ∨
    st' = st := by
  cases op with
  | alloc size =>
    simp only [step] at h
    split_ifs at h with hk
    obtain ⟨⟨pool, r⟩, halloc, rfl⟩ := Option.map_eq_some'.1 h
    have hsize : size = (size.toNat : Int) := by omega
    rw [hsize] at halloc
    cases r with
    | ok s => exact .inl ⟨size.toNat, by omega, s, halloc, rfl⟩
    | error e => exact .inr (.inl ⟨size.toNat, by omega, e, halloc, rfl⟩)
  | free s =>
    simp only [step] at h
    split_ifs at h with hs
    obtain ⟨r, hfree, rfl⟩ := Option.map_eq_some'.1 h
    cases r with
    | ok pool => exact .inr (.inr (.inl ⟨s, hs, hfree, rfl⟩))
    | error e => exact .inr (.inr (.inr rfl))

/-! ### The invariant -/

/-- The blocks a state accounts for: the pool's free blocks, then the outstanding allocations. -/
def blocks (st : PoolState) : List IPv4Subnet := st.pool.entries ++ st.outstanding

/-- The pool's lists hold their own mask, and the blocks partition the cluster block `C`. -/
structure Invariant (C : IPv4Subnet) (st : PoolState) : Prop where
  levels : st.pool.Levels
  disjoint : st.blocks.Pairwise IPv4Subnet.Disjoint
  inside : ∀ s ∈ st.blocks, s.SubsetOf C
  covers : ∀ v, C.Contains v → ∃ s ∈ st.blocks, s.Contains v

section Invariant

variable {C : IPv4Subnet} {st st' : PoolState}

/-- A state whose blocks are a permutation of an invariant state's keeps the invariant. -/
theorem Invariant.of_perm (hi : st.Invariant C) (hlev : st'.pool.Levels)
    (h : List.Perm st'.blocks st.blocks) : st'.Invariant C where
  levels := hlev
  disjoint := hi.disjoint.perm h.symm IPv4Subnet.Disjoint.symm
  inside s hs := hi.inside s (h.subset hs)
  covers v hv := by
    obtain ⟨s, hs, hsv⟩ := hi.covers v hv
    exact ⟨s, h.symm.subset hs, hsv⟩

/-- Replacing the block `B` by pieces that partition it keeps the invariant. -/
theorem Invariant.replace (hi : st.Invariant C) (hlev : st'.pool.Levels) {B : IPv4Subnet}
    {D P : List IPv4Subnet} (hb : List.Perm st.blocks (B :: D)) (hb' : List.Perm st'.blocks (P ++ D))
    (hcov : ∀ v, B.Contains v ↔ ∃ u ∈ P, u.Contains v) (hsub : ∀ u ∈ P, u.SubsetOf B)
    (hdis : P.Pairwise IPv4Subnet.Disjoint) : st'.Invariant C := by
  have hBD := hi.disjoint.perm hb IPv4Subnet.Disjoint.symm
  have hin : ∀ s ∈ B :: D, s.SubsetOf C := fun s hs => hi.inside s (hb.symm.subset hs)
  refine ⟨hlev, ?_, fun s hs => ?_, fun v hv => ?_⟩
  · exact (IPv4Subnet.pairwise_disjoint_replace hBD hsub hdis).perm hb'.symm
      IPv4Subnet.Disjoint.symm
  · rcases List.mem_append.1 (hb'.subset hs) with hs | hs
    · exact (hsub s hs).trans (hin B (List.mem_cons_self _ _))
    · exact hin s (List.mem_cons_of_mem _ hs)
  · obtain ⟨s, hs, hsv⟩ := hi.covers v hv
    rcases List.mem_cons.1 (hb.subset hs) with rfl | hs
    · obtain ⟨u, hu, huv⟩ := (hcov v).1 hsv
      exact ⟨u, hb'.symm.subset (List.mem_append_left _ hu), huv⟩
    · exact ⟨s, hb'.symm.subset (List.mem_append_right _ hs), hsv⟩

/-- A successful `Alloc` trades the free block it took for the result and the split-off halves. -/
theorem Invariant.alloc_ok (hi : st.Invariant C) {k : Nat} (hk : k ≤ 32) {r : IPv4Subnet}
    (h : st.pool.alloc k = some (st'.pool, .ok r)) (hout : st'.outstanding = r :: st.outstanding) :
    st'.Invariant C := by
  obtain ⟨j, B, hjk, hB, hBm, rfl, hE'⟩ := IPv4SubnetPool.alloc_ok_entries hi.levels hk h
  obtain ⟨hcov, hsub, hdis⟩ := IPv4Subnet.partition_descend B (by omega) (k - j) (by omega)
  refine hi.replace (IPv4SubnetPool.alloc_ok_levels hi.levels hk h).1
    ((List.perm_cons_erase hB).append_right _) ?_ hcov hsub hdis
  rw [blocks, hout]
  refine List.perm_iff_count.2 fun a => ?_
  have := hE'.count_eq a
  simp only [List.append_eq, List.count_append, List.count_cons] at this ⊢
  omega

/-- A successful `Free` of an outstanding subnet moves it from the outstanding list to the pool. -/
theorem Invariant.free_ok (hi : st.Invariant C) {s : IPv4Subnet} (hs : s ∈ st.outstanding)
    (h : st.pool.free s = some (.ok st'.pool)) (hout : st'.outstanding = st.outstanding.erase s) :
    st'.Invariant C := by
  refine hi.of_perm (IPv4SubnetPool.free_ok_levels hi.levels h) ?_
  rw [blocks, blocks, hout]
  calc List.Perm _ ((s :: st.pool.entries) ++ st.outstanding.erase s) :=
        (IPv4SubnetPool.free_ok_entries h).append_right _
    List.Perm _ (st.pool.entries ++ s :: st.outstanding.erase s) := List.perm_middle.symm
    List.Perm _ _ := (List.perm_cons_erase hs).symm.append_left _

/-- Every call within the contract keeps the invariant. -/
theorem Invariant.step (hi : st.Invariant C) {op : PoolOp} (h : st.step op = some st') :
    st'.Invariant C := by
  rcases step_cases h with ⟨k, hk, r, halloc, hout⟩ | ⟨k, hk, e, halloc, hout⟩ |
    ⟨s, hs, hfree, hout⟩ | rfl
  · exact hi.alloc_ok hk halloc hout
  · have hpool := IPv4SubnetPool.alloc_error_eq hi.levels hk halloc
    exact hi.of_perm (hpool ▸ hi.levels) (by rw [blocks, blocks, hpool, hout])
  · exact hi.free_ok hs hfree hout
  · exact hi

/-- The first state of a run: the zero pool with `C` freed into it. -/
theorem invariant_seed {pool : IPv4SubnetPool} (h : IPv4SubnetPool.empty.free C = some (.ok pool)) :
    (PoolState.mk pool []).Invariant C := by
  have hblocks : (PoolState.mk pool []).blocks = [C] := by
    simpa [blocks, IPv4SubnetPool.entries_empty] using IPv4SubnetPool.free_ok_entries h
  refine ⟨IPv4SubnetPool.free_ok_levels (fun _ s hs => by simp at hs) h, ?_, ?_, ?_⟩ <;>
    rw [hblocks]
  · exact List.pairwise_singleton _ C
  · simpa using IPv4Subnet.SubsetOf.refl C
  · exact fun v hv => ⟨C, List.mem_singleton_self C, hv⟩

theorem reachable_invariant (h : st.Reachable C) : st.Invariant C := by
  induction h with
  | seed h => exact invariant_seed h
  | step op _ hstep ih => exact ih.step hstep

end Invariant

/-- Over every run: each list holds only subnets of its own mask, and the pool's blocks and the
outstanding allocations are pairwise disjoint and lie inside `C`; in particular no two outstanding
allocations overlap. -/
theorem reachable_disjoint {C : IPv4Subnet} {st : PoolState} (h : st.Reachable C) :
    (∀ k, ∀ s ∈ st.pool.get k, s.cidrMask = k) ∧
    (st.pool.entries ++ st.outstanding).Pairwise IPv4Subnet.Disjoint ∧
    (∀ s ∈ st.pool.entries ++ st.outstanding, s.SubsetOf C) ∧
    st.outstanding.Pairwise IPv4Subnet.Disjoint :=
  have hi := reachable_invariant h
  ⟨hi.levels, hi.disjoint, hi.inside, (List.pairwise_append.1 hi.disjoint).2.1⟩

/-- The first state of the runs from the cluster block `10.128.0.0/14`. -/
theorem clusterSeed :
    Reachable ⟨⟨10, 128, 0, 0⟩, 14⟩ ⟨IPv4SubnetPool.empty.set 14 [⟨⟨10, 128, 0, 0⟩, 14⟩], []⟩ :=
  .seed (IPv4SubnetPool.free_of_get_eq_nil (by decide) (by simp))

/-- Over every run, the pool's blocks and the outstanding allocations cover every address of `C`:
the pool itself loses no address, a failed `Free` leaving its subnet with the caller. -/
theorem reachable_covers {C : IPv4Subnet} {st : PoolState} (h : st.Reachable C) :
    ∀ v, C.Contains v → ∃ s ∈ st.pool.entries ++ st.outstanding, s.Contains v :=
  (reachable_invariant h).covers

/-- After three `/24`s are allocated from `10.128.0.0/14`, every address of the block is in a free
block or an allocation. -/
theorem reachable_covers_three_allocs :
    ∃ st : PoolState, st.Reachable ⟨⟨10, 128, 0, 0⟩, 14⟩ ∧ st.outstanding.length = 3 ∧
      ∀ v, IPv4Subnet.Contains ⟨⟨10, 128, 0, 0⟩, 14⟩ v →
        ∃ s ∈ st.pool.entries ++ st.outstanding, s.Contains v := by
  obtain ⟨st, hst, hlen⟩ := clusterSeed.exists_of_run [.alloc 24, .alloc 24, .alloc 24]
    (fun st => st.outstanding.length = 3) (by decide)
  exact ⟨st, hst, hlen, reachable_covers hst⟩

/-- Three `/24`s allocated from the cluster block `10.128.0.0/14` do not overlap. -/
theorem reachable_disjoint_three_allocs :
    ∃ st : PoolState, st.Reachable ⟨⟨10, 128, 0, 0⟩, 14⟩ ∧ st.outstanding.length = 3 ∧
      st.outstanding.Pairwise IPv4Subnet.Disjoint := by
  obtain ⟨st, hst, hlen⟩ := clusterSeed.exists_of_run [.alloc 24, .alloc 24, .alloc 24]
    (fun st => st.outstanding.length = 3) (by decide)
  exact ⟨st, hst, hlen, (reachable_disjoint hst).2.2.2⟩

set_option maxRecDepth 2000 in
/-- A run from `10.128.0.0/14` in which a `Free` of an outstanding subnet reports a double free:
three `Alloc(24)` return `10.128.0.0/24`, `10.128.1.0/24` and `10.128.2.0/24`, and after the first
is freed, freeing the second fails. -/
theorem free_outstanding_double_free :
    ∃ st : PoolState, st.Reachable ⟨⟨10, 128, 0, 0⟩, 14⟩ ∧ ⟨⟨10, 128, 1, 0⟩, 24⟩ ∈ st.outstanding ∧
      st.pool.free ⟨⟨10, 128, 1, 0⟩, 24⟩ = some (.error (.doubleFree ⟨⟨10, 128, 1, 0⟩, 24⟩)) :=
  clusterSeed.exists_of_run [.alloc 24, .alloc 24, .alloc 24, .free ⟨⟨10, 128, 0, 0⟩, 24⟩]
    (fun st => ⟨⟨10, 128, 1, 0⟩, 24⟩ ∈ st.outstanding ∧
      st.pool.free ⟨⟨10, 128, 1, 0⟩, 24⟩ = some (.error (.doubleFree ⟨⟨10, 128, 1, 0⟩, 24⟩)))
    (by decide)

end PoolState

end NuageKubemon
