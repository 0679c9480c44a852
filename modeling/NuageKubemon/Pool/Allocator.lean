/-
Module: NuageKubemon.Pool.Allocator
Purpose: What the pool is for, said without its 33 lists: an allocator of addresses. Its state is
  the set of addresses it offers and the blocks it has handed out. `Alloc(k)` hands out a `/k`
  block all of whose addresses were offered and stops offering exactly those; `Free(s)` of a
  handed-out block offers exactly the addresses of `s` again; a call that fails changes nothing.
  Every call on a reachable pool is such a step, so every run of the pool is a run of the
  allocator.
Trusted boundary: none beyond that of `Pool.Run`.
Main exports: IPv4SubnetPool.Offers, AddressAllocator, AddressAllocator.Step,
  AddressAllocator.Run, PoolState.abs, PoolState.step_refines, PoolState.run_refines
-/
import NuageKubemon.Pool.Run

namespace NuageKubemon

namespace IPv4SubnetPool

/-- Address `v` lies in one of the pool's free blocks. -/
def Offers (pool : IPv4SubnetPool) (v : Nat) : Prop := ∃ b ∈ pool.entries, b.Contains v

instance (pool : IPv4SubnetPool) (v : Nat) : Decidable (pool.Offers v) :=
  inferInstanceAs (Decidable (∃ b ∈ pool.entries, b.Contains v))

variable {pool pool' : IPv4SubnetPool}

/-- A successful `Free(s)` offers the addresses of `s` besides those offered before. -/
theorem offers_of_free_ok {s : IPv4Subnet} (h : pool.free s = some (.ok pool')) (v : Nat) :
    pool'.Offers v ↔ pool.Offers v ∨ s.Contains v := by
  simp [Offers, (free_ok_entries h).mem_iff, or_comm]

/-- On a pool whose free blocks are pairwise disjoint, a successful `Alloc(k)` returns a `/k`
block all of whose addresses were offered, and stops offering exactly those. -/
theorem offers_of_alloc_ok (hlev : pool.Levels) (hdis : pool.entries.Pairwise IPv4Subnet.Disjoint)
    {k : Nat} (hk : k ≤ 32) {r : IPv4Subnet} (h : pool.alloc k = some (pool', .ok r)) :
    r.cidrMask = k ∧ (∀ v, r.Contains v → pool.Offers v) ∧
      ∀ v, pool'.Offers v ↔ pool.Offers v ∧ ¬ r.Contains v := by
  obtain ⟨j, B, hjk, hB, hBm, rfl, hE⟩ := alloc_ok_entries hlev hk h
  obtain ⟨hcov, hsub, hpart⟩ := IPv4Subnet.partition_descend B (by omega) (k - j) (by omega)
  obtain ⟨hrB, hup⟩ := List.pairwise_cons.1 hpart
  -- `B` is disjoint from every other free block
  have hBrest := (List.pairwise_cons.1 (hdis.perm (List.perm_cons_erase hB)
    IPv4Subnet.Disjoint.symm)).1
  refine ⟨(alloc_ok_levels hlev hk h).2, fun v hv => ⟨B, hB, hsub _ (List.mem_cons_self _ _) v hv⟩,
    fun v => ⟨fun ⟨b, hb, hv⟩ => ?_, fun ⟨⟨b, hb, hv⟩, hr⟩ => ?_⟩⟩
  · rcases List.mem_append.1 (hE.subset hb) with hb | hb
    · -- a free block `Alloc` did not touch
      exact ⟨⟨b, List.mem_of_mem_erase hb, hv⟩, fun hr =>
        hBrest b hb v (hsub _ (List.mem_cons_self _ _) v hr) hv⟩
    · -- a high half split off `B`
      exact ⟨⟨B, hB, hsub b (List.mem_cons_of_mem _ hb) v hv⟩, fun hr => hrB b hb v hr hv⟩
  · by_cases hbB : b = B
    · -- an address of `B` outside the result lies in one of the halves put back
      subst hbB
      obtain ⟨u, hu, huv⟩ := (hcov v).1 hv
      rcases List.mem_cons.1 hu with rfl | hu
      · exact absurd huv hr
      · exact ⟨u, hE.symm.subset (List.mem_append_right _ hu), huv⟩
    · exact ⟨b, hE.symm.subset (List.mem_append_left _ ((List.mem_erase_of_ne hbB).2 hb)), hv⟩

end IPv4SubnetPool

/-- The allocator the pool implements: the addresses it offers and the blocks it has handed
out. -/
structure AddressAllocator where
  offers : Nat → Prop
  held : List IPv4Subnet

namespace AddressAllocator

/-- One call on the allocator. -/
inductive Step (a : AddressAllocator) : PoolOp → AddressAllocator → Prop
  /-- `Alloc(k)` hands out a `/k` block of offered addresses and stops offering them. -/
  | alloc {k : Nat} {r : IPv4Subnet} {a' : AddressAllocator} :
      r.cidrMask = k → (∀ v, r.Contains v → a.offers v) →
      (∀ v, a'.offers v ↔ a.offers v ∧ ¬ r.Contains v) → a'.held = r :: a.held →
      Step a (.alloc k) a'
  /-- `Free(s)` of a handed-out block offers its addresses again. -/
  | free {s : IPv4Subnet} {a' : AddressAllocator} : s ∈ a.held →
      (∀ v, a'.offers v ↔ a.offers v ∨ s.Contains v) → a'.held = a.held.erase s →
      Step a (.free s) a'
  /-- A call that fails changes nothing. -/
  | fail {op : PoolOp} {a' : AddressAllocator} : (∀ v, a'.offers v ↔ a.offers v) →
      a'.held = a.held → Step a op a'

/-- A sequence of calls on the allocator. -/
inductive Run : AddressAllocator → List PoolOp → AddressAllocator → Prop
  | nil (a : AddressAllocator) : Run a [] a
  | cons {a a₁ a' : AddressAllocator} {op : PoolOp} {ops : List PoolOp} :
      Step a op a₁ → Run a₁ ops a' → Run a (op :: ops) a'

end AddressAllocator

namespace PoolState

/-- The allocator a pool state stands for: the addresses its free blocks cover, and the
outstanding allocations. -/
def abs (st : PoolState) : AddressAllocator := ⟨st.pool.Offers, st.outstanding⟩

variable {C : IPv4Subnet} {st st' : PoolState}

/-- Every call within the contract on a state that keeps the invariant is a step of the
allocator. -/
theorem step_refines (hi : st.Invariant C) {op : PoolOp} (h : st.step op = some st') :
    AddressAllocator.Step st.abs op st'.abs := by
  cases op with
  | alloc size =>
    simp only [step] at h
    split_ifs at h with hk
    obtain ⟨⟨pool, res⟩, halloc, rfl⟩ := Option.map_eq_some'.1 h
    lift size to Nat using hk.1
    cases res with
    | ok r =>
      obtain ⟨hmask, hfree, hoffers⟩ := IPv4SubnetPool.offers_of_alloc_ok hi.levels
        (hi.disjoint.sublist (List.sublist_append_left _ _)) (by omega) halloc
      exact .alloc hmask hfree hoffers rfl
    | error e =>
      obtain rfl := IPv4SubnetPool.alloc_error_eq hi.levels (by omega) halloc
      exact .fail (fun _ => Iff.rfl) rfl
  | free s =>
    simp only [step] at h
    split_ifs at h with hs
    obtain ⟨res, hfree, rfl⟩ := Option.map_eq_some'.1 h
    cases res with
    | ok pool => exact .free hs (IPv4SubnetPool.offers_of_free_ok hfree) rfl
    | error e => exact .fail (fun _ => Iff.rfl) rfl

/-- Every run of the pool from a reachable state, through any calls within the contract, is a
run of the allocator: each `Alloc` hands out a block of the size asked for made only of offered
addresses and stops offering exactly those, each `Free` offers exactly the subnet's addresses
again, and each call that fails changes nothing. -/
theorem run_refines (hst : st.Reachable C) (ops : List PoolOp) (h : st.run ops = some st') :
    AddressAllocator.Run st.abs ops st'.abs := by
  induction ops generalizing st with
  | nil => cases h; exact .nil _
  | cons op ops ih =>
    obtain ⟨st₁, h₁, h₂⟩ := Option.bind_eq_some.1 h
    exact .cons (step_refines (reachable_invariant hst) h₁) (ih (hst.step op h₁) h₂)

set_option maxRecDepth 2000 in
/-- From `10.128.0.0/14`, `Alloc(24)` and then `Free` of the `/24` it returned are two steps of the
allocator. -/
theorem run_refines_cluster :
    ∃ st', PoolState.run ⟨IPv4SubnetPool.empty.set 14 [⟨⟨10, 128, 0, 0⟩, 14⟩], []⟩
        [.alloc 24, .free ⟨⟨10, 128, 0, 0⟩, 24⟩] = some st' ∧
      AddressAllocator.Run (PoolState.abs ⟨IPv4SubnetPool.empty.set 14 [⟨⟨10, 128, 0, 0⟩, 14⟩], []⟩)
        [.alloc 24, .free ⟨⟨10, 128, 0, 0⟩, 24⟩] st'.abs := by
  obtain ⟨st', h⟩ : ∃ st', PoolState.run ⟨IPv4SubnetPool.empty.set 14 [⟨⟨10, 128, 0, 0⟩, 14⟩], []⟩
      [.alloc 24, .free ⟨⟨10, 128, 0, 0⟩, 24⟩] = some st' := ⟨_, rfl⟩
  exact ⟨st', h, run_refines clusterSeed _ h⟩

end PoolState

end NuageKubemon
