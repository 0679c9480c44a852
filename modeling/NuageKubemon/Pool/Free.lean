/-
Module: NuageKubemon.Pool.Free
Purpose: What `Free` does to the pool. In general it either fails and leaves the pool as it was, or
  replaces list `CIDRMask` by a permutation of that list with the subnet added, so the multiset of
  all entries gains exactly that subnet. On a pool whose lists hold only subnets of their own mask,
  `Compare` of two such subnets is never negative and looks at one octet only, so `Free` never
  inserts before the head, never compares with the head, and appends at the end unless a later
  entry agrees with the subnet on that one octet.
Trusted boundary: none
Main exports: IPv4SubnetPool.entries, IPv4SubnetPool.Levels, entries_set_perm, free_ok_spec,
  free_ok_entries, free_of_get_eq_nil, free_of_levels, free_single_duplicates, free_slash32_panics
-/
import NuageKubemon.Pool.Basic
import NuageKubemon.Subnet.Merge

namespace NuageKubemon

namespace IPv4SubnetPool

/-- All free subnets of the pool, list `0` first. -/
def entries (pool : IPv4SubnetPool) : List IPv4Subnet := (List.range 33).flatMap pool.get

/-- Every list holds only subnets of its own mask, as the comment above `Alloc` describes. -/
def Levels (pool : IPv4SubnetPool) : Prop := ∀ k, ∀ s ∈ pool.get k, s.cidrMask = k

@[simp] theorem entries_empty : empty.entries = [] := rfl

theorem mem_entries {pool : IPv4SubnetPool} {s : IPv4Subnet} :
    s ∈ pool.entries ↔ ∃ k, s ∈ pool.get k := by
  simp only [entries, List.mem_flatMap, List.mem_range]
  constructor
  · rintro ⟨k, -, h⟩; exact ⟨k, h⟩
  · rintro ⟨k, h⟩
    by_cases hk : k < 33
    · exact ⟨k, hk, h⟩
    · simp [get, hk] at h

private theorem flatMap_congr_of_not_mem {α : Type} {f g : Nat → List α} {k : Nat} :
    ∀ {L : List Nat}, k ∉ L → (∀ j, j ≠ k → g j = f j) → L.flatMap g = L.flatMap f
  | [], _, _ => rfl
  | j :: L, hk, hfg => by
    simp only [List.mem_cons, not_or] at hk
    simp only [List.flatMap_cons, hfg j (Ne.symm hk.1), flatMap_congr_of_not_mem hk.2 hfg]

/-- Replacing one entry of a family changes the concatenation by that entry alone. -/
private theorem flatMap_update_perm {α : Type} [DecidableEq α] {f g : Nat → List α} {k : Nat}
    (hfg : ∀ j, j ≠ k → g j = f j) :
    ∀ {L : List Nat}, L.Nodup → k ∈ L → List.Perm (L.flatMap g ++ f k) (L.flatMap f ++ g k)
  | [], _, hk => absurd hk (List.not_mem_nil _)
  | j :: L, hnd, hk => by
    rw [List.nodup_cons] at hnd
    simp only [List.flatMap_cons, List.append_assoc]
    by_cases hj : j = k
    · subst hj
      rw [flatMap_congr_of_not_mem hnd.1 hfg]
      exact List.perm_iff_count.2 fun a => by simp only [List.count_append]; omega
    · rw [hfg j hj]
      exact (flatMap_update_perm hfg hnd.2
        ((List.mem_cons.1 hk).resolve_left (Ne.symm hj))).append_left _

/-- Setting list `k` to `l` removes the old list `k` from the entries and adds `l`. -/
theorem entries_set_perm (pool : IPv4SubnetPool) {k : Nat} (hk : k < 33) (l : List IPv4Subnet) :
    List.Perm ((pool.set k l).entries ++ pool.get k) (pool.entries ++ l) := by
  have := @flatMap_update_perm _ _ pool.get (pool.set k l).get k
    (fun j hj => by rw [get_set pool hk, if_neg hj]) _ (List.nodup_range 33) (List.mem_range.2 hk)
  rwa [get_set pool hk, if_pos rfl] at this

theorem levels_set {pool : IPv4SubnetPool} (hlev : pool.Levels) {k : Nat} (hk : k < 33)
    {l : List IPv4Subnet} (hl : ∀ s ∈ l, s.cidrMask = k) : (pool.set k l).Levels := by
  intro i s hs
  rw [get_set pool hk] at hs
  split at hs
  · subst i; exact hl s hs
  · exact hlev i s hs

/-! ### `Free` in general -/

theorem freeLoop_ok_perm {subnet : IPv4Subnet} :
    ∀ {l l' : List IPv4Subnet}, freeLoop subnet l = some (.ok l') → List.Perm l' (subnet :: l)
  | [], l', h => by
    simp only [freeLoop, Option.some.injEq, Except.ok.injEq] at h
    subst h; exact List.Perm.refl _
  | curr :: rest, l', h => by
    simp only [freeLoop] at h
    split at h
    · cases h
    · split_ifs at h
      · cases h
      · simp only [Option.some.injEq, Except.ok.injEq] at h
        subst h; exact List.Perm.refl _
      · cases hl : freeLoop subnet rest with
        | none => simp [hl] at h
        | some r =>
          cases r with
          | error e => simp [hl, Except.map] at h
          | ok rest' =>
            simp only [hl, Option.map_some', Except.map, Option.some.injEq, Except.ok.injEq] at h
            subst h
            exact ((freeLoop_ok_perm hl).cons curr).trans (List.Perm.swap _ _ _)

/-- A successful `Free` checked the mask and gave its list a permutation of the old list with the
subnet added. -/
theorem free_ok_spec {pool pool' : IPv4SubnetPool} {subnet : IPv4Subnet}
    (h : pool.free subnet = some (.ok pool')) :
    subnet.ValidMask ∧ ∃ l, List.Perm l (subnet :: pool.get subnet.cidrMask.toNat) ∧
      pool' = pool.set subnet.cidrMask.toNat l := by
  unfold free at h
  split_ifs at h with hm
  · cases h
  refine ⟨⟨by omega, by omega⟩, ?_⟩
  dsimp only at h
  split at h
  · rename_i hget
    simp only [Option.some.injEq, Except.ok.injEq] at h
    exact ⟨_, by rw [hget], h.symm⟩
  · rename_i head rest hget
    split at h
    · cases h
    · split_ifs at h
      · simp only [Option.some.injEq, Except.ok.injEq] at h
        exact ⟨_, by rw [hget], h.symm⟩
      · cases hl : freeLoop subnet rest with
        | none => simp [hl] at h
        | some r =>
          cases r with
          | error e => simp [hl, Except.map] at h
          | ok rest' =>
            simp only [hl, Option.map_some', Except.map, Option.some.injEq, Except.ok.injEq] at h
            refine ⟨head :: rest', ?_, h.symm⟩
            rw [hget]
            exact ((freeLoop_ok_perm hl).cons head).trans (List.Perm.swap _ _ _)

/-- A successful `Free` adds exactly the freed subnet to the entries of the pool. -/
theorem free_ok_entries {pool pool' : IPv4SubnetPool} {subnet : IPv4Subnet}
    (h : pool.free subnet = some (.ok pool')) : List.Perm pool'.entries (subnet :: pool.entries) := by
  obtain ⟨hv, l, hl, rfl⟩ := free_ok_spec h
  have hk : subnet.cidrMask.toNat < 33 := by have := hv.2; omega
  have := entries_set_perm pool hk l
  refine (List.perm_append_right_iff (pool.get subnet.cidrMask.toNat)).1 (this.trans ?_)
  exact (List.Perm.append_left _ hl).trans (by simp [List.perm_middle])

theorem free_ok_levels {pool pool' : IPv4SubnetPool} {subnet : IPv4Subnet} (hlev : pool.Levels)
    (h : pool.free subnet = some (.ok pool')) : pool'.Levels := by
  obtain ⟨hv, l, hl, rfl⟩ := free_ok_spec h
  refine levels_set hlev (by have := hv.2; omega) fun s hs => ?_
  rcases List.mem_cons.1 (hl.subset hs) with rfl | hs
  · have := hv.1; omega
  · exact hlev _ s hs

/-- `Free` into an empty list always succeeds. -/
theorem free_of_get_eq_nil {pool : IPv4SubnetPool} {subnet : IPv4Subnet} (hv : subnet.ValidMask)
    (h : pool.get subnet.cidrMask.toNat = []) :
    pool.free subnet = some (.ok (pool.set subnet.cidrMask.toNat [subnet])) := by
  have := hv.1; have := hv.2
  simp only [free, show ¬ (subnet.cidrMask < 0 ∨ subnet.cidrMask > 32) by omega, if_false, h]

/-! ### `Free` on a pool whose lists hold their own mask -/

/-- `Free`'s loop over entries that all `Compare` at or above the subnet: the subnet goes at the
end, unless an entry compares equal. -/
theorem freeLoop_of_nonneg {subnet : IPv4Subnet} :
    ∀ {l : List IPv4Subnet}, (∀ t ∈ l, ∃ c, subnet.compare t = some c ∧ 0 ≤ c) →
      freeLoop subnet l = if l.any (fun t => subnet.compare t = some 0)
        then some (.error (.doubleFree subnet)) else some (.ok (l ++ [subnet]))
  | [], _ => rfl
  | t :: l, h => by
    obtain ⟨c, hc, hc0⟩ := h t (List.mem_cons_self _ _)
    have ih := freeLoop_of_nonneg fun t' ht' => h t' (List.mem_cons_of_mem _ ht')
    by_cases c0 : c = 0
    · simp [freeLoop, hc, c0]
    · simp only [freeLoop, hc, c0, if_false, show ¬ c < 0 by omega, ih, List.any_cons,
        Option.some.injEq, decide_False, Bool.false_or]
      split <;> rfl

/-- `Free` of a subnet of mask `m < 32` into a pool whose list `m` holds only subnets of mask `m`.
`Compare` with those is never negative, so the subnet never goes before the head and the head is
never tested; it goes at the end unless a later entry agrees with it on the bits `Compare`
reads, in which case `Free` reports a double free. -/
theorem free_of_levels {pool : IPv4SubnetPool} (hlev : pool.Levels) {s : IPv4Subnet} {m : Nat}
    (hm : m < 32) (hs : s.cidrMask = m) {head : IPv4Subnet} {rest : List IPv4Subnet}
    (hget : pool.get m = head :: rest) :
    pool.free s = if rest.any (fun t => s.compare t = some 0) then some (.error (.doubleFree s))
      else some (.ok (pool.set m (head :: rest ++ [s]))) := by
  have hnonneg : ∀ t ∈ head :: rest, ∃ c, s.compare t = some c ∧ 0 ≤ c := fun t ht =>
    have ht' : t.cidrMask = m := hlev m t (hget ▸ ht)
    ⟨_, IPv4Subnet.compare_of_cidrMask_eq hm hs ht', Int.natCast_nonneg _⟩
  obtain ⟨c, hc, hc0⟩ := hnonneg head (List.mem_cons_self _ _)
  simp only [free, show ¬ (s.cidrMask < 0 ∨ s.cidrMask > 32) by omega, if_false,
    show s.cidrMask.toNat = m by omega, hget, hc, show ¬ c < 0 by omega,
    freeLoop_of_nonneg fun t ht => hnonneg t (List.mem_cons_of_mem _ ht)]
  split <;> rfl

/-- Freeing again the only subnet of its list, at a mask below 32, is accepted, and the list then
holds that subnet twice. -/
theorem free_single_duplicates {pool : IPv4SubnetPool} {s : IPv4Subnet} {m : Nat} (hm : m < 32)
    (hs : s.cidrMask = m) (hget : pool.get m = [s]) : pool.free s = some (.ok (pool.set m [s, s])) := by
  simp [free, show ¬ (s.cidrMask < 0 ∨ s.cidrMask > 32) by omega,
    show s.cidrMask.toNat = m by omega, hget, IPv4Subnet.compare_self hm hs, freeLoop, Except.map]

/-- Freeing `10.0.0.0/24` into a pool whose list 24 holds just `10.0.0.0/24`. -/
theorem free_single_duplicates_slash24 :
    (empty.set 24 [⟨⟨10, 0, 0, 0⟩, 24⟩]).get 24 = [⟨⟨10, 0, 0, 0⟩, 24⟩] ∧
    (empty.set 24 [⟨⟨10, 0, 0, 0⟩, 24⟩]).free ⟨⟨10, 0, 0, 0⟩, 24⟩ =
      some (.ok ((empty.set 24 [⟨⟨10, 0, 0, 0⟩, 24⟩]).set 24
        [⟨⟨10, 0, 0, 0⟩, 24⟩, ⟨⟨10, 0, 0, 0⟩, 24⟩])) :=
  have hget : (empty.set 24 [⟨⟨10, 0, 0, 0⟩, 24⟩]).get 24 = [⟨⟨10, 0, 0, 0⟩, 24⟩] := by
    simp [get_set]
  ⟨hget, free_single_duplicates (by decide) rfl hget⟩

/-- `Free` of a `/32` into a pool whose list 32 is not empty compares it with the head of that
list, another `/32`, and `Compare` reads octet 4: it panics. -/
theorem free_slash32_panics {pool : IPv4SubnetPool} (hlev : pool.Levels) {s : IPv4Subnet}
    (hs : s.cidrMask = 32) (hne : pool.get 32 ≠ []) : pool.free s = none := by
  obtain ⟨head, rest, hget⟩ := List.exists_cons_of_ne_nil hne
  have hhead : head.cidrMask = 32 := hlev 32 head (by simp [hget])
  simp [free, hs, hget, IPv4Subnet.compare_of_slash32 hs hhead]

/-- Freeing `10.0.0.0/32` into a pool whose list 32 holds `10.0.0.1/32`. -/
theorem free_slash32_panics_at_host :
    (empty.set 32 [⟨⟨10, 0, 0, 1⟩, 32⟩]).Levels ∧ (empty.set 32 [⟨⟨10, 0, 0, 1⟩, 32⟩]).get 32 ≠ [] ∧
    (empty.set 32 [⟨⟨10, 0, 0, 1⟩, 32⟩]).free ⟨⟨10, 0, 0, 0⟩, 32⟩ = none :=
  have hlev : (empty.set 32 [⟨⟨10, 0, 0, 1⟩, 32⟩]).Levels :=
    levels_set (fun _ s hs => by simp at hs) (by decide) (by simp)
  have hne : (empty.set 32 [⟨⟨10, 0, 0, 1⟩, 32⟩]).get 32 ≠ [] := by simp [get_set]
  ⟨hlev, hne, free_slash32_panics hlev rfl hne⟩

end IPv4SubnetPool

end NuageKubemon
