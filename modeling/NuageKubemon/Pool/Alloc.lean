/-
Module: NuageKubemon.Pool.Alloc
Purpose: What `Alloc(k)` does to a pool whose lists hold only subnets of their own mask. When the
  lists `0..k` are all empty, the recursion runs down to `Alloc(-1)` and fails, leaving the pool as
  it was. Otherwise let `j` be the longest mask up to `k` with a free block and `B` the head of
  its list: the recursion climbs back from `j` to `k`, each level splitting the block below with
  `Split` and freeing the high half into its (empty) list, so the result is the lowest `/k` block of
  `B` and the freed high halves fill the lists `j+1..k`. Those halves and the result partition `B`.
Trusted boundary: none
Main exports: IPv4Subnet.descend, IPv4Subnet.uppers, partition_descend, allocAt_of_empty,
  allocAt_of_nonempty, alloc_spec
-/
import NuageKubemon.Pool.Free
import Mathlib.Tactic.Ring

namespace NuageKubemon

namespace IPv4Subnet

/-- The lowest block `n` levels below `B`: `n` times the low half. -/
def descend (B : IPv4Subnet) : Nat → IPv4Subnet
  | 0 => B
  | n + 1 => (B.descend n).lowerHalf

/-- The high halves split off on the way down from `B` to `B.descend n`, the longest mask last. -/
def uppers (B : IPv4Subnet) (n : Nat) : List IPv4Subnet :=
  (List.range n).map fun i => (B.descend i).upperHalf

theorem cidrMask_descend (B : IPv4Subnet) : ∀ n, (B.descend n).cidrMask = B.cidrMask + n
  | 0 => by simp [descend]
  | n + 1 => by simp only [descend, lowerHalf, cidrMask_descend B n]; omega

theorem cidrMask_upperHalf_descend (B : IPv4Subnet) (n : Nat) :
    ((B.descend n).upperHalf).cidrMask = B.cidrMask + n + 1 := by
  simp only [upperHalf, cidrMask_descend]

theorem uppers_succ (B : IPv4Subnet) (n : Nat) :
    B.uppers (n + 1) = B.uppers n ++ [(B.descend n).upperHalf] := by
  simp [uppers, List.range_succ]

theorem networkPrefix_descend {B : IPv4Subnet} (h0 : 0 ≤ B.cidrMask) :
    ∀ {n : Nat}, B.cidrMask + n ≤ 32 → (B.descend n).networkPrefix = B.networkPrefix * 2 ^ n
  | 0, _ => by simp [descend]
  | n + 1, h => by
    have hm := cidrMask_descend B n
    rw [descend, networkPrefix_lowerHalf (by omega) (by omega), networkPrefix_descend h0 (by omega),
      Nat.pow_succ]
    ring

/-- Going down `n` levels cuts `B` into the lowest `/(m+n)` block and the `n` high halves split
off on the way: they cover `B`, lie inside it and are pairwise disjoint. -/
theorem partition_descend (B : IPv4Subnet) (h0 : 0 ≤ B.cidrMask) :
    ∀ n : Nat, B.cidrMask + n ≤ 32 →
      (∀ v, B.Contains v ↔ ∃ u ∈ B.descend n :: B.uppers n, u.Contains v) ∧
      (∀ u ∈ B.descend n :: B.uppers n, u.SubsetOf B) ∧
      (B.descend n :: B.uppers n).Pairwise Disjoint
  | 0, _ => by simp [descend, uppers, SubsetOf.refl]
  | n + 1, h => by
    obtain ⟨hcov, hsub, hdis⟩ := partition_descend B h0 n (by omega)
    have hm := cidrMask_descend B n
    have hm0 : 0 ≤ (B.descend n).cidrMask := by omega
    have hm32 : (B.descend n).cidrMask < 32 := by omega
    set D := B.descend n
    have hlo := lowerHalf_subsetOf hm0 hm32
    have hhi := upperHalf_subsetOf hm0 hm32
    have hD : ∀ u ∈ B.uppers n, D.Disjoint u := fun u hu => List.rel_of_pairwise_cons hdis hu
    simp only [descend, uppers_succ, ← show D = B.descend n from rfl]
    refine ⟨fun v => ?_, ?_, ?_⟩
    · rw [hcov v]
      simp only [List.mem_cons, List.mem_append, List.not_mem_nil, or_false]
      constructor
      · rintro ⟨u, rfl | hu, hv⟩
        · rcases (contains_iff_halves hm0 hm32 v).1 hv with h | h
          · exact ⟨_, .inl rfl, h⟩
          · exact ⟨_, .inr (.inr rfl), h⟩
        · exact ⟨u, .inr (.inl hu), hv⟩
      · rintro ⟨u, rfl | hu | rfl, hv⟩
        · exact ⟨D, .inl rfl, hlo v hv⟩
        · exact ⟨u, .inr hu, hv⟩
        · exact ⟨D, .inl rfl, hhi v hv⟩
    · intro u hu
      simp only [List.mem_cons, List.mem_append, List.not_mem_nil, or_false] at hu
      rcases hu with rfl | hu | rfl
      · exact hlo.trans (hsub D (.head _))
      · exact hsub u (.tail _ hu)
      · exact hhi.trans (hsub D (.head _))
    · refine List.Pairwise.cons (fun u hu => ?_) ?_
      · simp only [List.mem_append, List.mem_singleton] at hu
        rcases hu with hu | rfl
        · exact (hD u hu).mono_left hlo
        · exact lowerHalf_disjoint_upperHalf hm0 hm32
      · refine List.pairwise_append.2 ⟨hdis.of_cons, List.pairwise_singleton _ _, ?_⟩
        intro u hu w hw
        rw [List.mem_singleton.1 hw]
        exact ((hD u hu).mono_left hhi).symm

/-- Replacing the block `B` of a pairwise disjoint list by pairwise disjoint pieces of it keeps
the list pairwise disjoint. -/
theorem pairwise_disjoint_replace {B : IPv4Subnet} {D P : List IPv4Subnet}
    (h : (B :: D).Pairwise Disjoint) (hsub : ∀ u ∈ P, u.SubsetOf B) (hdis : P.Pairwise Disjoint) :
    (P ++ D).Pairwise Disjoint :=
  List.pairwise_append.2 ⟨hdis, h.of_cons, fun u hu _ hd =>
    (List.rel_of_pairwise_cons h hd).mono_left (hsub u hu)⟩

end IPv4Subnet

namespace IPv4SubnetPool

theorem allocAt_of_pop {pool pool' : IPv4SubnetPool} {node : IPv4Subnet} :
    ∀ {k}, pool.pop k = some (pool', node) → pool.allocAt k = some (pool', .ok node)
  | 0, h | _ + 1, h => by simp [allocAt, h]

theorem pop_of_get {pool : IPv4SubnetPool} {k : Nat} {node : IPv4Subnet} {next : List IPv4Subnet}
    (h : pool.get k = node :: next) : pool.pop k = some (pool.set k next, node) := by
  simp [pop, h]

theorem pop_of_get_eq_nil {pool : IPv4SubnetPool} {k : Nat} (h : pool.get k = []) :
    pool.pop k = none := by
  simp [pop, h]

/-- With lists `0..k` all empty, the recursion reaches `Alloc(-1)` and nothing changes. -/
theorem allocAt_of_empty {pool : IPv4SubnetPool} :
    ∀ {k}, (∀ i ≤ k, pool.get i = []) → pool.allocAt k = some (pool, .error .invalidSize)
  | 0, h => by simp [allocAt, pop_of_get_eq_nil (h 0 le_rfl)]
  | k + 1, h => by
    simp [allocAt, pop_of_get_eq_nil (h (k + 1) le_rfl),
      allocAt_of_empty (show ∀ i ≤ k, pool.get i = [] from fun i hi => h i (by omega))]

/-- One level of the climb back: split the block from below and free its high half into the
empty list one level up. -/
theorem allocSplit_of_get_eq_nil {pool : IPv4SubnetPool} {big : IPv4Subnet}
    (h0 : 0 ≤ big.cidrMask) (h32 : big.cidrMask < 32)
    (hget : pool.get (big.cidrMask.toNat + 1) = []) :
    pool.allocSplit big = some (pool.set (big.cidrMask.toNat + 1) [big.upperHalf], .ok big.lowerHalf) := by
  have hm : big.upperHalf.cidrMask.toNat = big.cidrMask.toNat + 1 := by
    simp only [IPv4Subnet.upperHalf]; omega
  have hv : big.upperHalf.ValidMask := by
    simp only [IPv4Subnet.ValidMask, IPv4Subnet.upperHalf]; omega
  simp only [allocSplit, split_eq big h0 h32]
  rw [free_of_get_eq_nil hv (by rw [hm]; exact hget), hm]

/-- The climb from level `j`, where `B` heads the list, up to level `j + n` through empty lists:
the exact result and lists, and the entries traded. -/
theorem allocAt_of_nonempty {pool : IPv4SubnetPool} (hlev : pool.Levels) {j : Nat}
    {B : IPv4Subnet} {rest : List IPv4Subnet} (hj : pool.get j = B :: rest) :
    ∀ n, j + n ≤ 32 → (∀ i, j < i → i ≤ j + n → pool.get i = []) →
      ∃ pool', pool.allocAt (j + n) = some (pool', .ok (B.descend n)) ∧
        (∀ i, pool'.get i = if i = j then rest
          else if j < i ∧ i ≤ j + n then [(B.descend (i - 1 - j)).upperHalf] else pool.get i) ∧
        List.Perm (pool'.entries ++ [B]) (pool.entries ++ B.uppers n)
  | 0, hk, _ => by
    refine ⟨_, allocAt_of_pop (pop_of_get hj), fun i => ?_, ?_⟩
    · rw [get_set pool (by omega)]
      split_ifs <;> first | rfl | omega
    · have := entries_set_perm pool (show j < 33 by omega) rest
      rw [hj] at this
      refine (List.perm_append_right_iff rest).1 ?_
      simpa [IPv4Subnet.uppers, IPv4Subnet.descend] using this
  | n + 1, hk, hempty => by
    obtain ⟨pool', hrec, hget, hperm⟩ :=
      allocAt_of_nonempty hlev hj n (by omega) fun i h1 h2 => hempty i h1 (by omega)
    have hBm : B.cidrMask = j := hlev j B (by simp [hj])
    have hDm := B.cidrMask_descend n
    have hup : pool'.get ((B.descend n).cidrMask.toNat + 1) = [] := by
      rw [hget, show (B.descend n).cidrMask.toNat + 1 = j + n + 1 by omega]
      simp only [show ¬ (j + n + 1 = j) by omega,
        show ¬ (j < j + n + 1 ∧ j + n + 1 ≤ j + n) by omega, if_false]
      exact hempty _ (by omega) le_rfl
    refine ⟨pool'.set (j + n + 1) [(B.descend n).upperHalf], ?_, fun i => ?_, ?_⟩
    · rw [show j + (n + 1) = j + n + 1 by omega]
      simp only [allocAt, pop_of_get_eq_nil (hempty (j + n + 1) (by omega) (by omega)), hrec]
      rw [allocSplit_of_get_eq_nil (by omega) (by omega) hup,
        show (B.descend n).cidrMask.toNat + 1 = j + n + 1 by omega]
      rfl
    · rw [get_set pool' (by omega), hget]
      by_cases hi : i = j + n + 1
      · subst hi
        simp only [if_true, show ¬ (j + n + 1 = j) by omega, true_and, show j < j + n + 1 by omega,
          show j + n + 1 ≤ j + (n + 1) by omega, show j + n + 1 - 1 - j = n by omega, ↓reduceIte]
      · simp only [hi, if_false]
        split_ifs <;> first | rfl | omega
    · have hset := entries_set_perm pool' (show j + n + 1 < 33 by omega) [(B.descend n).upperHalf]
      rw [show pool'.get (j + n + 1) = [] from
        (show (B.descend n).cidrMask.toNat + 1 = j + n + 1 by omega) ▸ hup, List.append_nil] at hset
      rw [IPv4Subnet.uppers_succ, ← List.append_assoc]
      calc List.Perm _ (pool'.entries ++ [(B.descend n).upperHalf] ++ [B]) := hset.append_right _
        List.Perm _ (pool'.entries ++ [B] ++ [(B.descend n).upperHalf]) :=
          List.perm_iff_count.2 fun a => by simp only [List.count_append]; omega
        List.Perm _ _ := hperm.append_right _

theorem alloc_eq_allocAt (pool : IPv4SubnetPool) {k : Nat} (hk : k ≤ 32) :
    pool.alloc k = pool.allocAt k := by
  rw [alloc, if_neg (show ¬ ((k : Int) < 0 ∨ (k : Int) > 32) by omega)]
  rfl

/-- When some list `0..k` holds a block, there is a longest such list. -/
theorem exists_longest_nonempty {pool : IPv4SubnetPool} :
    ∀ {k}, (∃ j ≤ k, pool.get j ≠ []) →
      ∃ j ≤ k, pool.get j ≠ [] ∧ ∀ i, j < i → i ≤ k → pool.get i = []
  | 0, ⟨j, hj, h⟩ => ⟨j, hj, h, fun i h1 h2 => absurd h2 (by omega)⟩
  | k + 1, ⟨j, hj, h⟩ => by
    by_cases hk : pool.get (k + 1) = []
    · obtain ⟨j', hj', h', hmax⟩ := exists_longest_nonempty
        (show ∃ j ≤ k, pool.get j ≠ [] from
          ⟨j, by rcases Nat.lt_or_eq_of_le hj with hj | rfl <;> [omega; exact absurd hk h], h⟩)
      refine ⟨j', by omega, h', fun i h1 h2 => ?_⟩
      rcases Nat.lt_or_eq_of_le h2 with h2 | rfl
      · exact hmax i h1 (by omega)
      · exact hk
    · exact ⟨k + 1, le_rfl, hk, fun i h1 h2 => absurd h2 (by omega)⟩

/-- `Alloc(k)` when list `j ≤ k`, headed by `B`, is the longest non-empty list up to `k`. -/
theorem alloc_of_longest {pool : IPv4SubnetPool} (hlev : pool.Levels) {k : Nat} (hk : k ≤ 32)
    {j : Nat} {B : IPv4Subnet} {rest : List IPv4Subnet} (hjk : j ≤ k) (hj : pool.get j = B :: rest)
    (hempty : ∀ i, j < i → i ≤ k → pool.get i = []) :
    ∃ pool', pool.alloc k = some (pool', .ok (B.descend (k - j))) ∧
      (∀ i, pool'.get i = if i = j then rest
        else if j < i ∧ i ≤ k then [(B.descend (i - 1 - j)).upperHalf] else pool.get i) ∧
      List.Perm (pool'.entries ++ [B]) (pool.entries ++ B.uppers (k - j)) := by
  have hjn : j + (k - j) = k := by omega
  obtain ⟨pool', halloc, hget, hperm⟩ :=
    allocAt_of_nonempty hlev hj (k - j) (by omega) (by rw [hjn]; exact hempty)
  rw [hjn] at halloc hget
  exact ⟨pool', by rw [alloc_eq_allocAt pool hk, halloc], hget, hperm⟩

/-- Everything `Alloc(k)` can do to a pool whose lists hold only their own mask: fail with no
change when the lists `0..k` are all empty, or take the head `B` of the longest non-empty one. -/
theorem alloc_cases {pool : IPv4SubnetPool} (hlev : pool.Levels) {k : Nat} (hk : k ≤ 32) :
    ((∀ i ≤ k, pool.get i = []) ∧ pool.alloc k = some (pool, .error .invalidSize)) ∨
    ∃ j B rest, j ≤ k ∧ pool.get j = B :: rest ∧ (∀ i, j < i → i ≤ k → pool.get i = []) ∧
      ∃ pool', pool.alloc k = some (pool', .ok (B.descend (k - j))) ∧
        (∀ i, pool'.get i = if i = j then rest
          else if j < i ∧ i ≤ k then [(B.descend (i - 1 - j)).upperHalf] else pool.get i) ∧
        List.Perm (pool'.entries ++ [B]) (pool.entries ++ B.uppers (k - j)) := by
  by_cases h : ∃ j ≤ k, pool.get j ≠ []
  · obtain ⟨j, hjk, hj, hmax⟩ := exists_longest_nonempty h
    obtain ⟨B, rest, hBr⟩ := List.exists_cons_of_ne_nil hj
    exact .inr ⟨j, B, rest, hjk, hBr, hmax, alloc_of_longest hlev hk hjk hBr hmax⟩
  · push_neg at h
    exact .inl ⟨h, by rw [alloc_eq_allocAt pool hk, allocAt_of_empty h]⟩

/-- A failed `Alloc(k)`, `0 ≤ k ≤ 32`, leaves the pool as it was. -/
theorem alloc_error_eq {pool pool' : IPv4SubnetPool} (hlev : pool.Levels) {k : Nat} (hk : k ≤ 32)
    {e : SubnetError} (h : pool.alloc k = some (pool', .error e)) : pool' = pool := by
  rcases alloc_cases hlev hk with ⟨-, h'⟩ | ⟨_, _, _, -, -, -, _, h', -⟩ <;> rw [h'] at h <;>
    cases h
  rfl

/-- A successful `Alloc(k)` took a free block `B` and traded it for the result and the high
halves split off on the way down, all of them inside `B`. -/
theorem alloc_ok_cases {pool pool' : IPv4SubnetPool} (hlev : pool.Levels) {k : Nat} (hk : k ≤ 32)
    {r : IPv4Subnet} (h : pool.alloc k = some (pool', .ok r)) :
    ∃ j B rest, j ≤ k ∧ pool.get j = B :: rest ∧ r = B.descend (k - j) ∧
      (∀ i, pool'.get i = if i = j then rest
        else if j < i ∧ i ≤ k then [(B.descend (i - 1 - j)).upperHalf] else pool.get i) ∧
      List.Perm (pool'.entries ++ [B]) (pool.entries ++ B.uppers (k - j)) := by
  rcases alloc_cases hlev hk with ⟨-, h'⟩ | ⟨j, B, rest, hjk, hj, -, _, h', hget, hperm⟩ <;>
    rw [h'] at h <;> cases h
  exact ⟨j, B, rest, hjk, hj, rfl, hget, hperm⟩

/-- A successful `Alloc(k)` keeps every list to its own mask and returns a `/k` block. -/
theorem alloc_ok_levels {pool pool' : IPv4SubnetPool} (hlev : pool.Levels) {k : Nat} (hk : k ≤ 32)
    {r : IPv4Subnet} (h : pool.alloc k = some (pool', .ok r)) :
    pool'.Levels ∧ r.cidrMask = k := by
  obtain ⟨j, B, rest, hjk, hj, rfl, hget, -⟩ := alloc_ok_cases hlev hk h
  have hBm : B.cidrMask = j := hlev j B (by simp [hj])
  refine ⟨fun i s hs => ?_, by rw [IPv4Subnet.cidrMask_descend]; omega⟩
  rw [hget] at hs
  split_ifs at hs with h1 h2
  · exact h1 ▸ hlev j s (by simp [hj, hs])
  · rw [List.mem_singleton.1 hs, IPv4Subnet.cidrMask_upperHalf_descend]; omega
  · exact hlev i s hs

/-- A successful `Alloc(k)` took a free block `B` of some mask `j ≤ k` off the pool and put
back the high halves split off it; the result is the lowest `/k` block of `B`. -/
theorem alloc_ok_entries {pool pool' : IPv4SubnetPool} (hlev : pool.Levels) {k : Nat} (hk : k ≤ 32)
    {r : IPv4Subnet} (h : pool.alloc k = some (pool', .ok r)) :
    ∃ j B, j ≤ k ∧ B ∈ pool.entries ∧ B.cidrMask = j ∧ r = B.descend (k - j) ∧
      List.Perm pool'.entries (pool.entries.erase B ++ B.uppers (k - j)) := by
  obtain ⟨j, B, rest, hjk, hj, rfl, -, hperm⟩ := alloc_ok_cases hlev hk h
  have hB : B ∈ pool.entries := mem_entries.2 ⟨j, by simp [hj]⟩
  refine ⟨j, B, hjk, hB, hlev j B (by simp [hj]), rfl, ?_⟩
  exact List.Perm.cons_inv <| (List.perm_append_singleton _ _).symm.trans <|
    hperm.trans ((List.perm_cons_erase hB).append_right _)

/-- `Alloc` succeeds only at a size in `0..32`. -/
theorem exists_nat_of_alloc_ok {pool pool' : IPv4SubnetPool} {size : Int} {r : IPv4Subnet}
    (h : pool.alloc size = some (pool', .ok r)) : ∃ k : Nat, k ≤ 32 ∧ size = k := by
  unfold alloc at h
  split_ifs at h with hs
  · cases h
  · exact ⟨size.toNat, by omega, by omega⟩

/-- A failed `Alloc`, at any size, leaves the pool as it was. -/
theorem alloc_error_pool {pool pool' : IPv4SubnetPool} (hlev : pool.Levels) {size : Int}
    {e : SubnetError} (h : pool.alloc size = some (pool', .error e)) : pool' = pool := by
  by_cases hs : size < 0 ∨ size > 32
  · rw [alloc, if_pos hs] at h
    cases h; rfl
  · obtain ⟨k, rfl⟩ : ∃ k : Nat, size = k := ⟨size.toNat, by omega⟩
    exact alloc_error_eq hlev (by omega) h

/-- `Alloc(k)` on a pool whose lists hold only their own mask: it succeeds exactly when one of
the lists `0..k` holds a block; it fails, changing nothing, when none does; and when `j` is the
longest mask up to `k` with a block, headed by `B`, it returns the lowest `/k` block of `B`, takes
`B` off list `j`, leaves in each list `j+1..k` the high half split off at the level below, and
keeps every other list. The result and those halves partition `B`. -/
theorem alloc_spec {pool : IPv4SubnetPool} (hlev : pool.Levels) {k : Nat} (hk : k ≤ 32) :
    ((∃ pool' r, pool.alloc k = some (pool', .ok r)) ↔ ∃ j ≤ k, pool.get j ≠ []) ∧
    ((∀ i ≤ k, pool.get i = []) → pool.alloc k = some (pool, .error .invalidSize)) ∧
    (∀ j B rest, j ≤ k → pool.get j = B :: rest → (∀ i, j < i → i ≤ k → pool.get i = []) →
      ∃ pool', pool.alloc k = some (pool', .ok (B.descend (k - j))) ∧
        (B.descend (k - j)).cidrMask = k ∧
        (B.descend (k - j)).networkPrefix = B.networkPrefix * 2 ^ (k - j) ∧
        (∀ i, pool'.get i = if i = j then rest
          else if j < i ∧ i ≤ k then [(B.descend (i - 1 - j)).upperHalf] else pool.get i) ∧
        (∀ v, B.Contains v ↔ ∃ u ∈ B.descend (k - j) :: B.uppers (k - j), u.Contains v) ∧
        (∀ u ∈ B.descend (k - j) :: B.uppers (k - j), u.SubsetOf B) ∧
        (B.descend (k - j) :: B.uppers (k - j)).Pairwise IPv4Subnet.Disjoint) := by
  refine ⟨⟨fun ⟨pool', r, h⟩ => ?_, fun h => ?_⟩,
    fun h => by rw [alloc_eq_allocAt pool hk, allocAt_of_empty h], ?_⟩
  · obtain ⟨j, B, rest, hjk, hj, -⟩ := alloc_ok_cases hlev hk h
    exact ⟨j, hjk, by simp [hj]⟩
  · obtain ⟨j, hjk, hj, hmax⟩ := exists_longest_nonempty h
    obtain ⟨B, rest, hBr⟩ := List.exists_cons_of_ne_nil hj
    obtain ⟨pool', h', -⟩ := alloc_of_longest hlev hk hjk hBr hmax
    exact ⟨pool', _, h'⟩
  · intro j B rest hjk hj hempty
    have hBm : B.cidrMask = j := hlev j B (by simp [hj])
    obtain ⟨pool', halloc, hget, -⟩ := alloc_of_longest hlev hk hjk hj hempty
    obtain ⟨hcov, hsub, hdis⟩ := IPv4Subnet.partition_descend B (by omega) (k - j) (by omega)
    refine ⟨pool', halloc, ?_, IPv4Subnet.networkPrefix_descend (by omega) (by omega), hget, hcov,
      hsub, hdis⟩
    rw [IPv4Subnet.cidrMask_descend]; omega

/-- The lemma at the cluster block of the manifest, `10.128.0.0/14`, freed into the zero pool and
asked for a `/24`. -/
theorem alloc_spec_cluster_block :
    (IPv4SubnetPool.empty.set 14 [⟨⟨10, 128, 0, 0⟩, 14⟩]).Levels ∧
    ((∃ pool' r, (IPv4SubnetPool.empty.set 14 [⟨⟨10, 128, 0, 0⟩, 14⟩]).alloc 24 = some (pool', .ok r)) ↔
      ∃ j ≤ 24, (IPv4SubnetPool.empty.set 14 [⟨⟨10, 128, 0, 0⟩, 14⟩]).get j ≠ []) :=
  have hlev : (IPv4SubnetPool.empty.set 14 [⟨⟨10, 128, 0, 0⟩, 14⟩]).Levels :=
    levels_set (fun _ s hs => by simp at hs) (by decide) (by simp)
  ⟨hlev, (alloc_spec hlev (by decide)).1⟩

end IPv4SubnetPool

end NuageKubemon
