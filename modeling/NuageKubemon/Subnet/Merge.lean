/-
Module: NuageKubemon.Subnet.Merge
Purpose: What `Compare`, `CanMerge` and `Merge` compute. Subnets of different masks compare by
  mask. Subnets of one mask `n < 32` compare by the single octet `n / 8` cut to its top `n % 8`
  bits, as an unsigned byte difference: never negative, zero exactly when those bits agree, and
  at a mask that is a multiple of 8 no bit is read and every pair compares equal. At mask 32 the
  octet index is 4 and the read panics. So `CanMerge` does not test whether two subnets are the
  halves of one block: it asks one octet to differ and another to agree. Of the halves `Split`
  returns, `Merge` gives the block back exactly when `m % 8 ≠ 7`; at `m = 31` it panics.
Trusted boundary: none
Main exports: compare_of_cidrMask_ne, compare_of_cidrMask_eq, compare_eq_zero_iff,
  compare_of_slash32, canMerge_of_cidrMask_eq, split_spec, canMerge_halves, merge_halves
-/
import NuageKubemon.Subnet.Arith

namespace NuageKubemon

namespace IPv4Subnet

/-! ### `Compare` -/

/-- Subnets of different masks compare by mask alone. -/
theorem compare_of_cidrMask_ne {a b : IPv4Subnet} (h : a.cidrMask ≠ b.cidrMask) :
    a.compare b = some (b.cidrMask - a.cidrMask) := by
  simp [compare, show b.cidrMask - a.cidrMask ≠ 0 by omega]

/-- Subnets of one mask `n < 32` compare by octet `n / 8` cut to its top `n % 8` bits, as an
unsigned byte difference. -/
theorem compare_of_cidrMask_eq {a b : IPv4Subnet} {n : Nat} (hn : n < 32) (ha : a.cidrMask = n)
    (hb : b.cidrMask = n) :
    a.compare b = some (((a.address.get ⟨n / 8, IPv4Address.div_eight_lt_four hn⟩ &&&
        byteMask (n % 8 : Nat)) -
      (b.address.get ⟨n / 8, IPv4Address.div_eight_lt_four hn⟩ &&& byteMask (n % 8 : Nat))).toNat :
        Int) := by
  have hq : (n : Int).tdiv 8 = ((n / 8 : Nat) : Int) := rfl
  have hr : (n : Int).tmod 8 = ((n % 8 : Nat) : Int) := rfl
  simp only [compare, ha, hb, Int.sub_self, ne_eq, not_true_eq_false, if_false, hq, hr,
    IPv4Address.get?_of_lt _ _ (show n / 8 < 4 by omega)]

/-- Two subnets of one mask `n < 32` compare equal exactly when their 32-bit numbers agree on
the bits `Compare` reads: those of octet `n / 8` from bit `32 - n` up. -/
theorem compare_eq_zero_iff {a b : IPv4Subnet} {n : Nat} (hn : n < 32) (ha : a.cidrMask = n)
    (hb : b.cidrMask = n) :
    a.compare b = some 0 ↔ ∀ i, 32 - n ≤ i → i < 32 - 8 * (n / 8) →
      a.address.toNat.testBit i = b.address.toNat.testBit i := by
  rw [compare_of_cidrMask_eq hn ha hb, Option.some.injEq, Int.ofNat_eq_zero,
    byte_sub_toNat_eq_zero_iff, byte_eq_iff_testBit]
  simp only [testBit_byte_and, IPv4Address.testBit_get,
    testBit_byteMask (Int.natCast_nonneg _) (show ((n % 8 : Nat) : Int) ≤ 8 by omega),
    Int.toNat_natCast]
  constructor
  · intro h i h1 h2
    have := h (i - 8 * (3 - n / 8))
    rw [show 8 * (3 - n / 8) + (i - 8 * (3 - n / 8)) = i by omega] at this
    simpa [show i - 8 * (3 - n / 8) < 8 by omega, show 8 - n % 8 ≤ i - 8 * (3 - n / 8) by omega]
      using this
  · intro h j
    by_cases hj : 8 - n % 8 ≤ j ∧ j < 8
    · simp [hj, h (8 * (3 - n / 8) + j) (by omega) (by omega)]
    · have hoff : (decide (8 - n % 8 ≤ j ∧ j < 8)) = false := decide_eq_false hj
      simp only [hoff, Bool.and_false]

theorem compare_self {s : IPv4Subnet} {n : Nat} (hn : n < 32) (hs : s.cidrMask = n) :
    s.compare s = some 0 :=
  (compare_eq_zero_iff hn hs hs).2 fun _ _ _ => rfl

/-- At mask 32 the octet index is 4: `Compare` of two `/32`s reads past the address. -/
theorem compare_of_slash32 {a b : IPv4Subnet} (ha : a.cidrMask = 32) (hb : b.cidrMask = 32) :
    a.compare b = none := by
  have h4 : (32 : Int).tdiv 8 = 4 := rfl
  simp [compare, ha, hb, h4, IPv4Address.get?]

/-! ### `CanMerge` -/

/-- `CanMerge` of two subnets of one mask `n` in `1..31` never panics, and holds exactly when
octet `n / 8` differs from bit `32 - n` up while octet `(n - 1) / 8` agrees from bit `33 - n` up.
The two halves of one block would instead agree on every bit from `33 - n` up and differ at
bit `32 - n`. -/
theorem canMerge_of_cidrMask_eq {a b : IPv4Subnet} {n : Nat} (h1 : 1 ≤ n) (h32 : n < 32)
    (ha : a.cidrMask = n) (hb : b.cidrMask = n) :
    (∃ r, canMerge a b = some r) ∧
    (canMerge a b = some true ↔
      (∃ i, 32 - n ≤ i ∧ i < 32 - 8 * (n / 8) ∧
        a.address.toNat.testBit i ≠ b.address.toNat.testBit i) ∧
      ∀ i, 33 - n ≤ i → i < 32 - 8 * ((n - 1) / 8) →
        a.address.toNat.testBit i = b.address.toNat.testBit i) := by
  obtain ⟨c, hc⟩ : ∃ c, a.compare b = some c := ⟨_, compare_of_cidrMask_eq h32 ha hb⟩
  have ha' : a.cidrMask - 1 = (n - 1 : Nat) := by omega
  have hb' : b.cidrMask - 1 = (n - 1 : Nat) := by omega
  obtain ⟨c', hc'⟩ : ∃ c', IPv4Subnet.compare ⟨a.address, a.cidrMask - 1⟩
      ⟨b.address, b.cidrMask - 1⟩ = some c' :=
    ⟨_, compare_of_cidrMask_eq (show n - 1 < 32 by omega) ha' hb'⟩
  have e0 := compare_eq_zero_iff h32 ha hb
  have e1 := @compare_eq_zero_iff ⟨a.address, a.cidrMask - 1⟩ ⟨b.address, b.cidrMask - 1⟩ (n - 1)
    (by omega) ha' hb'
  rw [hc, Option.some.injEq] at e0
  rw [hc', Option.some.injEq, show 32 - (n - 1) = 33 - n by omega] at e1
  have hpos : ¬ (a.cidrMask ≤ 0 ∨ b.cidrMask ≤ 0) := by omega
  by_cases h0 : c = 0
  · simp only [canMerge, hpos, if_false, hc, h0, if_true]
    refine ⟨⟨_, rfl⟩, ?_⟩
    simp only [Option.some.injEq, Bool.false_eq_true, false_iff, not_and]
    rintro ⟨i, h1, h2, hne⟩
    exact absurd (e0.1 h0 i h1 h2) hne
  · have hne : ¬ a.cidrMask ≠ b.cidrMask := by omega
    simp only [canMerge, hpos, if_false, hc, h0, hne, hc', Option.map_some', Option.some.injEq,
      decide_eq_true_eq, e1]
    refine ⟨⟨_, rfl⟩, ⟨fun h => ⟨?_, h⟩, fun h => h.2⟩⟩
    by_contra hall
    push_neg at hall
    exact h0 (e0.2 fun i h1 h2 => hall i h1 h2)

example : canMerge ⟨⟨10, 0, 0, 0⟩, 9⟩ ⟨⟨11, 128, 0, 0⟩, 9⟩ = some true := by decide

/-- At mask 32 `CanMerge` reaches `Compare` and panics. -/
theorem canMerge_of_slash32 {a b : IPv4Subnet} (ha : a.cidrMask = 32) (hb : b.cidrMask = 32) :
    canMerge a b = none := by
  simp [canMerge, ha, hb, compare_of_slash32 ha hb]

/-! ### The halves of a block -/

theorem testBit_lowerHalf (s : IPv4Subnet) (i : Nat) :
    s.lowerHalf.address.toNat.testBit i = (decide (s.hostBits ≤ i) && s.address.toNat.testBit i) := by
  rw [lowerHalf, IPv4Address.toNat_ofNat (two_pow_mul_networkPrefix_lt s), networkPrefix,
    testBit_two_pow_mul_div]

theorem testBit_upperHalf (s : IPv4Subnet) (hk : 0 < s.hostBits) (i : Nat) :
    s.upperHalf.address.toNat.testBit i =
      (decide (s.hostBits ≤ i) && s.address.toNat.testBit i || decide (i = s.hostBits - 1)) := by
  rw [upperHalf, IPv4Address.toNat_ofNat (two_pow_mul_networkPrefix_add_lt s hk), networkPrefix,
    testBit_two_pow_mul_div_add _ hk]

/-- The low half of a block with zero host bits has the block's own address. -/
theorem lowerHalf_address_of_aligned {s : IPv4Subnet} (h : s.address.toNat % 2 ^ s.hostBits = 0) :
    s.lowerHalf.address = s.address := by
  apply IPv4Address.toNat_injective
  rw [lowerHalf, IPv4Address.toNat_ofNat (two_pow_mul_networkPrefix_lt s), networkPrefix,
    Nat.mul_div_cancel' (Nat.dvd_of_mod_eq_zero h)]

/-- The two halves differ in the one bit the high half sets. -/
theorem testBit_lowerHalf_iff_upperHalf {s : IPv4Subnet} (hk : 0 < s.hostBits) (i : Nat) :
    s.lowerHalf.address.toNat.testBit i = s.upperHalf.address.toNat.testBit i ↔
      i ≠ s.hostBits - 1 := by
  rw [testBit_lowerHalf, testBit_upperHalf s hk]
  by_cases h : i = s.hostBits - 1
  · simp [h, show s.hostBits - 1 < s.hostBits by omega]
  · simp [h]

/-- What `Split` returns for a subnet of mask `m` in `0..31`, with the address bits counted from
the most significant, `0..31` (bit `p` is bit `31 - p` of the 32-bit number): two subnets of mask
`m + 1` that keep bits `0..m-1` of the address and have every bit after `m` zero, the low one
with bit `m` clear and the high one with it set. Their blocks are disjoint and make up the
subnet's block. -/
theorem split_spec {s : IPv4Subnet} {m : Nat} (hm : s.cidrMask = m) (h31 : m ≤ 31) :
    ∃ lo hi, s.split = some (.ok (lo, hi)) ∧
      lo.cidrMask = m + 1 ∧ hi.cidrMask = m + 1 ∧
      (∀ p < m, lo.address.toNat.testBit (31 - p) = s.address.toNat.testBit (31 - p) ∧
        hi.address.toNat.testBit (31 - p) = s.address.toNat.testBit (31 - p)) ∧
      (∀ p, m < p → p < 32 →
        lo.address.toNat.testBit (31 - p) = false ∧ hi.address.toNat.testBit (31 - p) = false) ∧
      lo.address.toNat.testBit (31 - m) = false ∧ hi.address.toNat.testBit (31 - m) = true ∧
      lo.Disjoint hi ∧ ∀ v, s.Contains v ↔ lo.Contains v ∨ hi.Contains v := by
  have h0 : 0 ≤ s.cidrMask := by omega
  have h32 : s.cidrMask < 32 := by omega
  have hk : s.hostBits = 32 - m := by simp [hostBits, hm]
  refine ⟨_, _, split_eq s h0 h32, by simp [lowerHalf, hm], by simp [upperHalf, hm],
    fun p hp => ?_, fun p hp hp32 => ?_, ?_, ?_, lowerHalf_disjoint_upperHalf h0 h32,
    contains_iff_halves h0 h32⟩
  all_goals simp only [testBit_lowerHalf, testBit_upperHalf s (by omega), hk]
  -- the bits before `m` are copied, bit `m` is the one `Split` clears or sets, the rest are zero
  · simp [show 32 - m ≤ 31 - p by omega, show 31 - p ≠ 32 - m - 1 by omega]
  · simp [show ¬ (32 - m ≤ 31 - p) by omega, show 31 - p ≠ 32 - m - 1 by omega]
  · simp [show ¬ (32 - m ≤ 31 - m) by omega]
  · simp [show 31 - m = 32 - m - 1 by omega]

/-- The cluster block `10.128.0.0/14` splits into `10.128.0.0/15` and `10.130.0.0/15`. -/
theorem split_spec_cluster :
    (⟨⟨10, 128, 0, 0⟩, 14⟩ : IPv4Subnet).split =
        some (.ok (⟨⟨10, 128, 0, 0⟩, 15⟩, ⟨⟨10, 130, 0, 0⟩, 15⟩)) ∧
      ∃ lo hi, (⟨⟨10, 128, 0, 0⟩, 14⟩ : IPv4Subnet).split = some (.ok (lo, hi)) ∧
        lo.Disjoint hi ∧
        ∀ v, (⟨⟨10, 128, 0, 0⟩, 14⟩ : IPv4Subnet).Contains v ↔ lo.Contains v ∨ hi.Contains v := by
  obtain ⟨lo, hi, h, -, -, -, -, -, -, hdis, hcov⟩ :=
    split_spec (show (⟨⟨10, 128, 0, 0⟩, 14⟩ : IPv4Subnet).cidrMask = (14 : Nat) from rfl)
      (by decide)
  exact ⟨by decide, lo, hi, h, hdis, hcov⟩

/-- `CanMerge` of the two halves of a block of mask `m < 31` holds exactly when `m % 8 ≠ 7`: at
`m % 8 = 7` the halves' mask `m + 1` is a multiple of 8, and the first `Compare` reads no bit. -/
theorem canMerge_halves {s : IPv4Subnet} {m : Nat} (hm : m < 31) (hs : s.cidrMask = m) :
    canMerge s.lowerHalf s.upperHalf = some (decide (m % 8 ≠ 7)) := by
  have hlo : s.lowerHalf.cidrMask = (m + 1 : Nat) := by simp [lowerHalf, hs]
  have hhi : s.upperHalf.cidrMask = (m + 1 : Nat) := by simp [upperHalf, hs]
  have hk : s.hostBits = 32 - m := by simp [hostBits, hs]
  obtain ⟨⟨r, hr⟩, hiff⟩ := canMerge_of_cidrMask_eq (by omega) (by omega) hlo hhi
  rw [hr, Option.some.injEq] at hiff ⊢
  rw [Bool.eq_iff_iff, hiff, decide_eq_true_eq]
  simp only [ne_eq, testBit_lowerHalf_iff_upperHalf (show 0 < s.hostBits by omega), hk, not_not]
  clear hiff hr hlo hhi hk hs
  constructor
  · rintro ⟨⟨i, h1, h2, rfl⟩, -⟩ h7
    omega
  · intro h7
    exact ⟨⟨31 - m, by omega, by omega, by omega⟩, fun i h1 _ => by omega⟩

/-- `Merge` of the two halves of a block of mask `m < 31`: it fails when `m % 8 = 7`, and
otherwise returns the low half's address at mask `m`. -/
theorem merge_halves {s : IPv4Subnet} {m : Nat} (hm : m < 31) (hs : s.cidrMask = m) :
    merge s.lowerHalf s.upperHalf = if m % 8 = 7 then some (.error (.cannotMerge s.lowerHalf
      s.upperHalf)) else some (.ok ⟨s.lowerHalf.address, m⟩) := by
  rw [merge, canMerge_halves hm hs]
  by_cases h7 : m % 8 = 7
  · simp [h7]
  have hk : s.hostBits = 32 - m := by simp [hostBits, hs]
  have hlo : s.lowerHalf.cidrMask - 1 = m := by simp [lowerHalf, hs]
  have hq : (m : Int).tdiv 8 = ((m / 8 : Nat) : Int) := rfl
  have hr : (m : Int).tmod 8 = ((m % 8 : Nat) : Int) := rfl
  simp only [h7, ne_eq, not_false_eq_true, decide_True, if_false, hlo, hq, hr,
    IPv4Address.modify?_of_lt _ _ _ (show m / 8 < 4 by omega), Option.map_some']
  congr
  apply IPv4Address.toNat_injective
  refine Nat.eq_of_testBit_eq fun i => ?_
  simp only [IPv4Address.testBit_toNat_and, testBit_lowerHalf, hk,
    testBit_byteMask (Int.natCast_nonneg (m % 8)) (by omega), Int.toNat_natCast]
  by_cases h32 : 32 ≤ i
  · simp [IPv4Address.testBit_toNat_of_le _ h32]
  by_cases hlow : 32 - m ≤ i
  · by_cases hq : IPv4Address.octetOf i = ⟨m / 8, by omega⟩
    · have h8 : 3 - i / 8 = m / 8 :=
        (IPv4Address.octetOf_val _).symm.trans (congrArg Fin.val hq)
      simp [hq, hlow, show 8 - m % 8 ≤ i % 8 by omega, Nat.mod_lt]
    · simp [hq]
  · simp [hlow]

/-- `Merge` of the two halves `Split` returns, for every block of mask `m` in `0..31` whose host
bits are zero: it panics at `m = 31`, fails at every other mask with `m % 8 = 7`, and gives the
block back at all other masks. -/
theorem merge_split (s : IPv4Subnet) (h0 : 0 ≤ s.cidrMask) (h31 : s.cidrMask ≤ 31)
    (haligned : s.address.toNat % 2 ^ s.hostBits = 0) :
    ∃ lo hi, s.split = some (.ok (lo, hi)) ∧
      merge lo hi = if s.cidrMask = 31 then none
        else if s.cidrMask % 8 = 7 then some (.error (.cannotMerge lo hi)) else some (.ok s) := by
  obtain ⟨a, c⟩ := s
  obtain ⟨m, rfl⟩ : ∃ m : Nat, c = m := ⟨c.toNat, by simp only at h0; omega⟩
  refine ⟨_, _, split_eq _ h0 (show (m : Int) < 32 by simp only at h31; omega), ?_⟩
  by_cases hm : m = 31
  · subst hm
    rw [merge, canMerge_of_slash32 (by simp [lowerHalf]) (by simp [upperHalf])]
    rfl
  · have hm' : m < 31 := by simp only at h31; omega
    rw [merge_halves hm' rfl, lowerHalf_address_of_aligned haligned]
    simp only [show ¬ ((m : Int) = 31) by omega, if_false,
      show ((m : Int) % 8 = 7) ↔ m % 8 = 7 by omega]

/-- At `10.0.0.0/7` the halves `Split` returns, `10.0.0.0/8` and `11.0.0.0/8`, do not merge. -/
theorem merge_split_slash7 :
    ∃ lo hi, (⟨⟨10, 0, 0, 0⟩, 7⟩ : IPv4Subnet).split = some (.ok (lo, hi)) ∧
      merge lo hi = some (.error (.cannotMerge lo hi)) := by
  simpa using merge_split ⟨⟨10, 0, 0, 0⟩, 7⟩ (by decide) (by decide) (by decide)

end IPv4Subnet

end NuageKubemon
