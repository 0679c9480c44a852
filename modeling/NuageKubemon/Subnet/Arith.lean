/-
Module: NuageKubemon.Subnet.Arith
Purpose: `Netmask`, `Split`, `Compare`, `CanMerge` and `Merge` of `client/ipv4subnet.go`, each as
  the Go code computes it: byte by byte or in `uint` arithmetic, with the mask byte
  `uint8((256 - uint(1<<uint(8-r))) % 256)` and the single bit `uint8(128) >> offset`, and with an
  index out of `0..3` as a panic (`none`). The bit lemmas below read every byte operation as a
  statement about `Nat.testBit`, so that the results can be stated on the 32-bit numbers of
  `Address`.
Trusted boundary: none
Main exports: SubnetError, byteMask, IPv4Subnet.netmask, IPv4Subnet.split, IPv4Subnet.compare,
  canMerge, merge, byteMask_toNat, testBit_byteMask, netmask_spec
-/
import NuageKubemon.Subnet.Address

namespace NuageKubemon

/-- The errors `client/ipv4subnet.go` returns; `SubnetError.message` gives their texts. -/
inductive SubnetError where
  | cannotSplit
  | cannotMerge (a b : IPv4Subnet)
  | invalidSize
  | badSubnet (subnet : IPv4Subnet)
  | doubleFree (subnet : IPv4Subnet)
deriving DecidableEq, Repr

/-- The byte whose `r` high bits are set, for `r` in `0..8`. `Split` spells it
`uint8(uint(256-(1<<uint(8-mask))) % 256)`, `Compare` `uint8((256 - uint(1<<uint(8-r))) % 256)` and
`Merge` `uint8(uint(1<<8 - 1<<uint(8-r)))`: the same `uint` arithmetic, and the final `% 256` is the
one the conversion to `uint8` makes anyway. -/
def byteMask (r : Int) : UInt8 := UInt8.ofNat (uintSub 256 (uintShl 1 (toUint (8 - r))) % 256)

theorem byteMask_toNat {r : Int} (h0 : 0 ≤ r) (h8 : r ≤ 8) :
    (byteMask r).toNat = 2 ^ 8 - 2 ^ (8 - r.toNat) := by
  have hs : toUint (8 - r) = 8 - r.toNat := by rw [toUint_of_nonneg (by omega) (by omega)]; omega
  have hp : 2 ^ (8 - r.toNat) ≤ 2 ^ 8 := Nat.pow_le_pow_right (by omega) (by omega)
  have hp1 : 1 ≤ 2 ^ (8 - r.toNat) := Nat.one_le_two_pow
  simp only [byteMask, hs, uintShl, uintSub, one_mul, UInt8.toNat, UInt8.ofNat, BitVec.toNat_ofNat]
  generalize 2 ^ (8 - r.toNat) = p at hp hp1 ⊢
  omega

private theorem testBit_two_pow_sub_two_pow {n k : Nat} (hk : k ≤ n) (j : Nat) :
    (2 ^ n - 2 ^ k).testBit j = (decide (j < n) && !decide (j < k)) := by
  have h : 2 ^ n - 2 ^ k = 2 ^ n - ((2 ^ k - 1) + 1) := by
    rw [Nat.sub_add_cancel Nat.one_le_two_pow]
  have hlt : 2 ^ k - 1 < 2 ^ n := by
    have := Nat.pow_le_pow_right (show 0 < 2 by omega) hk
    have := Nat.two_pow_pos n
    omega
  rw [h, Nat.testBit_two_pow_sub_succ hlt, Nat.testBit_two_pow_sub_one]

/-- `byteMask r` keeps exactly the bits `8 - r .. 7` of a byte. -/
theorem testBit_byteMask {r : Int} (h0 : 0 ≤ r) (h8 : r ≤ 8) (j : Nat) :
    (byteMask r).toNat.testBit j = decide (8 - r.toNat ≤ j ∧ j < 8) := by
  rw [byteMask_toNat h0 h8, testBit_two_pow_sub_two_pow (by omega)]
  by_cases hj : j < 8 <;> by_cases hk : j < 8 - r.toNat <;> simp [hj, hk] <;> omega

/-- `uint8(128) >> r` is the single bit `7 - r` of a byte, for `r` in `0..7`. -/
theorem testBit_shr8_128 {r : Nat} (hr : r < 8) (j : Nat) :
    (shr8 128 r).toNat.testBit j = decide (j = 7 - r) := by
  rw [shr8_toNat, Nat.testBit_shiftRight, show (128 : UInt8).toNat = 2 ^ 7 from rfl,
    Nat.testBit_two_pow]
  by_cases h : j = 7 - r <;> simp [h] <;> omega

/-! ### `Netmask` -/

/-- `(IPv4Subnet).Netmask`: `255.255.255.255` from mask 32 up, and otherwise the four octets, high
first, of the `uint` `(1 << 32) - (1 << uint(32-CIDRMask))`. -/
def IPv4Subnet.netmask (subnet : IPv4Subnet) : IPv4Address :=
  if subnet.cidrMask ≥ 32 then ⟨255, 255, 255, 255⟩ else
  let fullmask := uintSub (2 ^ 32) (uintShl 1 (toUint (32 - subnet.cidrMask)))
  ⟨UInt8.ofNat (fullmask / 2 ^ 24 % 256), UInt8.ofNat (fullmask / 2 ^ 16 % 256),
    UInt8.ofNat (fullmask / 256 % 256), UInt8.ofNat (fullmask % 256)⟩

private theorem toNat_of_octets (F : Nat) :
    IPv4Address.toNat ⟨UInt8.ofNat (F / 2 ^ 24 % 256), UInt8.ofNat (F / 2 ^ 16 % 256),
      UInt8.ofNat (F / 256 % 256), UInt8.ofNat (F % 256)⟩ = F % 2 ^ 32 := by
  simp only [byte_ofNat_mod]
  exact IPv4Address.toNat_ofNat_mod F

/-- The netmask as a 32-bit number, for every `int` mask: no bit below mask 0, the top `CIDRMask`
bits set from there up to mask 32, and every bit beyond. -/
theorem netmask_toNat {s : IPv4Subnet} (hlo : -2 ^ 63 ≤ s.cidrMask) :
    s.netmask.toNat = if s.cidrMask < 0 then 0 else 2 ^ 32 - 2 ^ s.hostBits := by
  unfold IPv4Subnet.netmask
  by_cases h32 : s.cidrMask ≥ 32
  · have : s.hostBits = 0 := by simp only [IPv4Subnet.hostBits]; omega
    rw [if_pos h32, if_neg (by omega), this]; rfl
  have hs : toUint (32 - s.cidrMask) = (32 - s.cidrMask).toNat :=
    toUint_of_nonneg (by omega) (by omega)
  have h64 : 0 < 2 ^ 64 := Nat.two_pow_pos 64
  rw [if_neg h32]
  simp only [hs, toNat_of_octets, uintSub, uintShl, one_mul]
  by_cases hneg : s.cidrMask < 0
  · -- `1 << uint(32-CIDRMask)` shifts to bit 33 or past bit 63: no bit below 32 is left
    rw [if_pos hneg]
    obtain ⟨z, hz⟩ : 2 ^ 32 ∣ 2 ^ (32 - s.cidrMask).toNat % 2 ^ 64 :=
      (Nat.dvd_mod_iff (Nat.pow_dvd_pow 2 (by omega))).2 (Nat.pow_dvd_pow 2 (by omega))
    have hlt : 2 ^ (32 - s.cidrMask).toNat % 2 ^ 64 < 2 ^ 64 := Nat.mod_lt _ h64
    omega
  · rw [if_neg hneg]
    have hk : (32 - s.cidrMask).toNat = s.hostBits := by simp only [IPv4Subnet.hostBits]; omega
    have hp : 2 ^ s.hostBits ≤ 2 ^ 32 := Nat.pow_le_pow_right (by omega) s.hostBits_le
    have hp1 : 1 ≤ 2 ^ s.hostBits := Nat.one_le_two_pow
    rw [hk]
    generalize 2 ^ s.hostBits = p at hp hp1 ⊢
    omega

/-- Bit `i` of the netmask is set exactly from the first host bit up to bit 31. -/
theorem testBit_netmask {s : IPv4Subnet} (hlo : -2 ^ 63 ≤ s.cidrMask) (i : Nat) :
    s.netmask.toNat.testBit i = (decide (i < 32) && !decide (i < s.hostBits)) := by
  rw [netmask_toNat hlo]
  split_ifs with h
  · have : s.hostBits = 32 := by simp only [IPv4Subnet.hostBits]; omega
    by_cases hi : i < 32 <;> simp [hi, this]
  · exact testBit_two_pow_sub_two_pow s.hostBits_le i

/-- What `Netmask` is for: the netmask the controller sends with a subnet describes the subnet's
own block. An address lies in the block exactly when it agrees with the subnet's address on the
bits the netmask sets. -/
theorem contains_iff_netmask {s : IPv4Subnet} (hlo : -2 ^ 63 ≤ s.cidrMask) (v : Nat) :
    s.Contains v ↔ v < 2 ^ 32 ∧ v &&& s.netmask.toNat = s.address.toNat &&& s.netmask.toNat := by
  have hbits : ∀ x < 2 ^ 32, ∀ i, (x &&& s.netmask.toNat).testBit i =
      (2 ^ s.hostBits * (x / 2 ^ s.hostBits)).testBit i := by
    intro x hx i
    rw [Nat.testBit_and, testBit_netmask hlo, testBit_two_pow_mul_div]
    by_cases hi : i < 32
    · by_cases hk : i < s.hostBits <;> simp [hi, hk, Nat.le_of_not_lt]
    · have : x.testBit i = false :=
        Nat.testBit_lt_two_pow (lt_of_lt_of_le hx (Nat.pow_le_pow_right (by omega) (by omega)))
      simp [hi, this]
  unfold IPv4Subnet.Contains IPv4Subnet.networkPrefix
  refine and_congr_right fun hv => ?_
  rw [← Nat.mul_left_cancel_iff (Nat.two_pow_pos s.hostBits)]
  constructor
  · intro h
    exact Nat.eq_of_testBit_eq fun i => by rw [hbits v hv, hbits _ s.address.toNat_lt, h]
  · intro h
    exact Nat.eq_of_testBit_eq fun i => by rw [← hbits v hv, ← hbits _ s.address.toNat_lt, h]

/-- `Netmask` for every `int` mask: `0.0.0.0` below mask 0, otherwise the top `CIDRMask` bits set
(all 32 from mask 32 up); and for every mask, an address lies in the subnet's block exactly when it
agrees with the subnet's address on the bits the netmask sets. -/
theorem netmask_spec {s : IPv4Subnet} (hlo : -2 ^ 63 ≤ s.cidrMask) :
    s.netmask.toNat = (if s.cidrMask < 0 then 0 else 2 ^ 32 - 2 ^ s.hostBits) ∧
    ∀ v, s.Contains v ↔ v < 2 ^ 32 ∧ v &&& s.netmask.toNat = s.address.toNat &&& s.netmask.toNat :=
  ⟨netmask_toNat hlo, contains_iff_netmask hlo⟩

/-- The cluster block `10.128.0.0/14` has the netmask `255.252.0.0`, which picks out its block. -/
theorem netmask_spec_cluster :
    IPv4Subnet.netmask ⟨⟨10, 128, 0, 0⟩, 14⟩ = ⟨255, 252, 0, 0⟩ ∧
    ∀ v, IPv4Subnet.Contains ⟨⟨10, 128, 0, 0⟩, 14⟩ v ↔ v < 2 ^ 32 ∧
      v &&& (IPv4Subnet.netmask ⟨⟨10, 128, 0, 0⟩, 14⟩).toNat =
        IPv4Address.toNat ⟨10, 128, 0, 0⟩ &&& (IPv4Subnet.netmask ⟨⟨10, 128, 0, 0⟩, 14⟩).toNat :=
  ⟨by decide, (netmask_spec (show (-2 ^ 63 : Int) ≤ 14 by decide)).2⟩

/-! ### `Split` -/

/-- One pass of `Split`'s byte loop at octet `i` with `mask` bits still to copy: the whole octet
while at least 8 remain, its high `mask` bits when fewer remain, and nothing once none remain. -/
def splitStep (address : IPv4Address) :
    Int × IPv4Address × IPv4Address → Fin 4 → Int × IPv4Address × IPv4Address
  | (mask, lo, hi), i =>
    if mask ≥ 8 then (mask - 8, lo.set i (address.get i), hi.set i (address.get i))
    else if mask > 0 then
      let bitmask := byteMask mask
      (0, lo.set i (address.get i &&& bitmask), hi.set i (address.get i &&& bitmask))
    else (mask, lo, hi)

/-- `(*IPv4Subnet).Split`: the low and high halves of a subnet, or an error for a mask of 32 or
more. The halves start as zero addresses, the loop copies the `CIDRMask` high bits into both, and
bit `CIDRMask` (counted from the top) is then cleared in the low half and set in the high half. -/
def IPv4Subnet.split (subnet : IPv4Subnet) :
    Option (Except SubnetError (IPv4Subnet × IPv4Subnet)) :=
  if subnet.cidrMask ≥ 32 then some (.error .cannotSplit) else
  let (_, lo, hi) := [0, 1, 2, 3].foldl (splitStep subnet.address)
    (subnet.cidrMask, IPv4Address.zero, IPv4Address.zero)
  let index := subnet.cidrMask.tdiv 8
  let bit := shr8 128 (toUint (subnet.cidrMask.tmod 8))
  match lo.modify? index (· &&& ~~~bit), hi.modify? index (· ||| bit) with
  | some lo, some hi => some (.ok (⟨lo, subnet.cidrMask + 1⟩, ⟨hi, subnet.cidrMask + 1⟩))
  | _, _ => none

theorem splitStep_of_ge (a : IPv4Address) {mask : Int} (lo hi : IPv4Address) (i : Fin 4)
    (h : 8 ≤ mask) :
    splitStep a (mask, lo, hi) i = (mask - 8, lo.set i (a.get i), hi.set i (a.get i)) := by
  simp [splitStep, h]

theorem splitStep_of_pos (a : IPv4Address) {mask : Int} (lo hi : IPv4Address) (i : Fin 4)
    (h0 : 0 < mask) (h8 : mask < 8) :
    splitStep a (mask, lo, hi) i =
      (0, lo.set i (a.get i &&& byteMask mask), hi.set i (a.get i &&& byteMask mask)) := by
  simp [splitStep, h0, show ¬ 8 ≤ mask by omega]

theorem splitStep_of_nonpos (a : IPv4Address) {mask : Int} (lo hi : IPv4Address) (i : Fin 4)
    (h : mask ≤ 0) : splitStep a (mask, lo, hi) i = (mask, lo, hi) := by
  simp [splitStep, show ¬ 8 ≤ mask by omega, show ¬ 0 < mask by omega]

/-- The octet the loop leaves in both halves when `c` mask bits remain for it. -/
def prefixOctet (x : UInt8) (c : Int) : UInt8 :=
  if c ≥ 8 then x else if c > 0 then x &&& byteMask c else 0

/-- The address the loop leaves in both halves: the top `m` bits of `a`, the rest zero. -/
def prefixAddress (a : IPv4Address) (m : Int) : IPv4Address :=
  ⟨prefixOctet a.octet0 m, prefixOctet a.octet1 (m - 8), prefixOctet a.octet2 (m - 16),
    prefixOctet a.octet3 (m - 24)⟩

/-- The loop of `Split`, for every starting mask: the mask counter falls by 8 per octet, so the
branch taken at each octet is fixed by which of nine ranges the mask lies in. -/
theorem splitLoop (a : IPv4Address) (m : Int) :
    [0, 1, 2, 3].foldl (splitStep a) (m, .zero, .zero) =
      (([0, 1, 2, 3].foldl (splitStep a) (m, .zero, .zero)).1,
        prefixAddress a m, prefixAddress a m) := by
  refine Prod.ext rfl ?_
  rcases (show m ≤ 0 ∨ (0 < m ∧ m < 8) ∨ (8 ≤ m ∧ m ≤ 8) ∨ (8 < m ∧ m < 16) ∨
      (16 ≤ m ∧ m ≤ 16) ∨ (16 < m ∧ m < 24) ∨ (24 ≤ m ∧ m ≤ 24) ∨ (24 < m ∧ m < 32) ∨ 32 ≤ m
      by omega) with h | h | h | h | h | h | h | h | h <;>
  · simp (disch := omega) only [List.foldl, splitStep_of_ge, splitStep_of_pos,
      splitStep_of_nonpos, prefixAddress, prefixOctet, if_pos, if_neg, Int.sub_sub]
    rfl

theorem testBit_prefixOctet (x : UInt8) (c : Int) {j : Nat} (hj : j < 8) :
    (prefixOctet x c).toNat.testBit j = (x.toNat.testBit j && decide (8 - c ≤ j)) := by
  unfold prefixOctet
  split_ifs with h8 h0
  · simp only [show 8 - c ≤ j by omega, decide_True, Bool.and_true]
  · rw [testBit_byte_and, testBit_byteMask (by omega) (by omega)]
    exact congrArg _ (decide_eq_decide.2 (by omega))
  · simp [show ¬ (8 - c ≤ (j : Int)) by omega]

theorem prefixAddress_get (a : IPv4Address) (m : Int) :
    ∀ k : Fin 4, (prefixAddress a m).get k = prefixOctet (a.get k) (m - 8 * k.val)
  | 0 | 1 | 2 | 3 => by
    simp [prefixAddress, IPv4Address.get, show ((3 : Fin 4) : Nat) = 3 from rfl]

/-- The loop keeps exactly the address bits at positions `32 - m` and above. -/
theorem testBit_prefixAddress (a : IPv4Address) (m : Int) (i : Nat) :
    (prefixAddress a m).toNat.testBit i = (decide (32 - m ≤ i) && a.toNat.testBit i) := by
  rw [IPv4Address.testBit_toNat, IPv4Address.testBit_toNat, prefixAddress_get,
    testBit_prefixOctet _ _ (Nat.mod_lt _ (by omega))]
  by_cases hi : i < 32
  · have := IPv4Address.octetOf_val i
    have e : 8 - (m - 8 * ((IPv4Address.octetOf i).val : Int)) ≤ ((i % 8 : Nat) : Int) ↔
        32 - m ≤ i := by
      rw [this]; omega
    simp only [hi, decide_True, Bool.true_and, decide_eq_decide.2 e]
    exact Bool.and_comm _ _
  · simp [hi]

/-- The bit `Split` clears or sets, octet `m / 8` at offset `m % 8` from the top, is bit `31 - m`
of the 32-bit number. -/
theorem split_bit_iff {n i : Nat} (hn : n < 32) :
    (IPv4Address.octetOf i = ⟨n / 8, IPv4Address.div_eight_lt_four hn⟩ ∧ i < 32) ∧
      i % 8 = 7 - n % 8 ↔ i = 31 - n := by
  constructor
  · rintro ⟨⟨h, hi⟩, hj⟩
    have := (IPv4Address.octetOf_val i).symm.trans (congrArg Fin.val h)
    simp only at this
    omega
  · rintro rfl
    refine ⟨⟨Fin.ext ?_, by omega⟩, by omega⟩
    rw [IPv4Address.octetOf_val _]
    simp only
    omega

/-! ### The halves of a block -/

/-- The low half of a block: mask one longer, top `m` bits kept, bit `m` (from the top) clear
and the host bits zero. -/
def IPv4Subnet.lowerHalf (s : IPv4Subnet) : IPv4Subnet :=
  ⟨IPv4Address.ofNat (2 ^ s.hostBits * s.networkPrefix), s.cidrMask + 1⟩

/-- The high half of a block: as the low half, with bit `m` (from the top) set. -/
def IPv4Subnet.upperHalf (s : IPv4Subnet) : IPv4Subnet :=
  ⟨IPv4Address.ofNat (2 ^ s.hostBits * s.networkPrefix + 2 ^ (s.hostBits - 1)), s.cidrMask + 1⟩

/-- `Split` computes the two halves of every subnet whose mask lies in `0..31`. -/
theorem split_eq (s : IPv4Subnet) (h0 : 0 ≤ s.cidrMask) (h32 : s.cidrMask < 32) :
    s.split = some (.ok (s.lowerHalf, s.upperHalf)) := by
  obtain ⟨n, hn⟩ : ∃ n : Nat, s.cidrMask = n := ⟨_, (Int.toNat_of_nonneg h0).symm⟩
  have hq : s.cidrMask.tdiv 8 = ((n / 8 : Nat) : Int) := by rw [hn]; rfl
  have hr : toUint (s.cidrMask.tmod 8) = n % 8 := by
    rw [hn]
    show toUint ((n % 8 : Nat) : Int) = n % 8
    rw [toUint_of_nonneg (by omega) (by omega)]; rfl
  have hn32 : n < 32 := by omega
  have hk : s.hostBits = 32 - n := by simp [IPv4Subnet.hostBits, hn]
  have e (i : Nat) : (32 : Int) - n ≤ i ↔ 32 - n ≤ i := by omega
  simp only [IPv4Subnet.split, if_neg (show ¬ s.cidrMask ≥ 32 by omega)]
  rw [splitLoop]
  simp only [hq, hr, IPv4Address.modify?_of_lt _ _ _ (show n / 8 < 4 by omega)]
  set P := prefixAddress s.address s.cidrMask
  set q : Fin 4 := ⟨n / 8, by omega⟩
  have hlo : P.set q (P.get q &&& ~~~shr8 128 (n % 8)) = s.lowerHalf.address := by
    apply IPv4Address.toNat_injective
    simp only [IPv4Subnet.lowerHalf, IPv4Subnet.networkPrefix]
    rw [IPv4Address.toNat_ofNat (two_pow_mul_div_lt s.address.toNat_lt)]
    refine Nat.eq_of_testBit_eq fun i => ?_
    rw [IPv4Address.testBit_toNat_clear, testBit_prefixAddress, testBit_two_pow_mul_div,
      testBit_shr8_128 (Nat.mod_lt _ (by omega)), hk, hn]
    simp only [e, ← Bool.decide_and]
    by_cases hle : 32 - n ≤ i
    · by_cases hi : i < 32
      · have : ¬ (IPv4Address.octetOf i = q ∧ i % 8 = 7 - n % 8) :=
          fun h => absurd ((split_bit_iff hn32).1 ⟨⟨h.1, hi⟩, h.2⟩) (by omega)
        simp [decide_eq_false this]
      · simp [IPv4Address.testBit_toNat_of_le _ (show 32 ≤ i by omega)]
    · simp [hle]
  have hhi : P.set q (P.get q ||| shr8 128 (n % 8)) = s.upperHalf.address := by
    apply IPv4Address.toNat_injective
    simp only [IPv4Subnet.upperHalf, IPv4Subnet.networkPrefix]
    rw [IPv4Address.toNat_ofNat (two_pow_mul_div_add_lt s.address.toNat_lt (by omega) (by omega))]
    refine Nat.eq_of_testBit_eq fun i => ?_
    rw [IPv4Address.testBit_toNat_or, testBit_prefixAddress, hk,
      testBit_two_pow_mul_div_add _ (by omega), testBit_shr8_128 (Nat.mod_lt _ (by omega)), hn,
      show 32 - n - 1 = 31 - n by omega]
    simp only [e, ← Bool.decide_and, split_bit_iff hn32]
  rw [hlo, hhi]
  rfl

theorem hostBits_half {s : IPv4Subnet} (h0 : 0 ≤ s.cidrMask) (h32 : s.cidrMask < 32) :
    s.lowerHalf.hostBits = s.hostBits - 1 ∧ s.upperHalf.hostBits = s.hostBits - 1 := by
  simp only [IPv4Subnet.lowerHalf, IPv4Subnet.upperHalf, IPv4Subnet.hostBits]
  omega

private theorem two_pow_pred : ∀ {k : Nat}, 0 < k → 2 ^ k = 2 ^ (k - 1) * 2
  | _ + 1, _ => rfl

theorem networkPrefix_lowerHalf {s : IPv4Subnet} (h0 : 0 ≤ s.cidrMask) (h32 : s.cidrMask < 32) :
    s.lowerHalf.networkPrefix = 2 * s.networkPrefix := by
  have hk : 0 < s.hostBits := by simp only [IPv4Subnet.hostBits]; omega
  rw [IPv4Subnet.networkPrefix, (hostBits_half h0 h32).1, IPv4Subnet.lowerHalf]
  simp only
  rw [IPv4Address.toNat_ofNat s.two_pow_mul_networkPrefix_lt, two_pow_pred hk, Nat.mul_assoc,
    Nat.mul_div_cancel_left _ (Nat.two_pow_pos _)]

theorem networkPrefix_upperHalf {s : IPv4Subnet} (h0 : 0 ≤ s.cidrMask) (h32 : s.cidrMask < 32) :
    s.upperHalf.networkPrefix = 2 * s.networkPrefix + 1 := by
  have hk : 0 < s.hostBits := by simp only [IPv4Subnet.hostBits]; omega
  rw [IPv4Subnet.networkPrefix, (hostBits_half h0 h32).2, IPv4Subnet.upperHalf]
  simp only
  rw [IPv4Address.toNat_ofNat (s.two_pow_mul_networkPrefix_add_lt hk), two_pow_pred hk,
    show 2 ^ (s.hostBits - 1) * 2 * s.networkPrefix + 2 ^ (s.hostBits - 1) =
      2 ^ (s.hostBits - 1) * (2 * s.networkPrefix + 1) by
        rw [Nat.mul_add, Nat.mul_one, Nat.mul_assoc],
    Nat.mul_div_cancel_left _ (Nat.two_pow_pos _)]

/-- The block of a subnet is the union of the blocks of its two halves. -/
theorem contains_iff_halves {s : IPv4Subnet} (h0 : 0 ≤ s.cidrMask) (h32 : s.cidrMask < 32)
    (v : Nat) : s.Contains v ↔ s.lowerHalf.Contains v ∨ s.upperHalf.Contains v := by
  have hk : 0 < s.hostBits := by simp only [IPv4Subnet.hostBits]; omega
  have hdiv : v / 2 ^ s.hostBits = v / 2 ^ (s.hostBits - 1) / 2 := by
    rw [two_pow_pred hk, Nat.div_div_eq_div_mul]
  simp only [IPv4Subnet.Contains, (hostBits_half h0 h32).1, (hostBits_half h0 h32).2,
    networkPrefix_lowerHalf h0 h32, networkPrefix_upperHalf h0 h32, hdiv]
  omega

theorem lowerHalf_subsetOf {s : IPv4Subnet} (h0 : 0 ≤ s.cidrMask) (h32 : s.cidrMask < 32) :
    s.lowerHalf.SubsetOf s :=
  fun v h => (contains_iff_halves h0 h32 v).2 (.inl h)

theorem upperHalf_subsetOf {s : IPv4Subnet} (h0 : 0 ≤ s.cidrMask) (h32 : s.cidrMask < 32) :
    s.upperHalf.SubsetOf s :=
  fun v h => (contains_iff_halves h0 h32 v).2 (.inr h)

theorem lowerHalf_disjoint_upperHalf {s : IPv4Subnet} (h0 : 0 ≤ s.cidrMask)
    (h32 : s.cidrMask < 32) : s.lowerHalf.Disjoint s.upperHalf := by
  intro v hlo hhi
  have e1 := hlo.2
  have e2 := hhi.2
  rw [(hostBits_half h0 h32).1, networkPrefix_lowerHalf h0 h32] at e1
  rw [(hostBits_half h0 h32).2, networkPrefix_upperHalf h0 h32] at e2
  omega

/-! ### `Compare`, `CanMerge` and `Merge` -/

/-- `(*IPv4Subnet).Compare`: the difference of the masks when they differ; otherwise the `uint8`
difference, read back as an `int`, of the single octet `CIDRMask / 8` of each address, both cut to
their `CIDRMask % 8` high bits. The subtraction wraps, so the result is never negative. -/
def IPv4Subnet.compare (a b : IPv4Subnet) : Option Int :=
  let n := b.cidrMask - a.cidrMask
  if n ≠ 0 then some n else
  let index := a.cidrMask.tdiv 8
  let mask := byteMask (a.cidrMask.tmod 8)
  match a.address.get? index, b.address.get? index with
  | some x, some y => some (((x &&& mask) - (y &&& mask)).toNat : Int)
  | _, _ => none

/-- `CanMerge`: both masks positive, `Compare` nonzero, the masks equal, and `Compare` zero once
both masks are one shorter. -/
def canMerge (a b : IPv4Subnet) : Option Bool :=
  if a.cidrMask ≤ 0 ∨ b.cidrMask ≤ 0 then some false else
  match a.compare b with
  | none => none
  | some c =>
    if c = 0 then some false
    else if a.cidrMask ≠ b.cidrMask then some false
    else (IPv4Subnet.compare ⟨a.address, a.cidrMask - 1⟩ ⟨b.address, b.cidrMask - 1⟩).map (· = 0)

/-- `Merge`: when `CanMerge` holds, `a`'s address with octet `(CIDRMask - 1) / 8` cut to its
`(CIDRMask - 1) % 8` high bits, at mask `CIDRMask - 1`. -/
def merge (a b : IPv4Subnet) : Option (Except SubnetError IPv4Subnet) :=
  match canMerge a b with
  | none => none
  | some false => some (.error (.cannotMerge a b))
  | some true =>
    let newMask := a.cidrMask - 1
    let mask := byteMask (newMask.tmod 8)
    (a.address.modify? (newMask.tdiv 8) (· &&& mask)).map fun address => .ok ⟨address, newMask⟩

end NuageKubemon
