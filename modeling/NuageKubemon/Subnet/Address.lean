/-
Module: NuageKubemon.Subnet.Address
Purpose: The values of `client/ipv4subnet.go`: `IPv4Address` (a `[4]uint8`) and `IPv4Subnet`
  (an address and an `int` CIDR mask), together with the few pieces of Go's fixed-width arithmetic
  that the subnet code and the controller use (`uint(x)` of an `int`, `uint` shifts and
  subtraction, `uint8` shifts, and the wrap of `int` arithmetic at 64 bits).
  Indexing an address with an `int` is partial: an index outside `0..3` is a Go runtime panic, and
  is `none` here. Above the faithful layer sits the 32-bit reading used by every later module: an
  address is a number below `2^32`, a subnet of mask `m` is the aligned block of the numbers that
  agree with its address on the top `m` bits, and `Contains`, `Disjoint` and `SubsetOf` are stated
  on those blocks.
Trusted boundary: the conversions follow the Go specification (integer conversions wrap modulo the
  target width; `/` and `%` on `int` truncate toward zero; a shift by at least the width gives 0)
Main exports: wrapInt, IPv4Address, IPv4Subnet, IPv4Address.get?, IPv4Address.modify?,
  IPv4Address.toNat, IPv4Address.testBit_toNat, IPv4Subnet.networkPrefix, IPv4Subnet.Contains, IPv4Subnet.Disjoint,
  IPv4Subnet.SubsetOf
-/
import Mathlib.Algebra.Group.Int
import Mathlib.Data.Nat.Bitwise

namespace NuageKubemon

/-- Go results are compared with `decide`, `error` values included. -/
instance instDecidableEqExcept {ε α : Type} [DecidableEq ε] [DecidableEq α] :
    DecidableEq (Except ε α)
  | .error x, .error y => decidable_of_iff (x = y) (by simp)
  | .ok x, .ok y => decidable_of_iff (x = y) (by simp)
  | .error _, .ok _ => isFalse (by simp)
  | .ok _, .error _ => isFalse (by simp)

/-! ### Go's unsigned arithmetic -/

/-- Go's `uint(x)` for an `int` `x`: two's complement, modulo `2^64`. -/
def toUint (x : Int) : Nat := (x % 2 ^ 64).toNat

/-- Go's `a << s` on `uint`: bits shifted past bit 63 are lost. -/
def uintShl (a s : Nat) : Nat := (a * 2 ^ s) % 2 ^ 64

/-- Go's `a - b` on `uint`, wrapping modulo `2^64`. -/
def uintSub (a b : Nat) : Nat := (a + (2 ^ 64 - b % 2 ^ 64)) % 2 ^ 64

/-- Go's `x >> s` on `uint8` with a `uint` count: a count of 8 or more gives 0, unlike Lean's
`UInt8` shift, which reduces the count modulo 8. -/
def shr8 (x : UInt8) (s : Nat) : UInt8 := UInt8.ofNat (x.toNat >>> s)

theorem toUint_of_nonneg {x : Int} (h0 : 0 ≤ x) (h : x < 2 ^ 64) : toUint x = x.toNat := by
  rw [toUint, Int.emod_eq_of_lt h0 h]

/-! ### Go's signed arithmetic -/

/-- Go's `+`, `-` and `++` on the 64-bit `int`: the exact result wrapped into `-2^63 .. 2^63 - 1`,
two's complement. -/
def wrapInt (x : Int) : Int := x.bmod (2 ^ 64)

/-- A result that an `int` holds is not wrapped. -/
theorem wrapInt_of_range {x : Int} (hlo : -2 ^ 63 ≤ x) (hhi : x < 2 ^ 63) : wrapInt x = x := by
  rw [wrapInt, Int.bmod_def]
  split_ifs <;> omega

/-- A result up to `2^63` past the largest `int` wraps to a negative one. -/
theorem wrapInt_of_ge {x : Int} (hlo : 2 ^ 63 ≤ x) (hhi : x < 2 ^ 64 + 2 ^ 63) :
    wrapInt x = x - 2 ^ 64 := by
  rw [wrapInt, Int.bmod_def]
  split_ifs <;> omega

theorem shr8_toNat (x : UInt8) (s : Nat) : (shr8 x s).toNat = x.toNat >>> s := by
  have hx := x.toNat_lt_size
  have : x.toNat >>> s < 256 :=
    lt_of_le_of_lt (by rw [Nat.shiftRight_eq_div_pow]; exact Nat.div_le_self _ _) hx
  simp only [shr8, UInt8.toNat, UInt8.ofNat, BitVec.toNat_ofNat]
  exact Nat.mod_eq_of_lt this

/-! ### Bits of a byte -/

theorem byte_lt (x : UInt8) : x.toNat < 2 ^ 8 := x.toNat_lt_size

theorem byte_ofNat_toNat (x : UInt8) : UInt8.ofNat x.toNat = x :=
  UInt8.toNat.inj (UInt8.toNat_ofNat_of_lt x.toNat_lt_size)

/-- The `% 256` before a conversion to `uint8` is the one the conversion makes anyway. -/
theorem byte_ofNat_mod (x : Nat) : UInt8.ofNat (x % 256) = UInt8.ofNat x :=
  UInt8.toNat.inj (by simp only [UInt8.toNat, UInt8.ofNat, BitVec.toNat_ofNat]; omega)

theorem byte_or_toNat (a b : UInt8) : (a ||| b).toNat = a.toNat ||| b.toNat :=
  BitVec.toNat_or ..

theorem byte_complement_toNat (a : UInt8) : (~~~a).toNat = 2 ^ 8 - (a.toNat + 1) := by
  show (~~~a.toBitVec).toNat = _
  rw [BitVec.toNat_not]
  show 2 ^ 8 - 1 - a.toNat = _
  omega

/-- A byte has no bit at position 8 or above. -/
theorem testBit_byte_of_le (x : UInt8) {j : Nat} (hj : 8 ≤ j) : x.toNat.testBit j = false :=
  Nat.testBit_lt_two_pow (lt_of_lt_of_le (byte_lt x) (Nat.pow_le_pow_right (by omega) hj))

theorem byte_sub_toNat (a b : UInt8) : (a - b).toNat = (2 ^ 8 - b.toNat + a.toNat) % 2 ^ 8 :=
  BitVec.toNat_sub ..

/-- An unsigned byte difference is zero exactly when the bytes are equal. -/
theorem byte_sub_toNat_eq_zero_iff (a b : UInt8) : (a - b).toNat = 0 ↔ a = b := by
  have := byte_lt a; have := byte_lt b
  rw [byte_sub_toNat]
  exact ⟨fun h => UInt8.toNat.inj (by omega), by rintro rfl; omega⟩

theorem byte_eq_iff_testBit (a b : UInt8) : a = b ↔ ∀ j, a.toNat.testBit j = b.toNat.testBit j :=
  ⟨by rintro rfl _; rfl, fun h => UInt8.toNat.inj (Nat.eq_of_testBit_eq h)⟩

@[simp] theorem testBit_byte_and (a b : UInt8) (j : Nat) :
    (a &&& b).toNat.testBit j = (a.toNat.testBit j && b.toNat.testBit j) := by
  rw [UInt8.and_toNat, Nat.testBit_and]

@[simp] theorem testBit_byte_or (a b : UInt8) (j : Nat) :
    (a ||| b).toNat.testBit j = (a.toNat.testBit j || b.toNat.testBit j) := by
  rw [byte_or_toNat, Nat.testBit_or]

@[simp] theorem testBit_byte_complement (a : UInt8) (j : Nat) :
    (~~~a).toNat.testBit j = (decide (j < 8) && !a.toNat.testBit j) := by
  rw [byte_complement_toNat, Nat.testBit_two_pow_sub_succ (byte_lt a)]

/-! ### Addresses -/

/-- Go's `IPv4Address`, a `[4]uint8` whose first octet is the most significant. -/
structure IPv4Address where
  octet0 : UInt8
  octet1 : UInt8
  octet2 : UInt8
  octet3 : UInt8
deriving DecidableEq, Repr

namespace IPv4Address

/-- The zero value of the array, as `&IPv4Subnet{}` starts with. -/
def zero : IPv4Address := ⟨0, 0, 0, 0⟩

/-- `addr[i]` for an index known to be in range. -/
def get (a : IPv4Address) : Fin 4 → UInt8
  | 0 => a.octet0
  | 1 => a.octet1
  | 2 => a.octet2
  | 3 => a.octet3

/-- `addr[i] = v` for an index known to be in range. -/
def set (a : IPv4Address) : Fin 4 → UInt8 → IPv4Address
  | 0, v => { a with octet0 := v }
  | 1, v => { a with octet1 := v }
  | 2, v => { a with octet2 := v }
  | 3, v => { a with octet3 := v }

@[simp] theorem get_set_self (a : IPv4Address) : ∀ (i : Fin 4) (v : UInt8), (a.set i v).get i = v
  | 0, _ | 1, _ | 2, _ | 3, _ => rfl

theorem get_set_of_ne (a : IPv4Address) (v : UInt8) :
    ∀ {i j : Fin 4}, i ≠ j → (a.set i v).get j = a.get j
  | 0, 1, _ | 0, 2, _ | 0, 3, _ | 1, 0, _ | 1, 2, _ | 1, 3, _
  | 2, 0, _ | 2, 1, _ | 2, 3, _ | 3, 0, _ | 3, 1, _ | 3, 2, _ => rfl
  | 0, 0, h | 1, 1, h | 2, 2, h | 3, 3, h => absurd rfl h

@[simp] theorem get_zero : ∀ i : Fin 4, zero.get i = 0
  | 0 | 1 | 2 | 3 => rfl

/-- Go's `addr[i]` for an `int` index: an index outside `0..3` panics. -/
def get? (a : IPv4Address) (i : Int) : Option UInt8 :=
  if h : 0 ≤ i ∧ i < 4 then some (a.get ⟨i.toNat, by omega⟩) else none

/-- Go's compound assignment `addr[i] op= v` (`&=`, `|=`) for an `int` index. -/
def modify? (a : IPv4Address) (i : Int) (f : UInt8 → UInt8) : Option IPv4Address :=
  if h : 0 ≤ i ∧ i < 4 then
    let k : Fin 4 := ⟨i.toNat, by omega⟩
    some (a.set k (f (a.get k)))
  else none

theorem modify?_of_lt (a : IPv4Address) (f : UInt8 → UInt8) (n : Nat) (h : n < 4) :
    a.modify? n f = some (a.set ⟨n, h⟩ (f (a.get ⟨n, h⟩))) := by
  simp [modify?, h, show (0 : Int) ≤ n by omega, show (n : Int) < 4 by omega]

theorem get?_of_lt (a : IPv4Address) (n : Nat) (h : n < 4) : a.get? n = some (a.get ⟨n, h⟩) := by
  simp [get?, h, show (0 : Int) ≤ n by omega, show (n : Int) < 4 by omega]

theorem get?_eq_none_iff (a : IPv4Address) (i : Int) : a.get? i = none ↔ i < 0 ∨ 4 ≤ i := by
  unfold get?
  split <;> simp <;> omega

theorem modify?_eq_none_iff (a : IPv4Address) (i : Int) (f : UInt8 → UInt8) :
    a.modify? i f = none ↔ i < 0 ∨ 4 ≤ i := by
  unfold modify?
  split <;> simp <;> omega

/-- The address as a 32-bit number. -/
def toNat (a : IPv4Address) : Nat :=
  a.octet0.toNat * 2 ^ 24 + a.octet1.toNat * 2 ^ 16 + a.octet2.toNat * 2 ^ 8 + a.octet3.toNat

/-- The address whose 32-bit number is `n` (taken modulo `2^32`). -/
def ofNat (n : Nat) : IPv4Address :=
  ⟨UInt8.ofNat (n / 2 ^ 24), UInt8.ofNat (n / 2 ^ 16), UInt8.ofNat (n / 2 ^ 8), UInt8.ofNat n⟩

theorem toNat_lt (a : IPv4Address) : a.toNat < 2 ^ 32 := by
  have := byte_lt a.octet0; have := byte_lt a.octet1
  have := byte_lt a.octet2; have := byte_lt a.octet3
  unfold toNat; omega

private theorem uint8_toNat_ofNat (n : Nat) : (UInt8.ofNat n).toNat = n % 2 ^ 8 := by
  simp only [UInt8.toNat, UInt8.ofNat, BitVec.toNat_ofNat]

theorem toNat_ofNat_mod (n : Nat) : (ofNat n).toNat = n % 2 ^ 32 := by
  simp only [toNat, ofNat, uint8_toNat_ofNat]
  omega

theorem toNat_ofNat {n : Nat} (h : n < 2 ^ 32) : (ofNat n).toNat = n :=
  (toNat_ofNat_mod n).trans (Nat.mod_eq_of_lt h)

theorem toNat_injective {a b : IPv4Address} (h : a.toNat = b.toNat) : a = b := by
  obtain ⟨a0, a1, a2, a3⟩ := a
  obtain ⟨b0, b1, b2, b3⟩ := b
  have := byte_lt a0; have := byte_lt a1; have := byte_lt a2; have := byte_lt a3
  have := byte_lt b0; have := byte_lt b1; have := byte_lt b2; have := byte_lt b3
  simp only [toNat] at h
  simp only [mk.injEq]
  refine ⟨?_, ?_, ?_, ?_⟩ <;> apply UInt8.toNat.inj <;> omega

theorem ofNat_toNat (a : IPv4Address) : ofNat a.toNat = a :=
  toNat_injective (toNat_ofNat a.toNat_lt)

/-- The octet `n / 8` of a mask `n < 32` is one of the four. -/
theorem div_eight_lt_four {n : Nat} (hn : n < 32) : n / 8 < 4 := by omega

/-- The octet that holds bit `i` of the 32-bit number (bit 0 the least significant). -/
def octetOf (i : Nat) : Fin 4 := ⟨3 - min (i / 8) 3, by omega⟩

/-- Bit `i` of the 32-bit number is bit `i % 8` of octet `3 - i / 8`; there is no bit `32`. -/
theorem testBit_toNat (a : IPv4Address) (i : Nat) :
    a.toNat.testBit i = (decide (i < 32) && (a.get (octetOf i)).toNat.testBit (i % 8)) := by
  have h3 := byte_lt a.octet3
  have h2 : 2 ^ 8 * a.octet2.toNat + a.octet3.toNat < 2 ^ 16 := by
    have := byte_lt a.octet2; omega
  have h1 : 2 ^ 16 * a.octet1.toNat + (2 ^ 8 * a.octet2.toNat + a.octet3.toNat) < 2 ^ 24 := by
    have := byte_lt a.octet1; omega
  have e : a.toNat = 2 ^ 24 * a.octet0.toNat +
      (2 ^ 16 * a.octet1.toNat + (2 ^ 8 * a.octet2.toNat + a.octet3.toNat)) := by
    unfold toNat; omega
  rw [e, Nat.testBit_mul_pow_two_add _ h1, Nat.testBit_mul_pow_two_add _ h2,
    Nat.testBit_mul_pow_two_add _ h3]
  rcases (show i < 8 ∨ (8 ≤ i ∧ i < 16) ∨ (16 ≤ i ∧ i < 24) ∨ (24 ≤ i ∧ i < 32) ∨ 32 ≤ i by omega)
    with h | h | h | h | h
  · have : octetOf i = 3 := by ext; simp [octetOf]; omega
    simp [this, get, h, show i < 16 by omega, show i < 24 by omega, show i < 32 by omega,
      Nat.mod_eq_of_lt h]
  · have : octetOf i = 2 := by ext; simp [octetOf]; omega
    simp [this, get, h, show ¬ i < 8 by omega, show i < 24 by omega, show i < 32 by omega,
      show i - 8 = i % 8 by omega]
  · have : octetOf i = 1 := by ext; simp [octetOf]; omega
    simp [this, get, h, show ¬ i < 16 by omega, show i < 32 by omega,
      show i - 16 = i % 8 by omega]
  · have : octetOf i = 0 := by ext; simp [octetOf]; omega
    simp [this, get, h, show ¬ i < 24 by omega, show i - 24 = i % 8 by omega]
  · simp [show ¬ i < 24 by omega, show ¬ i < 32 by omega,
      testBit_byte_of_le _ (show 8 ≤ i - 24 by omega)]

/-- A 32-bit number has no bit `32` or above. -/
theorem testBit_toNat_of_le (a : IPv4Address) {i : Nat} (h : 32 ≤ i) : a.toNat.testBit i = false :=
  Nat.testBit_lt_two_pow (lt_of_lt_of_le a.toNat_lt (Nat.pow_le_pow_right (by omega) h))

/-- The address with the given octets. -/
def ofOctets (f : Fin 4 → UInt8) : IPv4Address := ⟨f 0, f 1, f 2, f 3⟩

@[simp] theorem get_ofOctets (f : Fin 4 → UInt8) : ∀ i, (ofOctets f).get i = f i
  | 0 | 1 | 2 | 3 => rfl

theorem octetOf_val (i : Nat) : (octetOf i).val = 3 - i / 8 := by
  simp only [octetOf]; omega

/-- Writing octet `q` changes exactly the bits `8 * (3 - q) .. 8 * (3 - q) + 7`. -/
theorem testBit_toNat_set (a : IPv4Address) (q : Fin 4) (v : UInt8) (i : Nat) :
    (a.set q v).toNat.testBit i =
      if octetOf i = q then decide (i < 32) && v.toNat.testBit (i % 8) else a.toNat.testBit i := by
  rw [testBit_toNat, testBit_toNat]
  by_cases h : octetOf i = q
  · simp [h]
  · simp [h, get_set_of_ne a v (Ne.symm h)]

/-- Clearing the bits of `v` in octet `q`. -/
theorem testBit_toNat_clear (a : IPv4Address) (q : Fin 4) (v : UInt8) (i : Nat) :
    (a.set q (a.get q &&& ~~~v)).toNat.testBit i =
      (a.toNat.testBit i && !(decide (octetOf i = q) && v.toNat.testBit (i % 8))) := by
  rw [testBit_toNat_set, testBit_toNat a i]
  by_cases h : octetOf i = q
  · subst h
    simp only [if_true, decide_True, Bool.true_and, testBit_byte_and, testBit_byte_complement,
      show i % 8 < 8 from Nat.mod_lt i (by omega)]
    cases decide (i < 32) <;> simp
  · simp [h]

/-- Keeping only the bits of `v` in octet `q`. -/
theorem testBit_toNat_and (a : IPv4Address) (q : Fin 4) (v : UInt8) (i : Nat) :
    (a.set q (a.get q &&& v)).toNat.testBit i =
      (a.toNat.testBit i && (!decide (octetOf i = q) || v.toNat.testBit (i % 8))) := by
  rw [testBit_toNat_set, testBit_toNat a i]
  by_cases h : octetOf i = q
  · subst h
    simp only [if_true, decide_True, Bool.not_true, Bool.false_or, testBit_byte_and, Bool.and_assoc]
  · simp [h]

/-- Bit `j` of octet `q` is bit `8 * (3 - q) + j` of the 32-bit number. -/
theorem testBit_get (a : IPv4Address) (q : Fin 4) (j : Nat) :
    (a.get q).toNat.testBit j = (decide (j < 8) && a.toNat.testBit (8 * (3 - q.val) + j)) := by
  have := q.isLt
  by_cases hj : j < 8
  · have hq : octetOf (8 * (3 - q.val) + j) = q := by ext; simp only [octetOf]; omega
    rw [testBit_toNat, hq, show (8 * (3 - q.val) + j) % 8 = j by omega]
    simp [hj, show 8 * (3 - q.val) + j < 32 by omega]
  · simp [hj, testBit_byte_of_le _ (show 8 ≤ j by omega)]

/-- Setting the bits of `v` in octet `q`. -/
theorem testBit_toNat_or (a : IPv4Address) (q : Fin 4) (v : UInt8) (i : Nat) :
    (a.set q (a.get q ||| v)).toNat.testBit i =
      (a.toNat.testBit i || (decide (octetOf i = q ∧ i < 32) && v.toNat.testBit (i % 8))) := by
  rw [testBit_toNat_set, testBit_toNat a i]
  by_cases h : octetOf i = q
  · subst h
    simp only [if_true, true_and, testBit_byte_or]
    cases decide (i < 32) <;> simp
  · simp [h]

end IPv4Address

/-- Keeping the top `k` bits of a 32-bit number: bit `i` survives exactly when `k ≤ i`. -/
theorem testBit_two_pow_mul_div (x k i : Nat) :
    (2 ^ k * (x / 2 ^ k)).testBit i = (decide (k ≤ i) && x.testBit i) := by
  rw [← Nat.shiftRight_eq_div_pow, Nat.testBit_mul_pow_two, Nat.testBit_shiftRight]
  by_cases h : k ≤ i
  · simp [h, Nat.add_sub_cancel' h]
  · simp [h]

/-- Keeping the top bits from `k` on and setting bit `k - 1`. -/
theorem testBit_two_pow_mul_div_add (x : Nat) {k : Nat} (hk : 0 < k) (i : Nat) :
    (2 ^ k * (x / 2 ^ k) + 2 ^ (k - 1)).testBit i =
      (decide (k ≤ i) && x.testBit i || decide (i = k - 1)) := by
  have hlt : 2 ^ (k - 1) < 2 ^ k := Nat.pow_lt_pow_right (by omega) (by omega)
  rw [Nat.testBit_mul_pow_two_add _ hlt, ← Nat.shiftRight_eq_div_pow, Nat.testBit_two_pow]
  by_cases h : i < k
  · simp [h, show ¬ k ≤ i by omega, eq_comm]
  · simp [h, show k ≤ i by omega, show i ≠ k - 1 by omega,
      Nat.add_sub_cancel' (show k ≤ i by omega)]

theorem two_pow_mul_div_lt {x k : Nat} (hx : x < 2 ^ 32) : 2 ^ k * (x / 2 ^ k) < 2 ^ 32 :=
  lt_of_le_of_lt (Nat.mul_div_le _ _) hx

theorem two_pow_mul_div_add_lt {x k : Nat} (hx : x < 2 ^ 32) (hk : 0 < k) (hk32 : k ≤ 32) :
    2 ^ k * (x / 2 ^ k) + 2 ^ (k - 1) < 2 ^ 32 := by
  have h32 : 2 ^ k * 2 ^ (32 - k) = 2 ^ 32 := by rw [← Nat.pow_add, Nat.add_sub_cancel' hk32]
  have h1 : x / 2 ^ k + 1 ≤ 2 ^ (32 - k) := Nat.div_lt_of_lt_mul (by rwa [h32])
  have h2 : 2 ^ (k - 1) < 2 ^ k := Nat.pow_lt_pow_right (by omega) (by omega)
  calc 2 ^ k * (x / 2 ^ k) + 2 ^ (k - 1) < 2 ^ k * (x / 2 ^ k + 1) := by rw [Nat.mul_succ]; omega
    _ ≤ 2 ^ k * 2 ^ (32 - k) := Nat.mul_le_mul_left _ h1
    _ = 2 ^ 32 := h32

/-! ### Subnets and their blocks -/

/-- Go's `IPv4Subnet`. The mask is an `int`: nothing in the type keeps it in `0..32`. -/
structure IPv4Subnet where
  address : IPv4Address
  cidrMask : Int
deriving DecidableEq, Repr

namespace IPv4Subnet

/-- The number of host bits of a subnet whose mask lies in `0..32`. -/
def hostBits (s : IPv4Subnet) : Nat := 32 - s.cidrMask.toNat

/-- The top `cidrMask` bits of the address: the block's index among the blocks of its size. -/
def networkPrefix (s : IPv4Subnet) : Nat := s.address.toNat / 2 ^ s.hostBits

/-- Address `v` lies in the block of `s`. -/
def Contains (s : IPv4Subnet) (v : Nat) : Prop :=
  v < 2 ^ 32 ∧ v / 2 ^ s.hostBits = s.networkPrefix

instance (s : IPv4Subnet) (v : Nat) : Decidable (s.Contains v) :=
  inferInstanceAs (Decidable (_ ∧ _))

/-- The blocks of `s` and `t` share no address. -/
def Disjoint (s t : IPv4Subnet) : Prop := ∀ v, s.Contains v → ¬ t.Contains v

/-- The block of `s` lies inside the block of `t`. -/
def SubsetOf (s t : IPv4Subnet) : Prop := ∀ v, s.Contains v → t.Contains v

/-- A mask Go's code accepts for a subnet. -/
def ValidMask (s : IPv4Subnet) : Prop := 0 ≤ s.cidrMask ∧ s.cidrMask ≤ 32

instance (s : IPv4Subnet) : Decidable s.ValidMask := inferInstanceAs (Decidable (_ ∧ _))

theorem hostBits_le (s : IPv4Subnet) : s.hostBits ≤ 32 := Nat.sub_le _ _

theorem two_pow_mul_networkPrefix_lt (s : IPv4Subnet) :
    2 ^ s.hostBits * s.networkPrefix < 2 ^ 32 :=
  two_pow_mul_div_lt s.address.toNat_lt

theorem two_pow_mul_networkPrefix_add_lt (s : IPv4Subnet) (hk : 0 < s.hostBits) :
    2 ^ s.hostBits * s.networkPrefix + 2 ^ (s.hostBits - 1) < 2 ^ 32 :=
  two_pow_mul_div_add_lt s.address.toNat_lt hk s.hostBits_le

theorem contains_address (s : IPv4Subnet) : s.Contains s.address.toNat :=
  ⟨s.address.toNat_lt, rfl⟩

theorem Disjoint.symm {s t : IPv4Subnet} (h : s.Disjoint t) : t.Disjoint s :=
  fun v ht hs => h v hs ht

theorem Disjoint.mono_left {s s' t : IPv4Subnet} (h : s.Disjoint t) (hs : s'.SubsetOf s) :
    s'.Disjoint t :=
  fun v h' => h v (hs v h')

theorem SubsetOf.refl (s : IPv4Subnet) : s.SubsetOf s := fun _ h => h

theorem SubsetOf.trans {s t u : IPv4Subnet} (hst : s.SubsetOf t) (htu : t.SubsetOf u) :
    s.SubsetOf u :=
  fun v h => htu v (hst v h)

/-- A subnet's block is never empty, so no subnet is disjoint from itself. -/
theorem not_disjoint_self (s : IPv4Subnet) : ¬ s.Disjoint s :=
  fun h => h _ s.contains_address s.contains_address

end IPv4Subnet

end NuageKubemon
