/-
Module: NuageKubemon.Subnet.Format
Purpose: The text form of a subnet. `IPv4Address.String` prints the four octets with `%v` joined by
  dots, and `IPv4Subnet.String` appends a slash and the mask. `IPv4SubnetFromString` reads the text
  back with `fmt.Sscanf(input, "%d.%d.%d.%d/%d", ...)`, modelled over the input's runes as `fmt`
  runs that format: before each verb white space is skipped (a newline is an error); a `%d` into a
  `uint8` takes decimal digits and rejects a value above 255; a `%d` into the `int` mask takes an
  optional sign and digits within 64 bits; each `.` and `/` must be the next rune; the input after
  the mask is not read. Printing a subnet and reading the text back gives the subnet again, for
  every address and every mask an `int` holds. The texts of the pool's errors, which print
  subnets, are here too.
Trusted boundary: none
Main exports: decimalDigits, IPv4Address.string, IPv4Subnet.string, SubnetError.message,
  ScanError, skipSpace, scanUint, scanInt, ipv4SubnetFromString, fromString_string
-/
import NuageKubemon.Subnet.Arith

namespace NuageKubemon

/-! ### Printing -/

/-- The decimal digits of `n`, most significant first, in at most `fuel` steps. -/
def decimalDigitsCore : (fuel n : Nat) → List Char
  | 0, _ => []
  | fuel + 1, n =>
    if n < 10 then [Nat.digitChar n] else decimalDigitsCore fuel (n / 10) ++ [Nat.digitChar (n % 10)]

/-- What `%v` prints for an unsigned integer: its decimal digits, most significant first. -/
def decimalDigits (n : Nat) : List Char := decimalDigitsCore (n + 1) n

/-- What `%v` prints for an `int`: a minus sign before the digits of a negative value. -/
def formatInt (i : Int) : List Char :=
  if i < 0 then '-' :: decimalDigits i.natAbs else decimalDigits i.toNat

/-- `IPv4Address.String`: `fmt.Sprintf("%v.%v.%v.%v", addr[0], addr[1], addr[2], addr[3])`. -/
def IPv4Address.string (a : IPv4Address) : String :=
  ⟨decimalDigits a.octet0.toNat ++ '.' :: decimalDigits a.octet1.toNat ++ '.' ::
    decimalDigits a.octet2.toNat ++ '.' :: decimalDigits a.octet3.toNat⟩

/-- `IPv4Subnet.String`: `fmt.Sprintf("%v/%v", subnet.Address, subnet.CIDRMask)`. -/
def IPv4Subnet.string (s : IPv4Subnet) : String :=
  ⟨s.address.string.toList ++ '/' :: formatInt s.cidrMask⟩

example : IPv4Subnet.string ⟨⟨10, 128, 0, 0⟩, 14⟩ = "10.128.0.0/14" := by decide

/-- The texts `client/ipv4subnet.go` gives its errors; `%s` of a subnet is its `String`. -/
def SubnetError.message : SubnetError → String
  | .cannotSplit => "Cannot split /32 address space"
  | .cannotMerge a b => "Can\x27t merge subnets " ++ a.string ++ " and " ++ b.string ++ "!"
  | .invalidSize => "Invalid subnet size.  Expected between /0 and /32"
  | .badSubnet s => "Cannot free bad subnet " ++ s.string
  | .doubleFree s => "Double free of " ++ s.string

example : (SubnetError.doubleFree ⟨⟨10, 128, 1, 0⟩, 24⟩).message = "Double free of 10.128.1.0/24" := by
  decide

theorem digitChar_spec : ∀ d < 10, (Nat.digitChar d).isDigit = true ∧
    (Nat.digitChar d).toNat = '0'.toNat + d := by
  decide

/-- The digits are decimal digits, there is at least one, and they spell `n`. -/
theorem decimalDigitsCore_spec : ∀ {fuel n : Nat}, n < fuel →
    decimalDigitsCore fuel n ≠ [] ∧ (∀ c ∈ decimalDigitsCore fuel n, c.isDigit = true) ∧
      (decimalDigitsCore fuel n).foldl (fun v c => 10 * v + (c.toNat - '0'.toNat)) 0 = n
  | 0, _, h => absurd h (Nat.not_lt_zero _)
  | fuel + 1, n, h => by
    by_cases h10 : n < 10
    · have := digitChar_spec n h10
      simp only [decimalDigitsCore, h10, if_true, ne_eq, List.cons_ne_nil, not_false_eq_true,
        List.mem_singleton, forall_eq, this.1, List.foldl_cons, List.foldl_nil, this.2, true_and]
      omega
    · obtain ⟨-, hdig, hval⟩ := decimalDigitsCore_spec (show n / 10 < fuel by omega)
      have hd := digitChar_spec (n % 10) (Nat.mod_lt _ (by omega))
      simp only [decimalDigitsCore, h10, if_false, ne_eq, List.append_eq_nil, List.cons_ne_nil,
        and_false, not_false_eq_true, List.mem_append, List.mem_singleton, List.foldl_append,
        List.foldl_cons, List.foldl_nil, hval, hd.2, true_and]
      exact ⟨fun c hc => hc.elim (hdig c) fun h => h ▸ hd.1, by omega⟩

/-! ### Scanning -/

/-- The errors `fmt.Sscanf` returns for this format. -/
inductive ScanError where
  /-- `io.EOF`: the input ended where a number should start. -/
  | eof
  /-- `io.ErrUnexpectedEOF`: the input ended where a `.` or `/` should be. -/
  | unexpectedEOF
  | unexpectedNewline
  | inputMismatch
  | expectedInteger
  /-- A `strconv` error: the token does not fit in 64 bits. -/
  | rangeError (func tok : String)
  /-- The token fits in 64 bits but not in the `uint8` it is scanned into. -/
  | uintOverflow (tok : String)
deriving DecidableEq, Repr

/-- The texts of the scanner's errors. -/
def ScanError.message : ScanError → String
  | .eof => "EOF"
  | .unexpectedEOF => "unexpected EOF"
  | .unexpectedNewline => "unexpected newline"
  | .inputMismatch => "input does not match format"
  | .expectedInteger => "expected integer"
  | .rangeError func tok => "strconv." ++ func ++ ": parsing \"" ++ tok ++ "\": value out of range"
  | .uintOverflow tok => "unsigned integer overflow on token " ++ tok

/-- Go's `isSpace`: the runes `fmt`'s scanner treats as white space. -/
def isSpace (c : Char) : Bool :=
  let r := c.toNat
  (0x0009 ≤ r && r ≤ 0x000d) || r == 0x0020 || r == 0x0085 || r == 0x00a0 || r == 0x1680 ||
    (0x2000 ≤ r && r ≤ 0x200a) || r == 0x2028 || r == 0x2029 || r == 0x202f || r == 0x205f ||
    r == 0x3000

/-- `(*ss).SkipSpace` as `Sscanf` runs it, where a newline is not space: `\n` and `\r\n` are
errors, and other white space is dropped. -/
def skipSpace : List Char → Except ScanError (List Char)
  | [] => .ok []
  | c :: rest =>
    if c = '\r' ∧ rest.head? = some '\n' then .error .unexpectedNewline
    else if c = '\n' then .error .unexpectedNewline
    else if isSpace c then skipSpace rest
    else .ok (c :: rest)

/-- What `strconv` reads from a run of decimal digits. -/
def digitsValue (ds : List Char) : Nat := ds.foldl (fun v c => 10 * v + (c.toNat - '0'.toNat)) 0

/-- `(*ss).scanNumber` for `%d`: the input must not be at its end and must start with a digit;
then every digit that follows is taken. -/
def scanNumber : List Char → Except ScanError (List Char × List Char)
  | [] => .error .eof
  | c :: rest =>
    if c.isDigit then .ok ((c :: rest).takeWhile Char.isDigit, (c :: rest).dropWhile Char.isDigit)
    else .error .expectedInteger

/-- `(*ss).scanUint` for `%d` into an unsigned integer of `bitSize` bits. -/
def scanUint (bitSize : Nat) (input : List Char) : Except ScanError (Nat × List Char) := do
  let input ← skipSpace input
  if input = [] then throw .eof
  let (tok, rest) ← scanNumber input
  let i := digitsValue tok
  if 2 ^ 64 ≤ i then throw (.rangeError "ParseUint" ⟨tok⟩)
  if 2 ^ bitSize ≤ i then throw (.uintOverflow ⟨tok⟩)
  pure (i, rest)

/-- `s.accept(sign)`: a leading `+` or `-` is taken into the token. -/
def acceptSign : List Char → List Char × List Char
  | [] => ([], [])
  | c :: rest => if c = '+' ∨ c = '-' then ([c], rest) else ([], c :: rest)

/-- `(*ss).scanInt` for `%d` into a 64-bit `int`: an optional sign, then digits. -/
def scanInt (input : List Char) : Except ScanError (Int × List Char) := do
  let input ← skipSpace input
  if input = [] then throw .eof
  let (sign, input) := acceptSign input
  let (tok, rest) ← scanNumber input
  let i : Int := if sign = ['-'] then -(digitsValue tok : Int) else digitsValue tok
  if i < -2 ^ 63 ∨ 2 ^ 63 ≤ i then throw (.rangeError "ParseInt" ⟨sign ++ tok⟩)
  pure (i, rest)

/-- `(*ss).advance` over a literal rune of the format: it must be the next rune of the input. -/
def scanLiteral (c : Char) : List Char → Except ScanError (List Char)
  | [] => .error .unexpectedEOF
  | d :: rest => if d = c then .ok rest else .error .inputMismatch

/-- One `%d` into a `uint8`: `doScanf` skips space, then `scanOne` stores `uint8(s.scanUint(verb, 8))`. -/
def scanOctet (input : List Char) : Except ScanError (UInt8 × List Char) := do
  let (v, rest) ← scanUint 8 (← skipSpace input)
  pure (UInt8.ofNat v, rest)

/-- `(*ss).doScanf` over the format `"%d.%d.%d.%d/%d"`: the subnet and the number of verbs
scanned. -/
def doScanfSubnet (input : List Char) : Except ScanError (IPv4Subnet × Nat) := do
  let (o0, s) ← scanOctet input
  let s ← scanLiteral '.' s
  let (o1, s) ← scanOctet s
  let s ← scanLiteral '.' s
  let (o2, s) ← scanOctet s
  let s ← scanLiteral '.' s
  let (o3, s) ← scanOctet s
  let s ← scanLiteral '/' s
  let (mask, _) ← scanInt (← skipSpace s)
  pure (⟨⟨o0, o1, o2, o3⟩, mask⟩, 5)

/-- `hugeWid`, the scan state's `limit`: one `Sscanf` reads at most `2^30` runes. -/
def hugeWid : Nat := 2 ^ 30

/-- `fmt.Sscanf(input, "%d.%d.%d.%d/%d", ...)`. The scan state counts the runes read, `UnreadRune`
takes one back, and `ReadRune` reports the end of the input once the count reaches `hugeWid`; no
rune is read again after an end is reported. So the scan reads the input's first `hugeWid` runes
as if they were all of it. -/
def sscanfSubnet (input : List Char) : Except ScanError (IPv4Subnet × Nat) :=
  doScanfSubnet (input.take hugeWid)

/-- An input of at most `hugeWid` runes is read whole. -/
theorem sscanfSubnet_of_length_le {input : List Char} (h : input.length ≤ hugeWid) :
    sscanfSubnet input = doScanfSubnet input := by
  rw [sscanfSubnet, List.take_of_length_le h]

/-- The errors `IPv4SubnetFromString` returns: the scanner's, or a count of verbs other than 5. -/
inductive FromStringError where
  | scan (e : ScanError)
  | invalidSyntax (input : String)
deriving DecidableEq, Repr

/-- `IPv4SubnetFromString`. -/
def ipv4SubnetFromString (input : String) : Except FromStringError IPv4Subnet :=
  match sscanfSubnet input.toList with
  | .error e => .error (.scan e)
  | .ok (subnet, n) => if n ≠ 5 then .error (.invalidSyntax input) else .ok subnet

/-! ### Reading back what was printed -/

theorem decimalDigits_spec (n : Nat) :
    decimalDigits n ≠ [] ∧ (∀ c ∈ decimalDigits n, c.isDigit = true) ∧
      digitsValue (decimalDigits n) = n :=
  decimalDigitsCore_spec (Nat.lt_succ_self n)

/-- A number below `10 ^ (k + 1)` prints in at most `k + 1` digits. -/
theorem length_decimalDigitsCore : ∀ {fuel n k : Nat}, n < 10 ^ (k + 1) →
    (decimalDigitsCore fuel n).length ≤ k + 1
  | 0, _, _, _ => Nat.zero_le _
  | fuel + 1, n, k, h => by
    unfold decimalDigitsCore
    split_ifs with h10
    · simp
    · cases k with
      | zero => omega
      | succ k =>
        have hdiv : n / 10 < 10 ^ (k + 1) := (Nat.div_lt_iff_lt_mul (by omega)).2 (pow_succ 10 _ ▸ h)
        have := @length_decimalDigitsCore fuel _ _ hdiv
        simp only [List.length_append, List.length_singleton]
        omega

/-- The text of a subnet whose mask an `int` holds has at most 36 runes. -/
theorem length_string_le (s : IPv4Subnet) (hlo : -2 ^ 63 ≤ s.cidrMask) (hhi : s.cidrMask < 2 ^ 63) :
    s.string.toList.length ≤ 36 := by
  have hoct : ∀ x : UInt8, (decimalDigits x.toNat).length ≤ 3 := fun x =>
    length_decimalDigitsCore (lt_of_lt_of_le (byte_lt x) (by decide))
  have hmask : (formatInt s.cidrMask).length ≤ 20 := by
    unfold formatInt
    split_ifs
    · have := @length_decimalDigitsCore (s.cidrMask.natAbs + 1) s.cidrMask.natAbs 18 (by omega)
      simp only [List.length_cons]
      exact Nat.succ_le_succ this
    · exact le_trans (@length_decimalDigitsCore _ _ 18 (by omega)) (by decide)
  simp only [IPv4Subnet.string, IPv4Address.string, String.toList, List.length_append,
    List.length_cons]
  have := hoct s.address.octet0
  have := hoct s.address.octet1
  have := hoct s.address.octet2
  have := hoct s.address.octet3
  omega

theorem isDigit_iff {c : Char} : c.isDigit = true ↔ 48 ≤ c.toNat ∧ c.toNat ≤ 57 := by
  simp only [Char.isDigit, Bool.and_eq_true, decide_eq_true_eq]
  exact Iff.rfl

theorem isSpace_of_isDigit {c : Char} (hc : c.isDigit = true) : isSpace c = false := by
  have := isDigit_iff.1 hc
  simp only [isSpace]
  simp
  omega

/-- Input whose first rune is not white space has no space to skip. -/
theorem skipSpace_of_head {l : List Char} (hl : ∀ c ∈ l.head?, isSpace c = false) :
    skipSpace l = .ok l := by
  cases l with
  | nil => rfl
  | cons c rest =>
    have hc := hl c rfl
    have hr : c ≠ '\r' := by rintro rfl; exact absurd hc (by decide)
    have hn : c ≠ '\n' := by rintro rfl; exact absurd hc (by decide)
    simp [skipSpace, hr, hn, hc]

/-- Input that starts with a digit or a minus sign has no space to skip. -/
theorem skipSpace_of_not_space {c : Char} (hc : c.isDigit = true ∨ c = '-') (rest : List Char) :
    skipSpace (c :: rest) = .ok (c :: rest) :=
  skipSpace_of_head fun _ h => by
    cases h
    rcases hc with hc | rfl
    · exact isSpace_of_isDigit hc
    · rfl

/-- `%d` takes a run of digits whole and stops at a rune that is not a digit. -/
theorem scanNumber_digits {ds rest : List Char} (hne : ds ≠ []) (hdig : ∀ c ∈ ds, c.isDigit = true)
    (hrest : ∀ c ∈ rest.head?, c.isDigit = false) : scanNumber (ds ++ rest) = .ok (ds, rest) := by
  obtain ⟨c, cs, rfl⟩ := List.exists_cons_of_ne_nil hne
  have htake : rest.takeWhile Char.isDigit = [] ∧ rest.dropWhile Char.isDigit = rest := by
    cases rest with
    | nil => exact ⟨rfl, rfl⟩
    | cons d ds => simp [List.takeWhile, List.dropWhile, hrest d rfl]
  rw [List.cons_append, scanNumber, if_pos (hdig c (List.mem_cons_self _ _)), ← List.cons_append,
    List.takeWhile_append_of_pos hdig, List.dropWhile_append_of_pos hdig, htake.1, htake.2,
    List.append_nil]

/-- A run of digits starts with a digit, so no space is skipped before it. -/
theorem skipSpace_digits {ds : List Char} (hne : ds ≠ []) (hdig : ∀ c ∈ ds, c.isDigit = true)
    (rest : List Char) : skipSpace (ds ++ rest) = .ok (ds ++ rest) := by
  obtain ⟨c, cs, rfl⟩ := List.exists_cons_of_ne_nil hne
  exact skipSpace_of_not_space (.inl (hdig c (List.mem_cons_self _ _))) _

/-- The printed digits start with a digit, so no space is skipped before them. -/
theorem skipSpace_decimalDigits (n : Nat) (rest : List Char) :
    skipSpace (decimalDigits n ++ rest) = .ok (decimalDigits n ++ rest) :=
  skipSpace_digits (decimalDigits_spec n).1 (decimalDigits_spec n).2.1 rest

/-- `%d` into an unsigned integer of `b ≤ 64` bits reads a run of digits whose value fits. -/
theorem scanUint_digits {b : Nat} {ds rest : List Char} (hne : ds ≠ [])
    (hdig : ∀ c ∈ ds, c.isDigit = true) (hrest : ∀ c ∈ rest.head?, c.isDigit = false)
    (hlt : digitsValue ds < 2 ^ b) (hb : b ≤ 64) :
    scanUint b (ds ++ rest) = .ok (digitsValue ds, rest) := by
  have h64 : digitsValue ds < 2 ^ 64 := lt_of_lt_of_le hlt (Nat.pow_le_pow_right (by omega) hb)
  simp only [scanUint, skipSpace_digits hne hdig, scanNumber_digits hne hdig hrest, bind,
    Except.bind, pure, Except.pure, List.append_eq_nil, hne, false_and, if_false,
    Nat.not_le.2 h64, Nat.not_le.2 hlt]

/-- `%d` into a `uint8` reads back the printed octet. -/
theorem scanOctet_decimalDigits (x : UInt8) {rest : List Char}
    (hrest : ∀ c ∈ rest.head?, c.isDigit = false) :
    scanOctet (decimalDigits x.toNat ++ rest) = .ok (x, rest) := by
  obtain ⟨hne, hdig, hval⟩ := decimalDigits_spec x.toNat
  simp only [scanOctet, skipSpace_decimalDigits, bind, Except.bind,
    scanUint_digits hne hdig hrest (hval ▸ byte_lt x) (by omega), hval, byte_ofNat_toNat]
  rfl

theorem acceptSign_of_isDigit {c : Char} (hc : c.isDigit = true) (l : List Char) :
    acceptSign (c :: l) = ([], c :: l) := by
  have : ¬ (c = '+' ∨ c = '-') := by rintro (rfl | rfl) <;> exact absurd hc (by decide)
  simp only [acceptSign, this, if_false]

/-- `%d` into an `int` reads an optional sign and a run of digits whose value fits in 64 bits,
and stops at a rune that is not a digit. -/
theorem scanInt_sign_digits {sign ds rest : List Char}
    (hsign : sign = [] ∨ sign = ['+'] ∨ sign = ['-']) (hne : ds ≠ [])
    (hdig : ∀ c ∈ ds, c.isDigit = true) (hrest : ∀ c ∈ rest.head?, c.isDigit = false)
    {i : Int} (hi : i = if sign = ['-'] then -(digitsValue ds : Int) else digitsValue ds)
    (hlo : -2 ^ 63 ≤ i) (hhi : i < 2 ^ 63) :
    scanInt (sign ++ (ds ++ rest)) = .ok (i, rest) := by
  obtain ⟨d, ds', rfl⟩ := List.exists_cons_of_ne_nil hne
  have hd := hdig d (List.mem_cons_self _ _)
  have hpre : skipSpace (sign ++ (d :: ds' ++ rest)) = .ok (sign ++ (d :: ds' ++ rest)) ∧
      acceptSign (sign ++ (d :: ds' ++ rest)) = (sign, d :: ds' ++ rest) := by
    rcases hsign with rfl | rfl | rfl
    · exact ⟨skipSpace_of_not_space (.inl hd) _, acceptSign_of_isDigit hd _⟩
    · exact ⟨skipSpace_of_head fun _ h => by cases h; decide, rfl⟩
    · exact ⟨skipSpace_of_not_space (.inr rfl) _, rfl⟩
  subst hi
  simp only [scanInt, hpre.1, hpre.2, bind, Except.bind, pure, Except.pure, List.append_eq_nil,
    List.cons_ne_nil, false_and, and_false, if_false, scanNumber_digits hne hdig hrest]
  exact if_neg (not_or.2 ⟨Int.not_lt.2 hlo, Int.not_le.2 hhi⟩)

/-- `%d` into the `int` mask reads back the printed mask, for every value an `int` holds. -/
theorem scanInt_formatInt {i : Int} (hlo : -2 ^ 63 ≤ i) (hhi : i < 2 ^ 63) :
    scanInt (formatInt i) = .ok (i, []) := by
  have hnil : ∀ c ∈ ([] : List Char).head?, c.isDigit = false := fun _ h => by cases h
  unfold formatInt
  split_ifs with hneg
  · obtain ⟨hne, hdig, hval⟩ := decimalDigits_spec i.natAbs
    simpa using scanInt_sign_digits (.inr (.inr rfl)) hne hdig hnil
      (by rw [if_pos rfl, hval]; omega) hlo hhi
  · obtain ⟨hne, hdig, hval⟩ := decimalDigits_spec i.toNat
    simpa using scanInt_sign_digits (.inl rfl) hne hdig hnil
      (by rw [if_neg (by simp), hval]; omega) hlo hhi

/-- The printed mask starts with a digit or a minus sign, so no space is skipped before it. -/
theorem skipSpace_formatInt (i : Int) : skipSpace (formatInt i) = .ok (formatInt i) := by
  unfold formatInt
  split
  · exact skipSpace_of_not_space (.inr rfl) _
  · simpa using skipSpace_decimalDigits i.toNat []

/-- Reading back the text of a subnet gives the subnet, for every address and every mask an
`int` holds. -/
theorem fromString_string (s : IPv4Subnet) (hlo : -2 ^ 63 ≤ s.cidrMask) (hhi : s.cidrMask < 2 ^ 63) :
    ipv4SubnetFromString s.string = .ok s := by
  have hdot : ∀ l : List Char, ∀ c ∈ ('.' :: l).head?, c.isDigit = false := by simp
  have hslash : ∀ l : List Char, ∀ c ∈ ('/' :: l).head?, c.isDigit = false := by simp
  have hlen : s.string.toList.length ≤ hugeWid :=
    le_trans (length_string_le s hlo hhi) (by decide)
  obtain ⟨⟨o0, o1, o2, o3⟩, m⟩ := s
  have htext : (IPv4Subnet.string ⟨⟨o0, o1, o2, o3⟩, m⟩).toList =
      decimalDigits o0.toNat ++ '.' :: (decimalDigits o1.toNat ++ '.' :: (decimalDigits o2.toNat ++
        '.' :: (decimalDigits o3.toNat ++ '/' :: formatInt m))) := by
    simp [IPv4Subnet.string, IPv4Address.string]
  rw [ipv4SubnetFromString, sscanfSubnet_of_length_le hlen]
  simp only [doScanfSubnet, htext, bind, Except.bind, pure, Except.pure,
    scanOctet_decimalDigits _ (hdot _), scanOctet_decimalDigits _ (hslash _), scanLiteral,
    ↓reduceIte, skipSpace_formatInt, scanInt_formatInt hlo hhi]
  rfl

/-- The cluster block of the manifest, `10.128.0.0/14`, read back from its text. -/
theorem fromString_string_cluster :
    ipv4SubnetFromString (IPv4Subnet.string ⟨⟨10, 128, 0, 0⟩, 14⟩) = .ok ⟨⟨10, 128, 0, 0⟩, 14⟩ :=
  fromString_string _ (by decide) (by decide)

end NuageKubemon
