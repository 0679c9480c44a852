/-
Module: NuageKubemon.Subnet.Grammar
Purpose: The language `IPv4SubnetFromString` accepts, read off its model in `Subnet.Format`. A
  text is accepted exactly when its first `2^30` runes, all that `Sscanf` reads, are four octet
  fields separated by `.`, then `/`, a mask field, and then anything that does not start with a
  digit. An octet field is white space without a
  newline followed by decimal digits worth at most 255; the mask field is such white space, an
  optional sign and digits whose value an `int` holds. The subnet returned holds the fields'
  values. Both directions are proved: every such text is read to its fields
  (`fromString_subnetText`), and every text that is read has this form (`subnetText_of_fromString`).
Trusted boundary: none beyond that of `Subnet.Format`.
Main exports: SpaceRun, OctetField, MaskField, subnetText, fieldsSubnet, fromString_subnetText,
  subnetText_of_fromString
-/
import NuageKubemon.Subnet.Format

namespace NuageKubemon

/-! ### The fields of the text -/

/-- White space that `SkipSpace` drops without an error: a run with no newline in it. -/
def SpaceRun (sp : List Char) : Prop := ∀ c ∈ sp, isSpace c = true ∧ c ≠ '\n'

instance : DecidablePred SpaceRun := fun sp =>
  inferInstanceAs (Decidable (∀ c ∈ sp, isSpace c = true ∧ c ≠ '\n'))

/-- The value `scanInt` gives a sign and the digits after it. -/
def signedValue (sign ds : List Char) : Int :=
  if sign = ['-'] then -(digitsValue ds : Int) else digitsValue ds

/-- One `%d` into a `uint8` as the text holds it: white space, then digits worth at most 255. -/
structure OctetField where
  space : List Char
  digits : List Char
  space_ok : SpaceRun space
  digits_ne : digits ≠ []
  digits_ok : ∀ c ∈ digits, c.isDigit = true
  value_lt : digitsValue digits < 256

/-- The `%d` into the `int` mask as the text holds it: white space, an optional sign, then digits
whose value fits in 64 bits. -/
structure MaskField where
  space : List Char
  sign : List Char
  digits : List Char
  space_ok : SpaceRun space
  sign_ok : sign = [] ∨ sign = ['+'] ∨ sign = ['-']
  digits_ne : digits ≠ []
  digits_ok : ∀ c ∈ digits, c.isDigit = true
  value_mem : -2 ^ 63 ≤ signedValue sign digits ∧ signedValue sign digits < 2 ^ 63

def OctetField.text (f : OctetField) : List Char := f.space ++ f.digits

def OctetField.octet (f : OctetField) : UInt8 := .ofNat (digitsValue f.digits)

def MaskField.text (f : MaskField) : List Char := f.space ++ (f.sign ++ f.digits)

def MaskField.value (f : MaskField) : Int := signedValue f.sign f.digits

/-- The text `%d.%d.%d.%d/%d` with these fields, followed by input the format does not read. -/
def subnetText (o₀ o₁ o₂ o₃ : OctetField) (m : MaskField) (rest : List Char) : List Char :=
  o₀.text ++ '.' :: (o₁.text ++ '.' :: (o₂.text ++ '.' :: (o₃.text ++ '/' :: (m.text ++ rest))))

/-- The subnet the fields hold. -/
def fieldsSubnet (o₀ o₁ o₂ o₃ : OctetField) (m : MaskField) : IPv4Subnet :=
  ⟨⟨o₀.octet, o₁.octet, o₂.octet, o₃.octet⟩, m.value⟩

namespace SpaceRun

theorem nil : SpaceRun [] := fun _ h => absurd h (List.not_mem_nil _)

theorem append {sp sp' : List Char} (h : SpaceRun sp) (h' : SpaceRun sp') : SpaceRun (sp ++ sp') :=
  fun c hc => (List.mem_append.1 hc).elim (h c) (h' c)

/-- `SkipSpace` drops the whole run and stops where white space ends. -/
theorem skipSpace {sp l : List Char} (hsp : SpaceRun sp) (hl : ∀ c ∈ l.head?, isSpace c = false) :
    NuageKubemon.skipSpace (sp ++ l) = .ok l := by
  induction sp with
  | nil => exact skipSpace_of_head hl
  | cons c sp ih =>
    have hc := hsp c (List.mem_cons_self _ _)
    have hnext : (sp ++ l).head? ≠ some '\n' := by
      cases sp with
      | nil => exact fun h => absurd (hl _ h) (by decide)
      | cons d _ => exact fun h => (hsp d (by simp)).2 (Option.some.inj h)
    rw [List.cons_append, NuageKubemon.skipSpace, if_neg fun h => hnext h.2, if_neg hc.2,
      if_pos hc.1]
    exact ih fun d hd => hsp d (List.mem_cons_of_mem _ hd)

end SpaceRun

/-! ### Every field text is read to its value -/

theorem head_digits_not_space {ds : List Char} (hne : ds ≠ []) (hdig : ∀ c ∈ ds, c.isDigit = true)
    (rest : List Char) : ∀ c ∈ (ds ++ rest).head?, isSpace c = false := by
  obtain ⟨d, ds, rfl⟩ := List.exists_cons_of_ne_nil hne
  rintro c ⟨⟩
  exact isSpace_of_isDigit (hdig d (List.mem_cons_self _ _))

theorem scanOctet_octetField (f : OctetField) {rest : List Char}
    (hrest : ∀ c ∈ rest.head?, c.isDigit = false) :
    scanOctet (f.text ++ rest) = .ok (f.octet, rest) := by
  simp only [scanOctet, OctetField.text, List.append_assoc,
    f.space_ok.skipSpace (head_digits_not_space f.digits_ne f.digits_ok rest), bind, Except.bind,
    scanUint_digits f.digits_ne f.digits_ok hrest (show _ < 2 ^ 8 from f.value_lt) (by omega)]
  rfl

/-- A sign, if any, is one `+` or `-`; then digits follow, so the field starts with no space. -/
theorem MaskField.head_not_space (f : MaskField) (rest : List Char) :
    ∀ c ∈ (f.sign ++ (f.digits ++ rest)).head?, isSpace c = false := by
  rcases f.sign_ok with h | h | h <;> rw [h]
  · exact head_digits_not_space f.digits_ne f.digits_ok rest
  all_goals rintro c ⟨⟩; rfl

/-- `%d` into the `int` mask reads the field's signed value and stops at its last digit. -/
theorem scanInt_maskField (f : MaskField) {rest : List Char}
    (hrest : ∀ c ∈ rest.head?, c.isDigit = false) :
    scanInt (f.sign ++ (f.digits ++ rest)) = .ok (f.value, rest) :=
  scanInt_sign_digits f.sign_ok f.digits_ne f.digits_ok hrest rfl f.value_mem.1 f.value_mem.2

theorem subnetText_append (o₀ o₁ o₂ o₃ : OctetField) (m : MaskField) (rest rest' : List Char) :
    subnetText o₀ o₁ o₂ o₃ m (rest ++ rest') = subnetText o₀ o₁ o₂ o₃ m rest ++ rest' := by
  simp [subnetText]

/-- The format's scan reads the fields of the text and stops after the mask's digits. -/
theorem doScanfSubnet_subnetText (o₀ o₁ o₂ o₃ : OctetField) (m : MaskField) {rest : List Char}
    (hrest : ∀ c ∈ rest.head?, c.isDigit = false) :
    doScanfSubnet (subnetText o₀ o₁ o₂ o₃ m rest) = .ok (fieldsSubnet o₀ o₁ o₂ o₃ m, 5) := by
  have hdot : ∀ l : List Char, ∀ c ∈ ('.' :: l).head?, c.isDigit = false := by simp
  have hslash : ∀ l : List Char, ∀ c ∈ ('/' :: l).head?, c.isDigit = false := by simp
  simp only [doScanfSubnet, subnetText, bind, Except.bind, pure, Except.pure,
    scanOctet_octetField _ (hdot _), scanOctet_octetField _ (hslash _), scanLiteral, ↓reduceIte,
    MaskField.text, List.append_assoc, m.space_ok.skipSpace (m.head_not_space rest),
    scanInt_maskField m hrest]
  rfl

/-- Every text of four octet fields and a mask field in the format that fits in `Sscanf`'s
`2^30` runes, followed by anything that does not start with a digit, is read to the subnet its
fields hold: white space before each number, a sign on the mask, any mask an `int` holds and text
after the mask are all accepted. -/
theorem fromString_subnetText (o₀ o₁ o₂ o₃ : OctetField) (m : MaskField) {rest : List Char}
    (hrest : ∀ c ∈ rest.head?, c.isDigit = false)
    (hlen : (subnetText o₀ o₁ o₂ o₃ m []).length ≤ hugeWid) :
    ipv4SubnetFromString ⟨subnetText o₀ o₁ o₂ o₃ m rest⟩ = .ok (fieldsSubnet o₀ o₁ o₂ o₃ m) := by
  -- the runes past the limit are cut from `rest`, whose first rune, if kept, is still no digit
  have hcut : (subnetText o₀ o₁ o₂ o₃ m rest).take hugeWid = subnetText o₀ o₁ o₂ o₃ m
      (rest.take (hugeWid - (subnetText o₀ o₁ o₂ o₃ m []).length)) := by
    rw [← List.nil_append rest, subnetText_append, List.take_append_eq_append_take,
      List.take_of_length_le hlen, List.nil_append, ← subnetText_append, List.nil_append]
  have hrest' : ∀ c ∈ (rest.take (hugeWid - (subnetText o₀ o₁ o₂ o₃ m []).length)).head?,
      c.isDigit = false := by
    rw [List.head?_take]
    split_ifs
    · simp
    · exact hrest
  simp only [ipv4SubnetFromString, String.toList, sscanfSubnet, hcut,
    doScanfSubnet_subnetText _ _ _ _ _ hrest']
  rfl

/-- A leading space, a mask of 33 and a trailing `!` are accepted. -/
theorem fromString_mask33_trailing :
    ipv4SubnetFromString " 10.0.0.0/33!" = .ok ⟨⟨10, 0, 0, 0⟩, 33⟩ :=
  @fromString_subnetText ⟨[' '], ['1', '0'], by decide, by decide, by decide, by decide⟩
    ⟨[], ['0'], by decide, by decide, by decide, by decide⟩
    ⟨[], ['0'], by decide, by decide, by decide, by decide⟩
    ⟨[], ['0'], by decide, by decide, by decide, by decide⟩
    ⟨[], [], ['3', '3'], by decide, by decide, by decide, by decide, by decide⟩ ['!'] (by decide)
    (by decide)

/-! ### Every text that is read has this form -/

theorem except_bind_eq_ok {ε α β : Type} {x : Except ε α} {f : α → Except ε β} {b : β} :
    x >>= f = .ok b ↔ ∃ a, x = .ok a ∧ f a = .ok b := by
  cases x <;> simp [bind, Except.bind]

/-- What `SkipSpace` drops is a run of white space without a newline, and it stops at a rune that
is not white space. -/
theorem skipSpace_eq_ok {l l' : List Char} (h : skipSpace l = .ok l') :
    ∃ sp, SpaceRun sp ∧ l = sp ++ l' ∧ ∀ c ∈ l'.head?, isSpace c = false := by
  induction l with
  | nil => cases h; exact ⟨[], .nil, rfl, fun _ h => by cases h⟩
  | cons c t ih =>
    rw [skipSpace] at h
    split_ifs at h with hr hn hs
    · obtain ⟨sp, hsp, rfl, hl⟩ := ih h
      exact ⟨c :: sp, List.forall_mem_cons.2 ⟨⟨hs, hn⟩, hsp⟩, rfl, hl⟩
    · cases h
      exact ⟨[], .nil, rfl, fun _ h => by cases h; simpa using hs⟩

/-- What `scanNumber` takes is a run of digits, and what it leaves does not start with one. -/
theorem scanNumber_eq_ok {l tok rest : List Char} (h : scanNumber l = .ok (tok, rest)) :
    tok ≠ [] ∧ (∀ c ∈ tok, c.isDigit = true) ∧ l = tok ++ rest ∧
      ∀ c ∈ rest.head?, c.isDigit = false := by
  cases l with
  | nil => cases h
  | cons c t =>
    rw [scanNumber] at h
    split_ifs at h with hc
    · cases h
      refine ⟨by simp [List.takeWhile_cons, hc],
        fun d hd => List.all_eq_true.1 List.all_takeWhile d hd,
        (List.takeWhile_append_dropWhile _ _).symm, fun d hd => ?_⟩
      have := List.head?_dropWhile_not Char.isDigit (c :: t)
      rw [Option.mem_def.1 hd] at this
      exact this

theorem scanUint_eq_ok {b : Nat} {l rest : List Char} {v : Nat} (h : scanUint b l = .ok (v, rest)) :
    ∃ sp ds, SpaceRun sp ∧ ds ≠ [] ∧ (∀ c ∈ ds, c.isDigit = true) ∧ l = sp ++ (ds ++ rest) ∧
      (∀ c ∈ rest.head?, c.isDigit = false) ∧ v = digitsValue ds ∧ v < 2 ^ b := by
  simp only [scanUint, except_bind_eq_ok] at h
  obtain ⟨l₁, hs, h⟩ := h
  split_ifs at h with h₀
  · cases h
  simp only [pure_bind, except_bind_eq_ok] at h
  obtain ⟨⟨tok, r⟩, hn, h⟩ := h
  split_ifs at h with h₆₄ hb <;> cases h
  obtain ⟨sp, hsp, rfl, -⟩ := skipSpace_eq_ok hs
  obtain ⟨hne, hdig, rfl, hrest⟩ := scanNumber_eq_ok hn
  exact ⟨sp, tok, hsp, hne, hdig, rfl, hrest, rfl, by omega⟩

/-- A `%d` into a `uint8` that is read is an octet field. -/
theorem scanOctet_eq_ok {l rest : List Char} {o : UInt8} (h : scanOctet l = .ok (o, rest)) :
    ∃ f : OctetField, l = f.text ++ rest ∧ (∀ c ∈ rest.head?, c.isDigit = false) ∧ o = f.octet := by
  simp only [scanOctet, except_bind_eq_ok] at h
  obtain ⟨l₁, hs, ⟨v, r⟩, hu, h⟩ := h
  cases h
  obtain ⟨sp₁, hsp₁, rfl, -⟩ := skipSpace_eq_ok hs
  obtain ⟨sp₂, ds, hsp₂, hne, hdig, rfl, hrest, rfl, hlt⟩ := scanUint_eq_ok hu
  exact ⟨⟨sp₁ ++ sp₂, ds, hsp₁.append hsp₂, hne, hdig, hlt⟩, by simp [OctetField.text], hrest, rfl⟩

theorem scanLiteral_eq_ok {c : Char} {l r : List Char} (h : scanLiteral c l = .ok r) :
    l = c :: r := by
  cases l with
  | nil => cases h
  | cons d t =>
    rw [scanLiteral] at h
    split_ifs at h with hd
    subst hd; cases h; rfl

theorem acceptSign_eq {l sign l' : List Char} (h : acceptSign l = (sign, l')) :
    l = sign ++ l' ∧ (sign = [] ∨ sign = ['+'] ∨ sign = ['-']) := by
  cases l with
  | nil => cases h; exact ⟨rfl, .inl rfl⟩
  | cons c t =>
    rw [acceptSign] at h
    split_ifs at h with hc
    · cases h
      rcases hc with rfl | rfl
      exacts [⟨rfl, .inr (.inl rfl)⟩, ⟨rfl, .inr (.inr rfl)⟩]
    · cases h; exact ⟨rfl, .inl rfl⟩

/-- The mask that is read, with the white space `Sscanf` skips before its verb, is a mask field. -/
theorem maskField_of_scan {l l₁ rest : List Char} {v : Int} (hs : skipSpace l = .ok l₁)
    (h : scanInt l₁ = .ok (v, rest)) :
    ∃ f : MaskField, l = f.text ++ rest ∧ (∀ c ∈ rest.head?, c.isDigit = false) ∧ v = f.value := by
  simp only [scanInt, except_bind_eq_ok] at h
  obtain ⟨l₂, hs₂, h⟩ := h
  have h₀ : l₂ ≠ [] := by rintro rfl; cases h
  rcases ha : acceptSign l₂ with ⟨sign, l₃⟩
  simp only [if_neg h₀, pure_bind, ha, except_bind_eq_ok] at h
  obtain ⟨⟨tok, r⟩, hn, h⟩ := h
  generalize hi : (if sign = ['-'] then -(digitsValue tok : Int) else digitsValue tok) = i at h
  split_ifs at h with hr
  · cases h
  obtain ⟨rfl, rfl⟩ := Prod.mk.inj (Except.ok.inj h)
  obtain ⟨sp₀, hsp₀, rfl, -⟩ := skipSpace_eq_ok hs
  obtain ⟨sp₁, hsp₁, rfl, -⟩ := skipSpace_eq_ok hs₂
  obtain ⟨rfl, hsign⟩ := acceptSign_eq ha
  obtain ⟨hne, hdig, rfl, hrest⟩ := scanNumber_eq_ok hn
  refine ⟨⟨sp₀ ++ sp₁, sign, tok, hsp₀.append hsp₁, hsign, hne, hdig, ?_⟩,
    by simp [MaskField.text], hrest, hi.symm⟩
  rw [signedValue, hi]
  omega

/-- A text the format's scan reads is the format's text of the fields it reads, followed by
input it does not read and that does not start with a digit. -/
theorem subnetText_of_doScanfSubnet {l : List Char} {s : IPv4Subnet} {n : Nat}
    (h : doScanfSubnet l = .ok (s, n)) :
    ∃ o₀ o₁ o₂ o₃ m rest, (∀ c ∈ rest.head?, c.isDigit = false) ∧
      l = subnetText o₀ o₁ o₂ o₃ m rest ∧ s = fieldsSubnet o₀ o₁ o₂ o₃ m ∧ n = 5 := by
  simp only [doScanfSubnet, except_bind_eq_ok] at h
  obtain ⟨⟨x₀, l₁⟩, h₀, l₂, d₀, ⟨x₁, l₃⟩, h₁, l₄, d₁, ⟨x₂, l₅⟩, h₂, l₆, d₂, ⟨x₃, l₇⟩, h₃, l₈, d₃,
    l₉, hs, ⟨v, r⟩, hm, h⟩ := h
  cases h
  obtain ⟨m, rfl, hrest, rfl⟩ := maskField_of_scan hs hm
  obtain rfl := scanLiteral_eq_ok d₃
  obtain ⟨o₃, rfl, -, rfl⟩ := scanOctet_eq_ok h₃
  obtain rfl := scanLiteral_eq_ok d₂
  obtain ⟨o₂, rfl, -, rfl⟩ := scanOctet_eq_ok h₂
  obtain rfl := scanLiteral_eq_ok d₁
  obtain ⟨o₁, rfl, -, rfl⟩ := scanOctet_eq_ok h₁
  obtain rfl := scanLiteral_eq_ok d₀
  obtain ⟨o₀, rfl, -, rfl⟩ := scanOctet_eq_ok h₀
  exact ⟨o₀, o₁, o₂, o₃, m, r, hrest, rfl, rfl, rfl⟩

/-- What `IPv4SubnetFromString` returns is what the format's scan reads of the first `2^30` runes. -/
theorem doScanfSubnet_of_fromString {input : String} {s : IPv4Subnet}
    (h : ipv4SubnetFromString input = .ok s) :
    ∃ n, doScanfSubnet (input.toList.take hugeWid) = .ok (s, n) := by
  unfold ipv4SubnetFromString sscanfSubnet at h
  rcases hs : doScanfSubnet (input.toList.take hugeWid) with e | ⟨sub, n⟩ <;> simp only [hs] at h
  · cases h
  · split_ifs at h
    cases h
    exact ⟨n, rfl⟩

/-- The mask `IPv4SubnetFromString` returns is one an `int` holds. -/
theorem cidrMask_mem_of_fromString {input : String} {s : IPv4Subnet}
    (h : ipv4SubnetFromString input = .ok s) : -2 ^ 63 ≤ s.cidrMask ∧ s.cidrMask < 2 ^ 63 := by
  obtain ⟨n, hs⟩ := doScanfSubnet_of_fromString h
  obtain ⟨-, -, -, -, m, -, -, -, rfl, -⟩ := subnetText_of_doScanfSubnet hs
  exact m.value_mem

/-- For every text `IPv4SubnetFromString` accepts, the `2^30` runes `Sscanf` reads of it are four
octet fields and a mask field in the format, followed by text that does not start with a digit,
and the subnet returned is the one the fields hold. -/
theorem subnetText_of_fromString {input : String} {s : IPv4Subnet}
    (h : ipv4SubnetFromString input = .ok s) :
    ∃ o₀ o₁ o₂ o₃ m rest, (∀ c ∈ rest.head?, c.isDigit = false) ∧
      input.toList.take hugeWid = subnetText o₀ o₁ o₂ o₃ m rest ∧
        s = fieldsSubnet o₀ o₁ o₂ o₃ m := by
  obtain ⟨n, hs⟩ := doScanfSubnet_of_fromString h
  obtain ⟨o₀, o₁, o₂, o₃, m, rest, hrest, htext, hsub, -⟩ := subnetText_of_doScanfSubnet hs
  exact ⟨o₀, o₁, o₂, o₃, m, rest, hrest, htext, hsub⟩

/-- The cluster block's text is read field by field. -/
theorem subnetText_of_fromString_cluster :
    ∃ o₀ o₁ o₂ o₃ m rest, (∀ c ∈ rest.head?, c.isDigit = false) ∧
      "10.128.0.0/14".toList.take hugeWid = subnetText o₀ o₁ o₂ o₃ m rest ∧
        (⟨⟨10, 128, 0, 0⟩, 14⟩ : IPv4Subnet) = fieldsSubnet o₀ o₁ o₂ o₃ m :=
  subnetText_of_fromString (by decide)

end NuageKubemon
