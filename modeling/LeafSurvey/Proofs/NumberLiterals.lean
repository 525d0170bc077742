import LeafSurvey.Proofs.ScalarTexts
import Mathlib.Data.Nat.Digits.Defs
import Mathlib.Data.Rat.Defs
import Mathlib.Tactic.FieldSimp
import Mathlib.Tactic.Ring

/-!
# Number literals

A number literal is a sign, whole digits without a needless zero, and perhaps a
fraction and an exponent. It denotes a rational number, whatever its length, and
the reader makes a decimal of it: an integer where it is written as one, and
else a coefficient of all its digits with a power of ten.

* `ofChars?_chars`: the reader takes a literal apart into what it was put
  together from;
* `bareLeaf?_chars`, `scalar?_numberLeaf`: it gives the decimal of the literal,
  `NumberLiteral.decimal`;
* `value_decimal`: the decimal has the value that the literal denotes;
* `isInteger_iff`: a literal is written as an integer if it has neither a point
  nor a letter;
* `exists_chars_eq_iff`: nothing but a literal is read as a number.
-/

namespace LeafSurvey

/-! ## Digits -/

/-- Decimal digits, the most significant one first. -/
abbrev Digits := List (Fin 10)

namespace Digits

/-- The digits as characters. -/
def chars (ds : Digits) : List Char :=
  ds.map fun d : Fin 10 => Nat.digitChar d.val

/-- The number that digits write. -/
def value (ds : Digits) : Nat :=
  Nat.ofDigits 10 (ds.reverse.map Fin.val)

/-- The number that digits write behind a point: each has a tenth of the weight
of the one before it. -/
def fraction : Digits → ℚ
  | [] => 0
  | d :: rest => (d.val + fraction rest) / 10

theorem chars_append (xs ys : Digits) :
    chars (xs ++ ys) = xs.chars ++ ys.chars :=
  List.map_append

theorem value_append (xs ys : Digits) :
    value (xs ++ ys) = xs.value * 10 ^ ys.length + ys.value := by
  simp only [value, List.reverse_append, List.map_append, Nat.ofDigits_append,
    List.length_map, List.length_reverse]
  ring

theorem value_cons (d : Fin 10) (rest : Digits) :
    value (d :: rest) = d.val * 10 ^ rest.length + value rest := by
  have hone : value [d] = d.val := by simp [value]
  rw [← List.singleton_append, value_append, hone]

/-- Behind a point, digits have their value as a whole number over as many
powers of ten. -/
theorem fraction_eq (ds : Digits) :
    ds.fraction = ds.value / 10 ^ ds.length := by
  induction ds with
  | nil => simp [fraction, value]
  | cons d rest ih =>
    rw [fraction, ih, value_cons, List.length_cons, pow_succ]
    push_cast
    field_simp

theorem isDigit_of_mem_chars {ds : Digits} {c : Char} (h : c ∈ ds.chars) :
    c.isDigit = true := by
  have hdigit : ∀ d : Fin 10, (Nat.digitChar d.val).isDigit = true := by decide
  obtain ⟨d, _, rfl⟩ := List.mem_map.mp h
  exact hdigit d

theorem natOfDigits_chars (ds : Digits) :
    natOfDigits 10 ds.chars = ds.value := by
  have hdigit : ∀ d : Fin 10, digitValue (Nat.digitChar d.val) = d.val :=
    by decide
  have hfold (start : Nat) :
      ds.chars.foldl (fun n c => 10 * n + digitValue c) start
      = start * 10 ^ ds.length + ds.value := by
    induction ds generalizing start with
    | nil => simp [chars, value]
    | cons d rest ih =>
      show (chars rest).foldl _
        (10 * start + digitValue (Nat.digitChar d.val)) = _
      rw [ih, hdigit, value_cons, List.length_cons, pow_succ]
      ring
  rw [natOfDigits, hfold, Nat.zero_mul, Nat.zero_add]

theorem exists_digitChar {c : Char} (h : c.isDigit = true) :
    ∃ d : Fin 10, Nat.digitChar d.val = c := by
  unfold Char.isDigit at h
  simp only [Bool.and_eq_true, decide_eq_true_eq, ge_iff_le,
    UInt32.le_iff_toNat_le] at h
  have hlow : 48 ≤ c.toNat := h.1
  have hhigh : c.toNat ≤ 57 := h.2
  rw [← Char.ofNat_toNat c]
  generalize c.toNat = n at hlow hhigh
  refine ⟨⟨n - 48, by omega⟩, ?_⟩
  interval_cases n <;> rfl

/-- Characters that are digits write digits. -/
theorem exists_chars_eq {cs : List Char} (h : ∀ c ∈ cs, c.isDigit = true) :
    ∃ ds : Digits, ds.chars = cs := by
  induction cs with
  | nil => exact ⟨[], rfl⟩
  | cons c rest ih =>
    obtain ⟨hc, hrest⟩ := List.forall_mem_cons.mp h
    obtain ⟨d, rfl⟩ := exists_digitChar hc
    obtain ⟨ds, rfl⟩ := ih hrest
    exact ⟨d :: ds, rfl⟩

end Digits

/-- The rational number that a decimal stands for. -/
def Decimal.value (d : Decimal) : ℚ :=
  (if d.negative then -1 else 1) * d.coefficient * 10 ^ d.exponent

theorem Decimal.value_ofInt (n : Int) : (Decimal.ofInt n).value = n := by
  rw [Decimal.value, Decimal.ofInt, zpow_zero, mul_one, Nat.cast_natAbs]
  by_cases hn : n < 0
  · simp [hn, abs_of_neg hn]
  · simp [hn, abs_of_nonneg (not_lt.mp hn)]

/-! ## Literals -/

/-- The exponent of a literal: a letter, a sign and digits. -/
structure ExponentPart where
  letter : Char
  sign : Sign
  digits : Digits
  isLetter : letter = 'e' ∨ letter = 'E'
  nonempty : digits ≠ []

/-- A number literal. Its parts are as the grammar of JSON wants them. -/
structure NumberLiteral where
  negative : Bool
  whole : Digits
  fraction : Option Digits
  exponent : Option ExponentPart
  whole_nonempty : whole ≠ []
  no_needless_zero : whole.head? = some 0 → whole.length = 1
  fraction_nonempty : fraction ≠ some []

namespace ExponentPart

/-- The exponent as written. -/
def chars (e : ExponentPart) : List Char :=
  e.letter :: (e.sign.chars ++ e.digits.chars)

/-- The power of ten that is written. -/
def power (e : ExponentPart) : Int :=
  if e.sign = .minus then -(e.digits.value : Int) else e.digits.value

/-- The exponent as the reader keeps it. -/
def exponent (e : ExponentPart) : Exponent :=
  ⟨e.letter, e.sign, e.digits.chars⟩

theorem value_exponent (e : ExponentPart) : e.exponent.value = e.power := by
  rw [exponent, Exponent.value, Digits.natOfDigits_chars]
  rfl

theorem ofChars?_chars (e : ExponentPart) :
    Exponent.ofChars? e.chars = some (some e.exponent) := by
  have hletter : e.letter = 'e' ∨ e.letter = 'E' := e.isLetter
  have hdigits : ∀ c ∈ e.digits.chars, c.isDigit = true :=
    fun c => Digits.isDigit_of_mem_chars
  have hne : e.digits.chars ≠ [] := by simpa [Digits.chars] using e.nonempty
  have hsplit : Sign.split (e.sign.chars ++ e.digits.chars)
      = (e.sign, e.digits.chars) := by
    cases e.sign with
    | absent =>
      obtain ⟨c, rest, hchars⟩ := List.exists_cons_of_ne_nil hne
      rw [hchars] at hdigits ⊢
      exact Json.split_of_isDigit (hdigits c List.mem_cons_self)
    | plus => rfl
    | minus => rfl
  simp only [chars, Exponent.ofChars?, hsplit]
  simp [hletter, hne, exponent]
  exact hdigits

end ExponentPart

namespace NumberLiteral

/-- The digits behind the point, if there is one. -/
def fractionDigits (lit : NumberLiteral) : Digits :=
  lit.fraction.getD []

/-- The written power of ten, zero where none is written. -/
def power (lit : NumberLiteral) : Int :=
  (lit.exponent.map ExponentPart.power).getD 0

/-- What follows the whole digits. -/
def tailChars (lit : NumberLiteral) : List Char :=
  (lit.fraction.map fun ds => '.' :: ds.chars).getD []
    ++ (lit.exponent.map ExponentPart.chars).getD []

/-- The literal as written. -/
def chars (lit : NumberLiteral) : List Char :=
  (if lit.negative then ['-'] else []) ++ (lit.whole.chars ++ lit.tailChars)

/-- The rational number that a literal denotes. -/
def value (lit : NumberLiteral) : ℚ :=
  (if lit.negative then -1 else 1)
    * (lit.whole.value + lit.fractionDigits.fraction) * 10 ^ lit.power

/-- A literal without fraction and exponent is written as an integer. -/
def isInteger (lit : NumberLiteral) : Bool :=
  lit.fraction.isNone && lit.exponent.isNone

/-- The integer that the whole digits write with the sign. -/
def integer (lit : NumberLiteral) : Int :=
  if lit.negative then -(lit.whole.value : Int) else lit.whole.value

/-- The literal as the reader keeps it. -/
def numeral (lit : NumberLiteral) : Numeral where
  sign := if lit.negative then .minus else .absent
  whole := lit.whole.chars
  fraction := lit.fraction.map Digits.chars
  exponent := lit.exponent.map ExponentPart.exponent

/-! ## Reading a literal -/

theorem chars_whole_ne_nil (lit : NumberLiteral) : lit.whole.chars ≠ [] := by
  simpa [Digits.chars] using lit.whole_nonempty

theorem split_chars (lit : NumberLiteral) :
    Sign.split lit.chars
      = (lit.numeral.sign, lit.whole.chars ++ lit.tailChars) := by
  unfold chars numeral
  cases lit.negative with
  | true => rfl
  | false =>
    obtain ⟨c, rest, hwhole⟩ :=
      List.exists_cons_of_ne_nil lit.chars_whole_ne_nil
    have hc : c.isDigit = true :=
      Digits.isDigit_of_mem_chars (hwhole ▸ List.mem_cons_self)
    rw [hwhole]
    exact Json.split_of_isDigit hc

/-- Digits end where no digit follows. -/
theorem takeWhile_digits (ds : Digits) {tail : List Char}
    (h : ∀ c ∈ tail.head?, c.isDigit = false) :
    (ds.chars ++ tail).takeWhile Char.isDigit = ds.chars
      ∧ (ds.chars ++ tail).dropWhile Char.isDigit = tail := by
  have hdigits : ∀ c ∈ ds.chars, c.isDigit = true :=
    fun c => Digits.isDigit_of_mem_chars
  rw [List.takeWhile_append_of_pos hdigits,
    List.dropWhile_append_of_pos hdigits]
  cases tail with
  | nil => simp
  | cons c rest => simp [h c rfl]

theorem head_exponent (e : Option ExponentPart) :
    ∀ c ∈ ((e.map ExponentPart.chars).getD []).head?, c = 'e' ∨ c = 'E' := by
  intro c hc
  cases e with
  | none => cases hc
  | some e =>
    cases hc
    exact e.isLetter

theorem head_tailChars (lit : NumberLiteral) :
    ∀ c ∈ lit.tailChars.head?, c.isDigit = false := by
  intro c hc
  unfold tailChars at hc
  cases hfraction : lit.fraction with
  | none =>
    rw [hfraction] at hc
    rcases head_exponent lit.exponent c hc with rfl | rfl <;> rfl
  | some ds =>
    rw [hfraction] at hc
    cases hc
    rfl

theorem splitFraction_tailChars (lit : NumberLiteral) :
    Numeral.splitFraction lit.tailChars
      = (lit.numeral.fraction,
          (lit.exponent.map ExponentPart.chars).getD []) := by
  have hletter := head_exponent lit.exponent
  unfold tailChars numeral
  generalize (lit.exponent.map ExponentPart.chars).getD [] = rest at hletter ⊢
  cases lit.fraction with
  | none =>
    -- an exponent does not start with a point
    unfold Numeral.splitFraction
    split
    · rename_i heq
      have hpoint := hletter '.' (by simpa using congrArg List.head? heq)
      simp at hpoint
    · rfl
  | some ds =>
    have hrest : ∀ c ∈ rest.head?, c.isDigit = false := by
      intro c hc
      rcases hletter c hc with rfl | rfl <;> rfl
    obtain ⟨htake, hdrop⟩ := takeWhile_digits ds hrest
    show (some ((ds.chars ++ rest).takeWhile Char.isDigit),
      (ds.chars ++ rest).dropWhile Char.isDigit) = _
    rw [htake, hdrop]
    rfl

/-- A literal is read into its parts. -/
theorem ofChars?_chars (lit : NumberLiteral) :
    Numeral.ofChars? lit.chars = some lit.numeral := by
  obtain ⟨htake, hdrop⟩ := takeWhile_digits lit.whole lit.head_tailChars
  have hexponent :
      Exponent.ofChars? ((lit.exponent.map ExponentPart.chars).getD [])
      = some lit.numeral.exponent := by
    unfold numeral
    cases lit.exponent with
    | none => rfl
    | some e => exact e.ofChars?_chars
  simp only [Numeral.ofChars?, split_chars, htake, hdrop,
    splitFraction_tailChars, hexponent]
  simp [lit.chars_whole_ne_nil, numeral]

theorem isNumberText_numeral (lit : NumberLiteral) :
    Json.isNumberText lit.numeral = true := by
  have hsign : (if lit.negative then Sign.minus else Sign.absent) ≠ .plus := by
    split <;> simp
  have hzero : ∀ d : Fin 10, Nat.digitChar d.val = '0' → d = 0 := by decide
  have hwhole : lit.whole.chars.length = 1
      ∨ lit.whole.chars.head? ≠ some '0' := by
    by_cases hhead : lit.whole.head? = some 0
    · exact .inl
        (by rw [Digits.chars, List.length_map, lit.no_needless_zero hhead])
    · refine .inr fun hchars => hhead ?_
      rw [Digits.chars, List.head?_map, Option.map_eq_some_iff] at hchars
      obtain ⟨d, hd, hchar⟩ := hchars
      rw [hd, hzero d hchar]
  have hfraction : lit.fraction.map Digits.chars ≠ some [] := by
    intro h
    obtain ⟨ds, hds, hempty⟩ := Option.map_eq_some_iff.mp h
    rw [List.map_eq_nil_iff.mp hempty] at hds
    exact lit.fraction_nonempty hds
  simp [Json.isNumberText, numeral, hsign, lit.chars_whole_ne_nil,
    hwhole, hfraction]

theorem bareLeaf?_chars (lit : NumberLiteral) :
    Json.bareLeaf? lit.chars = some (Json.numberLeaf lit.numeral) := by
  have hword : ∀ word : List Char, Numeral.ofChars? word = none →
      lit.chars ≠ word := by
    rintro _ hnone rfl
    rw [ofChars?_chars] at hnone
    cases hnone
  rw [Json.bareLeaf?, if_neg (hword _ rfl), if_neg (hword _ rfl),
    if_neg (hword _ rfl), ofChars?_chars]
  simp [lit.isNumberText_numeral]

theorem mem_exponent_chars {e : ExponentPart} {c : Char} (h : c ∈ e.chars) :
    c.isDigit = true ∨ c ∈ ['-', '+', '.', 'e', 'E'] := by
  rcases List.mem_cons.mp h with rfl | h
  · rcases e.isLetter with hletter | hletter <;> simp [hletter]
  rcases List.mem_append.mp h with hsign | hdigit
  · cases hs : e.sign <;> simp_all [Sign.chars]
  · exact .inl (Digits.isDigit_of_mem_chars hdigit)

/-- A literal consists of digits, signs, a point and a letter. -/
theorem mem_chars {lit : NumberLiteral} {c : Char} (h : c ∈ lit.chars) :
    c.isDigit = true ∨ c ∈ ['-', '+', '.', 'e', 'E'] := by
  unfold chars tailChars at h
  rcases List.mem_append.mp h with hsign | h
  · cases hs : lit.negative <;> simp_all
  rcases List.mem_append.mp h with hwhole | h
  · exact .inl (Digits.isDigit_of_mem_chars hwhole)
  rcases List.mem_append.mp h with hfraction | hexponent
  · cases hf : lit.fraction with
    | none => simp [hf] at hfraction
    | some ds =>
      rw [hf] at hfraction
      rcases List.mem_cons.mp hfraction with rfl | hdigit
      · simp
      · exact .inl (Digits.isDigit_of_mem_chars hdigit)
  · cases he : lit.exponent with
    | none => simp [he] at hexponent
    | some e =>
      rw [he] at hexponent
      exact mem_exponent_chars hexponent

/-- Nothing in a literal ends a run. -/
theorem endsBare_chars (lit : NumberLiteral) :
    ∀ c ∈ lit.chars, Json.Splitter.endsBare c = false := by
  intro c hc
  rcases mem_chars hc with hdigit | hmark
  · by_contra hends
    rw [Json.isDigit_of_endsBare (by simpa using hends)] at hdigit
    cases hdigit
  · simp only [List.mem_cons, List.not_mem_nil, or_false] at hmark
    rcases hmark with rfl | rfl | rfl | rfl | rfl <;> rfl

theorem chars_ne_nil (lit : NumberLiteral) : lit.chars ≠ [] := by
  simp [chars, lit.chars_whole_ne_nil]

/-! ## The decimal of a literal -/

/-- The decimal that a literal is read as: its integer, or all its digits and
the power of the last of them. -/
def decimal (lit : NumberLiteral) : Decimal :=
  if lit.isInteger then .ofInt lit.integer
  else ⟨lit.negative, Digits.value (lit.whole ++ lit.fractionDigits),
    lit.power - lit.fractionDigits.length⟩

theorem power_numeral (lit : NumberLiteral) :
    (lit.numeral.exponent.map Exponent.value).getD 0 = lit.power := by
  unfold numeral power
  cases lit.exponent with
  | none => rfl
  | some e => exact e.value_exponent

/-- The reader makes the decimal of a literal. -/
theorem scalar?_numberLeaf (lit : NumberLiteral) :
    (Json.numberLeaf lit.numeral).scalar? = .ok (.number lit.decimal) := by
  have hkind : lit.numeral.isInteger = lit.isInteger := by
    simp [Numeral.isInteger, isInteger, numeral]
  unfold Json.numberLeaf decimal
  rw [hkind]
  split
  · have hinteger : lit.numeral.integer = lit.integer := by
      rw [Numeral.integer, numeral, Digits.natOfDigits_chars,
        Sign.apply, integer]
      cases lit.negative <;> rfl
    rw [hinteger]
    rfl
  · have hfraction : lit.numeral.fractionDigits
        = Digits.chars lit.fractionDigits := by
      rw [Numeral.fractionDigits, fractionDigits, numeral]
      cases lit.fraction <;> rfl
    have hsign : (lit.numeral.sign == .minus) = lit.negative := by
      rw [numeral]
      cases lit.negative <;> rfl
    have hcoefficient :
        natOfDigits 10 (lit.numeral.whole ++ lit.numeral.fractionDigits)
        = Digits.value (lit.whole ++ lit.fractionDigits) := by
      rw [hfraction, ← Digits.natOfDigits_chars, Digits.chars_append]
      rfl
    have hlength : lit.numeral.fractionDigits.length
        = lit.fractionDigits.length := by
      rw [hfraction, Digits.chars, List.length_map]
    rw [Decimal.ofNumeral, hsign, hcoefficient, hlength, power_numeral]
    rfl

/-- The decimal of a literal has the value that the literal denotes. -/
theorem value_decimal (lit : NumberLiteral) :
    lit.decimal.value = lit.value := by
  unfold decimal value
  split
  · rename_i hinteger
    rw [isInteger, Bool.and_eq_true, Option.isNone_iff_eq_none,
      Option.isNone_iff_eq_none] at hinteger
    rw [Decimal.value_ofInt, integer, fractionDigits, power,
      hinteger.1, hinteger.2]
    cases lit.negative <;> simp [Digits.fraction]
  · rw [Decimal.value, Digits.value_append, Digits.fraction_eq,
      zpow_sub₀ (by norm_num), zpow_natCast]
    push_cast
    field_simp

/-- A literal is written as an integer if there is neither a point nor a letter
in it. -/
theorem isInteger_iff (lit : NumberLiteral) :
    lit.isInteger = true
      ↔ '.' ∉ lit.chars ∧ 'e' ∉ lit.chars ∧ 'E' ∉ lit.chars := by
  rw [isInteger, Bool.and_eq_true, Option.isNone_iff_eq_none,
    Option.isNone_iff_eq_none]
  constructor
  · rintro ⟨hfraction, hexponent⟩
    have hdigits : ∀ c ∈ lit.chars, c = '-' ∨ c.isDigit = true := by
      intro c hc
      rw [chars, tailChars, hfraction, hexponent] at hc
      rcases List.mem_append.mp hc with hsign | hc
      · cases hs : lit.negative <;> simp_all
      · exact .inr (Digits.isDigit_of_mem_chars (by simpa using hc))
    refine ⟨fun h => ?_, fun h => ?_, fun h => ?_⟩
    all_goals
      have hc := hdigits _ h
      revert hc
      decide
  · rintro ⟨hpoint, hsmall, hcapital⟩
    constructor
    · cases hfraction : lit.fraction with
      | none => rfl
      | some ds => exact absurd (by simp [chars, tailChars, hfraction]) hpoint
    · cases hexponent : lit.exponent with
      | none => rfl
      | some e =>
        have hletter : e.letter ∈ lit.chars := by
          simp [chars, tailChars, hexponent, ExponentPart.chars]
        rcases e.isLetter with heq | heq
        · exact absurd (heq ▸ hletter) hsmall
        · exact absurd (heq ▸ hletter) hcapital

end NumberLiteral

/-! ## Every number is a literal -/

theorem Sign.eq_of_split {cs rest : List Char} {sign : Sign}
    (h : split cs = (sign, rest)) :
    cs = sign.chars ++ rest := by
  unfold split at h
  split at h <;> cases h <;> rfl

/-- An exponent that is read is an exponent of a literal. -/
theorem ExponentPart.exists_of_ofChars? {cs : List Char} {e : Option Exponent}
    (h : Exponent.ofChars? cs = some e) :
    ∃ part : Option ExponentPart, (part.map ExponentPart.chars).getD []
      = cs := by
  cases cs with
  | nil => exact ⟨none, rfl⟩
  | cons c rest =>
    rcases hsplit : Sign.split rest with ⟨sign, digits⟩
    simp only [Exponent.ofChars?, hsplit] at h
    split at h
    · rename_i hpart
      simp only [Bool.and_eq_true, Bool.or_eq_true, decide_eq_true_eq,
        Bool.not_eq_true', List.isEmpty_eq_false_iff, List.all_eq_true] at hpart
      obtain ⟨⟨hletter, hne⟩, hdigits⟩ := hpart
      obtain ⟨ds, rfl⟩ := Digits.exists_chars_eq hdigits
      have hds : ds ≠ [] := by
        rintro rfl
        exact hne rfl
      exact ⟨some
        ⟨c, sign, ds, hletter, hds⟩, by rw [Sign.eq_of_split hsplit]; rfl⟩
    · cases h

theorem Digits.exists_of_splitFraction {cs tail : List Char}
    {fraction : Option (List Char)}
    (h : Numeral.splitFraction cs = (fraction, tail)) :
    ∃ digits : Option Digits, digits.map Digits.chars = fraction
      ∧ (digits.map fun ds => '.' :: ds.chars).getD [] ++ tail = cs := by
  unfold Numeral.splitFraction at h
  split at h
  · rename_i rest
    cases h
    obtain ⟨ds, hds⟩ :=
      Digits.exists_chars_eq fun c hc => List.mem_takeWhile_imp hc
    refine ⟨some ds, congrArg some hds, ?_⟩
    show ('.' :: ds.chars) ++ _ = _
    rw [hds, List.cons_append, List.takeWhile_append_dropWhile]
  · cases h
    exact ⟨none, rfl, rfl⟩

namespace NumberLiteral

/-- A run that is read as a number is a literal. -/
theorem exists_of_isNumberText {run : List Char} {n : Numeral}
    (hread : Numeral.ofChars? run = some n)
    (hnumber : Json.isNumberText n = true) :
    ∃ lit : NumberLiteral, lit.chars = run := by
  rcases hsign : Sign.split run with ⟨sign, rest⟩
  rcases hfraction : Numeral.splitFraction (rest.dropWhile Char.isDigit) with
    ⟨fraction, tail⟩
  simp only [Numeral.ofChars?, hsign, hfraction] at hread
  split at hread
  · cases hread
  obtain ⟨e, he, rfl⟩ := Option.map_eq_some_iff.mp hread
  obtain ⟨exponent, htail⟩ := ExponentPart.exists_of_ofChars? he
  obtain ⟨digits, hdigits, hrest⟩ := Digits.exists_of_splitFraction hfraction
  have htaken : ∀ c ∈ rest.takeWhile Char.isDigit, c.isDigit = true :=
    fun c hc => List.mem_takeWhile_imp hc
  obtain ⟨whole, hwhole⟩ := Digits.exists_chars_eq htaken
  have hrun : run = sign.chars
      ++ (whole.chars ++ ((digits.map fun ds => '.' :: ds.chars).getD []
      ++ (exponent.map ExponentPart.chars).getD [])) := by
    rw [Sign.eq_of_split hsign, hwhole, htail, hrest,
      List.takeWhile_append_dropWhile]
  rw [← hwhole, ← hdigits] at hnumber
  simp only [Json.isNumberText, Bool.and_eq_true, Bool.or_eq_true, bne_iff_ne,
    beq_iff_eq, Bool.not_eq_true', List.isEmpty_eq_false_iff] at hnumber
  obtain ⟨⟨⟨hplus, hne⟩, hzero⟩, hpoint⟩ := hnumber
  -- the checks on the characters are the conditions on the parts
  refine ⟨⟨decide (sign = .minus), whole, digits, exponent, ?_,
    fun hhead => ?_, ?_⟩, ?_⟩
  · rintro rfl
    exact hne rfl
  · have hchar : whole.chars.head? = some '0' := by
      rw [Digits.chars, List.head?_map, hhead]
      rfl
    rcases hzero with hlength | hhead'
    · rwa [Digits.chars, List.length_map] at hlength
    · exact absurd hchar hhead'
  · rintro rfl
    exact hpoint rfl
  · refine Eq.trans ?_ hrun.symm
    cases sign with
    | absent => rfl
    | plus => exact absurd rfl hplus
    | minus => rfl

/-- A run is read as a number exactly if it is a literal. -/
theorem exists_chars_eq_iff {run : List Char} :
    (∃ lit : NumberLiteral, lit.chars = run)
      ↔ ∃ n, Json.bareLeaf? run = some (Json.numberLeaf n) := by
  constructor
  · rintro ⟨lit, rfl⟩
    exact ⟨_, lit.bareLeaf?_chars⟩
  · rintro ⟨n, hn⟩
    -- no word is a number
    have hword : Json.numberLeaf n ≠ .null
        ∧ ∀ b, Json.numberLeaf n ≠ .boolean b := by
      unfold Json.numberLeaf
      split <;> simp
    unfold Json.bareLeaf? at hn
    split at hn
    · exact absurd (Option.some.inj hn).symm hword.1
    split at hn
    · exact absurd (Option.some.inj hn).symm (hword.2 true)
    split at hn
    · exact absurd (Option.some.inj hn).symm (hword.2 false)
    split at hn
    · rename_i hread
      split at hn
      · rename_i hnumber
        exact exists_of_isNumberText hread hnumber
      · cases hn
    · cases hn

end NumberLiteral

end LeafSurvey
