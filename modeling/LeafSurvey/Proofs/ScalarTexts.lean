import LeafSurvey.Json.Layout
import LeafSurvey.Json.Lexeme
import Mathlib.Data.List.TakeWhile
import Mathlib.Tactic.IntervalCases

/-!
# Texts of scalars

The text of a scalar is one lexeme, and the lexeme says what was written.

* `take_stringText`, `unescape_escape`: a string is one quoted run, and
  unescaping the run gives the string;
* `take_bare`: a text in which nothing ends a run is one bare run;
* `bareLeaf?_intText`: the digits of an integer are read as this integer.
-/

namespace LeafSurvey.Json

/-! ## Strings -/

/-- A character is written by a named escape, or as a control by its number, or
as itself. -/
theorem escapeChar_cases (c : Char) :
    (∃ e, escapeChar c = ['\\', e] ∧ namedEscape? e = some c)
      ∨ (escapeChar c = ['\\', 'u', '0', '0', hexChar (c.toNat / 16),
          hexChar (c.toNat % 16)]
          ∧ c.toNat < 0x20)
      ∨ (escapeChar c = [c] ∧ c ≠ '\\' ∧ c ≠ '"' ∧ ¬c.toNat < 0x20) := by
  by_cases hnamed : c ∈ ['"', '\\', '\n', '\r', '\t', '\x08', '\x0c']
  · simp only [List.mem_cons, List.not_mem_nil, or_false] at hnamed
    left
    rcases hnamed with rfl | rfl | rfl | rfl | rfl | rfl | rfl <;>
      exact ⟨_, rfl, rfl⟩
  · simp only [List.mem_cons, List.not_mem_nil, or_false, not_or] at hnamed
    right
    by_cases hcontrol : c.toNat < 0x20 <;> simp [escapeChar, hnamed, hcontrol]

theorem hexDigit?_hexChar : ∀ n, n < 16 → hexDigit? (hexChar n) = some n := by
  decide

/-- The text of one character is unescaped to this character, whatever
follows. -/
theorem unescape_escapeChar (c : Char) (rest : List Char) :
    unescape (escapeChar c ++ rest) = (unescape rest).map (c :: ·) := by
  rcases escapeChar_cases c with
    ⟨e, htext, hnamed⟩ | ⟨htext, hcontrol⟩ | ⟨htext, hplain⟩ <;>
    rw [htext, List.cons_append] <;>
      simp only [List.cons_append, List.nil_append]
  · have hother : e ≠ 'u' := by
      rintro rfl
      cases hnamed
    rw [unescape]
    · simp [hnamed]
    · intro a b c d more hu
      exact absurd hu hother
  · have hquad : hexQuad? '0' '0' (hexChar (c.toNat / 16))
        (hexChar (c.toNat % 16)) = some c.toNat := by
      have hzero : hexDigit? '0' = some 0 := by decide
      have hhigh := hexDigit?_hexChar (c.toNat / 16) (by omega)
      have hlow := hexDigit?_hexChar (c.toNat % 16) (by omega)
      simp only [hexQuad?, hzero, hhigh, hlow]
      simp
      omega
    -- the number of a control is no half of a pair
    have hhalf : Text.isHighHalf c.toNat = false
        ∧ Text.isLowHalf c.toNat = false := by
      simp [Text.isHighHalf, Text.isLowHalf]
      omega
    rw [unescape, hquad]
    simp [hhalf.1, hhalf.2]
  · rw [unescape]
    · simp [hplain]
    · intro a b c d more hu
      exact absurd hu hplain.1
    · intro e more hu
      exact absurd hu hplain.1

theorem unescape_escape (cs : List Char) : unescape (escape cs) = some cs := by
  induction cs with
  | nil => rfl
  | cons c rest ih =>
    show unescape (escapeChar c ++ escape rest) = _
    rw [unescape_escapeChar, ih]
    rfl

/-- Inside quotes the text of one character is taken up without ending the
run. -/
theorem take_escapeChar (found : List Lexeme) (run : List Char) (c : Char) :
    (escapeChar c).foldl Splitter.take ⟨found, .quoted run false⟩
      = ⟨found, .quoted ((escapeChar c).reverse ++ run) false⟩ := by
  rcases escapeChar_cases c with ⟨e, htext, _⟩ | ⟨htext, hcontrol⟩
    | ⟨htext, hbackslash, hquote, _⟩ <;>
    rw [htext]
  · rfl
  · have hhex : ∀ n, n < 16 → hexChar n ≠ '"' ∧ hexChar n ≠ '\\' := by decide
    have hhigh := hhex (c.toNat / 16) (by omega)
    have hlow := hhex (c.toNat % 16) (by omega)
    simp [Splitter.take, hhigh, hlow]
  · simp [Splitter.take, hquote, hbackslash]

theorem take_escape (found : List Lexeme) (run cs : List Char) :
    (escape cs).foldl Splitter.take ⟨found, .quoted run false⟩
      = ⟨found, .quoted ((escape cs).reverse ++ run) false⟩ := by
  induction cs generalizing run with
  | nil => rfl
  | cons c rest ih =>
    have hcons : escape (c :: rest) = escapeChar c ++ escape rest := rfl
    rw [hcons, List.foldl_append, take_escapeChar, ih, List.reverse_append,
      List.append_assoc]

/-- A string in its quotes is one lexeme. -/
theorem take_stringText (found : List Lexeme) (s : String) :
    (stringText s).foldl Splitter.take ⟨found, .between⟩
      = ⟨.quoted (escape s.toList) :: found, .between⟩ := by
  rw [stringText, List.foldl_cons, List.foldl_append]
  have hopen : (⟨found, .between⟩ : Splitter).take '"'
      = ⟨found, .quoted [] false⟩ :=
    rfl
  rw [hopen, take_escape]
  simp [Splitter.take]

theorem string?_quoted_escape (s : String) :
    (Lexeme.quoted (escape s.toList)).string? = some s := by
  simp [Lexeme.string?, unescape_escape]

theorem leaf?_quoted_escape (s : String) :
    (Lexeme.quoted (escape s.toList)).leaf? = some (.text s) := by
  simp [Lexeme.leaf?, unescape_escape]

/-! ## Bare runs -/

/-- Inside a bare run nothing is taken up but what belongs to it. -/
theorem take_run (found : List Lexeme) (run cs : List Char)
    (h : ∀ c ∈ cs, Splitter.endsBare c = false) :
    cs.foldl Splitter.take ⟨found, .bare run⟩
      = ⟨found, .bare (cs.reverse ++ run)⟩ := by
  induction cs generalizing run with
  | nil => rfl
  | cons c rest ih =>
    have hc := h c List.mem_cons_self
    have hrest : ∀ c ∈ rest, Splitter.endsBare c = false :=
      fun c hc => h c (List.mem_cons_of_mem _ hc)
    have htake : (⟨found, .bare run⟩ : Splitter).take c
        = ⟨found, .bare (c :: run)⟩ := by
      simp [Splitter.take, hc]
    rw [List.foldl_cons, htake, ih _ hrest]
    simp

theorem take_bare (found : List Lexeme) {cs : List Char} (hne : cs ≠ [])
    (h : ∀ c ∈ cs, Splitter.endsBare c = false) :
    cs.foldl Splitter.take ⟨found, .between⟩ = ⟨found, .bare cs.reverse⟩ := by
  obtain ⟨c, rest, rfl⟩ := List.exists_cons_of_ne_nil hne
  obtain ⟨hc, hrest⟩ := List.forall_mem_cons.mp h
  have htake : (⟨found, .between⟩ : Splitter).take c = ⟨found, .bare [c]⟩ := by
    simp only [Splitter.endsBare, Bool.or_eq_false_iff, decide_eq_false_iff_not,
      Option.isSome_eq_false_iff, Option.isNone_iff_eq_none] at hc
    obtain ⟨⟨hblank, hquote⟩, hmark⟩ := hc
    simp [Splitter.take, Splitter.takeOutside, hblank, hquote, hmark]
  rw [List.foldl_cons, htake, take_run _ _ _ hrest, List.reverse_cons]

/-! ## Integers -/

theorem isDigit_of_endsBare {c : Char} (h : Splitter.endsBare c = true) :
    c.isDigit = false := by
  simp only [Splitter.endsBare, isBlank, Bool.or_eq_true,
    decide_eq_true_eq] at h
  rcases h with ((((((rfl | rfl) | rfl) | rfl) | rfl) | rfl) | rfl) | hmark
  iterate 7 rfl
  unfold Lexeme.mark? at hmark
  split at hmark <;> first | rfl | cases hmark

theorem isDigit_of_mem_toDigits {c : Char} {n : Nat}
    (h : c ∈ Nat.toDigits 10 n) : c.isDigit = true :=
  Nat.isDigit_of_mem_toDigits (by omega) (by omega) h

theorem mem_intText {c : Char} {n : Int} (h : c ∈ intText n) :
    c = '-' ∨ c.isDigit = true := by
  rw [intText, List.mem_append] at h
  rcases h with hsign | hdigit
  · split at hsign
    · exact .inl (List.mem_singleton.mp hsign)
    · cases hsign
  · exact .inr (isDigit_of_mem_toDigits hdigit)

theorem endsBare_intText (n : Int) :
    ∀ c ∈ intText n, Splitter.endsBare c = false := by
  intro c hc
  rcases mem_intText hc with rfl | hdigit
  · rfl
  · by_contra hends
    rw [isDigit_of_endsBare (by simpa using hends)] at hdigit
    cases hdigit

theorem utf8Size_intText (n : Int) : ∀ c ∈ intText n, c.utf8Size = 1 := by
  intro c hc
  rcases mem_intText hc with rfl | hdigit
  · rfl
  · rw [Char.isDigit, Bool.and_eq_true, decide_eq_true_eq,
      decide_eq_true_eq] at hdigit
    have hnine : ('9'.val : UInt32) ≤ 127 := by decide
    exact Char.utf8Size_eq_one_iff.mpr (UInt32.le_trans hdigit.2 hnine)

theorem intText_ne_nil (n : Int) : intText n ≠ [] := by
  simp [intText, Nat.toDigits_ne_nil]

/-- The digits of a number denote the number. -/
theorem natOfDigits_toDigits (n : Nat) :
    natOfDigits 10 (Nat.toDigits 10 n) = n := by
  have hdigits : ∀ cs : List Char, (∀ c ∈ cs, c.isDigit = true) → ∀ start,
      cs.foldl (fun n c => 10 * n + digitValue c) start
        = Nat.ofDigitChars 10 cs start := by
    intro cs
    induction cs with
    | nil => intro _ start; rfl
    | cons c rest ih =>
      intro h start
      obtain ⟨hc, hrest⟩ := List.forall_mem_cons.mp h
      rw [List.foldl_cons, ih hrest]
      simp [Nat.ofDigitChars, digitValue, hc]
  rw [natOfDigits, hdigits _ fun c hc => isDigit_of_mem_toDigits hc]
  exact Nat.ofDigitChars_toDigits (by omega) (by omega)

/-- No number but zero starts with a zero. -/
theorem head?_toDigits (n : Nat) (h : n ≠ 0) :
    (Nat.toDigits 10 n).head? ≠ some '0' := by
  induction n using Nat.strongRecOn with
  | ind n ih =>
    by_cases hsmall : n < 10
    · rw [Nat.toDigits_of_lt_base hsmall]
      interval_cases n <;> simp_all [Nat.digitChar]
    · obtain ⟨c, rest, hfront⟩ :=
        List.exists_cons_of_ne_nil (@Nat.toDigits_ne_nil (n / 10) 10)
      have hfirst := ih (n / 10) (by omega) (by omega)
      rw [Nat.toDigits_of_base_le (by omega) (by omega)]
      rw [hfront] at hfirst ⊢
      exact hfirst

theorem split_of_isDigit {c : Char} {rest : List Char} (h : c.isDigit = true) :
    Sign.split (c :: rest) = (.absent, c :: rest) := by
  unfold Sign.split
  split
  · rename_i heq
    cases heq
    cases h
  · rename_i heq
    cases heq
    cases h
  · rfl

theorem split_intText (n : Int) :
    Sign.split (intText n) = (if n < 0 then .minus else .absent,
      Nat.toDigits 10 n.natAbs) := by
  rw [intText]
  split
  · rfl
  · obtain ⟨c, rest, hdigits⟩ :=
      List.exists_cons_of_ne_nil (@Nat.toDigits_ne_nil n.natAbs 10)
    have hc : c.isDigit = true :=
      isDigit_of_mem_toDigits (n := n.natAbs) (by simp [hdigits])
    rw [hdigits, List.nil_append, split_of_isDigit hc]

theorem ofChars?_intText (n : Int) : Numeral.ofChars? (intText n)
    = some ⟨if n < 0 then .minus else .absent, Nat.toDigits 10 n.natAbs,
        none, none⟩ := by
  have hall : ∀ c ∈ Nat.toDigits 10 n.natAbs, c.isDigit = true :=
    fun c => isDigit_of_mem_toDigits
  have htake := List.takeWhile_eq_self_iff.mpr hall
  have hdrop := List.dropWhile_eq_nil_iff.mpr hall
  simp [Numeral.ofChars?, split_intText, htake, hdrop, Numeral.splitFraction,
    Exponent.ofChars?]

theorem apply_sign (n : Int) :
    (if n < 0 then Sign.minus else Sign.absent).apply n.natAbs = n := by
  split
  · show -(n.natAbs : Int) = n
    omega
  · show (n.natAbs : Int) = n
    omega

/-- The digits of an integer follow the rules of JSON. -/
theorem isNumberText_intText (n : Int) :
    isNumberText ⟨if n < 0 then .minus else .absent, Nat.toDigits 10 n.natAbs,
      none, none⟩
      = true := by
  have hzero : (Nat.toDigits 10 n.natAbs).length = 1
      ∨ (Nat.toDigits 10 n.natAbs).head? ≠ some '0' := by
    by_cases h : n.natAbs = 0
    · rw [h]
      exact .inl rfl
    · exact .inr (head?_toDigits _ h)
  have hsign : (if n < 0 then Sign.minus else Sign.absent) ≠ .plus := by
    split <;> simp
  simp [isNumberText, hsign, Nat.toDigits_ne_nil, hzero]

theorem bareLeaf?_intText (n : Int) :
    bareLeaf? (intText n) = some (.integer n) := by
  have hword : ∀ word : List Char, Numeral.ofChars? word = none →
      intText n ≠ word := by
    rintro _ hnone rfl
    rw [ofChars?_intText] at hnone
    cases hnone
  rw [bareLeaf?, if_neg (hword _ rfl), if_neg (hword _ rfl),
    if_neg (hword _ rfl), ofChars?_intText]
  have hvalue : Numeral.integer ⟨if n < 0 then .minus else .absent,
      Nat.toDigits 10 n.natAbs, none, none⟩
      = n := by
    rw [Numeral.integer, natOfDigits_toDigits]
    exact apply_sign n
  simp [isNumberText_intText, numberLeaf, Numeral.isInteger, hvalue]

end LeafSurvey.Json
