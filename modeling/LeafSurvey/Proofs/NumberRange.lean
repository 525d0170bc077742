import LeafSurvey.Json.NumberRange
import LeafSurvey.Proofs.TextBytes
import Mathlib.Data.List.TakeWhile

/-!
# Texts whose numbers are taken in

`refusedNumber?` looks for the first number of a file that is not taken in,
also where the file is no document. In the text of a document it finds one
exactly if one is there.

* `decodedFront_append`: a front that is a text is decoded as this text;
* `refusedNumber?_of_text`: the search in a file is the search in its text;
* `frontNumber?_of_number`: what a number starts with is the whole number;
* `refusedIn?_eq_none_iff`: the text of a document has all its numbers taken in
  exactly if each single one is.
-/

namespace LeafSurvey.Json

/-! ## From bytes to characters -/

/-- Bytes are taken whole from any position on that is not before their end. -/
theorem extract_of_size_le {bytes : ByteArray} {n : Nat} (h : bytes.size ≤ n) :
    bytes.extract 0 n = bytes := by
  refine ByteArray.ext (Array.toList_inj.mp ?_)
  rw [ByteArray.data_extract, Array.toList_extract, List.extract_eq_take_drop,
    List.drop_zero, List.take_of_length_le]
  rw [Array.length_toList]
  exact h

/-- What is decoded in front is the longest front that is a text. -/
theorem decodedFront_eq (bytes : ByteArray) : ∃ n text,
    String.fromUTF8? (bytes.extract 0 n) = some text
      ∧ decodedFront bytes = text.toList
      ∧ ∀ m ≤ bytes.size, n < m →
          String.fromUTF8? (bytes.extract 0 m) = none := by
  let front? :=
    fun n => (String.fromUTF8? (bytes.extract 0 n)).map String.toList
  have hempty : front? 0 = some [] := by
    have h : bytes.extract 0 0 = "".toUTF8 := by
      simp [String.toUTF8_eq_toByteArray]
    simp only [front?, h, fromUTF8?_toUTF8]
    rfl
  cases hfound : (List.range (bytes.size + 1)).reverse.findSome? front? with
  | none =>
    have hzero := List.findSome?_eq_none_iff.mp hfound 0 (by simp)
    cases hempty.symm.trans hzero
  | some cs =>
    obtain ⟨longer, n, shorter, hsplit, hn, hlonger⟩ :=
      List.findSome?_eq_some_iff.mp hfound
    obtain ⟨text, htext, rfl⟩ := Option.map_eq_some_iff.mp hn
    refine ⟨n, text, htext, ?_, fun m hm hnm => ?_⟩
    · rw [decodedFront, hfound]
      rfl
    -- the numbers come in descending order, so a greater one stands in front
    · have hdesc : (List.range (bytes.size + 1)).reverse.Pairwise (· > ·) :=
        List.pairwise_reverse.mpr List.pairwise_lt_range
      have hmem : m ∈ (List.range (bytes.size + 1)).reverse := by
        simp only [List.mem_reverse, List.mem_range]
        omega
      rw [hsplit] at hmem hdesc
      refine Option.map_eq_none_iff.mp (hlonger m ?_)
      rcases List.mem_append.mp hmem with h | h
      · exact h
      rcases List.mem_cons.mp h with rfl | h
      · omega
      · have hlt :=
          (List.pairwise_cons.mp (List.pairwise_append.mp hdesc).2.1).1 m h
        omega

theorem decodedFront_of_text {bytes : ByteArray} {text : String}
    (h : String.fromUTF8? bytes = some text) :
    decodedFront bytes = text.toList := by
  obtain ⟨n, longest, hlongest, hfront, hnone⟩ := decodedFront_eq bytes
  have hle : bytes.size ≤ n := by
    by_contra hlt
    have hwhole := hnone bytes.size le_rfl (by omega)
    rw [extract_of_size_le le_rfl, h] at hwhole
    cases hwhole
  rw [extract_of_size_le hle, h] at hlongest
  cases hlongest
  exact hfront

/-- A front that is a text is decoded as this text, whatever stands behind
it. -/
theorem decodedFront_append {u : ByteArray} {text : String}
    (hu : String.fromUTF8? u = some text) (v : ByteArray) :
    ∃ more, decodedFront (u ++ v) = text.toList ++ more := by
  obtain ⟨n, longest, hlongest, hfront, hnone⟩ := decodedFront_eq (u ++ v)
  have hsize : (u ++ v).size = u.size + v.size := ByteArray.size_append
  have hle : u.size ≤ n := by
    by_contra hlt
    have hself := hnone u.size (by omega) (by omega)
    rw [ByteArray.extract_append_eq_left rfl, hu] at hself
    cases hself
  have hparts : (u ++ v).extract 0 n = u ++ v.extract 0 (n - u.size) := by
    rw [ByteArray.extract_append, extract_of_size_le hle]
    simp
  rw [hparts, fromUTF8?_append hu] at hlongest
  obtain ⟨more, _, rfl⟩ := Option.map_eq_some_iff.mp hlongest
  exact ⟨more.toList, by rw [hfront, String.toList_append]⟩

theorem refusedNumber?_of_text {bytes : ByteArray} {text : String}
    (h : String.fromUTF8? (skipMark bytes) = some text) :
    refusedNumber? bytes = refusedIn? text.toList := by
  rw [refusedNumber?, decodedFront_of_text h]

/-- The search in a file of text that starts without mark. -/
theorem refusedNumber?_toUTF8 {text : String}
    (hmark : skipMark text.toUTF8 = text.toUTF8) :
    refusedNumber? text.toUTF8 = refusedIn? text.toList := by
  refine refusedNumber?_of_text ?_
  rw [hmark, fromUTF8?_toUTF8]

/-! ## What a number starts with -/

theorem splitWhole_of_number {rest : List Char}
    (hne : rest.takeWhile Char.isDigit ≠ [])
    (hzero : (rest.takeWhile Char.isDigit).length = 1
      ∨ (rest.takeWhile Char.isDigit).head? ≠ some '0') :
    splitWhole rest = (rest.takeWhile Char.isDigit,
      rest.dropWhile Char.isDigit) := by
  unfold splitWhole
  split
  · rename_i tail
    have hdigit : Char.isDigit '0' = true := rfl
    simp only [List.takeWhile_cons, List.dropWhile_cons, hdigit,
      if_true] at hzero ⊢
    have hnil : tail.takeWhile Char.isDigit = [] := by
      rcases hzero with h | h
      · simpa using h
      · simp at h
    have hsame :=
      List.takeWhile_append_dropWhile (p := Char.isDigit) (l := tail)
    rw [hnil, List.nil_append] at hsame
    rw [hnil, hsame]
  · rfl

theorem frontExponent?_of_ofChars? {tail : List Char} {e : Option Exponent}
    (h : Exponent.ofChars? tail = some e) : frontExponent? tail = some e := by
  unfold Exponent.ofChars? at h
  split at h
  · cases h
    rfl
  · rename_i c rest
    simp only [frontExponent?]
    simp only [Bool.and_eq_true, Bool.not_eq_true'] at h
    split at h
    · rename_i hparts
      cases h
      have hall : (Sign.split rest).2.takeWhile Char.isDigit
          = (Sign.split rest).2 :=
        List.takeWhile_eq_self_iff.mpr (by simpa using hparts.2)
      rw [if_pos hparts.1.1, hall, if_neg (by simp [hparts.1.2])]
    · cases h

/-- A number starts with itself. -/
theorem frontNumber?_of_number {run : List Char} {n : Numeral}
    (hn : Numeral.ofChars? run = some n) (h : isNumberText n = true) :
    frontNumber? run = some n := by
  unfold Numeral.ofChars? at hn
  simp only at hn
  split at hn
  · cases hn
  obtain ⟨exponent, he, rfl⟩ := Option.map_eq_some_iff.mp hn
  simp only [isNumberText, Bool.and_eq_true, Bool.or_eq_true, bne_iff_ne, ne_eq,
    Bool.not_eq_true', List.isEmpty_eq_false_iff, beq_iff_eq] at h
  obtain ⟨⟨⟨hsign, hwhole⟩, hzero⟩, hfraction⟩ := h
  simp only [frontNumber?, splitWhole_of_number hwhole hzero,
    frontExponent?_of_ofChars? he]
  simp [hsign, hwhole, hfraction]

/-- A run starts with a number only where it starts with a minus sign or with a
digit. -/
theorem frontNumber?_of_head {c : Char} {rest : List Char} (hminus : c ≠ '-')
    (hdigit : c.isDigit = false) : frontNumber? (c :: rest) = none := by
  by_cases hplus : c = '+'
  · subst hplus
    rfl
  have hsign : Sign.split (c :: rest) = (.absent, c :: rest) := by
    unfold Sign.split
    split
    · exact absurd (by assumption) (by simp [hplus])
    · exact absurd (by assumption) (by simp [hminus])
    · rfl
  have hwhole : splitWhole (c :: rest) = ([], c :: rest) := by
    unfold splitWhole
    split
    · rename_i heq
      cases heq
      cases hdigit
    · simp [hdigit]
  simp [frontNumber?, hsign, hwhole]

/-! ## The numbers of a document -/

theorem Splitter.lexemes_of_finish? {s : Splitter} {lexemes : List Lexeme}
    (h : s.finish? = some lexemes) : s.lexemes = lexemes := by
  obtain ⟨found, state⟩ := s
  cases state with
  | between => exact Option.some.inj h
  | quoted run escaped => cases h
  | bare run => exact Option.some.inj h

namespace Position

/-- What is refused behind lexemes that the reader takes. -/
theorem firstRefusal?_append {p q : Position} {front : List Lexeme}
    (h : front.foldlM take p = some q) (rest : List Lexeme) :
    p.firstRefusal? (front ++ rest)
      = (p.firstRefusal? front).or (q.firstRefusal? rest) := by
  induction front generalizing p with
  | nil =>
    cases h
    rfl
  | cons lexeme front ih =>
    obtain ⟨next, hnext, h⟩ := Option.bind_eq_some_iff.mp h
    rw [List.cons_append, firstRefusal?, firstRefusal?]
    cases p.refusal? lexeme with
    | some fault => rfl
    | none =>
      rw [hnext]
      exact ih h

/-- A bare run that the reader takes stands where a value comes next. -/
theorem refusal?_of_take_bare {p q : Position} {run : List Char}
    (h : p.take (.bare run) = some q) :
    p.refusal? (.bare run) = (frontNumber? run).bind numberFault? := by
  cases p with
  | value outer => rfl
  | firstItem outer => rfl
  | firstKey outer => cases h
  | key before outer => cases h
  | colon before k outer => cases h
  | after done outer =>
    cases outer with
    | nil => cases h
    | cons frame rest => cases frame <;> cases h

theorem refusal?_of_ne_bare {p : Position} {lexeme : Lexeme}
    (h : ∀ run, lexeme ≠ .bare run) :
    p.refusal? lexeme = none := by
  unfold refusal?
  split
  · exact absurd rfl (h _)
  · exact absurd rfl (h _)
  · rfl

/-- Of lexemes that the reader takes, nothing is refused exactly if no bare
run starts with a number that is not taken in. -/
theorem firstRefusal?_eq_none_iff {p q : Position} {lexemes : List Lexeme}
    (h : lexemes.foldlM take p = some q) :
    p.firstRefusal? lexemes = none
      ↔ ∀ run, .bare run ∈ lexemes →
          (frontNumber? run).bind numberFault? = none := by
  induction lexemes generalizing p with
  | nil => simp [firstRefusal?]
  | cons lexeme rest ih =>
    obtain ⟨next, hnext, hrest⟩ := Option.bind_eq_some_iff.mp h
    rw [firstRefusal?, hnext]
    by_cases hbare : ∃ run, lexeme = .bare run
    · obtain ⟨run, rfl⟩ := hbare
      rw [refusal?_of_take_bare hnext]
      cases hfault : (frontNumber? run).bind numberFault? with
      | some fault =>
        simp only [reduceCtorEq, false_iff]
        exact fun hall => by
          cases hfault.symm.trans (hall run List.mem_cons_self)
      | none =>
        simp only [Option.bind_some, ih hrest, List.mem_cons, Lexeme.bare.injEq]
        exact ⟨fun hall run' hrun => hrun.elim (· ▸ hfault) (hall run'),
          fun hall run' hrun => hall run' (.inr hrun)⟩
    · have hne : ∀ run, lexeme ≠ .bare run := fun run heq => hbare ⟨run, heq⟩
      rw [refusal?_of_ne_bare hne]
      simp only [Option.bind_some, ih hrest, List.mem_cons]
      exact ⟨fun hall run hrun =>
        hrun.elim (fun heq => absurd heq.symm (hne run)) (hall run),
          fun hall run hrun => hall run (.inr hrun)⟩

end Position

/-- In a text whose lexemes the reader takes, all numbers are taken in exactly
if each bare run starts with one that is, or with none. -/
theorem refusedIn?_eq_none_iff {cs : List Char} {lexemes : List Lexeme}
    {last : Position} (hlexemes : Lexeme.ofChars? cs = some lexemes)
    (hlast : lexemes.foldlM Position.take (.value []) = some last) :
    refusedIn? cs = none
      ↔ ∀ run, .bare run ∈ lexemes →
          (frontNumber? run).bind numberFault? = none := by
  rw [refusedIn?, Splitter.lexemes_of_finish? hlexemes]
  exact Position.firstRefusal?_eq_none_iff hlast

end LeafSurvey.Json
