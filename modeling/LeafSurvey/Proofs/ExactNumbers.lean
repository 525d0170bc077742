import LeafSurvey.Proofs.NumberLiterals
import LeafSurvey.Proofs.Tails

/-!
# Numbers in documents

A number literal anywhere in the text of a document is one lexeme, the reader
takes it where it waits for a value, and its entry holds the decimal of the
literal. Nothing is rounded on the way.

* `lexemes_of_literal`: the text splits into what stands before the literal, the
  literal, and more;
* `scalar?_of_take_bare`: where the reader takes a bare run, the run writes the
  scalar of that place;
* `numbers_survive_exactly`: the entry of a literal, by its place in the text,
  its value and its representation.
-/

namespace LeafSurvey

namespace Json

/-! ## A run among the lexemes -/

/-- A literal between lexemes is a lexeme. -/
theorem lexemes_of_literal {front back : List Char} {lit : NumberLiteral}
    {before lexemes : List Lexeme}
    (hfront : front.foldl Splitter.take .start = ⟨before.reverse, .between⟩)
    (hback : ∀ c ∈ back.head?, Splitter.endsBare c = true)
    (h : Lexeme.ofChars? (front ++ lit.chars ++ back) = some lexemes) :
    ∃ more, lexemes = before ++ .bare lit.chars :: more := by
  rw [Lexeme.ofChars?, List.foldl_append, List.foldl_append, hfront,
    take_bare _ lit.chars_ne_nil lit.endsBare_chars] at h
  obtain ⟨more, hlexemes⟩ :=
    Splitter.lexemes_foldl_bare before.reverse lit.chars.reverse back
  rw [Splitter.lexemes_of_finish? h] at hlexemes
  -- nothing of what follows belongs to the run
  have hrun : back.takeWhile (fun c => !Splitter.endsBare c) = [] := by
    cases back with
    | nil => rfl
    | cons c rest => simp [hback c rfl]
  refine ⟨more, ?_⟩
  rw [hlexemes, hrun, List.reverse_reverse, List.reverse_reverse,
    List.append_nil]

theorem scalars_append (outer : List Enclosure) (xs ys : List Lexeme) :
    Lexeme.scalars outer (xs ++ ys)
      = Lexeme.scalars outer xs
          ++ Lexeme.scalars (xs.foldl Lexeme.enclose outer) ys := by
  induction xs generalizing outer with
  | nil => rfl
  | cons x rest ih =>
    rw [List.cons_append, Lexeme.scalars, ih, Lexeme.scalars, List.append_assoc]
    rfl

/-- The reader has reached what its lexemes enclose. -/
theorem reached_foldlM {lexemes : List Lexeme} {p last : Position}
    (h : lexemes.foldlM Position.take p = some last) :
    last.reached = lexemes.foldl Lexeme.enclose p.reached := by
  induction lexemes generalizing p with
  | nil =>
    cases h
    rfl
  | cons lexeme rest ih =>
    rw [List.foldlM_cons, Option.bind_eq_bind, Option.bind_eq_some_iff] at h
    obtain ⟨next, hnext, hrest⟩ := h
    rw [ih hrest, (take_tracks hnext).reached, List.foldl_cons]

/-- A bare run is taken where a value starts, and writes the scalar of the
place. -/
theorem scalar?_of_take_bare {p next : Position} {run : List Char}
    (h : p.take (.bare run) = some next) :
    (Lexeme.bare run).scalar? p.reached
      = (bareLeaf? run).map fun a => ⟨Enclosure.path p.reached, a,
          Enclosure.inArray p.reached⟩ := by
  cases p with
  | value outer => exact scalar?_enclosures outer _
  | firstItem outer => rfl
  | firstKey outer => cases h
  | key before outer => cases h
  | colon before k outer => cases h
  | after done outer =>
    cases outer with
    | nil => cases h
    | cons frame rest => cases frame <;> cases h

/-- The leaf of a bare run among the lexemes of a document. -/
theorem leaves_of_bare {cs run : List Char} {d : Document Leaf} {a : Leaf}
    {before more : List Lexeme} (hd : ofChars? cs = some d)
    (hlexemes : Lexeme.ofChars? cs = some (before ++ .bare run :: more))
    (ha : bareLeaf? run = some a) :
    ∃ rest, d.leaves [] false = Lexeme.scalars [] before
      ++ ⟨Enclosure.path (before.foldl Lexeme.enclose []), a,
          Enclosure.inArray (before.foldl Lexeme.enclose [])⟩ :: rest := by
  obtain ⟨lexemes, hsame, hlast⟩ := ofChars?_eq_some.mp hd
  cases hlexemes.symm.trans hsame
  obtain ⟨lexemes, hsame', hscalars⟩ := scalars_eq_leaves hd
  cases hlexemes.symm.trans hsame'
  -- the reader has come to the run with the enclosures of what stands before it
  rw [List.foldlM_append, Option.bind_eq_bind, Option.bind_eq_some_iff] at hlast
  obtain ⟨p, hp, hlast⟩ := hlast
  rw [List.foldlM_cons, Option.bind_eq_bind, Option.bind_eq_some_iff] at hlast
  obtain ⟨next, hnext, _⟩ := hlast
  have hreached : p.reached = before.foldl Lexeme.enclose [] :=
    reached_foldlM hp
  have hscalar := scalar?_of_take_bare hnext
  rw [hreached, ha] at hscalar
  refine ⟨Lexeme.scalars
    ((Lexeme.bare run).enclose (before.foldl Lexeme.enclose [])) more, ?_⟩
  rw [← hscalars, scalars_append, Lexeme.scalars, hscalar]
  rfl

end Json

namespace Store

open Json

/-- A number literal stands in the text of a file, between `front` and `back`:
`before` are the lexemes of what precedes it, no string and no other run being
open there, and what follows does not go on with it. -/
structure HasLiteral (s : Store) (p : FilePath) (lit : NumberLiteral)
    (before : List Lexeme) : Prop where
  stands : ∃ bytes text front back, s.read p = .ok bytes
    ∧ String.fromUTF8? (skipMark bytes) = some text
    ∧ text.toList = front ++ lit.chars ++ back
    ∧ front.foldl Splitter.take .start = ⟨before.reverse, .between⟩
    ∧ ∀ c ∈ back.head?, Splitter.endsBare c = true

/-- In a file whose document repeats no key, a number literal has its entry
behind those of the scalars that precede it in the text, with the path and the
mark of its place. The number in it has the value that the literal denotes. An
integer is that integer, with exponent zero; any other literal keeps its sign,
all its digits and its power of ten, lowered by one for each digit behind the
point. -/
theorem numbers_survive_exactly {s : Store} {p : FilePath} {d : Document Leaf}
    {lit : NumberLiteral} {before : List Lexeme}
    (hliteral : s.HasLiteral p lit before)
    (hwritten : s.writtenDocument p = .ok d)
    (hkeys : d.hasDistinctKeys = true) :
    ∃ es number, s.entriesOfFile p = .ok es
      ∧ es[(Lexeme.scalars [] before).length]?
        = some ⟨Enclosure.path (before.foldl Lexeme.enclose []), .number number,
            Enclosure.inArray (before.foldl Lexeme.enclose [])⟩
      ∧ number.value = lit.value
      ∧ ('.' ∉ lit.chars ∧ 'e' ∉ lit.chars ∧ 'E' ∉ lit.chars →
          number = .ofInt lit.integer ∧ number.exponent = 0)
      ∧ ('.' ∈ lit.chars ∨ 'e' ∈ lit.chars ∨ 'E' ∈ lit.chars →
          number.negative = lit.negative
            ∧ number.coefficient
                = Digits.value (lit.whole ++ lit.fractionDigits)
            ∧ number.exponent = lit.power - lit.fractionDigits.length) := by
  obtain ⟨bytes, text, front, back, hread, htext, hparts, hfront, hback⟩ :=
    hliteral.stands
  obtain ⟨bytes', hread', _, hd⟩ := writtenDocument_eq_ok.mp hwritten
  cases hread.symm.trans hread'
  obtain ⟨text', htext', hd⟩ := ofBytes?_eq_ok.mp hd
  cases htext.symm.trans htext'
  rw [hparts] at hd
  obtain ⟨lexemes, hlexemes, _⟩ := ofChars?_eq_some.mp hd
  obtain ⟨more, rfl⟩ := lexemes_of_literal hfront hback hlexemes
  obtain ⟨rest, hleaves⟩ := leaves_of_bare hd hlexemes lit.bareLeaf?_chars
  -- every leaf has its entry, in its place
  obtain ⟨es, hes, hentries, _⟩ := exists_holds_of_distinct hwritten hkeys
  have hentry :
      (es.map (Except.ok (ε := Binary)))[(Lexeme.scalars [] before).length]?
      = some (Placed.entry? ⟨Enclosure.path (before.foldl Lexeme.enclose []),
          numberLeaf lit.numeral,
          Enclosure.inArray (before.foldl Lexeme.enclose [])⟩) := by
    rw [← Outcome.mapM_eq_ok.mp hentries, hleaves]
    simp
  rw [Placed.entry?, lit.scalar?_numberLeaf, List.getElem?_map,
    Option.map_eq_some_iff] at hentry
  obtain ⟨e, he, heq⟩ := hentry
  cases heq
  refine ⟨es, lit.decimal, hes, he, lit.value_decimal, fun hnone => ?_,
    fun hsome => ?_⟩
  · rw [NumberLiteral.decimal, if_pos (lit.isInteger_iff.mpr hnone)]
    exact ⟨rfl, rfl⟩
  · have hnot : ¬lit.isInteger = true := by
      rw [lit.isInteger_iff]
      tauto
    rw [NumberLiteral.decimal, if_neg hnot]
    exact ⟨rfl, rfl, rfl⟩

end Store

/-! ## A literal with everything in it -/

/-- A negative literal with a fraction that ends in a zero and an exponent that
starts with one. -/
def NumberLiteral.padded : NumberLiteral where
  negative := true
  whole := [0]
  fraction := some [5, 0]
  exponent := some ⟨'e', .plus, [0, 3], .inl rfl, by decide⟩
  whole_nonempty := by decide
  no_needless_zero := by decide
  fraction_nonempty := by decide

/-- A document with that literal in an array, behind another number. -/
def Store.paddedText : String :=
  "\x7b\"a\": [12, -0.50e+03], \"b\": \"x\"\x7d"

theorem Store.hasLiteral_padded :
    (ofText "d.json" paddedText).HasLiteral ⟨.working, ["d.json"]⟩ .padded
    [.openObject, .quoted ['a'], .colon, .openArray,
      .bare ['1', '2'], .comma] where
  stands := by
    refine ⟨paddedText.toUTF8, paddedText, "\x7b\"a\": [12, ".toList,
      "], \"b\": \"x\"\x7d".toList, rfl, ?_, by decide, by decide, ?_⟩
    · rw [Json.skipMark_toUTF8 rfl rfl, Json.fromUTF8?_toUTF8]
    · intro c hc
      cases hc
      rfl

/-- The entry keeps the last zero of the fraction: fifty times ten. -/
theorem Store.entry_of_padded :
    ∃ es number, (ofText "d.json" paddedText).entriesOfFile
      ⟨.working, ["d.json"]⟩ = .ok es
      ∧ es[1]? = some ⟨["a"], .number number, true⟩
      ∧ number.negative = true ∧ number.coefficient = 50 ∧ number.exponent = 1
      ∧ number.value = (-500 : ℚ) := by
  have hwritten : (ofText "d.json" paddedText).writtenDocument
      ⟨.working, ["d.json"]⟩
      = .ok (.object [("a",
          .array [.leaf (.integer 12), .leaf (.decimal ⟨true, 50, 1⟩)]),
          ("b", .leaf (.text "x"))]) :=
    writtenDocument_of_text rfl (Json.skipMark_toUTF8 rfl rfl) rfl rfl
  obtain ⟨es, number, hes, hentry, hvalue, _, hdigits⟩ :=
    numbers_survive_exactly hasLiteral_padded hwritten (by decide)
  obtain ⟨hnegative, hcoefficient, hexponent⟩ := hdigits (by decide)
  have hfifty : number.coefficient = 50 := hcoefficient
  have hten : number.exponent = 1 := hexponent
  refine ⟨es, number, hes, hentry, hnegative, hfifty, hten, ?_⟩
  rw [Decimal.value, hnegative, hfifty, hten]
  norm_num [NumberLiteral.padded]

end LeafSurvey
