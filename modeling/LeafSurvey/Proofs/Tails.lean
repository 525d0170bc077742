import LeafSurvey.Proofs.Kinds
import LeafSurvey.Proofs.Skeletons

/-!
# What may stand behind a document

A text that writes a document can only be continued by blanks. Splitting never
takes back a lexeme that it has found, so what follows either adds a lexeme,
which the reader refuses behind a complete value, or goes on with the bare run
at the end; and of the bare runs only a number can be continued to another leaf.
For the same reason no number behind a document is ever looked at.

* `finish?_foldl`, `lexemes_foldl_bare`: the lexemes that a continued text
  splits into;
* `ofChars?_append`: a text that writes a document and its continuation;
* `ofBytes?_append`: the same for bytes, whatever characters they cut through;
* `refusedNumber?_append`: no bytes behind a document bring a refused number;
* `one_document_only`: what a file holds when bytes are added at its end or
  taken away there.
-/

namespace LeafSurvey

/-- A document that is a number, with nothing around it. -/
def Document.IsNumber (d : Document Leaf) : Prop :=
  ∃ a : Leaf, d = .leaf a ∧ a.kind = .number

theorem Document.isNumber_collapse {d : Document Leaf} :
    d.collapse.IsNumber ↔ d.IsNumber := by
  cases d with
  | leaf a => rfl
  | array items => simp [IsNumber, collapse]
  | object members => simp [IsNumber, collapse]

namespace Json

/-! ## Splitting a longer text -/

namespace Splitter

/-- One character adds lexemes, or opens or continues a run, or is a blank
between lexemes. -/
theorem take_cases (s : Splitter) (c : Char) :
    (∃ lexeme more, (s.take c).found = lexeme :: (more ++ s.found))
      ∨ (s.take c).found = s.found
        ∧ ((s.take c).state = .between → s.state = .between
            ∧ isBlank c = true) := by
  have houtside : ∀ found,
      (∃ lexeme, (takeOutside found c).found = lexeme :: found)
      ∨ (takeOutside found c).found = found
        ∧ ((takeOutside found c).state = .between → isBlank c = true) := by
    intro found
    unfold takeOutside
    by_cases hblank : isBlank c = true
    · exact .inr (by simp [hblank])
    by_cases hquote : c = '"'
    · subst hquote
      exact .inr (by simp [isBlank])
    cases hmark : Lexeme.mark? c with
    | some mark => exact .inl ⟨mark, by simp [hblank, hquote]⟩
    | none => exact .inr (by simp [hblank, hquote])
  obtain ⟨found, state⟩ := s
  cases state with
  | between =>
    rcases houtside found with ⟨lexeme, h⟩ | ⟨h, hstate⟩
    · exact .inl ⟨lexeme, [], h⟩
    · exact .inr ⟨h, fun hbetween => ⟨rfl, hstate hbetween⟩⟩
  | quoted run escaped =>
    cases escaped with
    | true => exact .inr ⟨rfl, fun h => nomatch h⟩
    | false =>
      by_cases hquote : c = '"'
      · exact .inl ⟨.quoted run.reverse, [], by simp [take, hquote]⟩
      · exact .inr (by simp [take, hquote])
  | bare run =>
    by_cases hends : endsBare c = true
    -- the run is found, and perhaps a mark behind it
    · rcases houtside (.bare run.reverse :: found) with ⟨lexeme, h⟩ | ⟨h, _⟩
      · exact .inl ⟨lexeme, [.bare run.reverse], by simpa [take, hends] using h⟩
      · exact .inl ⟨.bare run.reverse, [], by simpa [take, hends] using h⟩
    · exact .inr (by simp [take, hends])

/-- The lexemes of a longer text start with those found before. There are more
of them, unless nothing was open and only blanks have followed. -/
theorem finish?_foldl {s : Splitter} {cs : List Char} {lexemes : List Lexeme}
    (h : (cs.foldl take s).finish? = some lexemes) :
    ∃ more, lexemes = s.found.reverse ++ more
      ∧ (more = [] → s.state = .between ∧ ∀ c ∈ cs, isBlank c = true) := by
  induction cs generalizing s with
  | nil =>
    obtain ⟨found, state⟩ := s
    cases state with
    | between =>
      cases h
      exact ⟨[], (List.append_nil _).symm, fun _ => ⟨rfl, by simp⟩⟩
    | quoted run escaped => cases h
    | bare run =>
      cases h
      exact ⟨[.bare run.reverse], List.reverse_cons, by simp⟩
  | cons c rest ih =>
    obtain ⟨more, hlexemes, hnone⟩ := ih h
    rcases s.take_cases c with ⟨lexeme, new, hfound⟩ | ⟨hfound, hstate⟩
    · refine ⟨new.reverse ++ lexeme :: more, ?_, by simp⟩
      rw [hlexemes, hfound]
      simp
    · refine ⟨more, by rw [hlexemes, hfound], fun hmore => ?_⟩
      obtain ⟨hbetween, hrest⟩ := hnone hmore
      obtain ⟨hbefore, hblank⟩ := hstate hbetween
      exact ⟨hbefore, List.forall_mem_cons.mpr ⟨hblank, hrest⟩⟩

/-- What has been found in a front of a text stands in front of its lexemes. -/
theorem lexemes_foldl (s : Splitter) (cs : List Char) :
    ∃ more, (cs.foldl take s).lexemes = s.found.reverse ++ more := by
  induction cs generalizing s with
  | nil =>
    obtain ⟨found, state⟩ := s
    cases state with
    | between => exact ⟨[], (List.append_nil _).symm⟩
    | quoted run escaped => exact ⟨[], (List.append_nil _).symm⟩
    | bare run => exact ⟨[.bare run.reverse], List.reverse_cons⟩
  | cons c rest ih =>
    obtain ⟨more, hmore⟩ := ih (s.take c)
    rw [List.foldl_cons, hmore]
    rcases s.take_cases c with ⟨lexeme, new, hfound⟩ | ⟨hfound, _⟩
    · exact ⟨new.reverse ++ lexeme :: more, by simp [hfound]⟩
    · exact ⟨more, by rw [hfound]⟩

/-- A character that ends a bare run is taken as behind the run. -/
theorem take_bare_of_ends {found : List Lexeme} {run : List Char} {c : Char}
    (h : endsBare c = true) :
    (⟨found, .bare run⟩ : Splitter).take c
      = (⟨.bare run.reverse :: found, .between⟩ : Splitter).take c := by
  simp [take, h]

/-- A bare run at the end of a text is continued by what does not end it. -/
theorem lexemes_foldl_bare (found : List Lexeme) (run cs : List Char) :
    ∃ more, (cs.foldl take ⟨found, .bare run⟩).lexemes
      = found.reverse ++ .bare
          (run.reverse ++ cs.takeWhile fun c => !endsBare c) :: more := by
  induction cs generalizing run with
  | nil => exact ⟨[], by simp [lexemes]⟩
  | cons c rest ih =>
    by_cases hends : endsBare c = true
    · obtain ⟨more, hmore⟩ :=
        lexemes_foldl ⟨.bare run.reverse :: found, .between⟩ (c :: rest)
      rw [List.foldl_cons, take_bare_of_ends hends, ← List.foldl_cons, hmore]
      exact ⟨more, by simp [hends]⟩
    · have hopen : (⟨found, .bare run⟩ : Splitter).take c
          = ⟨found, .bare (c :: run)⟩ := by
        simp [take, hends]
      obtain ⟨more, hmore⟩ := ih (c :: run)
      rw [List.foldl_cons, hopen, hmore]
      exact ⟨more, by simp [hends]⟩

/-- Blanks at the end add nothing. -/
theorem finish?_foldl_blanks {s : Splitter} {cs : List Char}
    {lexemes : List Lexeme} (hblanks : ∀ c ∈ cs, isBlank c = true)
    (h : s.finish? = some lexemes) :
    (cs.foldl take s).finish? = some lexemes := by
  induction cs generalizing s with
  | nil => exact h
  | cons c rest ih =>
    obtain ⟨hc, hrest⟩ := List.forall_mem_cons.mp hblanks
    have hstep : (s.take c).finish? = some lexemes := by
      obtain ⟨found, state⟩ := s
      cases state with
      | between => simpa [take, takeOutside, hc] using h
      | quoted run escaped => cases h
      | bare run =>
        have hends : endsBare c = true := by simp [endsBare, hc]
        simpa [take, takeOutside, hends, hc, finish?] using h
    exact ih hrest hstep

end Splitter

/-! ## Bare runs that are continued -/

/-- The words that write a leaf. -/
def words : List (List Char) :=
  [['n', 'u', 'l', 'l'], ['t', 'r', 'u', 'e'], ['f', 'a', 'l', 's', 'e']]

/-- A number starts with a minus sign or with a digit. -/
theorem head_of_isNumberText {cs : List Char} {n : Numeral}
    (hn : Numeral.ofChars? cs = some n) (h : isNumberText n = true) :
    ∃ c rest, cs = c :: rest ∧ (c = '-' ∨ c.isDigit = true) := by
  have hfields : n.sign = (Sign.split cs).1
      ∧ n.whole = (Sign.split cs).2.takeWhile Char.isDigit := by
    simp only [Numeral.ofChars?] at hn
    split at hn
    · cases hn
    · obtain ⟨exponent, _, rfl⟩ := Option.map_eq_some_iff.mp hn
      exact ⟨rfl, rfl⟩
  have hsign : n.sign ≠ .plus := by
    rintro hplus
    simp [isNumberText, hplus] at h
  have hwhole : n.whole ≠ [] := by
    rintro hempty
    simp [isNumberText, hempty] at h
  rw [hfields.1] at hsign
  rw [hfields.2] at hwhole
  unfold Sign.split at hsign hwhole
  split at hsign
  · exact absurd rfl hsign
  · exact ⟨_, _, rfl, .inl rfl⟩
  · cases cs with
    | nil => exact absurd rfl hwhole
    | cons c rest =>
      refine ⟨c, rest, rfl, .inr ?_⟩
      by_contra hdigit
      simp [hdigit] at hwhole

theorem bareLeaf?_cases {run : List Char} {a : Leaf}
    (h : bareLeaf? run = some a) :
    run ∈ words ∧ a.kind ≠ .number
      ∨ a.kind = .number
          ∧ ∃ c rest, run = c :: rest ∧ (c = '-' ∨ c.isDigit = true) := by
  unfold bareLeaf? at h
  split at h
  · rename_i hword
    cases h
    exact .inl ⟨by simp [words, hword], by simp [Leaf.kind]⟩
  split at h
  · rename_i hword
    cases h
    exact .inl ⟨by simp [words, hword], by simp [Leaf.kind]⟩
  split at h
  · rename_i hword
    cases h
    exact .inl ⟨by simp [words, hword], by simp [Leaf.kind]⟩
  split at h
  · rename_i n hn
    split at h
    · rename_i hnumber
      cases h
      refine .inr ⟨?_, head_of_isNumberText hn hnumber⟩
      unfold numberLeaf
      split <;> rfl
    · cases h
  · cases h

/-- No word goes on to another leaf, so only numbers are continued, and only to
numbers. -/
theorem bareLeaf?_append {run more : List Char} {a b : Leaf} (hne : more ≠ [])
    (ha : bareLeaf? run = some a) (hb : bareLeaf? (run ++ more) = some b) :
    a.kind = .number ∧ b.kind = .number := by
  have hhead : ∀ c rest, c :: rest ∈ words → ¬(c = '-' ∨ c.isDigit = true) := by
    intro c rest hword
    simp only [words, List.mem_cons, List.cons.injEq, List.not_mem_nil,
      or_false] at hword
    rcases hword with ⟨rfl, _⟩ | ⟨rfl, _⟩ | ⟨rfl, _⟩ <;> decide
  rcases bareLeaf?_cases ha with ⟨hword, _⟩ | ⟨hanumber, c, rest, rfl, hc⟩
  · exfalso
    rcases bareLeaf?_cases hb with ⟨hlonger, _⟩ | ⟨_, c, rest, heq, hc⟩
    -- two words that start alike are the same word
    · obtain ⟨d, tail, rfl⟩ := List.exists_cons_of_ne_nil hne
      simp only [words, List.mem_cons, List.not_mem_nil, or_false] at hword
      rcases hword with rfl | rfl | rfl <;> simp [words] at hlonger
    · simp only [words, List.mem_cons, List.not_mem_nil, or_false] at hword
      rcases hword with rfl | rfl | rfl <;> cases heq <;>
        exact absurd hc (by decide)
  · rcases bareLeaf?_cases hb with ⟨hlonger, _⟩ | ⟨hbnumber, _⟩
    · exact absurd hc (hhead c _ hlonger)
    · exact ⟨hanumber, hbnumber⟩

/-! ## Reading a longer text -/

/-- A bare run after which a document is complete is the whole document. -/
theorem take_bare_eq_after {p : Position} {run : List Char} {d : Document Leaf}
    (h : p.take (.bare run) = some (.after d [])) :
    p = .value [] ∧ ∃ a, bareLeaf? run = some a ∧ d = .leaf a := by
  cases p with
  | value outer =>
    obtain ⟨a, ha, hafter⟩ := Option.map_eq_some_iff.mp h
    cases hafter
    exact ⟨rfl, a, ha, rfl⟩
  | firstItem outer =>
    obtain ⟨a, _, hafter⟩ := Option.map_eq_some_iff.mp h
    cases hafter
  | firstKey outer => cases h
  | key before outer => cases h
  | colon before k outer => cases h
  | after done outer => cases outer with
    | nil => cases h
    | cons frame rest => cases frame <;> cases h

/-- Nothing is read behind a complete document. -/
theorem foldlM_take_after {d : Document Leaf} {lexemes : List Lexeme}
    {last : Position}
    (h : lexemes.foldlM Position.take (.after d []) = some last) :
    lexemes = [] ∧ last = .after d [] := by
  cases lexemes with
  | nil =>
    cases h
    exact ⟨rfl, rfl⟩
  | cons lexeme rest => cases h

theorem ofChars?_eq_some {cs : List Char} {d : Document Leaf} :
    ofChars? cs = some d ↔ ∃ lexemes, Lexeme.ofChars? cs = some lexemes
      ∧ lexemes.foldlM Position.take (.value []) = some (.after d []) := by
  unfold ofChars?
  constructor
  · intro h
    obtain ⟨lexemes, hlexemes, h⟩ := Option.bind_eq_some_iff.mp h
    obtain ⟨last, hlast, h⟩ := Option.bind_eq_some_iff.mp h
    unfold Position.finish? at h
    split at h
    · cases h
      exact ⟨lexemes, hlexemes, hlast⟩
    · cases h
  · rintro ⟨lexemes, hlexemes, hlast⟩
    exact Option.bind_eq_some_iff.mpr ⟨lexemes, hlexemes,
      Option.bind_eq_some_iff.mpr ⟨_, hlast, rfl⟩⟩

/-- Blanks behind a document change nothing. -/
theorem ofChars?_append_blanks {cs blanks : List Char} {d : Document Leaf}
    (hblanks : ∀ c ∈ blanks, isBlank c = true) (h : ofChars? cs = some d) :
    ofChars? (cs ++ blanks) = some d := by
  obtain ⟨lexemes, hlexemes, hlast⟩ := ofChars?_eq_some.mp h
  refine ofChars?_eq_some.mpr ⟨lexemes, ?_, hlast⟩
  rw [Lexeme.ofChars?, List.foldl_append]
  exact Splitter.finish?_foldl_blanks hblanks hlexemes

/-- Where nothing is open behind the lexemes of a document, only blanks may
follow. -/
theorem blanks_of_between {found : List Lexeme} {cs : List Char}
    {lexemes : List Lexeme} {d e : Document Leaf}
    (hd : found.reverse.foldlM Position.take (.value []) = some (.after d []))
    (hlexemes : (cs.foldl Splitter.take ⟨found, .between⟩).finish?
      = some lexemes)
    (he : lexemes.foldlM Position.take (.value []) = some (.after e [])) :
    (∀ c ∈ cs, isBlank c = true) ∧ e = d := by
  obtain ⟨more, rfl, hnone⟩ := Splitter.finish?_foldl hlexemes
  rw [List.foldlM_append, hd] at he
  obtain ⟨hmore, hafter⟩ := foldlM_take_after he
  cases hafter
  exact ⟨(hnone hmore).2, rfl⟩

/-- A text that writes a document is continued by blanks, or from one number to
another. -/
theorem ofChars?_append {cs tail : List Char} {d e : Document Leaf}
    (hd : ofChars? cs = some d) (he : ofChars? (cs ++ tail) = some e) :
    (∀ c ∈ tail, isBlank c = true) ∧ e = d ∨ d.IsNumber ∧ e.IsNumber := by
  obtain ⟨lexemes, hlexemes, hlast⟩ := ofChars?_eq_some.mp hd
  obtain ⟨longer, hlonger, hend⟩ := ofChars?_eq_some.mp he
  rw [Lexeme.ofChars?, List.foldl_append] at hlonger
  unfold Lexeme.ofChars? at hlexemes
  generalize cs.foldl Splitter.take Splitter.start = s at hlexemes hlonger
  obtain ⟨found, state⟩ := s
  cases state with
  | between =>
    cases hlexemes
    exact .inl (blanks_of_between hlast hlonger hend)
  | quoted run escaped => cases hlexemes
  | bare run =>
    cases hlexemes
    cases tail with
    | nil =>
      cases hlonger
      cases hlast.symm.trans hend
      exact .inl ⟨by simp, rfl⟩
    | cons c rest =>
      by_cases hends : Splitter.endsBare c = true
      · rw [List.foldl_cons, Splitter.take_bare_of_ends hends,
          ← List.foldl_cons] at hlonger
        exact .inl (blanks_of_between hlast hlonger hend)
      -- the run goes on, so it is the whole document in both texts
      · obtain ⟨more, hmore⟩ :=
          Splitter.lexemes_foldl_bare found run (c :: rest)
        rw [Splitter.lexemes_of_finish? hlonger] at hmore
        subst hmore
        rw [List.reverse_cons, List.foldlM_append] at hlast
        rw [List.foldlM_append] at hend
        obtain ⟨p, hp, hlast⟩ := Option.bind_eq_some_iff.mp hlast
        rw [hp, Option.bind_eq_bind, Option.bind_some, List.foldlM_cons] at hend
        obtain ⟨next, hnext, hrest⟩ := Option.bind_eq_some_iff.mp hlast
        cases hrest
        obtain ⟨rfl, a, ha, rfl⟩ := take_bare_eq_after hnext
        obtain ⟨next', hnext', hrest'⟩ := Option.bind_eq_some_iff.mp hend
        obtain ⟨b, hb, rfl⟩ := Option.map_eq_some_iff.mp hnext'
        obtain ⟨_, hafter⟩ := foldlM_take_after hrest'
        cases hafter
        have hgoes : (c :: rest).takeWhile (fun c => !Splitter.endsBare c)
            ≠ [] := by simp [hends]
        obtain ⟨hanumber, hbnumber⟩ := bareLeaf?_append hgoes ha hb
        exact .inr ⟨⟨a, rfl, hanumber⟩, ⟨b, rfl, hbnumber⟩⟩

/-! ## Numbers behind a document -/

/-- Behind a complete document no number is looked at. -/
theorem firstRefusal?_after (d : Document Leaf) (lexemes : List Lexeme) :
    (Position.after d []).firstRefusal? lexemes = none := by
  cases lexemes with
  | nil => rfl
  | cons lexeme rest => cases lexeme <;> rfl

/-- Where nothing is open behind the lexemes of a document, what follows brings
no number that is looked at. -/
theorem firstRefusal?_of_between {found : List Lexeme} {d : Document Leaf}
    (hd : found.reverse.foldlM Position.take (.value []) = some (.after d []))
    (hnone : Position.firstRefusal? (.value []) found.reverse = none)
    (cs : List Char) :
    Position.firstRefusal? (.value [])
      (cs.foldl Splitter.take ⟨found, .between⟩).lexemes
      = none := by
  obtain ⟨more, hmore⟩ := Splitter.lexemes_foldl ⟨found, .between⟩ cs
  rw [hmore, Position.firstRefusal?_append hd, hnone, firstRefusal?_after]
  rfl

/-- A word that is continued starts with no number. -/
theorem frontNumber?_of_word {run : List Char} (h : run ∈ words)
    (more : List Char) :
    frontNumber? (run ++ more) = none := by
  simp only [words, List.mem_cons, List.not_mem_nil, or_false] at h
  rcases h with rfl | rfl | rfl <;> exact frontNumber?_of_head (by decide) rfl

/-- In a text that writes a document which is no number, whatever is put behind
it brings no number that is looked at. -/
theorem refusedIn?_append {cs : List Char} {d : Document Leaf}
    (hd : ofChars? cs = some d) (hroot : ¬d.IsNumber)
    (hnone : refusedIn? cs = none) (tail : List Char) :
    refusedIn? (cs ++ tail) = none := by
  obtain ⟨lexemes, hlexemes, hlast⟩ := ofChars?_eq_some.mp hd
  rw [refusedIn?, Splitter.lexemes_of_finish? hlexemes] at hnone
  rw [refusedIn?, List.foldl_append]
  unfold Lexeme.ofChars? at hlexemes
  generalize cs.foldl Splitter.take Splitter.start = s at hlexemes
  obtain ⟨found, state⟩ := s
  cases state with
  | between =>
    cases hlexemes
    exact firstRefusal?_of_between hlast hnone tail
  | quoted run escaped => cases hlexemes
  | bare run =>
    cases hlexemes
    cases tail with
    | nil => exact hnone
    | cons c rest =>
      by_cases hends : Splitter.endsBare c = true
      · rw [List.foldl_cons, Splitter.take_bare_of_ends hends,
          ← List.foldl_cons]
        exact firstRefusal?_of_between hlast hnone (c :: rest)
      -- the run goes on: it is the whole document, so it is a word that is no
      -- word any more
      · obtain ⟨more, hmore⟩ :=
          Splitter.lexemes_foldl_bare found run (c :: rest)
        rw [List.reverse_cons, List.foldlM_append] at hlast
        obtain ⟨p, hp, hlast⟩ := Option.bind_eq_some_iff.mp hlast
        obtain ⟨next, hnext, hrest⟩ := Option.bind_eq_some_iff.mp hlast
        cases hrest
        obtain ⟨rfl, a, ha, rfl⟩ := take_bare_eq_after hnext
        have hkind : a.kind ≠ .number := fun hkind => hroot ⟨a, rfl, hkind⟩
        have hword : run.reverse ∈ words :=
          (bareLeaf?_cases ha).elim (·.1) fun h => absurd h.1 hkind
        rw [List.reverse_cons, Position.firstRefusal?_append hp] at hnone
        rw [hmore, Position.firstRefusal?_append hp,
          (Option.or_eq_none_iff.mp hnone).1, Position.firstRefusal?,
          Position.refusal?, frontNumber?_of_word hword]
        have hgoes : (c :: rest).takeWhile (fun c => !Splitter.endsBare c)
            ≠ [] := by simp [hends]
        cases hb : bareLeaf?
            (run.reverse ++ (c :: rest).takeWhile fun c =>
                !Splitter.endsBare c) with
        | some b => exact absurd (bareLeaf?_append hgoes ha hb).1 hkind
        | none => simp [Position.take, Position.takeValue, Lexeme.leaf?, hb]

/-! ## Bytes behind a document -/

/-- The bytes of the blanks. -/
def blankBytes : List UInt8 := [0x20, 0x09, 0x0A, 0x0D, 0x0B, 0x0C]

/-- Bytes that write blanks only. -/
def IsBlankBytes (bytes : ByteArray) : Prop :=
  ∀ b ∈ bytes.data.toList, b ∈ blankBytes

instance (bytes : ByteArray) : Decidable (IsBlankBytes bytes) :=
  inferInstanceAs (Decidable (∀ b ∈ bytes.data.toList, b ∈ blankBytes))

theorem exists_blanks {v : ByteArray} (h : IsBlankBytes v) :
    ∃ blanks, String.fromUTF8? v = some blanks
      ∧ ∀ c ∈ blanks.toList, isBlank c = true := by
  have hbyte : ∀ b ∈ blankBytes, isBlank (Char.ofNat b.toNat) = true
      ∧ String.utf8EncodeChar (Char.ofNat b.toNat) = [b] := by
    decide +kernel
  have hencode : ∀ bytes : List UInt8, (∀ b ∈ bytes, b ∈ blankBytes) →
      (bytes.map fun b => Char.ofNat b.toNat).flatMap String.utf8EncodeChar
        = bytes := by
    intro bytes hbytes
    induction bytes with
    | nil => rfl
    | cons b rest ih =>
      obtain ⟨hb, hrest⟩ := List.forall_mem_cons.mp hbytes
      rw [List.map_cons, List.flatMap_cons, (hbyte b hb).2, ih hrest]
      rfl
  refine ⟨String.ofList (v.data.toList.map fun b => Char.ofNat b.toNat), ?_, ?_⟩
  · rw [fromUTF8?_eq_some]
    refine ByteArray.ext (Array.toList_inj.mp ?_)
    rw [toList_data_toUTF8, String.toList_ofList, hencode _ h]
  · intro c hc
    rw [String.toList_ofList] at hc
    obtain ⟨b, hb, rfl⟩ := List.mem_map.mp hc
    exact (hbyte b (h b hb)).1

theorem isBlankBytes_of_blanks {v : ByteArray} {text : String}
    (hv : String.fromUTF8? v = some text)
    (h : ∀ c ∈ text.toList, isBlank c = true) : IsBlankBytes v := by
  have hbytes : blankBytes = [' ', '\t', '\n', '\r', '\x0b',
      '\x0c'].flatMap String.utf8EncodeChar := rfl
  intro b hb
  rw [fromUTF8?_eq_some.mp hv, toList_data_toUTF8] at hb
  obtain ⟨c, hc, hb⟩ := List.mem_flatMap.mp hb
  rw [hbytes]
  refine List.mem_flatMap.mpr ⟨c, ?_, hb⟩
  simpa [isBlank, or_assoc] using h c hc

/-- A mark in front of a document is skipped also with bytes behind it. -/
theorem skipMark_append_of_document {u : ByteArray} {text : String}
    {d : Document Leaf} (hu : String.fromUTF8? (skipMark u) = some text)
    (hd : ofChars? text.toList = some d) (v : ByteArray) :
    skipMark (u ++ v) = skipMark u ++ v := by
  refine skipMark_append hu ?_ v
  rintro rfl
  cases hd

/-- The text of a longer file is the text of its front and what is decoded
behind it. -/
theorem fromUTF8?_skipMark_append {u : ByteArray} {text : String}
    {d : Document Leaf} (hu : String.fromUTF8? (skipMark u) = some text)
    (hd : ofChars? text.toList = some d) (v : ByteArray) :
    String.fromUTF8? (skipMark (u ++ v))
      = (String.fromUTF8? v).map (text ++ ·) := by
  rw [skipMark_append_of_document hu hd, fromUTF8?_append hu]

/-- Bytes behind a document that is no number bring no number that is looked
at. -/
theorem refusedNumber?_append {u : ByteArray} {d : Document Leaf}
    (hd : ofBytes? u = .ok d) (hroot : ¬d.IsNumber)
    (hnone : refusedNumber? u = none) (v : ByteArray) :
    refusedNumber? (u ++ v) = none := by
  obtain ⟨text, hu, hd⟩ := ofBytes?_eq_ok.mp hd
  rw [refusedNumber?_of_text hu] at hnone
  obtain ⟨more, hmore⟩ := decodedFront_append hu v
  rw [refusedNumber?, skipMark_append_of_document hu hd, hmore]
  exact refusedIn?_append hd hroot hnone more

theorem ofBytes?_append_blanks {u v : ByteArray} {d : Document Leaf}
    (hd : ofBytes? u = .ok d) (hv : IsBlankBytes v) :
    ofBytes? (u ++ v) = .ok d := by
  obtain ⟨text, hu, hd⟩ := ofBytes?_eq_ok.mp hd
  obtain ⟨blanks, hv, hblanks⟩ := exists_blanks hv
  refine ofBytes?_eq_ok.mpr ⟨text ++ blanks, ?_, ?_⟩
  · rw [fromUTF8?_skipMark_append hu hd, hv, Option.map_some]
  · rw [String.toList_append]
    exact ofChars?_append_blanks hblanks hd

/-- A file that holds a document is continued by blanks, or from one number to
another. -/
theorem ofBytes?_append {u v : ByteArray} {d e : Document Leaf}
    (hd : ofBytes? u = .ok d) (he : ofBytes? (u ++ v) = .ok e) :
    IsBlankBytes v ∧ e = d ∨ d.IsNumber ∧ e.IsNumber := by
  obtain ⟨text, hu, hd⟩ := ofBytes?_eq_ok.mp hd
  obtain ⟨longer, hlonger, he⟩ := ofBytes?_eq_ok.mp he
  rw [fromUTF8?_skipMark_append hu hd] at hlonger
  obtain ⟨tail, hv, rfl⟩ := Option.map_eq_some_iff.mp hlonger
  rw [String.toList_append] at he
  rcases ofChars?_append hd he with ⟨hblanks, heq⟩ | hnumbers
  · exact .inl ⟨isBlankBytes_of_blanks hv hblanks, heq⟩
  · exact .inr hnumbers

end Json

/-! ## Files -/

namespace Store

theorem document_eq_ok {s : Store} {p : FilePath} {bytes : ByteArray}
    {d : Document Leaf} (hbytes : s.read p = .ok bytes) : s.document p = .ok d
      ↔ Json.refusedNumber? bytes = none
        ∧ ∃ written, Json.ofBytes? bytes = .ok written
            ∧ d = written.collapse := by
  constructor
  · intro h
    obtain ⟨written, hwritten, hd⟩ := Outcome.bind_eq_ok.mp h
    cases hd
    obtain ⟨bytes', hbytes', hnumbers, hread⟩ :=
      writtenDocument_eq_ok.mp hwritten
    cases hbytes.symm.trans hbytes'
    exact ⟨hnumbers, written, hread, rfl⟩
  · rintro ⟨hnumbers, written, hread, rfl⟩
    exact Outcome.bind_eq_ok.mpr
      ⟨written, writtenDocument_eq_ok.mpr ⟨bytes, hbytes, hnumbers, hread⟩, rfl⟩

/-- What both ways of reading a file answer when it holds a document. -/
theorem reads_of_ofBytes? {s : Store} {p : FilePath} {bytes : ByteArray}
    {written : Document Leaf} (hbytes : s.read p = .ok bytes)
    (hnumbers : Json.refusedNumber? bytes = none)
    (h : Json.ofBytes? bytes = .ok written) :
    s.document p = .ok written.collapse
      ∧ s.countTokens p = .ok written.leafCount := by
  obtain ⟨es, hholds⟩ :=
    exists_holds (writtenDocument_eq_ok.mpr ⟨bytes, hbytes, hnumbers, h⟩)
  exact ⟨hholds.document, hholds.tokens⟩

/-- Both ways of reading a file fail with the same failure. -/
def BothFail (s : Store) (p : FilePath) (failure : Failure) : Prop :=
  s.document p = .error failure ∧ s.countTokens p = .error failure

/-- What both ways of reading a file answer when it holds none: a number of it
is not taken in, or it is no document. -/
theorem refuses_of_ofBytes? {s : Store} {p : FilePath} {bytes : ByteArray}
    (hbytes : s.read p = .ok bytes)
    (h : ∀ written, Json.ofBytes? bytes ≠ .ok written) :
    (∃ fault, Json.refusedNumber? bytes = some fault
      ∧ s.BothFail p (.number fault))
      ∨ ∃ fault, s.BothFail p (.document p fault) := by
  cases hwritten : s.writtenDocument p with
  | ok written =>
    obtain ⟨bytes', hbytes', _, hread⟩ := writtenDocument_eq_ok.mp hwritten
    cases hbytes.symm.trans hbytes'
    exact absurd hread (h written)
  | error failure =>
    have hfails := fails_of_written hwritten
    rcases (writtenDocument_eq_error hbytes).mp hwritten with
      ⟨fault, hnumber, rfl⟩ | ⟨fault, _, _, rfl⟩
    · exact .inl ⟨fault, hnumber, hfails.document, hfails.tokens⟩
    · exact .inr ⟨fault, hfails.document, hfails.tokens⟩

/-- A file that holds a document with a root that is no number: bytes at its end
leave the document and its count as they are when they are blanks, and both ways
of reading refuse the file as no document with any others; they also refuse each
front of it that leaves out more than blanks, as no document or for a number
that breaks off out of bounds. -/
theorem one_document_only {s : Store} {p : FilePath} {u : ByteArray}
    {d : Document Leaf} (hu : s.read p = .ok u) (hd : s.document p = .ok d)
    (hroot : ¬d.IsNumber) :
    ∃ n, s.countTokens p = .ok n
      ∧ (∀ (t : Store) (q : FilePath) (v : ByteArray), t.read q = .ok (u ++ v) →
          (Json.IsBlankBytes v → t.document q = .ok d ∧ t.countTokens q = .ok n)
          ∧ (¬Json.IsBlankBytes v → ∃ fault, t.BothFail q (.document q fault)))
      ∧ ∀ (t : Store) (q : FilePath) (front dropped : ByteArray),
          t.read q = .ok front → u = front ++ dropped →
          ¬Json.IsBlankBytes dropped →
          (∃ fault, Json.refusedNumber? front = some fault
            ∧ t.BothFail q (.number fault))
            ∨ ∃ fault, t.BothFail q (.document q fault) := by
  obtain ⟨hnumbers, written, hwritten, rfl⟩ := (document_eq_ok hu).mp hd
  have hnumber : ¬written.IsNumber := mt Document.isNumber_collapse.mpr hroot
  refine ⟨written.leafCount, (reads_of_ofBytes? hu hnumbers hwritten).2, ?_, ?_⟩
  · intro t q v hlonger
    have hnone := Json.refusedNumber?_append hwritten hnumber hnumbers v
    refine ⟨fun hblank => ?_, fun hmore => ?_⟩
    · exact reads_of_ofBytes? hlonger hnone
        (Json.ofBytes?_append_blanks hwritten hblank)
    · refine (refuses_of_ofBytes? hlonger fun e he => ?_).resolve_left
        fun ⟨_, hsome, _⟩ => ?_
      · rcases Json.ofBytes?_append hwritten he with ⟨hblank, _⟩ | ⟨hn, _⟩
        · exact hmore hblank
        · exact hnumber hn
      · cases hnone.symm.trans hsome
  · rintro t q front dropped hfront rfl hmore
    refine refuses_of_ofBytes? hfront fun e he => ?_
    rcases Json.ofBytes?_append he hwritten with ⟨hblank, _⟩ | ⟨_, hn⟩
    · exact hmore hblank
    · exact hnumber hn

/-- An array of one word may have a line break behind it, but no number, and it
must be closed. -/
theorem one_document_only_array :
    let p : FilePath := ⟨.working, ["d.json"]⟩
    let d : Document Leaf := .array [.leaf (.boolean true)]
    (ofText "d.json" "[true]").read p = .ok "[true]".toUTF8
      ∧ (ofText "d.json" "[true]").document p = .ok d ∧ ¬d.IsNumber
      ∧ ∃ n, (ofText "d.json" "[true]").countTokens p = .ok n
        ∧ ((ofText "d.json" "[true]\n").document p = .ok d
          ∧ (ofText "d.json" "[true]\n").countTokens p = .ok n)
        ∧ (∃ fault, (ofText "d.json" "[true]1").BothFail p (.document p fault))
        ∧ ∃ fault, (ofText "d.json" "[true").BothFail p
            (.document p fault) := by
  intro p d
  have hbytes : ∀ text, (ofText "d.json" text).read p = .ok text.toUTF8 :=
    fun _ => rfl
  have happend : ∀ text tail : String,
      (text ++ tail).toUTF8 = text.toUTF8 ++ tail.toUTF8 := by
    simp [String.toUTF8_eq_toByteArray]
  have hblank : Json.IsBlankBytes "\n".toUTF8 := by decide +kernel
  have hdigit : ¬Json.IsBlankBytes "1".toUTF8 := by decide +kernel
  have hbracket : ¬Json.IsBlankBytes "]".toUTF8 := by decide +kernel
  have hmark : Json.skipMark "[true]".toUTF8 = "[true]".toUTF8 :=
    Json.skipMark_toUTF8
      (show "[true]".toList = '[' :: "true]".toList from rfl) rfl
  have hd : (ofText "d.json" "[true]").document p = .ok d :=
    (document_eq_ok (hbytes _)).mpr
      ⟨(Json.refusedNumber?_toUTF8 hmark).trans rfl, d,
       Json.ofBytes?_toUTF8 hmark rfl, rfl⟩
  have hroot : ¬d.IsNumber := fun ⟨_, h, _⟩ => nomatch h
  obtain ⟨n, hn, hlonger, hshorter⟩ := one_document_only (hbytes _) hd hroot
  refine ⟨hbytes _, hd, hroot, n, hn, ?_, ?_, ?_⟩
  · exact (hlonger _ p _
      ((hbytes _).trans (congrArg _ (happend "[true]" "\n")))).1 hblank
  · exact (hlonger _ p _
      ((hbytes _).trans (congrArg _ (happend "[true]" "1")))).2 hdigit
  · have hfront : Json.skipMark "[true".toUTF8 = "[true".toUTF8 :=
      Json.skipMark_toUTF8
        (show "[true".toList = '[' :: "true".toList from rfl) rfl
    have hnone : Json.refusedNumber? "[true".toUTF8 = none :=
      (Json.refusedNumber?_toUTF8 hfront).trans rfl
    refine (hshorter _ p _ _ (hbytes "[true") (happend "[true" "]")
      hbracket).resolve_left ?_
    rintro ⟨fault, hsome, _⟩
    cases hnone.symm.trans hsome

end Store

end LeafSurvey
