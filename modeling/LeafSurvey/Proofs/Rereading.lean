import LeafSurvey.Proofs.Completion
import LeafSurvey.Proofs.Kinds
import LeafSurvey.Proofs.ScalarTexts
import LeafSurvey.Proofs.Writing

/-!
# Documents that are written and read

A document of nulls, truth values, integers and texts is the form of a value,
and writing the value lays this document out. Here the layout is followed by the
splitter and the reader:

* `writes_layout`: the layout of a value is whole and splits into the lexemes of
  its document;
* `take_lexemes`: the reader takes these lexemes for the document;
* `document_of_writeValue`: so a file that the value is written to holds the
  document, and passes its check.
-/

namespace LeafSurvey

/-! ## Documents as values -/

/-- A scalar that is written as it is read. -/
inductive Atom where
  | null
  | boolean (value : Bool)
  | integer (value : Int)
  | text (value : String)
deriving DecidableEq, Repr

namespace Atom

def leaf : Atom → Leaf
  | null => .null
  | boolean b => .boolean b
  | integer n => .integer n
  | text s => .text s

def value : Atom → Value
  | null => .null
  | boolean b => .bool b
  | integer n => .int n
  | text s => .text s

/-- The lexeme that writes a scalar. -/
def lexeme : Atom → Json.Lexeme
  | null => .bare Json.nullText
  | boolean b => .bare (Json.boolText b)
  | integer n => .bare (Json.intText n)
  | text s => .quoted (Json.escape s.toList)

/-- An integer has at most 4300 digits. -/
def Fits (a : Atom) : Prop :=
  ∀ n, a = integer n → n.natAbs < Nat.pow 10 Numeral.maxDigits

theorem fits_of_lt {n : Int} {k : Nat} (hk : k ≤ Numeral.maxDigits)
    (h : n.natAbs < Nat.pow 10 k) :
    (integer n).Fits := by
  have hpow : ∀ m, k ≤ m → Nat.pow 10 k ≤ Nat.pow 10 m :=
    fun m hm => Nat.pow_le_pow_right (by decide) hm
  intro m hm
  cases hm
  exact Nat.lt_of_lt_of_le h (hpow _ hk)

theorem leaf?_lexeme (a : Atom) : a.lexeme.leaf? = some a.leaf := by
  cases a with
  | null => rfl
  | boolean b => cases b <;> rfl
  | integer n => exact Json.bareLeaf?_intText n
  | text s => exact Json.leaf?_quoted_escape s

end Atom

namespace Document

mutual

/-- The value that has the document for its form. -/
def value : Document Atom → Value
  | leaf a => a.value
  | array items => .list (valueOfItems items)
  | object members => .map (valueOfMembers members)

def valueOfItems : List (Document Atom) → List Value
  | [] => []
  | d :: rest => value d :: valueOfItems rest

def valueOfMembers : List (String × Document Atom) → List (Value × Value)
  | [] => []
  | (key, d) :: rest => (.text key, value d) :: valueOfMembers rest

end

mutual

theorem hasText_value (path : Path) (inArray : Bool) (d : Document Atom)
    (h : ∀ l ∈ d.leaves path inArray, l.value.Fits) :
    d.value.hasText = true := by
  cases d with
  | leaf a =>
    cases a with
    | integer n =>
      rw [value, Atom.value, Value.hasText, Value.isWritable, decide_eq_true_eq]
      exact h _ List.mem_cons_self n rfl
    | _ => rfl
  | array items => exact itemsHaveText_value path items h
  | object members => exact entriesHaveText_value path inArray members h

theorem itemsHaveText_value (path : Path) (items : List (Document Atom))
    (h : ∀ l ∈ leavesOfItems path items, l.value.Fits) :
    Value.itemsHaveText (valueOfItems items) = true := by
  cases items with
  | nil => rfl
  | cons d rest =>
    rw [leavesOfItems, List.forall_mem_append] at h
    rw [valueOfItems, Value.itemsHaveText, hasText_value path true d h.1,
      itemsHaveText_value path rest h.2]
    rfl

theorem entriesHaveText_value (path : Path) (inArray : Bool)
    (members : List (String × Document Atom))
    (h : ∀ l ∈ leavesOfMembers path inArray members, l.value.Fits) :
    Value.entriesHaveText (valueOfMembers members) = true := by
  cases members with
  | nil => rfl
  | cons m rest =>
    obtain ⟨key, d⟩ := m
    rw [leavesOfMembers, List.forall_mem_append] at h
    rw [valueOfMembers, Value.entriesHaveText,
      hasText_value (path ++ [key]) inArray d h.1,
      entriesHaveText_value path inArray rest h.2]
    rfl

end

mutual

/-- The lexemes that write a document. -/
def lexemes : Document Atom → List Json.Lexeme
  | leaf a => [a.lexeme]
  | array [] => [.openArray, .closeArray]
  | array (d :: rest) =>
    .openArray :: (lexemes d ++ (lexemesOfItems rest ++ [.closeArray]))
  | object [] => [.openObject, .closeObject]
  | object ((key, d) :: rest) =>
    .openObject :: .quoted (Json.escape key.toList) :: .colon
      :: (lexemes d ++ (lexemesOfMembers rest ++ [.closeObject]))

/-- The lexemes of the items after the first, commas included. -/
def lexemesOfItems : List (Document Atom) → List Json.Lexeme
  | [] => []
  | d :: rest => .comma :: (lexemes d ++ lexemesOfItems rest)

/-- The lexemes of the members after the first. -/
def lexemesOfMembers : List (String × Document Atom) → List Json.Lexeme
  | [] => []
  | (key, d) :: rest =>
    .comma :: .quoted (Json.escape key.toList) :: .colon
      :: (lexemes d ++ lexemesOfMembers rest)

end

end Document

namespace Json

/-! ## Splitting layouts -/

/-- The lexemes found once a character ends the run that may be open. -/
def Splitter.Holds (s : Splitter) (found : List Lexeme) : Prop :=
  ∀ c, endsBare c = true → s.take c = takeOutside found c

theorem holds_between (found : List Lexeme) :
    Splitter.Holds ⟨found, .between⟩ found :=
  fun _ _ => rfl

theorem holds_bare (found : List Lexeme) (run : List Char) :
    Splitter.Holds ⟨found, .bare run⟩ (.bare run.reverse :: found) := by
  intro c hc
  simp [Splitter.take, hc]

/-- A text that ends what is open and leaves nothing open splits into the given
lexemes. -/
def Completes (cs : List Char) (ls : List Lexeme) : Prop :=
  ∀ s found, Splitter.Holds s found → cs.foldl Splitter.take s
    = ⟨ls.reverse ++ found, .between⟩

/-- A whole layout splits into the given lexemes, of which the last may still be
open. -/
def Writes (l : Layout) (ls : List Lexeme) : Prop :=
  l.broken = none
    ∧ ∀ found, (l.items.foldl Splitter.take ⟨found, .between⟩).Holds
        (ls.reverse ++ found)

/-- So does a whole layout behind another, whose last lexeme it ends. -/
def Continues (l : Layout) (ls : List Lexeme) : Prop :=
  l.broken = none
    ∧ ∀ s found, Splitter.Holds s found →
        (l.items.foldl Splitter.take s).Holds (ls.reverse ++ found)

theorem Completes.append {cs ds : List Char} {ls ms : List Lexeme}
    (h : Completes cs ls) (h' : Completes ds ms) :
    Completes (cs ++ ds) (ls ++ ms) := by
  intro s found hs
  rw [List.foldl_append, h s found hs, h' _ _ (holds_between _)]
  simp

theorem completes_lineBreak (level : Nat) : Completes (lineBreak level) [] := by
  intro s found hs
  have hblanks : ∀ n, (List.replicate n ' ').foldl Splitter.take
      ⟨found, .between⟩ = ⟨found, .between⟩ := by
    intro n
    induction n with
    | zero => rfl
    | succ n ih =>
      rw [List.replicate_succ, List.foldl_cons]
      exact ih
  rw [lineBreak, List.foldl_cons, hs '\n' rfl]
  exact hblanks _

theorem completes_mark {c : Char} {mark : Lexeme}
    (hmark : Lexeme.mark? c = some mark) (hblank : isBlank c = false)
    (hquote : c ≠ '"') : Completes [c] [mark] := by
  intro s found hs
  have hends : Splitter.endsBare c = true := by simp [Splitter.endsBare, hmark]
  rw [List.foldl_cons, hs c hends]
  simp [Splitter.takeOutside, hblank, hquote, hmark]

theorem completes_stringText (s : String) :
    Completes (stringText s) [.quoted (escape s.toList)] := by
  intro splitter found hs
  have hopen : splitter.take '"' = (⟨found, .between⟩ : Splitter).take '"' :=
    hs '"' rfl
  have htext := take_stringText found s
  rw [stringText, List.foldl_cons] at htext ⊢
  rw [hopen, htext]
  rfl

theorem Continues.writes {l : Layout} {ls : List Lexeme} (h : Continues l ls) :
    Writes l ls :=
  ⟨h.1, fun found => h.2 _ _ (holds_between found)⟩

theorem items_append {x y : Layout} (hx : x.broken = none) :
    (x ++ y).items = x.items ++ y.items := by
  obtain ⟨xs, broken⟩ := x
  cases hx
  rfl

theorem Writes.append {x y : Layout} {ls ms : List Lexeme} (hx : Writes x ls)
    (hy : Continues y ms) :
    Writes (x ++ y) (ls ++ ms) := by
  refine ⟨Emission.broken_append_eq_none.mpr ⟨hx.1, hy.1⟩, fun found => ?_⟩
  rw [items_append hx.1, List.foldl_append, List.reverse_append,
    List.append_assoc]
  exact hy.2 _ _ (hx.2 found)

theorem Continues.append {x y : Layout} {ls ms : List Lexeme}
    (hx : Continues x ls) (hy : Continues y ms) :
    Continues (x ++ y) (ls ++ ms) := by
  refine ⟨Emission.broken_append_eq_none.mpr ⟨hx.1, hy.1⟩, fun s found hs => ?_⟩
  rw [items_append hx.1, List.foldl_append, List.reverse_append,
    List.append_assoc]
  exact hy.2 _ _ (hx.2 s found hs)

theorem Completes.continues {cs : List Char} {ls : List Lexeme}
    (h : Completes cs ls) :
    Continues (.ofList cs) ls := by
  refine ⟨rfl, fun s found hs => ?_⟩
  have hfold := h s found hs
  show (cs.foldl Splitter.take s).Holds _
  rw [hfold]
  exact holds_between _

/-- A value behind a text that leaves nothing open. -/
theorem Completes.behind {cs : List Char} {l : Layout} {ls ms : List Lexeme}
    (h : Completes cs ls) (hl : Writes l ms) :
    Continues (.ofList cs ++ l) (ls ++ ms) := by
  refine ⟨hl.1, fun s found hs => ?_⟩
  show ((cs ++ l.items).foldl Splitter.take s).Holds _
  rw [List.foldl_append, h s found hs, List.reverse_append, List.append_assoc]
  exact hl.2 _

theorem continues_empty : Continues .empty [] :=
  ⟨rfl, fun _ _ hs => hs⟩

/-! ## The layout of a document -/

theorem writes_bare {cs : List Char} (hne : cs ≠ [])
    (h : ∀ c ∈ cs, Splitter.endsBare c = false) :
    Writes (.ofList cs) [.bare cs] := by
  refine ⟨rfl, fun found => ?_⟩
  have hholds := holds_bare found cs.reverse
  rw [List.reverse_reverse] at hholds
  show (cs.foldl Splitter.take ⟨found, .between⟩).Holds _
  rw [take_bare found hne h]
  exact hholds

theorem writes_atom (level : Nat) {a : Atom} (h : a.value.hasText = true) :
    Writes (layout level a.value) [a.lexeme] := by
  cases a with
  | null =>
    exact writes_bare (by simp [nullText])
      (by simp [nullText, Splitter.endsBare, isBlank, Lexeme.mark?])
  | boolean b =>
    cases b <;> exact writes_bare (by simp [boolText])
      (by simp [boolText, Splitter.endsBare, isBlank, Lexeme.mark?])
  | integer n =>
    have hn : Value.isWritable n = true := h
    simp only [Atom.value, layout, hn, if_true]
    exact writes_bare (intText_ne_nil n) (endsBare_intText n)
  | text s => exact (completes_stringText s).continues.writes

/-- A value that has a text stands behind its separator. -/
theorem behind_value (separator : List Char) (l : Layout) {d : Document Atom}
    (h : d.value.hasText = true) :
    behind separator d.value l = .ofList separator ++ l := by
  have hwritable : isUnwritable d.value = false := by
    cases d with
    | leaf a =>
      cases a with
      | integer n =>
        have hn : Value.isWritable n = true := h
        simp [Document.value, Atom.value, isUnwritable, hn]
      | _ => rfl
    | array items => rfl
    | object members => rfl
  rw [behind, hwritable]
  rfl

theorem completes_key (key : String) :
    Completes (stringText key ++ [':', ' ']) [.quoted (escape key.toList),
      .colon] := by
  intro s found hs
  rw [List.foldl_append, completes_stringText key s found hs]
  rfl

theorem completes_closing (level : Nat) {c : Char} {mark : Lexeme}
    (hmark : Completes [c] [mark]) :
    Completes (lineBreak level ++ [c]) [mark] :=
  (completes_lineBreak level).append hmark

theorem completes_opening (level : Nat) {c : Char} {mark : Lexeme}
    (hmark : Completes [c] [mark]) :
    Completes (c :: lineBreak level) [mark] :=
  hmark.append (completes_lineBreak level)

theorem completes_openArray : Completes ['['] [.openArray] :=
  completes_mark rfl rfl (by decide)

theorem completes_closeArray : Completes [']'] [.closeArray] :=
  completes_mark rfl rfl (by decide)

theorem completes_openObject : Completes ['\x7b'] [.openObject] :=
  completes_mark rfl rfl (by decide)

theorem completes_closeObject : Completes ['\x7d'] [.closeObject] :=
  completes_mark rfl rfl (by decide)

theorem completes_comma : Completes [','] [.comma] :=
  completes_mark rfl rfl (by decide)

mutual

/-- The layout of a document is whole, and it splits into the lexemes of the
document. -/
theorem writes_layout (level : Nat) (d : Document Atom)
    (h : d.value.hasText = true) :
    Writes (layout level d.value) d.lexemes := by
  cases d with
  | leaf a => exact writes_atom level h
  | array items =>
    cases items with
    | nil =>
      exact (completes_openArray.append completes_closeArray).continues.writes
    | cons d rest =>
      obtain ⟨hd, hrest⟩ : d.value.hasText = true
          ∧ Value.itemsHaveText (Document.valueOfItems rest) = true :=
          Bool.and_eq_true_iff.mp h
      rw [Document.value, Document.valueOfItems, layout, behind_value _ _ hd]
      simp only [Emission.append_assoc]
      have hclose := (completes_closing level completes_closeArray).continues
      have hitems :=
        (continues_layoutItems (level + 1) rest hrest).append hclose
      have hfirst := (writes_layout (level + 1) d hd).append hitems
      exact ((completes_opening (level + 1) completes_openArray).behind
        hfirst).writes
  | object members =>
    cases members with
    | nil =>
      exact (completes_openObject.append completes_closeObject).continues.writes
    | cons m rest =>
      obtain ⟨key, d⟩ := m
      obtain ⟨hd, hrest⟩ : d.value.hasText = true
          ∧ Value.entriesHaveText (Document.valueOfMembers rest) = true :=
          Bool.and_eq_true_iff.mp h
      rw [Document.value, Document.valueOfMembers, layout]
      simp only [Emission.append_assoc]
      have hclose := (completes_closing level completes_closeObject).continues
      have hmembers :=
        (continues_layoutEntries (level + 1) rest hrest).append hclose
      have hfirst :=
        (completes_key key).behind
          ((writes_layout (level + 1) d hd).append hmembers)
      exact ((completes_opening (level + 1) completes_openObject).behind
        hfirst.writes).writes

theorem continues_layoutItems (level : Nat) (items : List (Document Atom))
    (h : Value.itemsHaveText (Document.valueOfItems items) = true) :
    Continues (layoutItems level (Document.valueOfItems items))
      (Document.lexemesOfItems items) := by
  cases items with
  | nil => exact continues_empty
  | cons d rest =>
    obtain ⟨hd, hrest⟩ : d.value.hasText = true
        ∧ Value.itemsHaveText (Document.valueOfItems rest) = true :=
        Bool.and_eq_true_iff.mp h
    rw [Document.valueOfItems, layoutItems, behind_value _ _ hd]
    have hitem :=
      (completes_opening level completes_comma).behind
        (writes_layout level d hd)
    exact hitem.append (continues_layoutItems level rest hrest)

theorem continues_layoutEntries (level : Nat)
    (members : List (String × Document Atom))
    (h : Value.entriesHaveText (Document.valueOfMembers members) = true) :
    Continues (layoutEntries level (Document.valueOfMembers members))
      (Document.lexemesOfMembers members) := by
  cases members with
  | nil => exact continues_empty
  | cons m rest =>
    obtain ⟨key, d⟩ := m
    obtain ⟨hd, hrest⟩ : d.value.hasText = true
        ∧ Value.entriesHaveText (Document.valueOfMembers rest) = true :=
        Bool.and_eq_true_iff.mp h
    have hkey :=
      (completes_opening level completes_comma).append (completes_key key)
    have hmember := hkey.behind (writes_layout level d hd)
    have hall := hmember.append (continues_layoutEntries level rest hrest)
    rw [Document.valueOfMembers, layoutEntries]
    simpa [layoutKey, keyText?, Document.lexemesOfMembers] using hall

end

/-! ## Reading the lexemes -/

theorem foldlM_take_append {p mid : Position} {xs ys : List Lexeme}
    (h : xs.foldlM Position.take p = some mid) :
    (xs ++ ys).foldlM Position.take p = ys.foldlM Position.take mid := by
  rw [List.foldlM_append, h]
  rfl

/-- Where an array has just been opened, a document is read as its first
item. -/
theorem foldlM_take_firstItem (outer : List Frame) (d : Document Atom) :
    d.lexemes.foldlM Position.take (.firstItem outer)
      = d.lexemes.foldlM Position.take (.value (.array [] :: outer)) := by
  cases d with
  | leaf a => cases a <;> rfl
  | array items => cases items <;> rfl
  | object members => cases members <;> rfl

mutual

/-- The lexemes of a document are read as the document. -/
theorem take_lexemes (outer : List Frame) (d : Document Atom) :
    d.lexemes.foldlM Position.take (.value outer)
      = some (.after (d.map Atom.leaf) outer) := by
  cases d with
  | leaf a =>
    have hstep : Position.take (.value outer) a.lexeme
        = some (.after (.leaf a.leaf) outer) := by
      have hleaf := a.leaf?_lexeme
      cases a <;> simp [Position.take, Position.takeValue, Atom.lexeme]
        at hleaf ⊢ <;> exact hleaf
    simp [Document.lexemes, hstep, Document.map]
  | array items =>
    cases items with
    | nil => rfl
    | cons d rest =>
      have hfirst := take_lexemes (.array [] :: outer) d
      rw [← foldlM_take_firstItem] at hfirst
      exact (foldlM_take_append hfirst).trans
        (take_lexemesOfItems outer (d.map Atom.leaf) [] rest)
  | object members =>
    cases members with
    | nil => rfl
    | cons m rest =>
      obtain ⟨key, d⟩ := m
      have hkey : [Lexeme.quoted (escape key.toList),
          .colon].foldlM Position.take (.firstKey outer)
          = some (.value (.object [] key :: outer)) := by
        simp [Position.take, Position.takeKey, string?_quoted_escape]
      have hfirst :=
        (foldlM_take_append hkey).trans
          (take_lexemes (.object [] key :: outer) d)
      exact (foldlM_take_append hfirst).trans
        (take_lexemesOfMembers outer key (d.map Atom.leaf) [] rest)

/-- So are the items of an array after one that is complete, up to the end of
the array. -/
theorem take_lexemesOfItems (outer : List Frame) (done : Document Leaf)
    (before : List (Document Leaf)) (items : List (Document Atom)) :
    (Document.lexemesOfItems items ++ [Lexeme.closeArray]).foldlM Position.take
        (.after done (.array before :: outer))
      = some (.after
          (.array ((done :: before).reverse ++ Document.mapItems Atom.leaf
          items)) outer) := by
  cases items with
  | nil =>
    simp [Document.lexemesOfItems, Document.mapItems, Position.take,
      Position.takeAfter]
  | cons d rest =>
    have hcomma : [Lexeme.comma].foldlM Position.take
        (.after done (.array before :: outer))
        = some (.value (.array (done :: before) :: outer)) := rfl
    have hitem :=
      (foldlM_take_append hcomma).trans
        (take_lexemes (.array (done :: before) :: outer) d)
    have hall := (foldlM_take_append hitem).trans
      (take_lexemesOfItems outer (d.map Atom.leaf) (done :: before) rest)
    simpa [Document.lexemesOfItems, Document.mapItems] using hall

theorem take_lexemesOfMembers (outer : List Frame) (key : String)
    (done : Document Leaf) (before : List (String × Document Leaf))
    (members : List (String × Document Atom)) :
    (Document.lexemesOfMembers members ++ [Lexeme.closeObject]).foldlM
      Position.take
        (.after done (.object before key :: outer))
      = some (.after (.object (((key, done) :: before).reverse
          ++ Document.mapMembers Atom.leaf members)) outer) := by
  cases members with
  | nil =>
    simp [Document.lexemesOfMembers, Document.mapMembers, Position.take,
      Position.takeAfter]
  | cons m rest =>
    obtain ⟨next, d⟩ := m
    have hkey : [Lexeme.comma, .quoted (escape next.toList),
        .colon].foldlM Position.take
        (.after done (.object before key :: outer))
          = some (.value (.object ((key, done) :: before) next :: outer)) := by
      simp [Position.take, Position.takeAfter, Position.takeKey,
        string?_quoted_escape]
    have hmember := (foldlM_take_append hkey).trans
      (take_lexemes (.object ((key, done) :: before) next :: outer) d)
    have hall :=
      (foldlM_take_append hmember).trans
        (take_lexemesOfMembers outer next (d.map Atom.leaf)
        ((key, done) :: before) rest)
    simpa [Document.lexemesOfMembers, Document.mapMembers] using hall

end

/-! ## Numbers that are written -/

/-- An integer that has a text is taken in. -/
theorem numberFault?_intText {n : Int} (h : Value.isWritable n = true) :
    (frontNumber? (intText n)).bind numberFault? = none := by
  rw [frontNumber?_of_number (ofChars?_intText n) (isNumberText_intText n),
    Option.bind_some, numberFault?]
  have hdigits : (Nat.toDigits 10 n.natAbs).length ≤ Numeral.maxDigits := by
    have hpos : 0 < Numeral.maxDigits := by decide
    rw [Value.isWritable, decide_eq_true_eq] at h
    -- the bound is never computed
    generalize Numeral.maxDigits = k at h hpos ⊢
    exact (Nat.length_toDigits_le_iff (by decide) hpos).mpr h
  simp [Numeral.isInteger, hdigits]

/-- What a lexeme writes is taken in, or it writes no number. -/
def Lexeme.IsTakenIn (lexeme : Lexeme) : Prop :=
  ∀ run, lexeme = .bare run → (frontNumber? run).bind numberFault? = none

theorem isTakenIn_atom {a : Atom} (h : a.value.hasText = true) :
    a.lexeme.IsTakenIn := by
  intro run hrun
  cases a with
  | null =>
    cases hrun
    rfl
  | boolean b =>
    cases b <;>
    · cases hrun
      rfl
  | integer n =>
    cases hrun
    exact numberFault?_intText h
  | text s => cases hrun

theorem isTakenIn_of_ne_bare {lexeme : Lexeme} (h : ∀ run, lexeme ≠ .bare run) :
    lexeme.IsTakenIn :=
  fun run hrun => absurd hrun (h run)

mutual

/-- All numbers that a document is written with are taken in. -/
theorem isTakenIn_lexemes (d : Document Atom) (h : d.value.hasText = true) :
    ∀ lexeme ∈ d.lexemes, lexeme.IsTakenIn := by
  cases d with
  | leaf a =>
    rw [Document.lexemes, List.forall_mem_singleton]
    exact isTakenIn_atom h
  | array items =>
    cases items with
    | nil => simp [Document.lexemes, Lexeme.IsTakenIn]
    | cons d rest =>
      obtain ⟨hd, hrest⟩ : d.value.hasText = true
          ∧ Value.itemsHaveText (Document.valueOfItems rest) = true :=
          Bool.and_eq_true_iff.mp h
      simp only [Document.lexemes, List.forall_mem_cons, List.forall_mem_append]
      exact ⟨isTakenIn_of_ne_bare nofun, isTakenIn_lexemes d hd,
        isTakenIn_lexemesOfItems rest hrest, isTakenIn_of_ne_bare nofun, nofun⟩
  | object members =>
    cases members with
    | nil => simp [Document.lexemes, Lexeme.IsTakenIn]
    | cons m rest =>
      obtain ⟨key, d⟩ := m
      obtain ⟨hd, hrest⟩ : d.value.hasText = true
          ∧ Value.entriesHaveText (Document.valueOfMembers rest) = true :=
          Bool.and_eq_true_iff.mp h
      simp only [Document.lexemes, List.forall_mem_cons, List.forall_mem_append]
      exact ⟨isTakenIn_of_ne_bare nofun, isTakenIn_of_ne_bare nofun,
        isTakenIn_of_ne_bare nofun, isTakenIn_lexemes d hd,
        isTakenIn_lexemesOfMembers rest hrest,
        isTakenIn_of_ne_bare nofun, nofun⟩

theorem isTakenIn_lexemesOfItems (items : List (Document Atom))
    (h : Value.itemsHaveText (Document.valueOfItems items) = true) :
    ∀ lexeme ∈ Document.lexemesOfItems items, lexeme.IsTakenIn := by
  cases items with
  | nil => exact nofun
  | cons d rest =>
    obtain ⟨hd, hrest⟩ : d.value.hasText = true
        ∧ Value.itemsHaveText (Document.valueOfItems rest) = true :=
        Bool.and_eq_true_iff.mp h
    simp only [Document.lexemesOfItems, List.forall_mem_cons,
      List.forall_mem_append]
    exact ⟨isTakenIn_of_ne_bare nofun, isTakenIn_lexemes d hd,
      isTakenIn_lexemesOfItems rest hrest⟩

theorem isTakenIn_lexemesOfMembers (members : List (String × Document Atom))
    (h : Value.entriesHaveText (Document.valueOfMembers members) = true) :
    ∀ lexeme ∈ Document.lexemesOfMembers members, lexeme.IsTakenIn := by
  cases members with
  | nil => exact nofun
  | cons m rest =>
    obtain ⟨key, d⟩ := m
    obtain ⟨hd, hrest⟩ : d.value.hasText = true
        ∧ Value.entriesHaveText (Document.valueOfMembers rest) = true :=
        Bool.and_eq_true_iff.mp h
    simp only [Document.lexemesOfMembers, List.forall_mem_cons,
      List.forall_mem_append]
    exact ⟨isTakenIn_of_ne_bare nofun, isTakenIn_of_ne_bare nofun,
      isTakenIn_of_ne_bare nofun, isTakenIn_lexemes d hd,
      isTakenIn_lexemesOfMembers rest hrest⟩

end

/-! ## Files -/

/-- The text of a file that a document is written to is whole. All its numbers
are taken in, and it is read as the document. -/
theorem ofChars?_fileText {d : Document Atom} (h : d.value.hasText = true) :
    (fileText d.value).broken = none
      ∧ refusedIn? (fileText d.value).items = none
      ∧ ofChars? (fileText d.value).items = some (d.map Atom.leaf) := by
  obtain ⟨hwhole, hholds⟩ := writes_layout 0 d h
  refine ⟨Emission.broken_append_eq_none.mpr ⟨hwhole, rfl⟩, ?_⟩
  have htake := take_lexemes [] d
  have hlexemes : Lexeme.ofChars? (fileText d.value).items
      = some d.lexemes := by
    have hsplit := completes_lineBreak 0 _ _ (hholds [])
    rw [fileText, items_append hwhole, Lexeme.ofChars?, List.foldl_append]
    show Splitter.finish? ((lineBreak 0).foldl _ _) = _
    rw [Splitter.start, hsplit]
    simp [Splitter.finish?]
  refine ⟨(refusedIn?_eq_none_iff hlexemes htake).mpr fun run hrun => ?_, ?_⟩
  · exact isTakenIn_lexemes d h _ hrun run rfl
  · simp [ofChars?, hlexemes, htake, Position.finish?]

/-- A layout starts with a character of one byte. -/
theorem head_layout (level : Nat) {d : Document Atom}
    (h : d.value.hasText = true) :
    ∃ c rest, (layout level d.value).items = c :: rest ∧ c.utf8Size = 1 := by
  cases d with
  | leaf a =>
    cases a with
    | null => exact ⟨_, _, rfl, rfl⟩
    | boolean b => cases b <;> exact ⟨_, _, rfl, rfl⟩
    | integer n =>
      have hn : Value.isWritable n = true := h
      obtain ⟨c, rest, htext⟩ := List.exists_cons_of_ne_nil (intText_ne_nil n)
      refine ⟨c, rest, ?_, utf8Size_intText n c (by simp [htext])⟩
      simp [Document.value, Atom.value, layout, hn, Emission.ofList, htext]
    | text s => exact ⟨_, _, rfl, rfl⟩
  | array items =>
    cases items with
    | nil => exact ⟨_, _, rfl, rfl⟩
    | cons d rest =>
      have hd : d.value.hasText = true := (Bool.and_eq_true_iff.mp h).1
      rw [Document.value, Document.valueOfItems, layout, behind_value _ _ hd]
      simp only [Emission.append_assoc]
      exact ⟨_, _, rfl, rfl⟩
  | object members =>
    cases members with
    | nil => exact ⟨_, _, rfl, rfl⟩
    | cons m rest =>
      rw [Document.value, Document.valueOfMembers, layout]
      simp only [Emission.append_assoc]
      exact ⟨_, _, rfl, rfl⟩

end Json

namespace Store

/-- Some file can be placed at the path. -/
def Accepts (s : Store) (p : FilePath) : Prop :=
  ∃ bytes left, s.place p bytes = (.ok (), left)

/-- Whether a file can be placed does not depend on what it is to hold. -/
theorem Accepts.place {s : Store} {p : FilePath} (h : s.Accepts p)
    (bytes : ByteArray) :
    ∃ left, s.place p bytes = (.ok (), left) := by
  obtain ⟨other, left, hplace⟩ := h
  obtain ⟨made, hmade, hwrite⟩ := place_eq_ok.mp hplace
  obtain ⟨place, hresolve, hfree, _⟩ := write_eq_ok.mp hwrite
  exact ⟨_, place_eq_ok.mpr ⟨made, hmade,
    write_eq_ok.mpr ⟨place, hresolve, hfree, rfl⟩⟩⟩

end Store

namespace Survey

/-- Wherever a file can be placed, a document of nulls, truth values, integers
of at most 4300 digits and texts is written, if it repeats no key. Then the file
holds this document, and passes its check with the number of its leaves. -/
theorem document_of_writeValue {s : Store} {path : FilePath} {d : Document Atom}
    (hpath : s.Accepts path) (hfits : ∀ l ∈ d.leaves [] false, l.value.Fits)
    (hkeys : d.hasDistinctKeys = true) :
    ∃ left, writeValue path d.value s = (.ok (), left)
      ∧ left.document path = .ok (d.map Atom.leaf)
      ∧ left.checkFile path = .ok d.leafCount := by
  have htext := Document.hasText_value [] false d hfits
  obtain ⟨hwhole, hnumbers, hchars⟩ := Json.ofChars?_fileText htext
  obtain ⟨left, hplace⟩ := hpath.place (fileBytes d.value)
  have hwrite := writeValue_eq_ok.mpr ⟨hplace, hwhole⟩
  have hread := read_writeValue hwrite
  -- no mark stands in front that would be skipped
  obtain ⟨c, rest, hhead, hc⟩ := Json.head_layout 0 htext
  have hstart : (String.ofList (Json.fileText d.value).items).toList
      = c :: (rest ++ ['\n']) := by
    rw [String.toList_ofList, Json.fileText,
      Json.items_append (Json.writes_layout 0 d htext).1, hhead]
    rfl
  have hmark : Json.skipMark (fileBytes d.value) = fileBytes d.value :=
    Json.skipMark_toUTF8 hstart hc
  rw [← String.toList_ofList (l := (Json.fileText d.value).items)]
    at hnumbers hchars
  have hdistinct : (d.map Atom.leaf).hasDistinctKeys = true :=
    (Document.hasDistinctKeys_map Atom.leaf d).trans hkeys
  have hwritten := Store.writtenDocument_of_text hread hmark hnumbers hchars
  refine ⟨left, hwrite, ?_, ?_⟩
  · refine Outcome.bind_eq_ok.mpr ⟨_, hwritten, ?_⟩
    rw [Document.collapse_eq_self hdistinct]
    rfl
  · rw [Store.checkFile_of_text hread hmark hnumbers hchars
      (Document.lost_eq_nil [] false hdistinct), Document.leafCount_map]

end Survey

/-- A document with empty and nested parts, a negative integer, and texts with a
quote, a backslash, controls and a character beyond the basic plane. -/
def Document.assorted : Document Atom :=
  .object [("a\"\\\n\x01",
    .array [.leaf (.integer (-120)), .object [], .array [], .leaf .null]),
    ("", .object [("😀", .leaf (.text "\t\x1f/😀")),
      ("b", .leaf (.boolean true))])]

/-- It comes back from a file whose directory had to be made. -/
theorem Survey.document_of_assorted :
    ∃ left, writeValue ⟨.working, ["out", "d.json"]⟩ Document.assorted.value
      .empty = (.ok (), left)
      ∧ left.document ⟨.working, ["out", "d.json"]⟩
          = .ok (Document.assorted.map Atom.leaf)
      ∧ left.checkFile ⟨.working, ["out", "d.json"]⟩ = .ok 4 := by
  have hfits : ∀ l ∈ Document.assorted.leaves [] false, l.value.Fits := by
    intro l hl
    simp only [Document.assorted, Document.leaves, Document.leavesOfMembers,
      Document.leavesOfItems, List.append_nil, List.nil_append,
      List.cons_append, List.mem_cons, List.not_mem_nil, or_false] at hl
    rcases hl with rfl | rfl | rfl | rfl
    · exact Atom.fits_of_lt (by decide : 3 ≤ Numeral.maxDigits) (by decide)
    · exact fun _ h => nomatch h
    · exact fun _ h => nomatch h
    · exact fun _ h => nomatch h
  exact document_of_writeValue ⟨.empty, _, rfl⟩ hfits (by decide)

/-- An integer of 4301 digits. -/
def Document.longInteger : Document Atom :=
  .leaf (.integer (Nat.pow 10 Numeral.maxDigits))

theorem Json.fileText_longInteger :
    fileText Document.longInteger.value
      = .fail (.value (.int (Nat.pow 10 Numeral.maxDigits))) := by
  have hlong : Value.isWritable (Nat.pow 10 Numeral.maxDigits) = false := by
    rw [Value.isWritable, Int.natAbs_natCast]
    exact decide_eq_false (Nat.lt_irrefl _)
  rw [Document.longInteger, Document.value, Atom.value, fileText, layout, hlong]
  rfl

/-- It is not written, also where a file can be placed: the file holds
nothing. -/
theorem Survey.long_integer_is_not_written :
    Store.empty.Accepts ⟨.working, ["d.json"]⟩
      ∧ Document.longInteger.hasDistinctKeys = true
      ∧ ∃ left, writeValue
          ⟨.working, ["d.json"]⟩ Document.longInteger.value .empty
            = (.error (.misuse .tooManyDigits), left)
        ∧ left.document ⟨.working, ["d.json"]⟩
            = .error (.document ⟨.working, ["d.json"]⟩ .notJson) := by
  have hplace : ∀ bytes, ∃ left, Store.empty.place
      ⟨.working, ["d.json"]⟩ bytes = (.ok (), left)
      ∧ left.read ⟨.working, ["d.json"]⟩ = .ok bytes := fun _ => ⟨_, rfl, rfl⟩
  have hbroken : (Json.fileText Document.longInteger.value).broken
      = some (.value (.int (Nat.pow 10 Numeral.maxDigits))) := by
    rw [Json.fileText_longInteger]
    rfl
  have hbytes : fileBytes Document.longInteger.value = "".toUTF8 := by
    rw [fileBytes, Json.fileText_longInteger]
    rfl
  have hmark : Json.skipMark "".toUTF8 = "".toUTF8 := by
    rw [Json.skipMark, if_neg]
    rw [Json.toList_eq_data]
    decide
  have hnothing : Json.ofBytes? "".toUTF8 = .error .notJson := by
    rw [Json.ofBytes?, hmark, Json.fromUTF8?_toUTF8]
    rfl
  have hnumbers : Json.refusedNumber? "".toUTF8 = none :=
    Json.refusedNumber?_toUTF8 hmark
  obtain ⟨left, hleft, hread⟩ := hplace (fileBytes Document.longInteger.value)
  refine ⟨⟨.empty, _, rfl⟩, rfl, left, writeValue_of_broken hleft hbroken, ?_⟩
  rw [hbytes] at hread
  refine Outcome.bind_eq_error.mpr (.inl ?_)
  exact (Store.writtenDocument_eq_error hread).mpr
    (.inr ⟨_, hnumbers, hnothing, rfl⟩)

end LeafSurvey
