import LeafSurvey.Proofs.Kinds

/-!
# Texts without their scalars

The skeleton of a text keeps its marks and its keys as they are, and of every
scalar token the kind alone. Texts with one skeleton are read in step: the
reader stands at places that are alike, with documents behind it that have the
same kinds.

* `take_alike`: one step of the reader, with two lexemes that leave the same
  token;
* `foldlM_take_alike`: a whole run of the reader;
* `ofBytes?_alike`: a file with the skeleton of a file that holds a document
  holds a document of the same kinds.
-/

namespace LeafSurvey.Json

/-! ## Skeletons -/

/-- What is left of a lexeme without the value of its scalar. -/
inductive Token where
  | fixed (lexeme : Lexeme)
  | scalar (kind : Kind)
deriving DecidableEq, Repr

namespace Lexeme

/-- The token of a lexeme with the given enclosures. A key is no scalar. -/
def token (outer : List Enclosure) (lexeme : Lexeme) : Token :=
  match lexeme.scalar? outer with
  | some l => .scalar l.value.kind
  | none => .fixed lexeme

/-- The tokens of lexemes, in order, when the first lexeme has the given
enclosures. -/
def skeleton (outer : List Enclosure) : List Lexeme → List Token
  | [] => []
  | lexeme :: rest => token outer lexeme :: skeleton (enclose outer lexeme) rest

/-- Lexemes with one token are the same, or write scalars of one kind where no
key is awaited. -/
theorem token_cases {outer : List Enclosure} {x y : Lexeme}
    (h : x.token outer = y.token outer) :
    x = y ∨ ∃ a b, x.leaf? = some a ∧ y.leaf? = some b ∧ a.kind = b.kind
      ∧ ∀ rest, outer ≠ .object none :: rest := by
  have hscalar : ∀ {lexeme : Lexeme} {l : Placed Leaf},
      lexeme.scalar? outer = some l →
      lexeme.leaf? = some l.value ∧ ∀ rest, outer ≠ .object none :: rest := by
    intro lexeme l hl
    unfold scalar? at hl
    split at hl
    · cases hl
    · rename_i hkey
      obtain ⟨a, ha, rfl⟩ := Option.map_eq_some_iff.mp hl
      exact ⟨ha, hkey⟩
  unfold token at h
  cases hx : x.scalar? outer with
  | none =>
    rw [hx] at h
    cases hy : y.scalar? outer with
    | none =>
      rw [hy] at h
      exact .inl (Token.fixed.inj h)
    | some m =>
      rw [hy] at h
      cases h
  | some l =>
    rw [hx] at h
    cases hy : y.scalar? outer with
    | none =>
      rw [hy] at h
      cases h
    | some m =>
      rw [hy] at h
      obtain ⟨ha, hkey⟩ := hscalar hx
      exact .inr ⟨l.value, m.value, ha, (hscalar hy).1,
        Token.scalar.inj h, hkey⟩

end Lexeme

/-- The skeleton of a file that splits into lexemes. -/
def skeletonOfBytes? (bytes : ByteArray) : Option (List Token) := do
  let s ← String.fromUTF8? (skipMark bytes)
  let lexemes ← Lexeme.ofChars? s.toList
  return Lexeme.skeleton [] lexemes

/-! ## Places that are alike -/

/-- Open frames that hold documents of the same kinds. -/
inductive Frame.Alike : Frame → Frame → Prop
  | array {xs ys : List (Document Leaf)} :
      Document.mapItems Leaf.kind xs = Document.mapItems Leaf.kind ys →
        Alike (array xs) (array ys)
  | object {xs ys : List (String × Document Leaf)} (key : String) :
      Document.mapMembers Leaf.kind xs = Document.mapMembers Leaf.kind ys →
      Alike (object xs key) (object ys key)

/-- Places that a reader has reached with documents of the same kinds behind
it. -/
inductive Position.Alike : Position → Position → Prop
  | value {outer outer' : List Frame} : List.Forall₂ Frame.Alike outer outer' →
      Alike (value outer) (value outer')
  | firstItem {outer outer' : List Frame} :
      List.Forall₂ Frame.Alike outer outer' →
      Alike (firstItem outer) (firstItem outer')
  | firstKey {outer outer' : List Frame} :
      List.Forall₂ Frame.Alike outer outer' →
      Alike (firstKey outer) (firstKey outer')
  | key {xs ys : List (String × Document Leaf)} {outer outer' : List Frame} :
      Document.mapMembers Leaf.kind xs = Document.mapMembers Leaf.kind ys →
      List.Forall₂ Frame.Alike outer outer' →
        Alike (key xs outer) (key ys outer')
  | colon {xs ys : List (String × Document Leaf)} (k : String)
      {outer outer' : List Frame} :
      Document.mapMembers Leaf.kind xs = Document.mapMembers Leaf.kind ys →
      List.Forall₂ Frame.Alike outer outer' →
        Alike (colon xs k outer) (colon ys k outer')
  | after {d e : Document Leaf} {outer outer' : List Frame} : d.map Leaf.kind
      = e.map Leaf.kind →
      List.Forall₂ Frame.Alike outer outer' →
        Alike (after d outer) (after e outer')

theorem enclosures_eq {outer outer' : List Frame}
    (h : List.Forall₂ Frame.Alike outer outer') :
    enclosures outer = enclosures outer' := by
  induction h with
  | nil => rfl
  | cons hframe _ ih =>
    have hhead : ∀ {f g : Frame}, f.Alike g → f.enclosure = g.enclosure := by
      intro f g h
      cases h with
      | array => rfl
      | object => rfl
    rw [enclosures, List.map_cons, hhead hframe]
    exact congrArg _ ih

namespace Position

theorem Alike.reached_eq {p p' : Position} (h : Alike p p') :
    p.reached = p'.reached := by
  cases h with
  | value houter => exact enclosures_eq houter
  | firstItem houter => exact congrArg (List.cons .array) (enclosures_eq houter)
  | firstKey houter =>
    exact congrArg (List.cons (.object none)) (enclosures_eq houter)
  | key _ houter =>
    exact congrArg (List.cons (.object none)) (enclosures_eq houter)
  | colon k _ houter =>
    exact congrArg (List.cons (.object (some k))) (enclosures_eq houter)
  | after _ houter => exact enclosures_eq houter

/-! ## One step -/

variable {outer outer' : List Frame} {x y : Lexeme} {next : Position}

theorem takeValue_leaf {a : Leaf} (h : x.leaf? = some a) :
    takeValue outer x = some (after (.leaf a) outer) := by
  cases x with
  | quoted raw => rw [takeValue, h] <;> simp
  | bare run => rw [takeValue, h] <;> simp
  | _ => cases h

theorem takeValue_alike (houter : List.Forall₂ Frame.Alike outer outer')
    (h : takeValue outer x = some next) :
    ∃ next', takeValue outer' x = some next' ∧ Alike next next' := by
  unfold takeValue at h
  split at h
  · cases h
    exact ⟨_, rfl, .firstItem houter⟩
  · cases h
    exact ⟨_, rfl, .firstKey houter⟩
  · obtain ⟨a, ha, rfl⟩ := Option.map_eq_some_iff.mp h
    exact ⟨_, takeValue_leaf ha, .after rfl houter⟩

theorem takeKey_alike {xs ys : List (String × Document Leaf)}
    (hbefore : Document.mapMembers Leaf.kind xs
      = Document.mapMembers Leaf.kind ys)
    (houter : List.Forall₂ Frame.Alike outer outer')
    (h : takeKey xs outer x = some next) :
    ∃ next', takeKey ys outer' x = some next' ∧ Alike next next' := by
  obtain ⟨k, hk, rfl⟩ := Option.map_eq_some_iff.mp h
  refine ⟨colon ys k outer', ?_, .colon k hbefore houter⟩
  rw [takeKey, hk, Option.map_some]

theorem takeAfter_alike {d e : Document Leaf}
    (hdone : d.map Leaf.kind = e.map Leaf.kind)
    (houter : List.Forall₂ Frame.Alike outer outer')
    (h : takeAfter d outer x = some next) :
    ∃ next', takeAfter e outer' x = some next' ∧ Alike next next' := by
  cases houter with
  | nil => cases h
  | cons hframe hrest =>
    cases hframe with
    | @array xs ys hbefore =>
      have hitems : Document.mapItems Leaf.kind (d :: xs)
          = Document.mapItems Leaf.kind (e :: ys) :=
        congrArg₂ List.cons hdone hbefore
      cases x with
      | comma =>
        cases h
        exact ⟨_, rfl, .value (.cons (.array hitems) hrest)⟩
      | closeArray =>
        cases h
        refine ⟨_, rfl, .after (congrArg Document.array ?_) hrest⟩
        rw [Document.mapItems_eq_map, Document.mapItems_eq_map] at hitems ⊢
        rw [List.map_reverse, hitems, List.map_reverse]
      | _ => cases h
    | @object xs ys k hbefore =>
      have hmembers : Document.mapMembers Leaf.kind ((k, d) :: xs)
          = Document.mapMembers Leaf.kind ((k, e) :: ys) :=
        congrArg₂ List.cons (congrArg (Prod.mk k) hdone) hbefore
      cases x with
      | comma =>
        cases h
        exact ⟨_, rfl, .key hmembers hrest⟩
      | closeObject =>
        cases h
        refine ⟨_, rfl, .after (congrArg Document.object ?_) hrest⟩
        rw [Document.mapMembers_eq_map, Document.mapMembers_eq_map]
          at hmembers ⊢
        rw [List.map_reverse, hmembers, List.map_reverse]
      | _ => cases h

theorem take_same_alike {p p' : Position} (hp : Alike p p')
    (h : p.take x = some next) :
    ∃ next', p'.take x = some next' ∧ Alike next next' := by
  cases hp with
  | value houter => exact takeValue_alike houter h
  | @firstItem outer outer' houter =>
    have hvalue : takeValue (.array [] :: outer) x = some next →
        ∃ next', takeValue (.array [] :: outer') x = some next'
          ∧ Alike next next' :=
      takeValue_alike (.cons (.array rfl) houter)
    cases x with
    | closeArray =>
      cases h
      exact ⟨_, rfl, .after rfl houter⟩
    | _ => exact hvalue h
  | @firstKey outer outer' houter =>
    have hkey : takeKey [] outer x = some next →
        ∃ next', takeKey [] outer' x = some next' ∧ Alike next next' :=
      takeKey_alike rfl houter
    cases x with
    | closeObject =>
      cases h
      exact ⟨_, rfl, .after rfl houter⟩
    | _ => exact hkey h
  | key hbefore houter => exact takeKey_alike hbefore houter h
  | colon k hbefore houter =>
    cases x with
    | colon =>
      cases h
      exact ⟨_, rfl, .value (.cons (.object k hbefore) houter)⟩
    | _ => cases h
  | after hdone houter => exact takeAfter_alike hdone houter h

/-- A lexeme that writes a leaf closes nothing. -/
theorem take_firstItem_leaf {a : Leaf} (h : x.leaf? = some a) :
    (firstItem outer).take x = some (after (.leaf a) (.array [] :: outer)) := by
  have hvalue : takeValue (.array [] :: outer) x
      = some (after (.leaf a) (.array [] :: outer)) :=
    takeValue_leaf h
  cases x with
  | closeArray => cases h
  | _ => exact hvalue

theorem takeAfter_leaf {a : Leaf} (done : Document Leaf)
    (h : x.leaf? = some a) :
    takeAfter done outer x = none := by
  unfold takeAfter
  split
  · cases h
  · cases h
  · cases h
  · cases h
  · rfl

/-- Where no key is awaited, scalars of one kind are taken alike. -/
theorem take_leaves_alike {p p' : Position} {a b : Leaf} (hp : Alike p p')
    (ha : x.leaf? = some a) (hb : y.leaf? = some b) (hkind : a.kind = b.kind)
    (hkey : ∀ rest, p.reached ≠ .object none :: rest)
    (h : p.take x = some next) :
    ∃ next', p'.take y = some next' ∧ Alike next next' := by
  cases hp with
  | value houter =>
    cases (takeValue_leaf ha).symm.trans h
    exact ⟨_, takeValue_leaf hb, .after (congrArg Document.leaf hkind) houter⟩
  | firstItem houter =>
    cases (take_firstItem_leaf ha).symm.trans h
    exact ⟨_, take_firstItem_leaf hb,
      .after (congrArg Document.leaf hkind) (.cons (.array rfl) houter)⟩
  | firstKey _ => exact absurd rfl (hkey _)
  | key _ _ => exact absurd rfl (hkey _)
  | colon _ _ _ =>
    cases x with
    | colon => cases ha
    | _ => cases h
  | after _ _ => cases (takeAfter_leaf _ ha).symm.trans h

/-- Alike places stay alike after lexemes that leave the same token. -/
theorem take_alike {p p' : Position} (hp : Alike p p')
    (hxy : x.token p.reached = y.token p.reached) (h : p.take x = some next) :
    ∃ next', p'.take y = some next' ∧ Alike next next' := by
  rcases Lexeme.token_cases hxy with rfl | ⟨a, b, ha, hb, hkind, hkey⟩
  · exact take_same_alike hp h
  · exact take_leaves_alike hp ha hb hkind hkey h

/-! ## Whole texts -/

theorem foldlM_take_alike {xs ys : List Lexeme} {p p' last : Position}
    (hp : Alike p p')
    (hskeleton : Lexeme.skeleton p.reached xs = Lexeme.skeleton p.reached ys)
    (h : xs.foldlM take p = some last) :
    ∃ last', ys.foldlM take p' = some last' ∧ Alike last last' := by
  induction xs generalizing ys p p' with
  | nil =>
    cases ys with
    | nil =>
      cases h
      exact ⟨p', rfl, hp⟩
    | cons y ys => cases hskeleton
  | cons x xs ih =>
    cases ys with
    | nil => cases hskeleton
    | cons y ys =>
      obtain ⟨htoken, hrest⟩ := List.cons.inj hskeleton
      rw [List.foldlM_cons, Option.bind_eq_bind, Option.bind_eq_some_iff] at h
      obtain ⟨next, hnext, hlast⟩ := h
      obtain ⟨next', hnext', halike⟩ := take_alike hp htoken hnext
      -- both readers have reached what their lexemes enclose, and alike places
      -- have the same enclosures
      have hx : next.reached = x.enclose p.reached :=
        (take_tracks hnext).reached
      have hy : next.reached = y.enclose p.reached := by
        rw [halike.reached_eq, (take_tracks hnext').reached, hp.reached_eq]
      rw [← hx, ← hy] at hrest
      obtain ⟨last', hlast', hend⟩ := ih halike hrest hlast
      refine ⟨last', ?_, hend⟩
      rw [List.foldlM_cons, hnext']
      exact hlast'

theorem finish?_alike {p p' : Position} {d : Document Leaf} (hp : Alike p p')
    (h : p.finish? = some d) :
    ∃ e, p'.finish? = some e ∧ d.map Leaf.kind = e.map Leaf.kind := by
  cases hp with
  | after hdone houter =>
    cases houter with
    | nil =>
      cases h
      exact ⟨_, rfl, hdone⟩
    | cons _ _ => cases h
  | _ => cases h

end Position

theorem ofChars?_alike {cs cs' : List Char} {xs ys : List Lexeme}
    {d : Document Leaf} (hxs : Lexeme.ofChars? cs = some xs)
    (hys : Lexeme.ofChars? cs' = some ys)
    (hskeleton : Lexeme.skeleton [] xs = Lexeme.skeleton [] ys)
    (h : ofChars? cs = some d) :
    ∃ e, ofChars? cs' = some e ∧ d.map Leaf.kind = e.map Leaf.kind := by
  unfold ofChars? at h ⊢
  rw [hxs, Option.bind_eq_bind, Option.bind_some, Option.bind_eq_bind,
    Option.bind_eq_some_iff] at h
  obtain ⟨last, hlast, hd⟩ := h
  obtain ⟨last', hlast', halike⟩ :=
    Position.foldlM_take_alike (.value .nil) hskeleton hlast
  obtain ⟨e, he, hkinds⟩ := Position.finish?_alike halike hd
  refine ⟨e, ?_, hkinds⟩
  rw [hys, Option.bind_eq_bind, Option.bind_some, hlast']
  exact he

theorem ofBytes?_eq_ok {bytes : ByteArray} {d : Document Leaf} :
    ofBytes? bytes = .ok d
      ↔ ∃ s, String.fromUTF8? (skipMark bytes) = some s
          ∧ ofChars? s.toList = some d := by
  unfold ofBytes?
  cases String.fromUTF8? (skipMark bytes) with
  | none => simp
  | some s =>
    cases hd : ofChars? s.toList with
    | none => simp [hd]
    | some e => simp [hd]

theorem skeletonOfBytes?_eq_some {bytes : ByteArray} {tokens : List Token} :
    skeletonOfBytes? bytes = some tokens
      ↔ ∃ s lexemes, String.fromUTF8? (skipMark bytes) = some s
        ∧ Lexeme.ofChars? s.toList = some lexemes
        ∧ Lexeme.skeleton [] lexemes = tokens := by
  unfold skeletonOfBytes?
  constructor
  · intro h
    obtain ⟨s, hs, h⟩ := Option.bind_eq_some_iff.mp h
    obtain ⟨lexemes, hlexemes, h⟩ := Option.bind_eq_some_iff.mp h
    exact ⟨s, lexemes, hs, hlexemes, Option.some.inj h⟩
  · rintro ⟨s, lexemes, hs, hlexemes, rfl⟩
    exact Option.bind_eq_some_iff.mpr ⟨s, hs,
      Option.bind_eq_some_iff.mpr ⟨lexemes, hlexemes, rfl⟩⟩

/-- A file with the skeleton of a file that holds a document holds a document of
the same kinds. -/
theorem ofBytes?_alike {bytes bytes' : ByteArray} {d : Document Leaf}
    (hskeleton : skeletonOfBytes? bytes = skeletonOfBytes? bytes')
    (h : ofBytes? bytes = .ok d) :
    ∃ e, ofBytes? bytes' = .ok e ∧ d.map Leaf.kind = e.map Leaf.kind := by
  obtain ⟨s, hs, hd⟩ := ofBytes?_eq_ok.mp h
  obtain ⟨xs, hxs, _⟩ := Option.bind_eq_some_iff.mp hd
  rw [skeletonOfBytes?_eq_some.mpr ⟨s, xs, hs, hxs, rfl⟩] at hskeleton
  obtain ⟨s', ys, hs', hys, htokens⟩ :=
    skeletonOfBytes?_eq_some.mp hskeleton.symm
  obtain ⟨e, he, hkinds⟩ := ofChars?_alike hxs hys htokens.symm hd
  exact ⟨e, ofBytes?_eq_ok.mpr ⟨s', hs', he⟩, hkinds⟩

/-- The skeleton of a text without mark in front. -/
theorem skeletonOfBytes?_toUTF8 {text : String} {lexemes : List Lexeme}
    (hmark : skipMark text.toUTF8 = text.toUTF8)
    (hlexemes : Lexeme.ofChars? text.toList = some lexemes) :
    skeletonOfBytes? text.toUTF8 = some (Lexeme.skeleton [] lexemes) := by
  have htext : String.fromUTF8? (skipMark text.toUTF8) = some text := by
    rw [hmark, fromUTF8?_toUTF8]
  exact skeletonOfBytes?_eq_some.mpr ⟨text, lexemes, htext, hlexemes, rfl⟩

end LeafSurvey.Json
