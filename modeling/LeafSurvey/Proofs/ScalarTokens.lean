import LeafSurvey.Json.Reader
import LeafSurvey.Proofs.Leaves

/-!
# Scalar tokens of a text

`Lexeme.scalars` reads the scalars of a text off its lexemes in one pass that
builds no document: it remembers only what encloses the place it has reached,
and a string in an object that waits for a key is a key and no scalar. The
reader of documents goes over the same lexemes with `Position.take` and keeps
the values it has read.

* `take_tracks`: one step of the reader changes what encloses the place, and
  adds to the leaves read, exactly as the pass over the lexemes says;
* `scalars_eq_leaves`: so the scalars of a text that writes a document are the
  leaves of the document as written, in order;
* `scalars_exact`: each of them has an exact scalar.
-/

namespace LeafSurvey.Json

/-! ## The pass over the lexemes -/

/-- What encloses a place in a text. An object knows the key of the member that
is under way, unless it waits for one. -/
inductive Enclosure where
  | array
  | object (key : Option String)
deriving DecidableEq, Repr

namespace Enclosure

/-- The key that an enclosure adds to the path. -/
def key? : Enclosure → Option String
  | array => none
  | object key => key

/-- Whether the enclosure is an array. -/
def isArray : Enclosure → Bool
  | array => true
  | object _ => false

/-- The path of a place, whose enclosures are given from the inside out. -/
def path (outer : List Enclosure) : Path :=
  (outer.filterMap key?).reverse

/-- Whether an array is among the enclosures of a place. -/
def inArray (outer : List Enclosure) : Bool :=
  outer.any isArray

end Enclosure

namespace Lexeme

/-- The enclosures after a lexeme. A comma in an object lets its next key come,
and the string that an object waits for is its key. -/
def enclose (outer : List Enclosure) (lexeme : Lexeme) : List Enclosure :=
  match lexeme, outer with
  | openArray, _ => .array :: outer
  | openObject, _ => .object none :: outer
  | closeArray, _ => outer.tail
  | closeObject, _ => outer.tail
  | comma, .object _ :: rest => .object none :: rest
  | quoted raw, .object none :: rest => .object (quoted raw).string? :: rest
  | _, _ => outer

/-- The scalar that a lexeme writes, with its place; a key is none. -/
def scalar? (outer : List Enclosure) (lexeme : Lexeme) : Option (Placed Leaf) :=
  match outer with
  | .object none :: _ => none
  | _ =>
    lexeme.leaf?.map fun a => ⟨Enclosure.path outer, a, Enclosure.inArray outer⟩

/-- The scalars among lexemes, in order, when the first lexeme has the given
enclosures. -/
def scalars (outer : List Enclosure) : List Lexeme → List (Placed Leaf)
  | [] => []
  | lexeme :: rest =>
    (scalar? outer lexeme).toList ++ scalars (enclose outer lexeme) rest

end Lexeme

/-- The scalar tokens of a file that splits into lexemes. -/
def scalarsOfBytes? (bytes : ByteArray) : Option (List (Placed Leaf)) := do
  let s ← String.fromUTF8? (skipMark bytes)
  let lexemes ← Lexeme.ofChars? s.toList
  return Lexeme.scalars [] lexemes

namespace Enclosure

@[simp] theorem path_array (outer : List Enclosure) :
    path (.array :: outer) = path outer := rfl

@[simp] theorem path_object (key : String) (outer : List Enclosure) :
    path (.object (some key) :: outer) = path outer ++ [key] := by
  simp [path, key?]

@[simp] theorem inArray_array (outer : List Enclosure) :
    inArray (.array :: outer) = true := rfl

@[simp] theorem inArray_object (key : Option String) (outer : List Enclosure) :
    inArray (.object key :: outer) = inArray outer := rfl

end Enclosure

/-! ## Exact scalars -/

theorem bareLeaf?_exact {run : List Char} {a : Leaf}
    (h : bareLeaf? run = some a) :
    ∃ value, a.scalar? = .ok value := by
  unfold bareLeaf? at h
  split at h
  · cases h
    exact ⟨_, rfl⟩
  split at h
  · cases h
    exact ⟨_, rfl⟩
  split at h
  · cases h
    exact ⟨_, rfl⟩
  split at h
  · split at h
    · rename_i n _ _
      cases h
      unfold numberLeaf
      cases n.isInteger <;> exact ⟨_, rfl⟩
    · cases h
  · cases h

/-- No lexeme writes a rounded number. -/
theorem leaf?_exact {lexeme : Lexeme} {a : Leaf} (h : lexeme.leaf? = some a) :
    ∃ value, a.scalar? = .ok value := by
  cases lexeme with
  | quoted raw =>
    obtain ⟨cs, _, rfl⟩ := Option.map_eq_some_iff.mp h
    exact ⟨_, rfl⟩
  | bare run => exact bareLeaf?_exact h
  | _ => cases h

theorem scalar?_exact {outer : List Enclosure} {lexeme : Lexeme}
    {l : Placed Leaf} (h : lexeme.scalar? outer = some l) :
    ∃ e, l.entry? = .ok e := by
  unfold Lexeme.scalar? at h
  split at h
  · cases h
  · obtain ⟨a, ha, rfl⟩ := Option.map_eq_some_iff.mp h
    obtain ⟨value, hvalue⟩ := leaf?_exact ha
    exact ⟨_, Placed.entry?_eq_ok.mpr ⟨value, hvalue, rfl⟩⟩

/-- Every scalar token has its entry. -/
theorem scalars_exact (outer : List Enclosure) (lexemes : List Lexeme) :
    ∀ l ∈ Lexeme.scalars outer lexemes, ∃ e, l.entry? = .ok e := by
  induction lexemes generalizing outer with
  | nil =>
    intro l hl
    cases hl
  | cons lexeme rest ih =>
    intro l hl
    rcases List.mem_append.mp hl with hl | hl
    · exact scalar?_exact (Option.mem_toList.mp hl)
    · exact ih _ l hl

/-! ## What the reader holds -/

/-- What an open array or object encloses its next value with. -/
def Frame.enclosure : Frame → Enclosure
  | array _ => .array
  | object _ key => .object (some key)

/-- The enclosures of the next value among open frames. -/
def enclosures (outer : List Frame) : List Enclosure :=
  outer.map Frame.enclosure

/-- The leaves that open frames hold, in document order. -/
def leavesHeld : List Frame → List (Placed Leaf)
  | [] => []
  | .array before :: outer =>
    leavesHeld outer
      ++ Document.leavesOfItems (Enclosure.path (enclosures outer))
          before.reverse
  | .object before _ :: outer =>
    leavesHeld outer
      ++ Document.leavesOfMembers (Enclosure.path (enclosures outer))
        (Enclosure.inArray (enclosures outer)) before.reverse

namespace Position

/-- The enclosures of the place that the reader has reached. -/
def reached : Position → List Enclosure
  | value outer => enclosures outer
  | firstItem outer => .array :: enclosures outer
  | firstKey outer => .object none :: enclosures outer
  | key _ outer => .object none :: enclosures outer
  | colon _ k outer => .object (some k) :: enclosures outer
  | after _ outer => enclosures outer

/-- The leaves that the reader has read, in document order. -/
def leavesRead : Position → List (Placed Leaf)
  | value outer => leavesHeld outer
  | firstItem outer => leavesHeld outer
  | firstKey outer => leavesHeld outer
  | key before outer => leavesHeld (.object before "" :: outer)
  | colon before k outer => leavesHeld (.object before k :: outer)
  | after done outer =>
    leavesHeld outer
      ++ done.leaves (Enclosure.path (enclosures outer))
          (Enclosure.inArray (enclosures outer))

/-- From one position to the next the reader follows the pass over the lexemes:
`next` is reached from a place with the given enclosures and leaves by one
lexeme. -/
structure Tracks (outer : List Enclosure) (found : List (Placed Leaf))
    (lexeme : Lexeme) (next : Position) : Prop where
  reached : next.reached = lexeme.enclose outer
  leavesRead : next.leavesRead = found ++ (lexeme.scalar? outer).toList

end Position

/-! ## One step -/

/-- No object whose key has been read waits for one. -/
theorem scalar?_enclosures (outer : List Frame) (lexeme : Lexeme) :
    lexeme.scalar? (enclosures outer) = lexeme.leaf?.map fun a =>
      ⟨Enclosure.path (enclosures outer), a,
        Enclosure.inArray (enclosures outer)⟩ := by
  cases outer with
  | nil => rfl
  | cons frame rest => cases frame <;> rfl

/-- A lexeme that writes a leaf where no key is awaited leaves the enclosures as
they are. -/
theorem enclose_leaf {outer : List Frame} {lexeme : Lexeme} {a : Leaf}
    (h : lexeme.leaf? = some a) :
    lexeme.enclose (enclosures outer) = enclosures outer := by
  cases lexeme with
  | quoted raw =>
    cases outer with
    | nil => rfl
    | cons frame rest => cases frame <;> rfl
  | bare run => rfl
  | _ => cases h

theorem takeValue_tracks {outer : List Frame} {lexeme : Lexeme}
    {next : Position} (h : Position.takeValue outer lexeme = some next) :
    Position.Tracks (enclosures outer) (leavesHeld outer) lexeme next := by
  unfold Position.takeValue at h
  split at h
  · cases h
    exact ⟨rfl, by rw [scalar?_enclosures]; exact (List.append_nil _).symm⟩
  · cases h
    exact ⟨rfl, by rw [scalar?_enclosures]; exact (List.append_nil _).symm⟩
  · obtain ⟨a, ha, rfl⟩ := Option.map_eq_some_iff.mp h
    exact ⟨(enclose_leaf ha).symm, by rw [scalar?_enclosures, ha]; rfl⟩

theorem takeKey_tracks {before : List (String × Document Leaf)}
    {outer : List Frame} {lexeme : Lexeme} {next : Position}
    (h : Position.takeKey before outer lexeme = some next) :
    Position.Tracks (.object none :: enclosures outer)
      (leavesHeld (.object before "" :: outer))
      lexeme next := by
  obtain ⟨k, hk, rfl⟩ := Option.map_eq_some_iff.mp h
  cases lexeme with
  | quoted raw =>
    refine ⟨?_, (List.append_nil _).symm⟩
    show Enclosure.object (some k) :: _
      = Enclosure.object (Lexeme.string? (.quoted raw)) :: _
    rw [hk]
  | _ => cases hk

/-- A complete value joins the items before it. -/
theorem leavesHeld_array_cons (done : Document Leaf)
    (before : List (Document Leaf)) (outer : List Frame) :
    leavesHeld (.array (done :: before) :: outer)
      = (Position.after done (.array before :: outer)).leavesRead := by
  simp [Position.leavesRead, leavesHeld, enclosures, Frame.enclosure,
    Document.leavesOfItems_append, Document.leavesOfItems]

/-- A complete value joins the members before it under its key. -/
theorem leavesHeld_object_cons (done : Document Leaf)
    (before : List (String × Document Leaf)) (k next : String)
    (outer : List Frame) :
    leavesHeld (.object ((k, done) :: before) next :: outer)
      = (Position.after done (.object before k :: outer)).leavesRead := by
  simp [Position.leavesRead, leavesHeld, enclosures, Frame.enclosure,
    Document.leavesOfMembers_append, Document.leavesOfMembers]

theorem takeAfter_tracks {done : Document Leaf} {outer : List Frame}
    {lexeme : Lexeme} {next : Position}
    (h : Position.takeAfter done outer lexeme = some next) :
    Position.Tracks (enclosures outer) (Position.after done outer).leavesRead
      lexeme next := by
  unfold Position.takeAfter at h
  -- a comma and a closing bracket both file the value away, so nothing read is
  -- lost or counted twice
  split at h
  · cases h
    refine ⟨rfl, ?_⟩
    rw [scalar?_enclosures, ← leavesHeld_array_cons]
    exact (List.append_nil _).symm
  · cases h
    refine ⟨rfl, ?_⟩
    rw [scalar?_enclosures, ← leavesHeld_array_cons]
    exact (List.append_nil _).symm
  · cases h
    refine ⟨rfl, ?_⟩
    rw [scalar?_enclosures, ← leavesHeld_object_cons _ _ _ ""]
    exact (List.append_nil _).symm
  · cases h
    refine ⟨rfl, ?_⟩
    rw [scalar?_enclosures, ← leavesHeld_object_cons _ _ _ ""]
    exact (List.append_nil _).symm
  · cases h

/-- One step of the reader follows the pass over the lexemes. -/
theorem take_tracks {position next : Position} {lexeme : Lexeme}
    (h : position.take lexeme = some next) :
    Position.Tracks position.reached position.leavesRead lexeme next := by
  cases position with
  | value outer => exact takeValue_tracks h
  -- an open array may be closed before it has an item, and an open object
  -- before it has a key
  | firstItem outer =>
    have hvalue : Position.takeValue (.array [] :: outer) lexeme = some next →
        Position.Tracks (.array :: enclosures outer) (leavesHeld outer)
          lexeme next := by
      intro h
      have ht := takeValue_tracks h
      rwa [show leavesHeld (.array [] :: outer) = leavesHeld outer from
        List.append_nil _] at ht
    cases lexeme with
    | closeArray =>
      cases h
      exact ⟨rfl, rfl⟩
    | _ => exact hvalue h
  | firstKey outer =>
    have hkey : Position.takeKey [] outer lexeme = some next →
        Position.Tracks (.object none :: enclosures outer) (leavesHeld outer)
          lexeme next := by
      intro h
      have ht := takeKey_tracks h
      rwa [show leavesHeld (.object [] "" :: outer) = leavesHeld outer from
        List.append_nil _] at ht
    cases lexeme with
    | closeObject =>
      cases h
      exact ⟨rfl, rfl⟩
    | _ => exact hkey h
  | key before outer => exact takeKey_tracks h
  | colon before k outer =>
    cases lexeme with
    | colon =>
      cases h
      exact ⟨rfl, (List.append_nil _).symm⟩
    | _ => cases h
  | after done outer => exact takeAfter_tracks h

/-! ## Whole texts -/

/-- The leaves read in a run of the reader are those it started with and the
scalars of the lexemes. -/
theorem foldlM_take_leavesRead {lexemes : List Lexeme}
    {position last : Position}
    (h : lexemes.foldlM Position.take position = some last) :
    last.leavesRead = position.leavesRead
      ++ Lexeme.scalars position.reached lexemes := by
  induction lexemes generalizing position with
  | nil =>
    cases h
    exact (List.append_nil _).symm
  | cons lexeme rest ih =>
    rw [List.foldlM_cons, Option.bind_eq_bind, Option.bind_eq_some_iff] at h
    obtain ⟨next, hnext, hrest⟩ := h
    have hstep := take_tracks hnext
    rw [ih hrest, hstep.leavesRead, hstep.reached, Lexeme.scalars,
      List.append_assoc]

/-- The scalar tokens of a text are the leaves of the document it writes, in
document order. -/
theorem scalars_eq_leaves {cs : List Char} {d : Document Leaf}
    (h : ofChars? cs = some d) :
    ∃ lexemes, Lexeme.ofChars? cs = some lexemes
      ∧ Lexeme.scalars [] lexemes = d.leaves [] false := by
  unfold ofChars? at h
  obtain ⟨lexemes, hlexemes, h⟩ := Option.bind_eq_some_iff.mp h
  obtain ⟨last, hlast, h⟩ := Option.bind_eq_some_iff.mp h
  refine ⟨lexemes, hlexemes, ?_⟩
  have hread := foldlM_take_leavesRead hlast
  unfold Position.finish? at h
  split at h
  · cases h
    exact hread.symm
  · cases h

/-- The scalar tokens of a file that holds a document are the leaves of the
document as written. -/
theorem scalarsOfBytes?_eq_leaves {bytes : ByteArray} {d : Document Leaf}
    (h : ofBytes? bytes = .ok d) :
    scalarsOfBytes? bytes = some (d.leaves [] false) := by
  unfold ofBytes? at h
  unfold scalarsOfBytes?
  split at h
  · cases h
  · rename_i s hs
    split at h
    · cases h
    · rename_i d' hd
      cases h
      obtain ⟨lexemes, hlexemes, hscalars⟩ := scalars_eq_leaves hd
      rw [hs, Option.bind_eq_bind, Option.bind_some, hlexemes,
        Option.bind_eq_bind, Option.bind_some, hscalars]
      rfl

/-- Every leaf of a document that a file holds has its entry. -/
theorem ofBytes?_exact {bytes : ByteArray} {d : Document Leaf}
    (h : ofBytes? bytes = .ok d) :
    ∀ l ∈ d.leaves [] false, ∃ e, l.entry? = .ok e := by
  have hs := scalarsOfBytes?_eq_leaves h
  obtain ⟨s, _, hs⟩ := Option.bind_eq_some_iff.mp hs
  obtain ⟨lexemes, _, hs⟩ := Option.bind_eq_some_iff.mp hs
  rw [← Option.some.inj hs]
  exact scalars_exact [] lexemes

end LeafSurvey.Json
