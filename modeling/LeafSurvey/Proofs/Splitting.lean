import LeafSurvey.Draft
import Mathlib.Data.List.Infix
import Mathlib.Data.Nat.Find

/-!
# Names split again

The name of a field is its path joined by a delimiter. Splitting the name
wherever the delimiter occurs gives the path back as long as the delimiter is
found where it was put, and that is not always so: it may occur in a segment,
and an occurrence may begin in a segment and end in the delimiter behind it.
`Path.IsUnambiguous` leaves out exactly these two.

* `dropInfix?_append`: the delimiter behind a segment is the leftmost exactly if
  none begins in the segment;
* `pieces_intercalate`: the pieces of joined segments, by induction on the
  segments;
* `isUnambiguous_and_joined_iff`: every name is that of exactly one unambiguous
  path;
* `split_name_iff`: the name of a field is split into its path exactly if the
  path is unambiguous.
-/

namespace LeafSurvey

/-! ## Pieces of a text -/

namespace Text

variable {d : List Char}

/-- The delimiter stands between what is found on its two sides. -/
theorem append_of_dropInfix? {text piece rest : List Char}
    (h : text.dropInfix? d = some (piece, rest)) :
    text = piece ++ d ++ rest := by
  obtain ⟨⟨found, htext, hfound⟩, _⟩ := List.dropInfix?_eq_some_iff.mp h
  rw [htext, beq_iff_eq.mp hfound]

/-- What follows an occurrence of a text that is not empty is shorter than the
whole. -/
theorem length_lt_of_dropInfix? (hd : d ≠ []) {text piece rest : List Char}
    (h : text.dropInfix? d = some (piece, rest)) :
    rest.length < text.length := by
  have hpos := List.length_pos_iff.mpr hd
  rw [append_of_dropInfix? h]
  simp only [List.length_append]
  omega

/-- The pieces of a text between the leftmost occurrences of a delimiter, taken
from the left. Nothing is cut at an empty delimiter. -/
def pieces (delimiter text : List Char) : List (List Char) :=
  if _hd : delimiter = [] then [text]
  else
    match _h : text.dropInfix? delimiter with
    | none => [text]
    | some (piece, rest) => piece :: pieces delimiter rest
termination_by text.length
decreasing_by exact length_lt_of_dropInfix? _hd _h

theorem pieces_of_none (hd : d ≠ []) {text : List Char}
    (h : text.dropInfix? d = none) :
    pieces d text = [text] := by
  rw [pieces, dif_neg hd]
  split
  · rfl
  · rename_i hsome
    rw [h] at hsome
    cases hsome

theorem pieces_of_some (hd : d ≠ []) {text piece rest : List Char}
    (h : text.dropInfix? d = some (piece, rest)) :
    pieces d text = piece :: pieces d rest := by
  rw [pieces, dif_neg hd]
  split
  · rename_i hnone
    rw [h] at hnone
    cases hnone
  · rename_i hsome
    rw [h] at hsome
    cases hsome
    rfl

theorem pieces_ne_nil (hd : d ≠ []) (text : List Char) :
    pieces d text ≠ [] := by
  cases h : text.dropInfix? d with
  | none =>
    rw [pieces_of_none hd h]
    exact List.cons_ne_nil _ _
  | some found =>
    rw [pieces_of_some hd h]
    exact List.cons_ne_nil _ _

/-- Nothing but delimiters is lost between the pieces. -/
theorem intercalate_pieces (text : List Char) :
    d.intercalate (pieces d text) = text := by
  fun_induction pieces d text with
  | case1 text => exact List.intercalate_singleton
  | case2 text => exact List.intercalate_singleton
  | case3 text hd piece rest hfound ih =>
    rw [List.intercalate_cons_of_ne_nil (pieces_ne_nil hd _), ih,
      append_of_dropInfix? hfound]

/-- A text is left whole exactly where the delimiter does not occur. -/
theorem dropInfix?_eq_none {text : List Char} :
    text.dropInfix? d = none ↔ ¬d <:+: text := by
  classical
  constructor
  · -- of all occurrences one is the leftmost, and that would be found
    intro h hoccurs
    obtain ⟨before, after, htext⟩ := hoccurs
    have hplace : ∃ n before after, before.length = n
        ∧ before ++ d ++ after = text :=
      ⟨_, before, after, rfl, htext⟩
    obtain ⟨before, after, hlength, htext⟩ := Nat.find_spec hplace
    have hfound : text.dropInfix? d = some (before, after) := by
      refine List.dropInfix?_eq_some_iff.mpr
        ⟨⟨d, htext.symm, beq_iff_eq.mpr rfl⟩, ?_⟩
      intro before' found after' htext' hfound
      rw [beq_iff_eq] at hfound
      rw [hlength]
      exact Nat.find_min' hplace ⟨before', after', rfl, by rw [htext', hfound]⟩
    rw [h] at hfound
    cases hfound
  · intro h
    cases hfound : text.dropInfix? d with
    | none => rfl
    | some found =>
      exact absurd ⟨found.1, found.2, (append_of_dropInfix? hfound).symm⟩ h

/-- The delimiter behind a segment is its leftmost occurrence exactly if none
begins in the segment, that is, if it does not occur in the segment and what
follows up to the last character of the delimiter. -/
theorem dropInfix?_append (hd : d ≠ []) {segment rest : List Char} :
    (segment ++ d ++ rest).dropInfix? d = some (segment, rest)
      ↔ ¬d <:+: segment ++ d.dropLast := by
  have hlast : d.dropLast ++ [d.getLast hd] = d :=
    List.dropLast_append_getLast hd
  have hpos := List.length_pos_iff.mpr hd
  rw [List.dropInfix?_eq_some_iff]
  constructor
  · rintro ⟨_, hleft⟩ ⟨before, after, hoccurs⟩
    -- this occurrence would begin before the end of the segment
    have htext : segment ++ d ++ rest
        = before ++ d ++ (after ++ [d.getLast hd] ++ rest) := by
      calc segment ++ d ++ rest
          = segment ++ (d.dropLast ++ [d.getLast hd]) ++ rest := by rw [hlast]
        _ = (segment ++ d.dropLast) ++ ([d.getLast hd] ++ rest) := by
          simp only [List.append_assoc]
        _ = (before ++ d ++ after) ++ ([d.getLast hd] ++ rest) := by
          rw [hoccurs]
        _ = before ++ d ++ (after ++ [d.getLast hd] ++ rest) := by
          simp only [List.append_assoc]
    have hge := hleft before d _ htext (beq_iff_eq.mpr rfl)
    have hlength := congrArg List.length hoccurs
    simp only [List.length_append, List.length_dropLast] at hlength
    omega
  · intro hnone
    refine ⟨⟨d, rfl, beq_iff_eq.mpr rfl⟩,
      fun before found after htext hfound => ?_⟩
    rw [beq_iff_eq] at hfound
    subst hfound
    by_contra hlt
    rw [ge_iff_le, Nat.not_le] at hlt
    -- an occurrence that begins in the segment ends before the last character
    -- of the delimiter behind it
    have hbefore : before ++ found <+: segment ++ found ++ rest :=
      htext ▸ List.prefix_append _ _
    have hsegment : segment ++ found.dropLast <+: segment ++ found ++ rest := by
      rw [List.append_assoc, List.prefix_append_right_inj]
      exact (List.dropLast_prefix found).trans (List.prefix_append _ _)
    have hprefix : before ++ found <+: segment ++ found.dropLast := by
      refine List.prefix_of_prefix_length_le hbefore hsegment ?_
      simp only [List.length_append, List.length_dropLast]
      omega
    exact hnone ((List.suffix_append _ _).isInfix.trans hprefix.isInfix)

/-- No occurrence of a delimiter begins in a segment that others follow, and the
last segment holds none. -/
structure AreApart (d : List Char) (segments : List (List Char)) : Prop where
  of_dropLast : ∀ s ∈ segments.dropLast, ¬d <:+: s ++ d.dropLast
  of_getLast : ∀ s ∈ segments.getLast?, ¬d <:+: s

theorem areApart_singleton {s : List Char} : AreApart d [s] ↔ ¬d <:+: s := by
  constructor
  · intro h
    exact h.of_getLast s rfl
  · intro h
    refine ⟨fun t ht => absurd ht List.not_mem_nil, fun t ht => ?_⟩
    cases ht
    exact h

theorem areApart_cons_cons {s t : List Char} {segments : List (List Char)} :
    AreApart d (s :: t :: segments)
      ↔ ¬d <:+: s ++ d.dropLast ∧ AreApart d (t :: segments) := by
  constructor
  · intro h
    refine ⟨h.of_dropLast s List.mem_cons_self, fun u hu => ?_, h.of_getLast⟩
    exact h.of_dropLast u (List.mem_cons_of_mem _ hu)
  · rintro ⟨hs, h⟩
    exact ⟨List.forall_mem_cons.mpr ⟨hs, h.of_dropLast⟩, h.of_getLast⟩

/-- Joined segments have themselves as pieces exactly if they are apart. -/
theorem pieces_intercalate (hd : d ≠ []) {segments : List (List Char)}
    (hne : segments ≠ []) :
    pieces d (d.intercalate segments) = segments ↔ AreApart d segments := by
  induction segments with
  | nil => exact absurd rfl hne
  | cons s segments ih =>
    cases segments with
    | nil =>
      rw [List.intercalate_singleton, areApart_singleton, ← dropInfix?_eq_none]
      constructor
      · intro h
        cases hfound : s.dropInfix? d with
        | none => rfl
        | some found =>
          rw [pieces_of_some hd hfound, List.cons.injEq] at h
          exact absurd h.2 (pieces_ne_nil hd _)
      · exact pieces_of_none hd
    | cons t segments =>
      rw [List.intercalate_cons_cons, areApart_cons_cons,
        ← dropInfix?_append hd, ← ih (List.cons_ne_nil _ _)]
      constructor
      · intro h
        cases hfound :
            (s ++ d ++ d.intercalate (t :: segments)).dropInfix? d with
        | none =>
          rw [pieces_of_none hd hfound, List.cons.injEq] at h
          exact absurd h.2.symm (List.cons_ne_nil _ _)
        | some found =>
          obtain ⟨piece, rest⟩ := found
          rw [pieces_of_some hd hfound, List.cons.injEq] at h
          obtain ⟨rfl, hrest⟩ := h
          -- the first piece is the first segment, so the rest is what the other
          -- segments are joined to
          obtain rfl := List.append_cancel_left (append_of_dropInfix? hfound)
          exact ⟨rfl, hrest⟩
      · rintro ⟨hfound, hrest⟩
        rw [pieces_of_some hd hfound, hrest]

end Text

/-! ## Paths -/

namespace Path

/-- A name split at the leftmost occurrences of a delimiter. -/
def split (delimiter name : String) : Path :=
  (Text.pieces delimiter.toList name.toList).map String.ofList

/-- A path whose joined name has the delimiter only where it was put: none
begins in a segment that others follow, be it to end in the delimiter behind it,
and none is in the last segment. -/
structure IsUnambiguous (delimiter : String) (path : Path) : Prop where
  ne_nil : path ≠ []
  of_dropLast : ∀ s ∈ path.dropLast,
    ¬delimiter.toList <:+: s.toList ++ delimiter.toList.dropLast
  of_getLast : ∀ s ∈ path.getLast?, ¬delimiter.toList <:+: s.toList

instance (delimiter : String) (path : Path) :
    Decidable (path.IsUnambiguous delimiter) :=
  decidable_of_iff (path ≠ []
      ∧ (∀ s ∈ path.dropLast,
          ¬delimiter.toList <:+: s.toList ++ delimiter.toList.dropLast)
      ∧ ∀ s ∈ path.getLast?, ¬delimiter.toList <:+: s.toList)
    ⟨fun h => ⟨h.1, h.2.1, h.2.2⟩,
      fun h => ⟨h.ne_nil, h.of_dropLast, h.of_getLast⟩⟩

theorem isUnambiguous_iff {delimiter : String} {path : Path} :
    path.IsUnambiguous delimiter ↔
      path ≠ [] ∧ Text.AreApart delimiter.toList (path.map String.toList) := by
  have hothers : (∀ s ∈ (path.map String.toList).dropLast,
        ¬delimiter.toList <:+: s ++ delimiter.toList.dropLast)
      ↔ ∀ s ∈ path.dropLast,
          ¬delimiter.toList <:+: s.toList ++ delimiter.toList.dropLast := by
    rw [← List.map_dropLast]
    exact List.forall_mem_map
  have hlast : (∀ s ∈ (path.map String.toList).getLast?,
      ¬delimiter.toList <:+: s)
      ↔ ∀ s ∈ path.getLast?, ¬delimiter.toList <:+: s.toList := by
    rw [List.getLast?_map]
    cases path.getLast? with
    | none => simp
    | some last => simp
  constructor
  · intro h
    exact ⟨h.ne_nil, hothers.mpr h.of_dropLast, hlast.mpr h.of_getLast⟩
  · rintro ⟨hne, h⟩
    exact ⟨hne, hothers.mp h.of_dropLast, hlast.mp h.of_getLast⟩

theorem toList_ne_nil {delimiter : String} (hd : delimiter ≠ "") :
    delimiter.toList ≠ [] := by
  intro h
  exact hd (String.toList_eq_nil_iff.mp h)

/-- Texts are split off exactly if their characters are. -/
theorem split_eq_iff {delimiter name : String} {path : Path} :
    split delimiter name = path ↔
      Text.pieces delimiter.toList name.toList = path.map String.toList := by
  constructor
  · rintro rfl
    simp [split, List.map_map, Function.comp_def]
  · intro h
    simp [split, h, List.map_map, Function.comp_def]

/-- Splitting the joined name of a path gives the path back exactly if the path
is unambiguous. -/
theorem split_joined {delimiter : String} (hd : delimiter ≠ "") (path : Path) :
    split delimiter (path.joined delimiter) = path
      ↔ path.IsUnambiguous delimiter := by
  rw [split_eq_iff, isUnambiguous_iff, joined, String.toList_intercalate]
  by_cases hne : path = []
  · -- no name is split into nothing
    subst hne
    simp only [List.map_nil, ne_eq, not_true_eq_false, false_and, iff_false]
    exact Text.pieces_ne_nil (toList_ne_nil hd) _
  · rw [Text.pieces_intercalate (toList_ne_nil hd) (by simpa using hne)]
    simp only [ne_eq, hne, not_false_eq_true, true_and]

/-- Every name is that of one unambiguous path, the one it is split into. -/
theorem isUnambiguous_and_joined_iff {delimiter name : String}
    (hd : delimiter ≠ "") {path : Path} :
    path.IsUnambiguous delimiter ∧ path.joined delimiter = name
      ↔ path = split delimiter name := by
  constructor
  · rintro ⟨hpath, rfl⟩
    exact ((split_joined hd path).mpr hpath).symm
  · rintro rfl
    have hjoined : (split delimiter name).joined delimiter = name := by
      rw [joined, ← String.toList_inj, String.toList_intercalate,
        ← split_eq_iff.mp rfl, Text.intercalate_pieces]
    refine ⟨(split_joined hd _).mp ?_, hjoined⟩
    rw [hjoined]

end Path

/-! ## Fields -/

namespace Field

/-- Fields are built from the groups that are named, each from its group alone.
The name of a field is split into the path of its group exactly if that path is
unambiguous; so no two unambiguous paths share a name. -/
theorem split_name_iff (naming : Naming) (hd : naming.delimiter ≠ "") :
    (∀ groups : Groups,
      (ofGroups naming groups).Perm (groups.named.map (ofGroup naming)))
      ∧ (∀ g : Group,
          Path.split naming.delimiter (ofGroup naming g).name = g.path
            ↔ g.path.IsUnambiguous naming.delimiter)
      ∧ (∀ g h : Group,
          g.path.IsUnambiguous naming.delimiter →
          h.path.IsUnambiguous naming.delimiter →
          g.path ≠ h.path →
          (ofGroup naming g).name ≠ (ofGroup naming h).name) := by
  refine ⟨fun groups => List.mergeSort_perm _ _,
    fun g => Path.split_joined hd g.path, fun g h hg hh hne hname => ?_⟩
  apply hne
  calc g.path
      = Path.split naming.delimiter (ofGroup naming g).name :=
        (Path.isUnambiguous_and_joined_iff hd).mp ⟨hg, rfl⟩
    _ = Path.split naming.delimiter (ofGroup naming h).name := by rw [hname]
    _ = h.path := ((Path.isUnambiguous_and_joined_iff hd).mp ⟨hh, rfl⟩).symm

/-- Two paths share the name `a____b`, and no segment of them holds the
delimiter. The name is split into the one that is unambiguous, and not into the
other, where the delimiter is found one place before it was put. -/
theorem split_name_of_trailing_underscore :
    ("___" ≠ "" ∧ (ofGroup ⟨"___", .text "en"⟩ ⟨["a", "_b"], []⟩).name
      = "a____b"
        ∧ (ofGroup ⟨"___", .text "en"⟩ ⟨["a_", "b"], []⟩).name = "a____b")
      ∧ Path.split "___" "a____b" = ["a", "_b"]
      ∧ ¬Path.split "___" "a____b" = ["a_", "b"]
      ∧ (ofGroup ⟨"___", .text "en"⟩ ⟨["a", "_b"], []⟩).name
          ≠ (ofGroup ⟨"___", .text "en"⟩ ⟨["a", "b"], []⟩).name := by
  obtain ⟨_, hsplit, hnames⟩ := split_name_iff ⟨"___", .text "en"⟩ (by decide)
  refine ⟨by decide, ?_, ?_, ?_⟩
  · exact (hsplit ⟨["a", "_b"], []⟩).mpr (by decide)
  · exact mt (hsplit ⟨["a_", "b"], []⟩).mp (by decide)
  · exact hnames ⟨["a", "_b"], []⟩
      ⟨["a", "b"], []⟩ (by decide) (by decide) (by decide)

end Field

end LeafSurvey
