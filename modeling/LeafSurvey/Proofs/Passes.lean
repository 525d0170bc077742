import LeafSurvey.Pass
import LeafSurvey.Proofs.Outcome

/-!
# What passes give out

A pass is the corpus read on demand. What it still has to give out on a store is
its `course`: the entries that are pending, those of the files ahead up to the
first that fails, and the failure that stops it there.

* `course_of_ready`: one step of a pass leaves its course as it is;
* `take_of_le` and `take_of_lt`: a request gives out the front of the course and
  leaves the rest, or all of it with the failure or the end behind it;
* `take_add`: two requests in a row give out what one request of both sizes
  does;
* `take_start_of_entries` and `take_start_of_error`: a whole pass gives out the
  entries of its corpus in order, or those in front of the file that fails and
  then the failure of the corpus.
-/

namespace LeafSurvey.Pass

variable {s : Store} {p q : Pass} {c : Corpus}

/-- What is given out from some point on: entries, and the failure that stops
them, if one does. -/
structure Course where
  entries : List Entry
  failure : Option Failure

/-- What files have to give out. -/
def courseOfFiles (s : Store) : List FilePath → Course
  | [] => ⟨[], none⟩
  | file :: rest =>
    match s.entriesOfFile file with
    | .error failure => ⟨[], some failure⟩
    | .ok es =>
      ⟨es ++ (courseOfFiles s rest).entries, (courseOfFiles s rest).failure⟩

/-- What a pass has still to give out. -/
def course (s : Store) (p : Pass) : Course :=
  ⟨p.pending ++ (courseOfFiles s p.files).entries,
    (courseOfFiles s p.files).failure⟩

/-! ## Files -/

theorem courseOfFiles_append {front rest : List FilePath}
    {ess : List (List Entry)} (h : front.mapM s.entriesOfFile = .ok ess) :
    courseOfFiles s (front ++ rest)
      = ⟨ess.flatten ++ (courseOfFiles s rest).entries,
          (courseOfFiles s rest).failure⟩ := by
  induction front generalizing ess with
  | nil =>
    cases h
    rfl
  | cons file front ih =>
    rw [List.mapM_cons] at h
    obtain ⟨es, hes, h⟩ := Outcome.bind_eq_ok.mp h
    obtain ⟨ess', hess, h⟩ := Outcome.bind_eq_ok.mp h
    cases h
    rw [List.cons_append, courseOfFiles]
    simp only [hes, ih hess, List.flatten_cons, List.append_assoc]

/-- A corpus whose entries can be read gives out these. -/
theorem course_start_of_entries {es : List Entry} (h : c.entries s = .ok es) :
    (start c).course s = ⟨es, none⟩ := by
  obtain ⟨ess, hess, h⟩ := Outcome.bind_eq_ok.mp h
  cases h
  have happend := @courseOfFiles_append s c.files [] ess hess
  rw [List.append_nil] at happend
  simp only [course, start, happend, courseOfFiles, List.append_nil,
    List.nil_append]

/-- Any other corpus gives out the entries in front of the file that fails, and
then fails as its entries do. -/
theorem course_start_of_error {failure : Failure}
    (h : c.entries s = .error failure) :
    ∃ front file rest ess, c.files = front ++ file :: rest
      ∧ front.mapM s.entriesOfFile = .ok ess
      ∧ s.entriesOfFile file = .error failure
      ∧ (start c).course s = ⟨ess.flatten, some failure⟩ := by
  have hfiles : c.files.mapM s.entriesOfFile = .error failure := by
    rcases Outcome.bind_eq_error.mp h with h | ⟨_, _, h⟩
    · exact h
    · cases h
  obtain ⟨front, file, rest, heq, hfront, hfile⟩ :=
    Outcome.mapM_eq_error.mp hfiles
  obtain ⟨ess, hess⟩ := Outcome.exists_mapM_eq_ok hfront
  refine ⟨front, file, rest, ess, heq, hess, hfile, ?_⟩
  simp only [course, start, heq, courseOfFiles_append hess, courseOfFiles,
    hfile, List.append_nil, List.nil_append]

/-! ## One step -/

/-- Files without entries are passed over. -/
theorem course_of_advance {files : List FilePath}
    (h : advance s files = .ok q) :
    q.course s = courseOfFiles s files ∧ (q.pending = [] → q = finished) := by
  fun_induction advance s files with
  | case1 =>
    cases h
    exact ⟨rfl, fun _ => rfl⟩
  | case2 file rest failure hfile => cases h
  | case3 file rest hfile ih =>
    rw [courseOfFiles, hfile]
    exact ih h
  | case4 file rest es hnil hfile =>
    cases h
    rw [courseOfFiles, hfile]
    exact ⟨rfl, fun hpending => absurd hpending hnil⟩

theorem courseOfFiles_of_advance {files : List FilePath} {failure : Failure}
    (h : advance s files = .error failure) :
    courseOfFiles s files = ⟨[], some failure⟩ := by
  fun_induction advance s files with
  | case1 => cases h
  | case2 file rest failure' hfile =>
    cases h
    rw [courseOfFiles, hfile]
  | case3 file rest hfile ih =>
    rw [courseOfFiles, hfile]
    exact ih h
  | case4 file rest es hnil hfile => cases h

/-- Getting ready reads files and gives nothing out. A pass that is ready
without an entry is over. -/
theorem course_of_ready (h : p.ready s = .ok q) :
    q.course s = p.course s ∧ (q.pending = [] → q = finished) := by
  obtain ⟨pending, files⟩ := p
  cases pending with
  | nil => exact course_of_advance h
  | cons e pending =>
    cases h
    exact ⟨rfl, fun hpending => nomatch hpending⟩

/-- A pass that cannot get ready has nothing left but its failure. -/
theorem course_of_ready_error {failure : Failure}
    (h : p.ready s = .error failure) :
    p.course s = ⟨[], some failure⟩ := by
  obtain ⟨pending, files⟩ := p
  cases pending with
  | nil => exact courseOfFiles_of_advance h
  | cons e pending => cases h

/-! ## Requests -/

/-- A request for no more than is left gives out the front of it and leaves the
rest. -/
theorem take_of_le {n : Nat} (h : n ≤ (p.course s).entries.length) :
    (take s n p).1 = ⟨(p.course s).entries.take n, false, none⟩
      ∧ (take s n p).2.course s = ⟨(p.course s).entries.drop n,
          (p.course s).failure⟩ := by
  induction n generalizing p with
  | zero => exact ⟨rfl, rfl⟩
  | succ n ih =>
    cases hready : p.ready s with
    | error failure =>
      rw [course_of_ready_error hready] at h
      exact absurd h (Nat.not_succ_le_zero n)
    | ok q =>
      obtain ⟨hcourse, hover⟩ := course_of_ready hready
      rw [← hcourse] at h ⊢
      obtain ⟨pending, files⟩ := q
      cases pending with
      | nil =>
        cases hover rfl
        exact absurd h (Nat.not_succ_le_zero n)
      | cons e pending =>
        obtain ⟨hbatch, hafter⟩ :=
          @ih ⟨pending, files⟩ (Nat.le_of_succ_le_succ h)
        simp only [take, hready, hbatch, hafter]
        exact ⟨rfl, rfl⟩

/-- A request for more than is left gives it all out, with the failure or the
end behind it, and the pass is over. -/
theorem take_of_lt {n : Nat} (h : (p.course s).entries.length < n) :
    take s n p
      = (⟨(p.course s).entries, (p.course s).failure.isNone,
          (p.course s).failure⟩, finished) := by
  induction n generalizing p with
  | zero => exact absurd h (Nat.not_lt_zero _)
  | succ n ih =>
    cases hready : p.ready s with
    | error failure =>
      rw [course_of_ready_error hready]
      simp only [take, hready]
      rfl
    | ok q =>
      obtain ⟨hcourse, hover⟩ := course_of_ready hready
      rw [← hcourse] at h ⊢
      obtain ⟨pending, files⟩ := q
      cases pending with
      | nil =>
        cases hover rfl
        simp only [take, hready]
        rfl
      | cons e pending =>
        simp only [take, hready,
          @ih ⟨pending, files⟩ (Nat.lt_of_succ_lt_succ h)]
        rfl

/-- Two requests in a row give out what one request of both sizes does, unless
the first finds the end or a failure. -/
theorem take_add {m n : Nat} (h : m ≤ (p.course s).entries.length) :
    take s (m + n) p
      = ({ (take s n (take s m p).2).1 with
            entries :=
              (take s m p).1.entries ++ (take s n (take s m p).2).1.entries },
          (take s n (take s m p).2).2) := by
  induction m generalizing p with
  | zero =>
    rw [Nat.zero_add]
    rfl
  | succ m ih =>
    cases hready : p.ready s with
    | error failure =>
      rw [course_of_ready_error hready] at h
      exact absurd h (Nat.not_succ_le_zero m)
    | ok q =>
      obtain ⟨hcourse, hover⟩ := course_of_ready hready
      rw [← hcourse] at h
      obtain ⟨pending, files⟩ := q
      cases pending with
      | nil =>
        cases hover rfl
        exact absurd h (Nat.not_succ_le_zero m)
      | cons e pending =>
        rw [Nat.succ_add]
        simp only [take, hready,
          @ih ⟨pending, files⟩ (Nat.le_of_succ_le_succ h), List.cons_append]

/-! ## Whole passes -/

/-- A pass over a corpus whose entries can be read gives them out in order, and
then the end. -/
theorem take_start_of_entries {es : List Entry} (h : c.entries s = .ok es)
    (n : Nat) :
    (take s n (start c)).1 = ⟨es.take n, es.length < n, none⟩ := by
  have hcourse := course_start_of_entries h
  by_cases hn : n ≤ es.length
  · rw [(take_of_le (by rwa [hcourse])).1, hcourse,
      decide_eq_false (Nat.not_lt.mpr hn)]
  · have hlt := Nat.lt_of_not_le hn
    rw [take_of_lt (by rwa [hcourse]), hcourse, decide_eq_true hlt,
      List.take_of_length_le (Nat.le_of_lt hlt)]
    rfl

/-- A pass over any other corpus gives out the entries of the files in front of
the one that fails, and then fails as the entries of the corpus do. -/
theorem take_start_of_error {failure : Failure}
    (h : c.entries s = .error failure) :
    ∃ front file rest ess, c.files = front ++ file :: rest
      ∧ front.mapM s.entriesOfFile = .ok ess
      ∧ s.entriesOfFile file = .error failure
      ∧ ∀ n, (take s n (start c)).1
          = ⟨ess.flatten.take n, false,
              if ess.flatten.length < n then some failure else none⟩ := by
  obtain ⟨front, file, rest, ess, heq, hfront, hfile, hcourse⟩ :=
    course_start_of_error h
  refine ⟨front, file, rest, ess, heq, hfront, hfile, fun n => ?_⟩
  by_cases hn : n ≤ ess.flatten.length
  · rw [(take_of_le (by rwa [hcourse])).1, hcourse, if_neg (Nat.not_lt.mpr hn)]
  · have hlt := Nat.lt_of_not_le hn
    rw [take_of_lt (by rwa [hcourse]), hcourse, if_pos hlt,
      List.take_of_length_le (Nat.le_of_lt hlt)]
    rfl

end LeafSurvey.Pass
