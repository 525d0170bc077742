import LeafSurvey.Corpus

/-!
# Passes

A pass goes through the entries of a corpus on demand. A file is read as a whole
when its first entry is asked for, so a pass sees every file as it is at that
moment. A pass that meets a failure is over.
-/

namespace LeafSurvey

/-- A pass under way: the entries read and not yet given out, and the files not
yet read. -/
structure Pass where
  pending : List Entry
  files : List FilePath
deriving DecidableEq, Repr

namespace Pass

/-- A pass that has given out nothing. -/
def start (c : Corpus) : Pass := ⟨[], c.files⟩

/-- A pass that is over. -/
def finished : Pass := ⟨[], []⟩

/-- The first file that has entries, read, and the files after it. -/
def advance (s : Store) : List FilePath → Except Failure Pass
  | [] => .ok finished
  | file :: rest =>
    match s.entriesOfFile file with
    | .error failure => .error failure
    | .ok [] => advance s rest
    | .ok es => .ok ⟨es, rest⟩

/-- The pass with an entry to give out, unless it is over. -/
def ready (s : Store) (p : Pass) : Except Failure Pass :=
  if p.pending.isEmpty then advance s p.files else .ok p

/-- What a pass gives out at one request. -/
structure Batch where
  entries : List Entry
  /-- The request has found that there are no more. -/
  isLast : Bool
  failure : Option Failure
deriving DecidableEq, Repr

/-- Gives out at most `n` entries. -/
def take (s : Store) : Nat → Pass → Batch × Pass
  | 0, p => (⟨[], false, none⟩, p)
  | n + 1, p =>
    match p.ready s with
    | .error failure => (⟨[], false, some failure⟩, finished)
    | .ok ⟨[], _⟩ => (⟨[], true, none⟩, finished)
    | .ok ⟨e :: pending, files⟩ =>
      let (batch, after) := take s n ⟨pending, files⟩
      ({ batch with entries := e :: batch.entries }, after)

end Pass

end LeafSurvey
