import LeafSurvey.Text.Utf8
import LeafSurvey.Yaml.Cursor

/-!
# How a text comes in

The bytes of a file become text in portions of 4096 characters, and a portion is
taken when reading needs a character of it; the first two are taken together at
the start. Bytes that are not UTF-8, and characters that no text may hold, are
met only when their portion is taken, so a fault that reading finds before that
comes first. `Source.ofBytes` gives the characters of the portions that come in
whole, and the fault behind them.
-/

namespace LeafSurvey.Yaml

/-- Line ends as line feeds. -/
def normalizedLines : List Char → List Char
  | [] => []
  | '\r' :: '\n' :: rest => '\n' :: normalizedLines rest
  | c :: rest => (if c = '\r' then '\n' else c) :: normalizedLines rest

/-- The characters of a text, as far as they come in, and the fault that is met
behind them. -/
structure Source where
  chars : List Char
  beyond : Option Fault
deriving DecidableEq, Repr

/-- Bytes on their way to text. -/
structure Intake where
  /-- The bytes to come. -/
  bytes : List UInt8
  /-- The character begun at the end of the bytes taken. -/
  begun : Option Text.Utf8.Begun
  /-- A carriage return ended the bytes taken; a line feed may follow it. -/
  holdsReturn : Bool
  /-- Characters decoded and not yet passed on. -/
  ready : List Char
  /-- The bytes and the characters of the last part decoded. -/
  lastBytes : Nat
  lastChars : Nat
deriving DecidableEq, Repr

namespace Intake

/-- The least number of bytes that are decoded at a time. -/
def partSize : Nat := 8192

/-- The number of characters in a portion. -/
def portionSize : Nat := 4096

/-- How many bytes are decoded to get some more characters: as many as they
would have taken in the last part. -/
def wantedBytes (x : Intake) (count : Nat) : Nat :=
  max partSize (count * x.lastBytes / x.lastChars)

/-- Decodes one more part, to get some more characters. `none` when it is not
UTF-8. -/
def decodePart (x : Intake) (count : Nat) : Option Intake := do
  let part := x.bytes.take (x.wantedBytes count)
  let isEnd := part.isEmpty
  let (cs, begun) ← Text.Utf8.feedAll x.begun part
  if isEnd && begun.isSome then none
  let cs := if x.holdsReturn && (isEnd || !cs.isEmpty) then '\r' :: cs else cs
  let holds :=
    !isEnd && (cs.getLast? = some '\r' || (x.holdsReturn && cs.isEmpty))
  let kept :=
    normalizedLines (if cs.getLast? = some '\r' && !isEnd then cs.dropLast
      else cs)
  return ⟨x.bytes.drop part.length, begun, holds, x.ready ++ kept,
    part.length, kept.length⟩

/-- The intake with a number of characters ready, or with all that are left.
`none` when a part is not UTF-8. -/
def prepared (count : Nat) : Nat → Intake → Option Intake
  | 0, x => some x
  | n + 1, x =>
    if count ≤ x.ready.length then some x
    else do
      let y ← x.decodePart (count - x.ready.length)
      if y.lastBytes = 0 ∧ y.lastChars = 0 then return y else prepared count n y

/-- The portions that come in whole, and whether bytes that are not UTF-8 end
them. -/
def portions : Nat → Intake → List (List Char) × Bool
  | 0, _ => ([], false)
  | n + 1, x =>
    match x.prepared portionSize (x.bytes.length + 2) with
    | none => ([], true)
    | some y =>
      if y.ready.isEmpty then ([], false)
      else
        let (rest, isBroken) :=
          portions n { y with ready := y.ready.drop portionSize }
        (y.ready.take portionSize :: rest, isBroken)

end Intake

namespace Source

/-- The first place among portions where a fault is met; the first two portions
count as one place. -/
def place (portion : Nat) : Nat :=
  max portion 1

/-- The number of portions that reading gets when a given one is faulty. -/
def gotBefore (portion : Nat) : Nat :=
  if portion ≤ 1 then 0 else portion

/-- The source of portions, of which some hold characters that no text may hold,
and which may end in bytes that are not UTF-8. -/
def ofPortions (portions : List (List Char)) (isBroken : Bool) : Source :=
  let cutAt (portion : Nat) (cause : Fault) : Source :=
    ⟨(portions.take (gotBefore portion)).flatten, some cause⟩
  match portions.findIdx? fun p => !p.all isPrintable with
  | some i =>
    if isBroken ∧ place portions.length ≤ place i then
      cutAt portions.length .encoding
    else cutAt i (.malformed .unprintable)
  | none =>
    if isBroken then cutAt portions.length .encoding
    else ⟨portions.flatten, none⟩

/-- The source of a file's bytes. -/
def ofBytes (bytes : ByteArray) : Source :=
  let (portions, isBroken) :=
    Intake.portions (bytes.size + 1) ⟨bytes.toList, none, false, [], 0, 0⟩
  ofPortions portions isBroken

end Source

end LeafSurvey.Yaml
