/-!
# UTF-8, byte by byte

A character of UTF-8 is a first byte, which says how many follow, and the bytes
that follow. `Utf8.feed` takes one byte and refuses the first one with which no
text can go on, so a text that comes in parts is decoded part by part: what a
part ends with may be a character begun.
-/

namespace LeafSurvey.Text.Utf8

/-- A character of which some bytes are still to come. -/
structure Begun where
  /-- The number of bytes to come. -/
  missing : Nat
  /-- The number that the bytes so far write. -/
  bits : Nat
  /-- The least and the greatest byte that may come next. -/
  least : Nat
  greatest : Nat
deriving DecidableEq, Repr

/-- What the first byte of a character begins. Some first bytes narrow the
second one down, so that no character has two forms, and surrogate halves and
numbers beyond all characters have none. -/
def begin? (b : Nat) : Option Begun :=
  if b < 0xC2 ∨ 0xF4 < b then none
  else if b < 0xE0 then some ⟨1, b - 0xC0, 0x80, 0xBF⟩
  else if b < 0xF0 then
    some ⟨2, b - 0xE0, if b = 0xE0 then 0xA0 else 0x80,
      if b = 0xED then 0x9F else 0xBF⟩
  else some ⟨3, b - 0xF0, if b = 0xF0 then 0x90 else 0x80,
    if b = 0xF4 then 0x8F else 0xBF⟩

/-- Takes one byte: the character that it completes, or the one that is begun
after it. `none` where no text goes on with the byte. -/
def feed (state : Option Begun) (b : Nat) :
    Option (Option Char × Option Begun) :=
  match state with
  | none =>
    if b < 0x80 then some (some (Char.ofNat b), none)
    else (begin? b).map fun s => (none, some s)
  | some s =>
    if b < s.least ∨ s.greatest < b then none
    else
      let bits := 64 * s.bits + (b - 0x80)
      if s.missing ≤ 1 then some (some (Char.ofNat bits), none)
      else some (none, some ⟨s.missing - 1, bits, 0x80, 0xBF⟩)

/-- Takes the bytes of a part: the characters that they complete, and the one
begun at its end. -/
def feedAll (state : Option Begun) :
    List UInt8 → Option (List Char × Option Begun)
  | [] => some ([], state)
  | b :: rest => do
    let (c, state) ← feed state b.toNat
    let (cs, state) ← feedAll state rest
    return (c.toList ++ cs, state)

end LeafSurvey.Text.Utf8
