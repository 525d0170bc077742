/-!
# Octets in base sixty-four

A letter, a digit, a plus or a slash stands for six bits, and four of them make
three octets. The last four may be filled up with equals signs, and what stands
behind a filled four is not read. Any other character counts for nothing.
-/

namespace LeafSurvey.Text

/-- The six bits that a character stands for. -/
def sixBits? (c : Char) : Option Nat :=
  if 'A' ≤ c ∧ c ≤ 'Z' then some (c.toNat - 'A'.toNat)
  else if 'a' ≤ c ∧ c ≤ 'z' then some (c.toNat - 'a'.toNat + 26)
  else if c.isDigit then some (c.toNat - '0'.toNat + 52)
  else if c = '+' then some 62
  else if c = '/' then some 63
  else none

/-- The four characters that are being read: how many have been, the bits of
them that have gone into no octet yet, and the equals signs after the last
one. -/
structure Quartet where
  count : Nat
  bits : Nat
  fillers : Nat

namespace Quartet

/-- Four characters of which none has been read. -/
def fresh : Quartet := ⟨0, 0, 0⟩

/-- The octets of the characters that follow; `none` when they end within a
four. An equals sign fills nothing up before two characters of the four are
there. -/
def octets? (q : Quartet) : List Char → Option (List UInt8)
  | [] => if q.count = 0 then some [] else none
  | c :: rest =>
    if c = '=' then
      if q.count < 2 then q.octets? rest
      else if q.count + q.fillers < 3 then
        octets? { q with fillers := q.fillers + 1 } rest
      else some []
    else
      match sixBits? c, q.count with
      | none, _ => q.octets? rest
      | some n, 0 => octets? ⟨1, n, 0⟩ rest
      | some n, 1 =>
        (octets? ⟨2, n % 16, 0⟩ rest).map (.ofNat (4 * q.bits + n / 16) :: ·)
      | some n, 2 =>
        (octets? ⟨3, n % 4, 0⟩ rest).map (.ofNat (16 * q.bits + n / 4) :: ·)
      | some n, _ => (fresh.octets? rest).map (.ofNat (64 * q.bits + n) :: ·)

end Quartet

/-- The octets that a text writes in base sixty-four. -/
def octets? (cs : List Char) : Option (List UInt8) :=
  Quartet.fresh.octets? cs

end LeafSurvey.Text
