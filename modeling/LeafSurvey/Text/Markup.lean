/-!
# Console markup

Console lines carry style tags in brackets. A text from outside, such as a path,
must not be taken for a tag, so it is escaped first: where a bracket opens
something that reads like a tag, the backslashes before it are doubled and one
more is added. A single backslash at the very end is doubled too, as it would
otherwise escape the closing tag of the line.
-/

namespace LeafSurvey.Text.Markup

/-- The characters a tag may start with. -/
def startsTag (c : Char) : Bool :=
  ('a' ≤ c && c ≤ 'z') || c = '#' || c = '/' || c = '@'

/-- Whether a closing bracket comes before the next opening one. -/
def closes : List Char → Bool
  | [] => false
  | c :: rest => c = ']' || (c ≠ '[' && closes rest)

/-- Whether the text after an opening bracket makes it a tag. -/
def opensTag : List Char → Bool
  | [] => false
  | c :: rest => startsTag c && closes rest

/-- Escapes the brackets that open a tag; `pending` counts the backslashes just
before. -/
def escapeBrackets (pending : Nat) : List Char → List Char
  | [] => List.replicate pending '\\'
  | c :: rest =>
    if c = '\\' then escapeBrackets (pending + 1) rest
    else
      let slashes := if c = '[' && opensTag rest then 2 * pending + 1
        else pending
      List.replicate slashes '\\' ++ c :: escapeBrackets 0 rest

/-- Doubles a lone backslash at the end. -/
def escapeEnd (cs : List Char) : List Char :=
  if (cs.reverse.takeWhile (· == '\\')).length = 1 then cs ++ ['\\'] else cs

/-- The text as it may stand inside a markup line. -/
def escape (s : String) : String :=
  String.ofList (escapeEnd (escapeBrackets 0 s.toList))

end LeafSurvey.Text.Markup
