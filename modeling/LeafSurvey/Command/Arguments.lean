import LeafSurvey.Text.Digits
import LeafSurvey.Text.Quoted

/-!
# Command line arguments

A command line mixes options and positional arguments. A long option may be
shortened as long as only one fits, its value may follow an equals sign or come
next, and the value of a one-letter option may be attached to it. After `--`
everything is positional, and attached to an option `--` marks the absence of a
value. `Grammar.parse` reads a line by its form and keeps what no option and no
position takes up, so that a command inside a command can leave that to the
outer one.
-/

namespace LeafSurvey.Command

/-- An option: the ways to write it, and whether it takes a value. -/
structure OptionForm where
  spellings : List String
  takesValue : Bool
deriving DecidableEq, Repr

namespace OptionForm

/-- The spelling under which an option is kept: the longest. -/
def key (o : OptionForm) : String :=
  o.spellings.getLastD ""

/-- All spellings, as they are named in messages. -/
def label (o : OptionForm) : String :=
  "/".intercalate o.spellings

end OptionForm

/-- The option that asks for help. -/
def helpForm : OptionForm := ⟨["-h", "--help"], false⟩

/-- What the positional arguments of a line are. -/
inductive Positional where
  /-- One argument, under a name. -/
  | one (name : String)
  /-- A command, of the given ones, and everything after it. -/
  | command (choices : List String)
deriving DecidableEq, Repr

/-- The form of a command line. -/
structure Grammar where
  program : String
  options : List OptionForm
  positional : Positional
deriving DecidableEq, Repr

/-- An argument recognised as an option: the spelling that it stands for, and
the value attached to it. An option that no grammar knows has no form. -/
structure Recognised where
  form : Option OptionForm
  spelling : String
  attached : Option String
deriving DecidableEq, Repr

/-- An argument with its role. -/
inductive Slot where
  | positional (text : String)
  | dashes
  | option (text : String) (seen : Recognised)
deriving DecidableEq, Repr

namespace Slot

/-- The argument as it was given. -/
def text : Slot → String
  | positional t => t
  | dashes => "--"
  | option t _ => t

/-- Whether the argument is an option. -/
def isOption : Slot → Bool
  | option _ _ => true
  | _ => false

end Slot

/-- What was given for an option. -/
inductive Given where
  | text (value : String)
  /-- No value: the option takes none, or dashes mark its absence. -/
  | nothing
deriving DecidableEq, Repr

namespace Given

/-- The value that is attached to an option. -/
def attached (cs : List Char) : Given :=
  if cs = ['-', '-'] then nothing else text (String.ofList cs)

end Given

/-- What a line has said so far. -/
structure Arguments where
  /-- What was given for options, by key and in the order of the line. -/
  values : List (String × Given)
  /-- The arguments that the position has taken. -/
  positional : Option (List String)
  /-- The arguments that nothing has taken. -/
  extras : List String
deriving DecidableEq, Repr

namespace Arguments

/-- What was given last for an option. -/
def value? (a : Arguments) (key : String) : Option Given :=
  a.values.reverse.lookup key

/-- Whether an option was given. -/
def has (a : Arguments) (key : String) : Bool :=
  a.values.any (·.1 = key)

end Arguments

/-- How a line ends early. -/
inductive Stop where
  /-- Help was asked for. -/
  | help
  /-- The line is not understood. -/
  | complaint (message : String)
deriving DecidableEq, Repr

namespace Grammar

/-! ## Roles -/

/-- All spellings with their options, in order. -/
def spellings (g : Grammar) : List (String × OptionForm) :=
  g.options.flatMap fun o => o.spellings.map fun s => (s, o)

/-- Splits at the first equals sign. -/
def splitEquals (s : String) : Option (String × String) :=
  let cs := s.toList
  if cs.contains '=' then
    some (String.ofList (cs.takeWhile (· ≠ '=')),
      String.ofList ((cs.dropWhile (· ≠ '=')).drop 1))
  else none

/-- Whether one text starts another. -/
def starts (front s : String) : Bool :=
  front.toList.isPrefixOf s.toList

/-- The characters before a line feed at the end, if one is there. -/
def withoutLineFeed (cs : List Char) : List Char :=
  if cs.getLast? = some '\n' then cs.dropLast else cs

/-- A hyphen and a number, which is no option. A line feed may end it. -/
def isNegativeNumber (s : String) : Bool :=
  match withoutLineFeed s.toList with
  | '-' :: rest =>
    let whole := rest.takeWhile Text.isDecimalDigit
    match rest.dropWhile Text.isDecimalDigit with
    | [] => !whole.isEmpty
    | '.' :: fraction => !fraction.isEmpty && fraction.all Text.isDecimalDigit
    | _ => false
  | _ => false

/-- The options that an argument may shorten, or that it attaches a value to. -/
def candidates (g : Grammar) (arg : String) : List Recognised :=
  if starts "--" arg then
    let (front, attached) := match splitEquals arg with
      | some (front, value) => (front, some value)
      | none => (arg, none)
    (g.spellings.filter fun s => starts front s.1).map fun s =>
      ⟨some s.2, s.1, attached⟩
  else
    let letter := String.ofList (arg.toList.take 2)
    g.spellings.filterMap fun s =>
      if s.1 = letter then
        some ⟨some s.2, s.1, some (String.ofList (arg.toList.drop 2))⟩
      else if starts arg s.1 then some ⟨some s.2, s.1, none⟩
      else none

/-- The option whose spelling ends at the first equals sign of an argument. -/
def exactBeforeEquals (g : Grammar) (arg : String) : Option Recognised := do
  let (front, value) ← splitEquals arg
  let form ← g.spellings.lookup front
  return ⟨some form, front, some value⟩

/-- The role of an argument before any `--`. -/
def slot (g : Grammar) (arg : String) : Except Stop Slot :=
  if !starts "-" arg then .ok (.positional arg)
  else
    match g.spellings.lookup arg with
    | some form => .ok (.option arg ⟨some form, arg, none⟩)
    | none =>
      if arg = "-" then .ok (.positional arg)
      else
        match g.exactBeforeEquals arg with
        | some seen => .ok (.option arg seen)
        | none =>
          match g.candidates arg with
          | [seen] => .ok (.option arg seen)
          | [] =>
            if isNegativeNumber arg || arg.toList.contains ' ' then
              .ok (.positional arg)
            else .ok (.option arg ⟨none, arg, none⟩)
          | several =>
            .error (.complaint ("ambiguous option: " ++ arg ++ " could match "
              ++ ", ".intercalate (several.map (·.spelling))))

/-- The roles of the arguments of a line. -/
def slots (g : Grammar) : List String → Except Stop (List Slot)
  | [] => .ok []
  | "--" :: rest => .ok (.dashes :: rest.map .positional)
  | arg :: rest => do return (← g.slot arg) :: (← g.slots rest)

/-! ## Options -/

/-- A complaint about an option. -/
def about {α : Type} (form : OptionForm) (message : String) : Except Stop α :=
  .error (.complaint ("argument " ++ form.label ++ ": " ++ message))

/-- Notes an option; a call for help ends the line. -/
def note (a : Arguments) (form : OptionForm) (value : Given) :
    Except Stop Arguments :=
  if form = helpForm then .error .help
  else .ok { a with values := a.values ++ [(form.key, value)] }

/-- What an option argument says: the options in it with what is given for them,
and the arguments that are left after those it has used. -/
structure Reading where
  noted : List (OptionForm × Given)
  next : List String
deriving DecidableEq, Repr

/-- Reads an option to which nothing is attached. -/
def readAlone (form : OptionForm) (next : List String) : Except Stop Reading :=
  if form.takesValue then
    match next with
    | value :: rest => .ok ⟨[(form, .text value)], rest⟩
    | [] => about form "expected one argument"
  else .ok ⟨[(form, .nothing)], next⟩

/-- Complains about a text attached to an option that takes none. -/
def ignored (form : OptionForm) (attached : List Char) : Except Stop Reading :=
  about form ("ignored explicit argument "
    ++ Text.quoted (String.ofList attached))

/-- Puts an option without value in front. -/
def andThen (form : OptionForm) (r : Reading) : Reading :=
  { r with noted := (form, .nothing) :: r.noted }

/-- Reads an option with the text attached to it. The text after a one-letter
option without value starts with the letter of another option, and what follows
the letter is attached to that one. -/
def readAttached (g : Grammar) (form : OptionForm) (spelling : String)
    (next : List String) (attached : List Char) : Except Stop Reading :=
  if form.takesValue then .ok ⟨[(form, .attached attached)], next⟩
  else if starts "--" spelling then ignored form attached
  else
    match attached with
    | [] => ignored form []
    | c :: rest =>
      let letter := String.ofList ['-', c]
      match g.spellings.lookup letter, rest with
      | none, _ => ignored form (c :: rest)
      | some following, [] => (readAlone following next).map (andThen form)
      | some following, d :: more =>
        (readAttached g following letter next (d :: more)).map (andThen form)

/-- Reads an option at the front of a line. `next` are the arguments after it
that may be its value. -/
def readOption (g : Grammar) (form : OptionForm) (seen : Recognised)
    (next : List String) :
    Except Stop Reading :=
  match seen.attached with
  | none => readAlone form next
  | some text => readAttached g form seen.spelling next text.toList

/-- Takes an option at the front of a line, and answers what is left of the
arguments after it. An unknown option is left over. -/
def takeOption (g : Grammar) (a : Arguments) (arg : String) (seen : Recognised)
    (next : List String) : Except Stop (Arguments × List String) := do
  match seen.form with
  | none => return ({ a with extras := a.extras ++ [arg] }, next)
  | some form =>
    let r ← g.readOption form seen next
    return (← r.noted.foldlM (fun a n => note a n.1 n.2) a, r.next)

/-! ## Positions -/

/-- The number of arguments at the front that a position takes, if it can take
any. A single argument takes the dashes around it along; a command takes
everything. -/
def positionLength? (p : Positional) (line : List Slot) : Option Nat :=
  let lead := (line.takeWhile (· = .dashes)).length
  match line.drop lead with
  | .positional _ :: rest =>
    match p with
    | .one _ => some (lead + 1 + (rest.takeWhile (· = .dashes)).length)
    | .command _ => some line.length
  | _ => none

/-- Takes the position at the front of a line, unless it has been taken. -/
def takePosition (g : Grammar) (a : Arguments) (line : List Slot) :
    Except Stop (Arguments × List Slot) :=
  match a.positional, positionLength? g.positional line with
  | none, some n =>
    let taken := (line.take n).map Slot.text
    match g.positional with
    | .one _ =>
      .ok ({ a with positional := some (taken.erase "--") }, line.drop n)
    | .command choices =>
      let name := taken.headD ""
      if choices.contains name then
        .ok ({ a with positional := some taken }, line.drop n)
      else
        .error (.complaint
          ("argument command: invalid choice: " ++ Text.quoted name
          ++ " (choose from " ++ ", ".intercalate (choices.map Text.quoted)
              ++ ")"))
  | _, _ => .ok (a, line)

/-! ## Lines -/

/-- The positional arguments at the front, as texts. An option or `--` ends
them. -/
def valuesAhead (line : List Slot) : List String :=
  (line.takeWhile fun s => !s.isOption && s ≠ .dashes).map Slot.text

/-- Reads a line of arguments with their roles. -/
def consume (g : Grammar) : Nat → Arguments → List Slot → Except Stop Arguments
  | 0, a, _ => .ok a
  | n + 1, a, line =>
    match line with
    | .option arg seen :: rest => do
      let ahead := valuesAhead rest
      let (a, left) ← g.takeOption a arg seen ahead
      g.consume n a (rest.drop (ahead.length - left.length))
    | _ => do
      let (b, left) ← g.takePosition a line
      if !line.any Slot.isOption then
        return { b with extras := b.extras ++ left.map Slot.text }
      if left.length < line.length then g.consume n b left
      else
        let before := line.takeWhile fun s => !s.isOption
        g.consume n { b with extras := b.extras ++ before.map Slot.text }
          (line.drop before.length)

/-- Reads a line. A line must have its one argument, and may do without a
command. -/
def parse (g : Grammar) (args : List String) : Except Stop Arguments := do
  let line ← g.slots args
  let a ← g.consume (line.length + 1) ⟨[], none, []⟩ line
  match g.positional, a.positional with
  | .one name, none =>
    throw (.complaint ("the following arguments are required: " ++ name))
  | _, _ => return a

end Grammar

end LeafSurvey.Command
