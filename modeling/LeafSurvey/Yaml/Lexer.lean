import LeafSurvey.Yaml.Token

/-!
# From text to tokens

The lexer keeps the open indentations, the depth of brackets and, for each
depth, the place where a key may have started. When a colon confirms such a key,
the tokens that announce it are inserted before it. A key must stand on one line
and be at most 1024 characters away from its colon. `tokens` always answers: the
list ends with `streamEnd`, or with the fault that was found. A fault comes
after the tokens that were settled before it: those that no later colon could
have moved.
-/

namespace LeafSurvey.Yaml

/-- A place where a key may have started. -/
structure KeyStart where
  /-- The depth of brackets around it. -/
  depth : Nat
  /-- The number of tokens before it. -/
  tokens : Nat
  /-- Whether a block mapping needs a key here. -/
  required : Bool
  index : Nat
  line : Nat
  column : Nat
deriving DecidableEq, Repr

/-- The state of the lexer. -/
structure Lexer where
  cursor : Cursor
  tokens : List Token
  /-- How many tokens were settled before the last fetch. -/
  settled : Nat
  /-- The depth of brackets. -/
  depth : Nat
  /-- The column of the innermost block collection, −1 outside of all. -/
  indent : Int
  /-- The columns of the block collections around it. -/
  outer : List Int
  /-- Whether a key may start at the next token. -/
  keyAllowed : Bool
  keyStarts : List KeyStart
deriving Repr

/-- A computation on the lexer that may find a fault. The tokens found before it
are kept. -/
abbrev Lex := ExceptT Fault (StateM Lexer)

namespace Lex

/-- Stops at text that is not YAML. -/
def malformed {α : Type} (reason : Malformed) : Lex α :=
  throw (.malformed reason)

/-- Runs a scan at the cursor. -/
def scan {α : Type} (s : Scan α) : Lex α := do
  match s.run (← get).cursor with
  | .ok (a, cursor) => modify fun x => { x with cursor }; return a
  | .error cause => throw cause

/-- Adds a token. -/
def push (t : Token) : Lex Unit :=
  modify fun x => { x with tokens := x.tokens ++ [t] }

/-- Inserts a token after the given number of tokens. -/
def insert (count : Nat) (t : Token) : Lex Unit :=
  modify fun x => { x with
    tokens := x.tokens.take count ++ t :: x.tokens.drop count }

/-- Sets whether a key may start at the next token. -/
def allowKey (allowed : Bool) : Lex Unit :=
  modify fun x => { x with keyAllowed := allowed }

/-! ## Places where a key may start -/

/-- Whether no colon can confirm a key any more. -/
def isStale (c : Cursor) (k : KeyStart) : Bool :=
  k.line ≠ c.line || 1024 < c.index - k.index

/-- Forgets the places that no colon can confirm any more. -/
def dropStale : Lex Unit := do
  let x ← get
  if x.keyStarts.any fun k => isStale x.cursor k && k.required then
    malformed .noColon
  modify fun x => { x with
    keyStarts := x.keyStarts.filter fun k => !isStale x.cursor k }

/-- Forgets the place at the present depth. -/
def dropKeyStart : Lex Unit := do
  let x ← get
  if x.keyStarts.any fun k => k.depth = x.depth && k.required then
    malformed .noColon
  modify fun x => { x with
    keyStarts := x.keyStarts.filter fun k => k.depth ≠ x.depth }

/-- Notes how many tokens are settled: those before the first place where a key
may have started. -/
def noteSettled : Lex Unit :=
  modify fun x => { x with
    settled := x.keyStarts.foldl (fun n k => min n k.tokens) x.tokens.length }

/-- Notes that a key may start here. -/
def noteKeyStart : Lex Unit := do
  let x ← get
  if x.keyAllowed then
    dropKeyStart
    let required := x.depth = 0 && x.indent = (x.cursor.column : Int)
    let start : KeyStart := ⟨x.depth, x.tokens.length, required, x.cursor.index,
      x.cursor.line, x.cursor.column⟩
    modify fun x => { x with keyStarts := start :: x.keyStarts }

/-! ## Indentation -/

/-- Closes the block collections that are indented deeper than a column. -/
def unwind (column : Int) : Lex Unit := do
  let x ← get
  if x.depth = 0 then
    for _ in x.outer do
      let y ← get
      if column < y.indent then
        push .blockEnd
        modify fun z => { z with
          indent := z.outer.headD (-1), outer := z.outer.tail }

/-- Opens a block collection at a column, if it is indented deeper than the
innermost one. -/
def indentTo (column : Nat) : Lex Bool := do
  let x ← get
  if x.indent < (column : Int) then
    set { x with indent := column, outer := x.indent :: x.outer }
    return true
  else return false

/-! ## Tokens -/

/-- Passes over spaces, comments and line ends. Outside of brackets a key may
start on a new line. -/
def skipBlanks : Nat → Lex Unit
  | 0 => return ()
  | n + 1 => do
    scan (do Scan.skipSpaces; Scan.skipComment)
    let ended ← scan Scan.lineBreak
    if ended.isEmpty then return ()
    if (← get).depth = 0 then allowKey true
    skipBlanks n

/-- A token that ends all open collections before it. -/
def fetchTopLevel (token : Scan Token) : Lex Unit := do
  unwind (-1)
  dropKeyStart
  allowKey false
  push (← scan token)

/-- The mark that opens a bracket. -/
def fetchOpen (t : Token) : Lex Unit := do
  noteKeyStart
  modify fun x => { x with depth := x.depth + 1 }
  allowKey true
  scan (Scan.skip 1)
  push t

/-- The mark that closes a bracket. -/
def fetchClose (t : Token) : Lex Unit := do
  dropKeyStart
  modify fun x => { x with depth := x.depth - 1 }
  allowKey false
  scan (Scan.skip 1)
  push t

/-- A comma between items in brackets. -/
def fetchFlowEntry : Lex Unit := do
  allowKey true
  dropKeyStart
  scan (Scan.skip 1)
  push .flowEntry

/-- The hyphen of a block sequence. -/
def fetchBlockEntry : Lex Unit := do
  let x ← get
  if x.depth = 0 then
    if !x.keyAllowed then malformed .misplacedEntry
    if ← indentTo x.cursor.column then push .blockSequence
  allowKey true
  dropKeyStart
  scan (Scan.skip 1)
  push .blockEntry

/-- The question mark of a key. -/
def fetchKey : Lex Unit := do
  let x ← get
  if x.depth = 0 then
    if !x.keyAllowed then malformed .misplacedKey
    if ← indentTo x.cursor.column then push .blockMapping
  allowKey (x.depth = 0)
  dropKeyStart
  scan (Scan.skip 1)
  push .key

/-- The colon of a value. It confirms the key that may have started at this
depth. -/
def fetchValue : Lex Unit := do
  let x ← get
  match x.keyStarts.find? fun k => k.depth = x.depth with
  | some k =>
    modify fun y => { y with
      keyStarts := y.keyStarts.filter fun k => k.depth ≠ y.depth }
    insert k.tokens .key
    if x.depth = 0 then
      if ← indentTo k.column then insert k.tokens .blockMapping
    allowKey false
  | none =>
    if x.depth = 0 then
      if !x.keyAllowed then malformed .misplacedValue
      if ← indentTo x.cursor.column then push .blockMapping
    allowKey (x.depth = 0)
    dropKeyStart
  scan (Scan.skip 1)
  push .value

/-- A token that may start a key. -/
def fetchNode (token : Scan Token) : Lex Unit := do
  noteKeyStart
  allowKey false
  push (← scan token)

/-- A plain scalar. When it ends with its line, a key may start after it. -/
def fetchPlain : Lex Unit := do
  noteKeyStart
  let x ← get
  let (text, lineEnded) ← scan (Scan.plainScalar (x.depth ≠ 0) (x.indent + 1))
  allowKey lineEnded
  push (.scalar (.chars text) true)

/-- A block scalar. A key may start after it. -/
def fetchBlock (isFolded : Bool) : Lex Unit := do
  allowKey true
  dropKeyStart
  let text ← scan (Scan.blockScalar isFolded (← get).indent)
  push (.scalar (.chars text) false)

/-- Whether a plain scalar may start with a character that a second one
follows. -/
def startsPlain (inFlow : Bool) (c : Char) (second : Option Char) : Bool :=
  (!atBlank (some c) && !("-?:,[]\x7b\x7d#&*!|>'\"%@\x60".toList.contains c))
    || (!atBlank second && (c = '-' || (!inFlow && (c = '?' || c = ':'))))

/-- Fetches the token at a character. -/
def fetchAt (c : Char) : Lex Unit := do
  let x ← get
  let inFlow := x.depth ≠ 0
  let second ← scan (Scan.peekAt 1)
  let mayMark := x.cursor.column = 0 && (c = '-' || c = '.')
  let separates ← if mayMark then scan Scan.atSeparator else pure false
  match c with
  | '%' =>
    if x.cursor.column = 0 then fetchTopLevel (.directive <$> Scan.directive)
    else malformed .noToken
  | '[' => fetchOpen .openSequence
  | '\x7b' => fetchOpen .openMapping
  | ']' => fetchClose .closeSequence
  | '\x7d' => fetchClose .closeMapping
  | ',' => fetchFlowEntry
  | '*' => fetchNode (.alias <$> Scan.anchorName)
  | '&' => fetchNode (.anchor <$> Scan.anchorName)
  | '!' => fetchNode Scan.tag
  | '\'' => fetchNode (do return .scalar (← Scan.quotedScalar '\'') false)
  | '"' => fetchNode (do return .scalar (← Scan.quotedScalar '"') false)
  | _ =>
    if c = '-' && separates then
      fetchTopLevel (do Scan.skip 3; return .documentStart)
    else if c = '.' && separates then
      fetchTopLevel (do Scan.skip 3; return .documentEnd)
    else if c = '-' && atBlank second then fetchBlockEntry
    else if c = '?' && (inFlow || atBlank second) then fetchKey
    else if c = ':' && (inFlow || atBlank second) then fetchValue
    else if c = '|' && !inFlow then fetchBlock false
    else if c = '>' && !inFlow then fetchBlock true
    else if startsPlain inFlow c second then fetchPlain
    else malformed .noToken

/-- Fetches tokens until the text ends. -/
def fetchAll : Nat → Lex Unit
  | 0 => return ()
  | n + 1 => do
    dropStale
    noteSettled
    skipBlanks ((← get).cursor.rest.length + 1)
    dropStale
    unwind (← get).cursor.column
    match ← scan Scan.peek with
    | none =>
      unwind (-1)
      dropKeyStart
      push .streamEnd
    | some c =>
      fetchAt c
      fetchAll n

end Lex

/-- The tokens of a text, of which what is beyond may be faulty. -/
def tokens (text : List Char) (beyond : Option Fault) : List Token :=
  let start : Lexer := ⟨.ofText text beyond, [], 0, 0, -1, [], true, []⟩
  match (Lex.fetchAll (text.length + 1)).run.run start with
  | (.ok (), x) => x.tokens
  | (.error cause, x) => x.tokens.take x.settled ++ [.fault cause]

end LeafSurvey.Yaml
