import Redline.Yaml.Written

/-!
# The tokens of a YAML text

A text is read into tokens. Outside brackets indentation opens and closes collections: a column
further to the right than all open ones opens one where an entry or a key stands, and a column to
the left closes those that start behind it. A key is known as one only when its colon is met, so the
start of each thing that may be a key is kept, one for every depth of brackets, and the token that
marks the key is put in there later. Such a key lies on one line and has at most 1024 characters.
-/

namespace Redline.Yaml

/-- A token. -/
inductive Token where
  | directive
  | documentStart
  | documentEnd
  | blockSequence
  | blockMapping
  | blockEnd
  | openList
  | closeList
  | openMapping
  | closeMapping
  | comma
  | entry
  | key
  | value
  | alias (name : String)
  | anchor (name : String)
  | tag (text : String)
  | scalar (text : String) (isPlain : Bool)
  deriving DecidableEq, Repr, Inhabited

/-- The start of what may be a key. -/
structure KeyStart where
  /-- The number of tokens before it. -/
  place : Nat
  /-- Whether nothing but a key can stand there. -/
  isRequired : Bool
  index : Nat
  line : Nat
  column : Nat
  deriving DecidableEq, Repr, Inhabited

/-- How far the tokens of a text are read. -/
structure Scan where
  cursor : Cursor
  tokens : Array Token
  /-- The number of open brackets. -/
  depth : Nat
  /-- The columns of the open block collections, innermost first; `-1` stands for the document. -/
  columns : List Int
  /-- Whether a key may start here. -/
  keyAllowed : Bool
  /-- The possible keys by the depth of brackets. -/
  keys : List (Nat × KeyStart)
  deriving Repr, Inhabited

namespace Scan

/-- The start of a text. -/
def start (text : List Char) : Scan :=
  { cursor := Cursor.start text
    tokens := #[]
    depth := 0
    columns := [-1]
    keyAllowed := true
    keys := [] }

/-- The column of the innermost block collection. -/
def column (s : Scan) : Int :=
  s.columns.head?.getD (-1)

/-- One more token. -/
def push (s : Scan) (t : Token) : Scan :=
  { s with tokens := s.tokens.push t }

/-- One more token, for so many characters. -/
def take (s : Scan) (t : Token) (count : Nat) : Scan :=
  { s with tokens := s.tokens.push t, cursor := s.cursor.skip count }

/-- One more token, read up to a cursor, and whether a key may follow it. -/
def took (s : Scan) (t : Token) (cursor : Cursor) (keyAllowed : Bool) : Scan :=
  { s with tokens := s.tokens.push t, cursor, keyAllowed }

/-- A token put in at a place. -/
def insert (s : Scan) (place : Nat) (t : Token) : Scan :=
  { s with
    tokens := (s.tokens.extract 0 place).push t ++ s.tokens.extract place s.tokens.size }

/-- Without the possible key of the present depth; none if it was required. -/
def dropKey? (s : Scan) : Option Scan :=
  match s.keys.lookup s.depth with
  | none => some s
  | some key =>
    if key.isRequired then none
    else some { s with keys := s.keys.filter (·.1 ≠ s.depth) }

/-- With a possible key that starts here, if one may. -/
def saveKey? (s : Scan) : Option Scan :=
  if s.keyAllowed then do
    let s ← s.dropKey?
    let key : KeyStart :=
      { place := s.tokens.size
        isRequired := s.depth = 0 && s.column == s.cursor.column
        index := s.cursor.index
        line := s.cursor.line
        column := s.cursor.column }
    return { s with keys := (s.depth, key) :: s.keys }
  else some s

/-- Without the possible keys that lie on another line or too far back; none if one was required. -/
def dropStaleKeys? (s : Scan) : Option Scan :=
  let isStale (key : KeyStart) : Bool :=
    key.line ≠ s.cursor.line || 1024 < s.cursor.index - key.index
  if s.keys.any fun k => isStale k.2 && k.2.isRequired then none
  else some { s with keys := s.keys.filter fun k => !isStale k.2 }

/-- The block collections that start behind a column are closed. -/
def unwind (s : Scan) (column : Int) : Scan :=
  if s.depth ≠ 0 then s
  else
    let closed := s.columns.takeWhile (column < ·)
    { s with
      columns := s.columns.dropWhile (column < ·)
      tokens := s.tokens ++ (closed.map fun _ => Token.blockEnd) }

/-- A block collection is opened at a column, unless one is open there. -/
def openAt (s : Scan) (column : Nat) (place : Nat) (t : Token) : Scan :=
  if s.column < column then { s.insert place t with columns := (column : Int) :: s.columns } else s

/-- The place of the next token: behind blanks, comments and line ends. A line end outside brackets
allows a key. Each step takes a line, so the length of the text bounds the steps. -/
def toNext : Nat → Scan → Scan
  | 0, s => s
  | steps + 1, s =>
    let c := s.cursor.past (· == ' ')
    let c := if c.rest.head? = some '#' then c.past (!isBreak ·) else c
    match c.lineBreak? with
    | none => { s with cursor := c }
    | some (_, c) => toNext steps { s with cursor := c, keyAllowed := s.keyAllowed || s.depth = 0 }

/-- A mark between documents, or a directive. -/
def betweenDocuments (s : Scan) (t : Token) (count : Nat) : Option Scan := do
  let s ← (s.unwind (-1)).dropKey?
  return ({ s with keyAllowed := false }).take t count

/-- An opening bracket. -/
def openBracket (s : Scan) (t : Token) : Option Scan := do
  let s ← s.saveKey?
  return ({ s with depth := s.depth + 1, keyAllowed := true }).take t 1

/-- A closing bracket; one that was not opened is refused. -/
def closeBracket (s : Scan) (t : Token) : Option Scan :=
  if s.depth = 0 then none
  else do
    let s ← s.dropKey?
    return ({ s with depth := s.depth - 1, keyAllowed := false }).take t 1

/-- The comma between entries in brackets. -/
def comma (s : Scan) : Option Scan := do
  let s ← s.dropKey?
  return ({ s with keyAllowed := true }).take .comma 1

/-- The mark of an entry of a block sequence. -/
def blockEntry (s : Scan) : Option Scan := do
  let s ←
    if s.depth ≠ 0 then some s
    else if !s.keyAllowed then none
    else some (s.openAt s.cursor.column s.tokens.size .blockSequence)
  let s ← s.dropKey?
  return ({ s with keyAllowed := true }).take .entry 1

/-- The mark of a key. -/
def explicitKey (s : Scan) : Option Scan := do
  let s ←
    if s.depth ≠ 0 then some s
    else if !s.keyAllowed then none
    else some (s.openAt s.cursor.column s.tokens.size .blockMapping)
  let s ← s.dropKey?
  return ({ s with keyAllowed := s.depth = 0 }).take .key 1

/-- The mark of a value. What may be a key before it is one. -/
def valueMark (s : Scan) : Option Scan :=
  match s.keys.lookup s.depth with
  | some key =>
    let s := { s with keys := s.keys.filter (·.1 ≠ s.depth), keyAllowed := false }
    let s := s.insert key.place .key
    let s := if s.depth = 0 then s.openAt key.column key.place .blockMapping else s
    some (s.take .value 1)
  | none =>
    if s.depth ≠ 0 then some (({ s with keyAllowed := false }).take .value 1)
    else if !s.keyAllowed then none
    else
      let s := s.openAt s.cursor.column s.tokens.size .blockMapping
      some (({ s with keyAllowed := true }).take .value 1)

/-- Whether a character may be part of a name. -/
def isNameChar (c : Char) : Bool :=
  c.isAlphanum || c == '-' || c == '_'

/-- Whether a name may end before a character. -/
def endsName (next : Option Char) : Bool :=
  match next with
  | none => true
  | some c => isGap c || ['?', ':', ',', ']', '\x7d', '%', '@', '\x60'].contains c

/-- The name of an alias or an anchor. -/
def named (s : Scan) (make : String → Token) : Option Scan := do
  let s ← s.saveKey?
  let (name, c) := s.cursor.step.run isNameChar
  if name.isEmpty ∨ !endsName c.rest.head? then none
  else return s.took (make (String.ofList name)) c false

/-- A tag. -/
def tagged (s : Scan) : Option Scan := do
  let s ← s.saveKey?
  let (text, c) := s.cursor.run fun ch => ch ≠ ' ' && !isBreak ch
  return s.took (.tag (String.ofList text)) c false

/-- A scalar in quotes. -/
def quotedScalar (s : Scan) (double : Bool) : Option Scan := do
  let s ← s.saveKey?
  let (text, c) ← quoted? double s.cursor
  return s.took (.scalar (String.ofList text) false) c false

/-- A block of lines. -/
def blockScalar (s : Scan) (isFolded : Bool) : Option Scan := do
  let s ← s.dropKey?
  let (text, c) ← block? isFolded s.column s.cursor
  return s.took (.scalar (String.ofList text) false) c true

/-- Whether plain text may start at the cursor. -/
def startsPlain (s : Scan) : Bool :=
  match s.cursor.rest with
  | [] => false
  | c :: _ =>
    if isGap c then false
    else if c == '-' || (s.depth = 0 && (c == '?' || c == ':')) then !s.cursor.gapAt 1
    else !(['-', '?', ':', ',', '[', ']', '\x7b', '\x7d', '#', '&', '*', '!', '|', '>', '\'', '"',
      '%', '@', '\x60'].contains c)

/-- A plain scalar. A line end behind it allows a key. -/
def plainScalar (s : Scan) : Option Scan := do
  let s ← s.saveKey?
  let (text, crossed, c) := plain (s.depth ≠ 0) (s.column + 1) s.cursor
  return s.took (.scalar (String.ofList text) true) c crossed

/-- The token that starts with a character. -/
def fetch (s : Scan) (c : Char) : Option Scan :=
  let inFlow := s.depth ≠ 0
  let atStart := s.cursor.column = 0
  match c with
  | '[' => s.openBracket .openList
  | '\x7b' => s.openBracket .openMapping
  | ']' => s.closeBracket .closeList
  | '\x7d' => s.closeBracket .closeMapping
  | ',' => s.comma
  | '*' => s.named .alias
  | '&' => s.named .anchor
  | '!' => s.tagged
  | '\'' => s.quotedScalar false
  | '"' => s.quotedScalar true
  | c =>
    if c = '%' ∧ atStart then s.betweenDocuments .directive (s.cursor.run (!isBreak ·)).1.length
    else if atStart ∧ s.cursor.hasMark ['-', '-', '-'] then s.betweenDocuments .documentStart 3
    else if atStart ∧ s.cursor.hasMark ['.', '.', '.'] then s.betweenDocuments .documentEnd 3
    else if c = '-' ∧ s.cursor.gapAt 1 then s.blockEntry
    else if c = '?' ∧ (inFlow ∨ s.cursor.gapAt 1) then s.explicitKey
    else if c = ':' ∧ (inFlow ∨ s.cursor.gapAt 1) then s.valueMark
    else if c = '|' ∧ !inFlow then s.blockScalar false
    else if c = '>' ∧ !inFlow then s.blockScalar true
    else if s.startsPlain then s.plainScalar
    else none

/-- The tokens up to the end of the text. Each step takes a character at least, so the length of the
text bounds the steps. -/
def finish : Nat → Scan → Option (List Token)
  | 0, _ => none
  | steps + 1, s => do
    let s ← (s.toNext s.cursor.rest.length.succ).dropStaleKeys?
    let s := s.unwind s.cursor.column
    match s.cursor.rest with
    | [] => return (← (s.unwind (-1)).dropKey?).tokens.toList
    | c :: _ => finish steps (← s.fetch c)

end Scan

/-- The tokens of a text; none if it holds a character that it must not, or is malformed. -/
def Token.ofText? (text : List Char) : Option (List Token) :=
  if !text.all isAllowed then none
  else
    let s := Scan.start text
    let s := if text.head? = some '\uFEFF' then { s with cursor := s.cursor.step } else s
    s.finish text.length.succ.succ

end Redline.Yaml
