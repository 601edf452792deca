/-!
# A place in a YAML text

A cursor holds the text that remains and where it starts: how many characters, how many lines and
how many columns lie before it. Line ends are a line feed, the next-line control, and the line and
paragraph separators; the conventions with a carriage return are unified before.
-/

namespace Redline.Yaml

/-- Whether a character ends a line. -/
def isBreak (c : Char) : Bool :=
  c == '\n' || c.toNat == 0x85 || c.toNat == 0x2028 || c.toNat == 0x2029

/-- Whether a character ends a line or is a blank or a tab. -/
def isGap (c : Char) : Bool :=
  c == ' ' || c == '\t' || isBreak c

/-- Whether a text may hold a character. -/
def isAllowed (c : Char) : Bool :=
  let n := c.toNat
  n == 0x9 || n == 0xA || n == 0xD || (0x20 ≤ n && n ≤ 0x7E) || n == 0x85
    || (0xA0 ≤ n && n ≤ 0xFFFD) || 0x10000 ≤ n

/-- A place in a text. -/
structure Cursor where
  rest : List Char
  index : Nat
  line : Nat
  column : Nat
  deriving DecidableEq, Repr, Inhabited

namespace Cursor

/-- The start of a text. -/
def start (text : List Char) : Cursor :=
  { rest := text, index := 0, line := 0, column := 0 }

/-- One character further; the byte order mark takes no column. -/
def step (c : Cursor) : Cursor :=
  match c.rest with
  | [] => c
  | ch :: rest =>
    if isBreak ch then { rest, index := c.index + 1, line := c.line + 1, column := 0 }
    else
      { rest
        index := c.index + 1
        line := c.line
        column := if ch.toNat = 0xFEFF then c.column else c.column + 1 }

/-- So many characters further. -/
def skip (c : Cursor) : Nat → Cursor
  | 0 => c
  | n + 1 => c.step.skip n

/-- The characters that pass a test, and the place behind them. -/
def run (c : Cursor) (test : Char → Bool) : List Char × Cursor :=
  let passed := c.rest.takeWhile test
  (passed, c.skip passed.length)

/-- The place behind the characters that pass a test. -/
def past (c : Cursor) (test : Char → Bool) : Cursor :=
  (c.run test).2

/-- The place behind a line end, and the character that it stands for. -/
def lineBreak? (c : Cursor) : Option (Char × Cursor) :=
  match c.rest with
  | ch :: _ =>
    if !isBreak ch then none
    else some (if ch == '\n' || ch.toNat == 0x85 then '\n' else ch, c.step)
  | [] => none

/-- Whether the text ends at a number of characters from here, or has a gap there. -/
def gapAt (c : Cursor) (n : Nat) : Bool :=
  match c.rest[n]? with
  | none => true
  | some ch => isGap ch

/-- Whether a mark of three characters stands here, with a gap behind it. -/
def hasMark (c : Cursor) (mark : List Char) : Bool :=
  mark.isPrefixOf c.rest && c.gapAt 3

/-- Whether a line starts here that ends a document. -/
def hasDocumentMark (c : Cursor) : Bool :=
  c.hasMark ['-', '-', '-'] || c.hasMark ['.', '.', '.']

end Cursor

end Redline.Yaml
