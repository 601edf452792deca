import Redline.Json.Reader
import Redline.Yaml.Cursor

/-!
# How scalars are written

A scalar is written plainly, in single or double quotes, or as a block of lines. Lines of the first
two are folded: a single line end stands for a blank, and of several the first one is dropped. The
readers give the text and the place behind it, and none where the text is malformed. Each of their
steps takes a character, so the length of the text bounds the steps.
-/

namespace Redline.Yaml

/-- What a run of line ends stands for: the first one, and those after it. -/
def folded (first : Char) (more : List Char) : List Char :=
  if first ≠ '\n' then first :: more
  else if more.isEmpty then [' ']
  else more

/-! ## Quotes -/

/-- The character of an escape of one letter. -/
def escaped? (c : Char) : Option Char :=
  match c with
  | '0' => some '\x00'
  | 'a' => some '\x07'
  | 'b' => some '\x08'
  | 't' => some '\t'
  | '\t' => some '\t'
  | 'n' => some '\n'
  | 'v' => some '\x0B'
  | 'f' => some '\x0C'
  | 'r' => some '\r'
  | 'e' => some '\x1B'
  | ' ' => some ' '
  | '"' => some '"'
  | '\\' => some '\\'
  | '/' => some '/'
  | 'N' => some '\u0085'
  | '_' => some '\u00A0'
  | 'L' => some '\u2028'
  | 'P' => some '\u2029'
  | _ => none

/-- The number of hexadecimal digits that follow the letter of an escape. -/
def escapeDigits? (c : Char) : Option Nat :=
  match c with
  | 'x' => some 2
  | 'u' => some 4
  | 'U' => some 8
  | _ => none

/-- The value of hexadecimal digits. -/
def hexNumber? (digits : List Char) : Option Nat :=
  digits.foldlM (fun n c => (Json.hexValue? c).map (n * 16 + ·)) 0

/-- The character that an escape stands for, and the place behind it. The cursor stands behind the
backslash. -/
def escape? (c : Cursor) : Option (Char × Cursor) :=
  match c.rest with
  | [] => none
  | letter :: rest =>
    match escaped? letter, escapeDigits? letter with
    | some ch, _ => some (ch, c.step)
    | none, some count =>
      let digits := rest.take count
      if digits.length < count then none
      else
        match hexNumber? digits with
        | some n => if n.isValidChar then some (Char.ofNat n, c.skip (count + 1)) else none
        | none => none
    | none, none => none

/-- The line ends from here on, with the blanks before and behind each; none if a document mark
stands at the start of one of the lines. -/
def quotedBreaks : Nat → Cursor → Option (List Char × Cursor)
  | 0, _ => none
  | steps + 1, c =>
    if c.hasDocumentMark then none
    else
      let c := c.past fun ch => ch == ' ' || ch == '\t'
      match c.lineBreak? with
      | none => some ([], c)
      | some (ch, c) => (quotedBreaks steps c).map fun (more, c) => (ch :: more, c)

/-- The text up to the closing quote. `done` holds the text so far, latest character first. -/
def quotedFrom (double : Bool) : Nat → List Char → Cursor → Option (List Char × Cursor)
  | 0, _, _ => none
  | steps + 1, done, c =>
    match c.rest with
    | [] => none
    | '\'' :: rest =>
      if double then quotedFrom double steps ('\'' :: done) c.step
      else
        match rest with
        | '\'' :: _ => quotedFrom double steps ('\'' :: done) (c.skip 2)
        | _ => some (done.reverse, c.step)
    | '"' :: _ =>
      if double then some (done.reverse, c.step)
      else quotedFrom double steps ('"' :: done) c.step
    | '\\' :: _ =>
      if !double then quotedFrom double steps ('\\' :: done) c.step
      else
        match c.step.lineBreak? with
        | some (_, c) => do
          let (more, c) ← quotedBreaks c.rest.length.succ c
          quotedFrom double steps (more.reverse ++ done) c
        | none => do
          let (ch, c) ← escape? c.step
          quotedFrom double steps (ch :: done) c
    | ch :: _ =>
      if isGap ch then
        let (blanks, c) := c.run fun ch => ch == ' ' || ch == '\t'
        match c.lineBreak? with
        | some (first, c) => do
          let (more, c) ← quotedBreaks c.rest.length.succ c
          quotedFrom double steps ((folded first more).reverse ++ done) c
        | none => quotedFrom double steps (blanks.reverse ++ done) c
      else quotedFrom double steps (ch :: done) c.step

/-- The text in quotes; the cursor stands at the opening one. -/
def quoted? (double : Bool) (c : Cursor) : Option (List Char × Cursor) :=
  quotedFrom double c.rest.length.succ [] c.step

/-! ## Plain text -/

/-- Whether plain text ends at these characters. -/
def endsPlain (inFlow : Bool) : List Char → Bool
  | [] => true
  | ':' :: next :: _ => isGap next || (inFlow && [',', '[', ']', '\x7b', '\x7d'].contains next)
  | [':'] => true
  | c :: _ => isGap c || (inFlow && [',', '?', '[', ']', '\x7b', '\x7d'].contains c)

/-- The characters of plain text up to its end or the next gap. -/
def plainRun (inFlow : Bool) : List Char → List Char
  | [] => []
  | c :: rest => if endsPlain inFlow (c :: rest) then [] else c :: plainRun inFlow rest

/-- The line ends from here on, with the blanks around them, and whether a document mark follows
one. -/
def plainBreaks : Nat → Cursor → List Char × Bool × Cursor
  | 0, c => ([], false, c)
  | steps + 1, c =>
    let c := c.past (· == ' ')
    match c.lineBreak? with
    | none => ([], false, c)
    | some (ch, c) =>
      if c.hasDocumentMark then ([ch], true, c)
      else
        let (more, marked, c) := plainBreaks steps c
        (ch :: more, marked, c)

/-- What stands between two words of plain text. -/
structure PlainGap where
  text : List Char
  /-- Whether a line ends in the gap. -/
  crossed : Bool
  after : Cursor

/-- The gap from here on; its text is empty where plain text cannot go on. -/
def plainGap (c : Cursor) : PlainGap :=
  let (blanks, c) := c.run (· == ' ')
  match c.lineBreak? with
  | none => { text := blanks, crossed := false, after := c }
  | some (first, c) =>
    if c.hasDocumentMark then { text := [], crossed := true, after := c }
    else
      let (more, marked, c) := plainBreaks c.rest.length.succ c
      { text := if marked then [] else folded first more, crossed := true, after := c }

/-- Plain text with the place behind it and whether a line ended at its end. `indent` is the least
column of its further lines outside brackets, and `gap` what lies between the text so far and the
cursor. -/
def plainFrom (inFlow : Bool) (indent : Int) :
    Nat → List Char → PlainGap → List Char × Bool × Cursor
  | 0, done, gap => (done, gap.crossed, gap.after)
  | steps + 1, done, gap =>
    let c := gap.after
    let word := plainRun inFlow c.rest
    if c.rest.head? = some '#' ∨ word.isEmpty then (done, gap.crossed, c)
    else
      let done := done ++ gap.text ++ word
      let next := plainGap (c.skip word.length)
      if next.text.isEmpty ∨ next.after.rest.head? = some '#'
          ∨ (!inFlow ∧ (next.after.column : Int) < indent) then
        (done, next.crossed, next.after)
      else plainFrom inFlow indent steps done next

/-- Plain text from here on, the place behind it, and whether a line ended at its end. -/
def plain (inFlow : Bool) (indent : Int) (c : Cursor) : List Char × Bool × Cursor :=
  plainFrom inFlow indent c.rest.length.succ [] { text := [], crossed := false, after := c }

/-! ## Blocks of lines -/

/-- What is done with the line ends at the end of a block. -/
inductive Chomping where
  | strip
  | clip
  | keep
  deriving DecidableEq, Repr

/-- The sign of a chomping. -/
def Chomping.ofChar? (c : Char) : Option Chomping :=
  match c with
  | '+' => some .keep
  | '-' => some .strip
  | _ => none

/-- The indentation that a digit asks for. -/
def indentDigit? (c : Char) : Option Nat :=
  if '1' ≤ c ∧ c ≤ '9' then some (c.toNat - '0'.toNat) else none

/-- The header of a block: a sign and a digit in either order, each at most once. -/
def blockHeader (c : Cursor) : Chomping × Option Nat × Cursor :=
  match c.rest with
  | a :: b :: _ =>
    match Chomping.ofChar? a, indentDigit? a, Chomping.ofChar? b, indentDigit? b with
    | some chomping, _, _, some n => (chomping, some n, c.skip 2)
    | some chomping, _, _, none => (chomping, none, c.skip 1)
    | none, some n, some chomping, _ => (chomping, some n, c.skip 2)
    | none, some n, none, _ => (.clip, some n, c.skip 1)
    | none, none, _, _ => (.clip, none, c)
  | [a] =>
    match Chomping.ofChar? a, indentDigit? a with
    | some chomping, _ => (chomping, none, c.skip 1)
    | none, some n => (.clip, some n, c.skip 1)
    | none, none => (.clip, none, c)
  | [] => (.clip, none, c)

/-- The place behind the rest of a header's line, which may hold a comment. -/
def blockHeaderEnd? (c : Cursor) : Option Cursor :=
  match c.rest with
  | [] => some c
  | ch :: _ =>
    if ch ≠ ' ' ∧ !isBreak ch then none
    else
      let c := c.past (· == ' ')
      let c := if c.rest.head? = some '#' then c.past (!isBreak ·) else c
      match c.rest, c.lineBreak? with
      | [], _ => some c
      | _, some (_, c) => some c
      | _, none => none

/-- The line ends before a block's first line, the greatest column that blanks reach there, and the
place behind them. -/
def blockMargin : Nat → Nat → Cursor → List Char × Nat × Cursor
  | 0, widest, c => ([], widest, c)
  | steps + 1, widest, c =>
    let c := c.past (· == ' ')
    let widest := max widest c.column
    match c.lineBreak? with
    | none => ([], widest, c)
    | some (ch, c) =>
      let (more, widest, c) := blockMargin steps widest c
      (ch :: more, widest, c)

/-- The place behind the blanks up to a column. -/
def toColumn (indent : Nat) (c : Cursor) : Cursor :=
  c.skip ((c.rest.take (indent - c.column)).takeWhile (· == ' ')).length

/-- The line ends between two lines of a block, and the place behind the next line's indentation. -/
def blockBreaks (indent : Nat) : Nat → Cursor → List Char × Cursor
  | 0, c => ([], c)
  | steps + 1, c =>
    let c := toColumn indent c
    match c.lineBreak? with
    | none => ([], c)
    | some (ch, c) =>
      let (more, c) := blockBreaks indent steps c
      (ch :: more, c)

/-- Whether a line of a block starts at the cursor. -/
def atBlockLine (indent : Nat) (c : Cursor) : Bool :=
  c.column == indent && !c.rest.isEmpty

/-- The lines of a block. `breaks` are the line ends before the line at the cursor. The outcome is
the text without the line ends at its end, the last line's own end, and those after it. -/
def blockLines (isFolded : Bool) (indent : Nat) :
    Nat → List Char → Cursor → List Char × List Char × List Char × Cursor
  | 0, breaks, c => ([], [], breaks, c)
  | steps + 1, breaks, c =>
    if !atBlockLine indent c then ([], [], breaks, c)
    else
      let isFlush (c : Cursor) : Bool :=
        match c.rest with
        | ch :: _ => ch ≠ ' ' ∧ ch ≠ '\t'
        | [] => true
      let flush := isFlush c
      let (line, c) := c.run (!isBreak ·)
      let (ending, c) := match c.lineBreak? with
        | some (ch, c) => ([ch], c)
        | none => ([], c)
      let (next, c) := blockBreaks indent c.rest.length.succ c
      if !atBlockLine indent c then (breaks ++ line, ending, next, c)
      else
        let joint :=
          if isFolded && ending == ['\n'] && flush && isFlush c then
            if next.isEmpty then [' '] else []
          else ending
        let (more, ending, after, c) := blockLines isFolded indent steps next c
        (breaks ++ line ++ joint ++ more, ending, after, c)

/-- The text of a block; the cursor stands at its sign. `parent` is the column of the collection
around it. -/
def block? (isFolded : Bool) (parent : Int) (c : Cursor) : Option (List Char × Cursor) := do
  let (chomping, asked, c) := blockHeader c.step
  let c ← blockHeaderEnd? c
  let least := (max (parent + 1) 1).toNat
  let (breaks, indent, c) := match asked with
    | some n =>
      let indent := least + n - 1
      let (breaks, c) := blockBreaks indent c.rest.length.succ c
      (breaks, indent, c)
    | none =>
      let (breaks, widest, c) := blockMargin c.rest.length.succ 0 c
      (breaks, max least widest, c)
  let (text, ending, after, c) := blockLines isFolded indent c.rest.length.succ breaks c
  return (match chomping with
    | .strip => text
    | .clip => text ++ ending
    | .keep => text ++ ending ++ after, c)

end Redline.Yaml
