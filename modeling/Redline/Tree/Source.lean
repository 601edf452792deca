import Redline.Editset.Basic
import Redline.Position
import Redline.Symbol.Basic
import Redline.Tree.Basic

/-!
# Source files

A source file with its parse tree. Nodes cover octets, everything else counts characters: the
functions here go from one to the other and between offsets and lines. A position may be any whole
number; one before the first line counts from the last, as a list index from the end does.
-/

namespace Redline

/-- The grammars that source files are parsed with. -/
inductive Grammar where
  | typescript
  | tsx
  deriving DecidableEq, Repr, Inhabited

/-- The word for a grammar. -/
def Grammar.word : Grammar → String
  | .typescript => "typescript"
  | .tsx => "tsx"

/-- The grammar for files with an ending; plain scripts are read with the larger grammar. -/
def Grammar.ofSuffix? (suffix : String) : Option Grammar :=
  if [".ts", ".mts", ".cts"].contains suffix then some .typescript
  else if [".tsx", ".js", ".jsx", ".mjs", ".cjs"].contains suffix then some .tsx
  else none

/-- The offsets at which the lines of a text start, when its first is at `offset`. -/
def lineStartsFrom (offset : Nat) : List Char → List Nat
  | [] => []
  | c :: rest =>
    if c = '\n' then (offset + 1) :: lineStartsFrom (offset + 1) rest
    else lineStartsFrom (offset + 1) rest

/-- A file of the project with its tree, its text and the checksum of the text. -/
structure Source where
  path : String
  bytes : Bytes
  tree : Tree
  text : List Char
  size : Nat
  lineStarts : List Nat
  checksum : String
  text_eq : text = (Text.Utf8.decodeLossy bytes).toList
  size_eq : size = bytes.length
  lineStarts_eq : lineStarts = 0 :: lineStartsFrom 0 text
  checksum_eq : checksum = Redline.checksum (String.ofList text)

namespace Source

/-- The source file with a content and its tree. -/
def make (path : String) (bytes : Bytes) (tree : Tree) : Source :=
  let text := (Text.Utf8.decodeLossy bytes).toList
  { path, bytes, tree, text
    size := bytes.length
    lineStarts := 0 :: lineStartsFrom 0 text
    checksum := Redline.checksum (String.ofList text)
    text_eq := rfl
    size_eq := rfl
    lineStarts_eq := rfl
    checksum_eq := rfl }

instance : Inhabited Source := ⟨make "" [] default⟩

/-- Whether every character is one octet, as in a file of ASCII characters only. -/
def isPlain (s : Source) : Bool :=
  s.size == s.text.length

/-- The number of characters before an octet. -/
def charOffset (s : Source) (byteOffset : Int) : Int :=
  if s.isPlain then byteOffset else Position.charOffset s.bytes byteOffset

/-- The number of octets before a character. -/
def byteOffset (s : Source) (charOffset : Int) : Int :=
  if s.isPlain then charOffset
  else (Text.Utf8.encode (String.ofList (Text.before s.text charOffset))).length

/-- The start of the line with a number, counted from zero, or from the end if it is negative. -/
def lineStart? (s : Source) (index : Int) : Option Nat :=
  if 0 ≤ index then s.lineStarts[index.toNat]?
  else if 0 ≤ index + s.lineStarts.length then s.lineStarts[(index + s.lineStarts.length).toNat]?
  else none

/-- The line and the column of an offset. -/
def lineColumn (s : Source) (offset : Int) : Int × Int :=
  let passed := s.lineStarts.takeWhile fun (start : Nat) => decide ((start : Int) ≤ offset)
  let index : Int := (passed.length : Int) - 1
  (index + 1, offset - ((s.lineStart? index).getD 0 : Nat) + 1)

/-- The offset of a line and a column, if there is such a line. The column is not checked. -/
def offset? (s : Source) (line column : Int) : Option Int :=
  if line < 1 ∨ (s.lineStarts.length : Int) < line then none
  else (s.lineStart? (line - 1)).map fun start => (start : Int) + column - 1

/-- The text of a line without its end. -/
def lineText? (s : Source) (line : Int) : Option String :=
  (s.lineStart? (line - 1)).map fun start =>
    String.ofList ((s.text.drop start).takeWhile (· != '\n'))

/-- The octets that a node covers. -/
def octets (s : Source) (t : Tree) : Bytes :=
  (s.bytes.drop t.start).take (t.stop - t.start)

/-- The text that a node covers. -/
def textOf (s : Source) (t : Tree) : String :=
  Text.Utf8.decodeLossy (s.octets t)

/-- The range that a node covers. -/
def rangeOf (s : Source) (t : Tree) : Range :=
  let (startLine, startColumn) := s.lineColumn (s.charOffset t.start)
  let (endLine, endColumn) := s.lineColumn (s.charOffset t.stop)
  { startLine, startColumn, endLine, endColumn }

/-- Whether a node covers an octet. -/
def covers (target : Int) (t : Tree) : Bool :=
  decide ((t.start : Int) ≤ target) && decide (target < t.stop)

mutual

/-- The innermost node with a wanted kind on the way down to an octet, in the first child that
covers it at every step. `found` is the innermost above the tree, whose place is `above` and
`address`. -/
def innermost (wanted : String → Bool) (target : Int) (found : Option Spot) (above : List Tree)
    (address : Address) : Tree → Option Spot
  | .node label children =>
    let here : Spot := { tree := .node label children, above, address }
    innermostAmong wanted target (if wanted label.kind then some here else found)
      (.node label children :: above) address 0 children

/-- The innermost node of the first tree of some siblings that covers an octet. -/
def innermostAmong (wanted : String → Bool) (target : Int) (found : Option Spot)
    (above : List Tree) (address : Address) (number : Nat) : List Tree → Option Spot
  | [] => found
  | t :: ts =>
    if covers target t then innermost wanted target found above (number :: address) t
    else innermostAmong wanted target found above address (number + 1) ts

end

/-- The innermost node with a wanted kind that covers a position. A position beyond the end of the
text is in no node. -/
def spotAt? (s : Source) (wanted : String → Bool) (line column : Int) : Option Spot :=
  match s.offset? line column with
  | none => none
  | some offset =>
    if (s.text.length : Int) < offset then none
    else innermost wanted (s.byteOffset offset) none [] [] s.tree

end Source

end Redline
