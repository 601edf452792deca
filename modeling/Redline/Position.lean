import Redline.Text.Lines
import Redline.Text.Slice
import Redline.Text.Utf8

/-!
# Positions in a text

A position is an offset, counted in characters from zero, or a line and a column, both counted from
one. Lines end at line feeds only, so a carriage return belongs to its line.
-/

namespace Redline.Position

/-- The offset of a line and a column, if the text has the lines before that line. The column is
not checked against the line. -/
def offset? (text : String) (line column : Int) : Option Int :=
  let lines := Text.splitLines text.toList
  let above := (line - 1).toNat
  if above ≤ lines.length then
    let passed : Nat := (lines.take above).foldl (fun passed l => passed + (l.length + 1)) 0
    some ((passed : Int) + column - 1)
  else none

/-- The line and the column of an offset. The characters before a negative offset are those before
the place that it counts to from the end. -/
def lineColumn (text : String) (offset : Int) : Int × Int :=
  let before := Text.before text.toList offset
  let line := before.count '\n' + 1
  let lineStart := before.length - (before.reverse.takeWhile (· != '\n')).length
  (line, offset - lineStart + 1)

/-- The text of a line; the empty text when there is no such line. -/
def lineText (text : String) (line : Int) : String :=
  let lines := Text.splitLines text.toList
  if 0 < line then String.ofList (lines.getD (line - 1).toNat []) else ""

/-- The number of characters that the octets before a byte offset hold, reading leniently. -/
def charOffset (bytes : Bytes) (offset : Int) : Nat :=
  (Text.Utf8.decodeLossy (Text.before bytes offset)).length

end Redline.Position
