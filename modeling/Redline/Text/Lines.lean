/-!
# Lines

Three ways to cut a text into lines: at line feeds only (`splitLines`, the one that positions count
by), at every character that ends a line for a reader (`logicalLines`), and the merging of the
carriage-return conventions into line feeds (`unifyNewlines`).
-/

namespace Redline.Text

/-- The parts of a text between separators; the inverse of `List.intercalate [sep]`. -/
def splitAtChar (sep : Char) : List Char → List (List Char)
  | [] => [[]]
  | c :: rest =>
    if c = sep then [] :: splitAtChar sep rest
    else
      match splitAtChar sep rest with
      | [] => [[c]]
      | part :: parts => (c :: part) :: parts

/-- The parts of a text between separators. -/
def splitOnChar (sep : Char) (s : String) : List String :=
  (splitAtChar sep s.toList).map String.ofList

/-- The lines of a text, cut at line feeds. -/
def splitLines (cs : List Char) : List (List Char) :=
  splitAtChar '\n' cs

/-- Every line end, whether `"\r\n"`, `"\r"` or `"\n"`, as a line feed. -/
def unifyNewlines : List Char → List Char
  | [] => []
  | '\r' :: '\n' :: rest => '\n' :: unifyNewlines rest
  | '\r' :: rest => '\n' :: unifyNewlines rest
  | c :: rest => c :: unifyNewlines rest

/-- Whether a character ends a line for a reader: line feed, carriage return, vertical tab, form
feed, the file, group and record separators, next line, and the line and paragraph separators. -/
def endsLine (c : Char) : Bool :=
  [0xA, 0xB, 0xC, 0xD, 0x1C, 0x1D, 0x1E, 0x85, 0x2028, 0x2029].contains c.toNat

/-- The lines of a text for a reader, without their ends; nothing follows a last line end. `line`
holds the characters of the current line so far, latest first, and `begun` whether there is one. -/
def logicalLinesFrom (line : List Char) (begun : Bool) : List Char → List (List Char)
  | [] => if begun then [line.reverse] else []
  | '\r' :: '\n' :: rest => line.reverse :: logicalLinesFrom [] false rest
  | c :: rest =>
    if endsLine c then line.reverse :: logicalLinesFrom [] false rest
    else logicalLinesFrom (c :: line) true rest

/-- The lines of a text for a reader. -/
def logicalLines (s : String) : List String :=
  (logicalLinesFrom [] false s.toList).map String.ofList

/-- The same text with its parts joined by a separator. -/
def joinWith (sep : String) (parts : List String) : String :=
  sep.intercalate parts

end Redline.Text
