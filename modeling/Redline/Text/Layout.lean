import Redline.Text.Class
import Redline.Text.Lines
import Redline.Text.Table.Width

/-!
# Laying text out in columns

`wrap` breaks a line at blanks so that it fits into a number of columns. A word stays with the
blanks behind it, which do not count towards whether it fits; a word that fits on no line is cut.
-/

namespace Redline.Text

/-- The columns that a character takes. -/
def columns (c : Char) : Nat :=
  if inRanges Table.weightless c.toNat then 0
  else if inRanges Table.wide c.toNat then 2
  else 1

/-- The columns that a text takes. -/
def width (cs : List Char) : Nat :=
  cs.foldl (fun width c => width + columns c) 0

/-- The text without the blanks at its end. -/
def dropBlanksAtEnd (cs : List Char) : List Char :=
  (dropBlanks cs.reverse).reverse

/-- Tabs filled up with blanks to the next column that `stop` divides; `column` is where the text
starts. -/
def expandTabs (stop column : Nat) : List Char → List Char
  | [] => []
  | '\t' :: rest =>
    let blanks := stop - column % stop
    List.replicate blanks ' ' ++ expandTabs stop (column + blanks) rest
  | c :: rest => c :: expandTabs stop (column + columns c) rest

/-- The words of a line, each with the blanks behind it; blanks at the start belong to the first
word. Blanks alone are no word. Each word takes a character at least, so the length of the text
bounds the words. -/
def wordsWithin : Nat → List Char → List (List Char)
  | 0, _ => []
  | steps + 1, cs =>
    let lead := cs.takeWhile isBlank
    let rest := cs.dropWhile isBlank
    let ink := rest.takeWhile fun c => !isBlank c
    let rest := rest.dropWhile fun c => !isBlank c
    if ink.isEmpty then []
    else
      (lead ++ ink ++ rest.takeWhile isBlank) :: wordsWithin steps (rest.dropWhile isBlank)

/-- The words of a line. -/
def words (cs : List Char) : List (List Char) :=
  wordsWithin cs.length cs

/-- A text cut into pieces that fit, each as long as possible. `piece` holds the current piece,
latest character first, and `used` the columns it takes. -/
def cutFrom (limit : Nat) (piece : List Char) (used : Nat) : List Char → List (List Char)
  | [] => [piece.reverse]
  | c :: rest =>
    if limit < used + columns c then piece.reverse :: cutFrom limit [c] (columns c) rest
    else cutFrom limit (c :: piece) (used + columns c) rest

/-- The lines that words are set in. `line` holds the current line and `used` the columns it takes;
the line is empty only at the start. -/
def setWords (limit : Nat) (line : List Char) (used : Nat) : List (List Char) → List (List Char)
  | [] => [line]
  | word :: rest =>
    let needed := width (dropBlanksAtEnd word)
    if used + needed ≤ limit then setWords limit (line ++ word) (used + width word) rest
    else if limit < needed then
      let pieces := cutFrom limit [] 0 word
      let done := if line.isEmpty then pieces.dropLast else line :: pieces.dropLast
      let last := pieces.getLast?.getD []
      done ++ setWords limit last (width last) rest
    else line :: setWords limit word (width word) rest

/-- A line without those blanks at its end that are too many for `limit` characters. -/
def cropBlanks (limit : Nat) (line : List Char) : List Char :=
  let blanks := line.length - (dropBlanksAtEnd line).length
  line.take (line.length - min blanks (line.length - limit))

/-- The start of a line that fits into the columns after `used` of them; half of a character that
takes two is a blank. -/
def crop (limit used : Nat) : List Char → List Char
  | [] => []
  | c :: rest =>
    if used + columns c ≤ limit then c :: crop limit (used + columns c) rest
    else List.replicate (limit - used) ' '

/-- The lines that a line without line ends is broken into. -/
def wrap (limit : Nat) (line : List Char) : List (List Char) :=
  let rows := match words line with
    | [] => [line]
    | ws => setWords limit [] 0 ws
  rows.map fun row => crop limit 0 (cropBlanks limit row)

end Redline.Text
