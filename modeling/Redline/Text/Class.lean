import Redline.Text.Table.Alphanumeric
import Redline.Text.Table.Printable

/-!
# Character classes

Membership in the classes that patterns, numerals and quoted text ask for: blanks, letters and
numbers, decimal digits, and characters that are shown as they are.
-/

namespace Redline.Text

/-- Membership of a code point in closed ranges. -/
def inRanges (ranges : List (Nat × Nat)) (n : Nat) : Bool :=
  ranges.any fun r => r.1 ≤ n && n ≤ r.2

/-- White space: the ASCII controls from tab to carriage return and from file to unit separator,
the next-line control, and every space, line and paragraph separator. -/
def isBlank (c : Char) : Bool :=
  inRanges
    [(0x9, 0xD), (0x1C, 0x20), (0x85, 0x85), (0xA0, 0xA0), (0x1680, 0x1680), (0x2000, 0x200A),
      (0x2028, 0x2029), (0x202F, 0x202F), (0x205F, 0x205F), (0x3000, 0x3000)]
    c.toNat

/-- A letter or a character with a numeric value. -/
def isAlphanumeric (c : Char) : Bool :=
  inRanges Table.alphanumeric c.toNat

/-- A character of a word: a letter, a number or the low line. -/
def isWord (c : Char) : Bool :=
  c == '_' || isAlphanumeric c

/-- The value of a decimal digit of any script. -/
def digitValue? (c : Char) : Option Nat :=
  (Table.decimalZeros.find? fun z => z ≤ c.toNat && c.toNat < z + 10).map (c.toNat - ·)

/-- A decimal digit of any script. -/
def isDecimal (c : Char) : Bool :=
  (digitValue? c).isSome

/-- A character that may stand in a name. -/
def isNamePart (c : Char) : Bool :=
  (isWord c && !inRanges Table.nameless c.toNat) || inRanges Table.nameMarks c.toNat

/-- A character that may stand first in a name. -/
def isNameStart (c : Char) : Bool :=
  (isWord c && !isDecimal c && !inRanges Table.nameless c.toNat
      && !inRanges Table.neverFirst c.toNat) || inRanges Table.firstMarks c.toNat

/-- Whether quoted text shows the character as it is. -/
def isPrintable (c : Char) : Bool :=
  !inRanges Table.unprintable c.toNat

/-- The text without the blanks at its start. -/
def dropBlanks (cs : List Char) : List Char :=
  cs.dropWhile isBlank

/-- The text without the blanks at either end. -/
def trimChars (cs : List Char) : List Char :=
  (dropBlanks (dropBlanks cs).reverse).reverse

/-- The text without the blanks at either end. -/
def trim (s : String) : String :=
  String.ofList (trimChars s.toList)

end Redline.Text
