import Redline.Text.Class
import Redline.Text.Table.Casing
import Redline.Text.Table.SigmaContext

/-!
# Upper and lower case

`toLower` and `toUpper` are the full mappings of Unicode: one character may become several, and a
capital sigma becomes the final form at the end of a word. `fold` is the one-to-one lower case that
case-insensitive patterns compare by, and `alike` the relation they use: equal lower case, or lower
cases that are variants of each other.
-/

namespace Redline.Text

/-- The shift of a code point by case runs, if one of them covers it. -/
def runShift? (runs : List (Nat × Nat × Nat × Int)) (n : Nat) : Option Int :=
  (runs.find? fun r => r.1 ≤ n && n ≤ r.2.1 && (n - r.1) % r.2.2.1 == 0).map (·.2.2.2)

/-- The character `shift` code points further on. -/
def shiftChar (c : Char) (shift : Int) : Char :=
  Char.ofNat (c.toNat + shift).toNat

/-- Lower case, one character to one character. -/
def fold (c : Char) : Char :=
  match runShift? Table.lowerRuns c.toNat with
  | some shift => shiftChar c shift
  | none => c

/-- The further lower-case variants of a lower-case character. -/
def variants (c : Char) : List Char :=
  match Table.caseVariants.lookup c.toNat with
  | some codes => codes.map Char.ofNat
  | none => []

/-- Whether two characters are the same for a case-insensitive pattern. -/
def alike (a b : Char) : Bool :=
  fold a == fold b || (variants (fold a)).contains (fold b)

/-- The upper case of one character. -/
def upperChar (c : Char) : List Char :=
  match Table.upperExpansions.lookup c.toNat with
  | some codes => codes.map Char.ofNat
  | none =>
    match runShift? Table.upperRuns c.toNat with
    | some shift => [shiftChar c shift]
    | none => [c]

/-- The property *uppercase*. -/
def isUpper (c : Char) : Bool :=
  inRanges Table.uppercase c.toNat

/-- Whether the first character that is not case-ignorable is a cased one. -/
def facesCased (cs : List Char) : Bool :=
  match cs.dropWhile fun c => inRanges Table.caseIgnorable c.toNat with
  | [] => false
  | c :: _ => inRanges Table.cased c.toNat

/-- The lower case of one character between the characters `before` it, nearest first, and those
`after` it. -/
def lowerChar (before : List Char) (c : Char) (after : List Char) : List Char :=
  if c == 'Σ' then [if facesCased before && !facesCased after then 'ς' else 'σ']
  else if c == 'İ' then ['i', '\u0307']
  else [fold c]

/-- Lower case of `cs`, which follows the characters `before`, nearest first. -/
def lowerChars (before : List Char) : List Char → List Char
  | [] => []
  | c :: rest => lowerChar before c rest ++ lowerChars (c :: before) rest

/-- Full upper case. -/
def toUpper (s : String) : String :=
  String.ofList (s.toList.flatMap upperChar)

/-- Full lower case. -/
def toLower (s : String) : String :=
  String.ofList (lowerChars [] s.toList)

end Redline.Text
