import Redline.Text.Class

/-!
# Whole numbers in text

`toInt?` reads a whole number the lenient way: blanks around it, a sign, digits of any script, and
single low lines between digits. `ofInt` writes one in plain decimal digits.
-/

namespace Redline.Text.Numeral

/-- Whether a blank may stand around a numeral: every blank but the ASCII separators. -/
def isMargin (c : Char) : Bool :=
  isBlank c && !(0x1C ≤ c.toNat && c.toNat ≤ 0x1F)

/-- The digits of a numeral after the value `value`; a low line must stand between two digits, so
`afterDigit` tells whether a digit came last. -/
def digits? (value : Nat) (afterDigit : Bool) : List Char → Option Nat
  | [] => if afterDigit then some value else none
  | '_' :: rest => if afterDigit then digits? value false rest else none
  | c :: rest =>
    match digitValue? c with
    | some d => digits? (value * 10 + d) true rest
    | none => none

/-- A numeral without margins. -/
def signed? : List Char → Option Int
  | '-' :: rest => (digits? 0 false rest).map fun n => -(n : Int)
  | '+' :: rest => (digits? 0 false rest).map fun n => (n : Int)
  | cs => (digits? 0 false cs).map fun n => (n : Int)

/-- The whole number that a text shows. -/
def toInt? (s : String) : Option Int :=
  signed? ((s.toList.dropWhile isMargin).reverse.dropWhile isMargin).reverse

/-- The decimal digits of a natural number, most significant first. -/
def digitsOf (n : Nat) : List Char :=
  if n < 10 then [Nat.digitChar n]
  else digitsOf (n / 10) ++ [Nat.digitChar (n % 10)]
termination_by n

/-- A whole number in decimal digits. -/
def ofInt : Int → String
  | .ofNat n => String.ofList (digitsOf n)
  | .negSucc n => String.ofList ('-' :: digitsOf (n + 1))

end Redline.Text.Numeral
