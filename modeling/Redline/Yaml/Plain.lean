import Redline.Json.Reader
import Redline.Text.Lines
import Redline.Yaml.Basic

/-!
# What plain text means

Plain text is read as null, a truth value, a number or a date where its form says so, and as text
otherwise; some texts have the form of a number or a date but no value. Two forms have a meaning of
their own: the mark that merges one mapping into another, and the equals sign, which stands for
itself only as a key.
-/

namespace Redline.Yaml.Plain

/-- What plain text means. -/
inductive Meaning where
  | scalar (s : Scalar)
  | merge
  | equals
  /-- The form of a number or a date that has no value, and why. -/
  | broken (reason : String)
  deriving DecidableEq, Repr

/-- The words for null. -/
def nullWords : List String := ["", "~", "null", "Null", "NULL"]

/-- The words for true. -/
def trueWords : List String := ["yes", "Yes", "YES", "true", "True", "TRUE", "on", "On", "ON"]

/-- The words for false. -/
def falseWords : List String := ["no", "No", "NO", "false", "False", "FALSE", "off", "Off", "OFF"]

/-- A decimal digit. -/
def isDigit (c : Char) : Bool := '0' ≤ c && c ≤ '9'

/-- A digit below a base, or the low line. -/
def isDigitOf (base : Nat) (c : Char) : Bool :=
  c == '_' || match Json.hexValue? c with
    | some d => d < base
    | none => false

/-- The text without its sign, and whether it is negative. -/
def unsigned : List Char → Bool × List Char
  | '-' :: rest => (true, rest)
  | '+' :: rest => (false, rest)
  | cs => (false, cs)

/-- The number that digits of a base show; low lines do not count. -/
def digitsValue (base : Nat) (cs : List Char) : Nat :=
  (cs.filterMap Json.hexValue?).foldl (fun n d => n * base + d) 0

/-- Whether a text is a minute or second: one digit, or two of which the first is below six. -/
def isSixtieth : List Char → Bool
  | [a] => isDigit a
  | [a, b] => '0' ≤ a && a ≤ '5' && isDigit b
  | _ => false

/-- The parts of a number of base sixty, most significant first. -/
def sixtieths? (cs : List Char) : Option (List (List Char)) :=
  match Text.splitAtChar ':' cs with
  | first :: second :: rest =>
    if (second :: rest).all isSixtieth then some (first :: second :: rest) else none
  | _ => none

/-- The number that parts of base sixty show. -/
def sixtiethsValue (parts : List (List Char)) : Nat :=
  parts.foldl (fun n part => n * 60 + digitsValue 10 part) 0

/-- Whether digits start with one that is not zero. -/
def startsPositive (cs : List Char) : Bool :=
  match cs with
  | c :: rest => '1' ≤ c && c ≤ '9' && rest.all (isDigitOf 10)
  | [] => false

/-- The absolute value of a whole number; a base mark without digits has none. -/
def magnitude? (cs : List Char) : Option (Except String Nat) :=
  let inBase (base : Nat) (digits : List Char) : Option (Except String Nat) :=
    if digits.isEmpty ∨ !digits.all (isDigitOf base) then none
    else if digits.all (· == '_') then
      some (.error ("invalid literal for int() with base " ++ toString base ++ ": ''"))
    else some (.ok (digitsValue base digits))
  match cs with
  | ['0'] => some (.ok 0)
  | '0' :: 'b' :: digits => inBase 2 digits
  | '0' :: 'x' :: digits => inBase 16 digits
  | '0' :: digits =>
    if digits.all (isDigitOf 8) then some (.ok (digitsValue 8 digits)) else none
  | cs =>
    if startsPositive cs then some (.ok (digitsValue 10 cs))
    else
      match sixtieths? cs with
      | some (first :: rest) =>
        if startsPositive first then some (.ok (sixtiethsValue (first :: rest))) else none
      | _ => none

/-- The whole number that plain text shows. -/
def whole? (cs : List Char) : Option Meaning :=
  let (negative, cs) := unsigned cs
  (magnitude? cs).map fun
    | .error reason => .broken reason
    | .ok n => .scalar (.int (if negative then -(n : Int) else n))

/-- The power of ten of an exponent, which needs its sign. -/
def exponent? : List Char → Option Int
  | [] => some 0
  | e :: sign :: digits =>
    if (e = 'e' ∨ e = 'E') ∧ !digits.isEmpty ∧ digits.all isDigit then
      let n : Int := digitsValue 10 digits
      if sign = '-' then some (-n) else if sign = '+' then some n else none
    else none
  | _ => none

/-- Whether digits start with a decimal digit and hold nothing but digits and low lines. -/
def startsDecimal (cs : List Char) : Bool :=
  match cs with
  | c :: rest => isDigit c && rest.all (isDigitOf 10)
  | [] => false

/-- The floating-point number that plain text without its sign shows. -/
def decimal? (negative signed : Bool) (cs : List Char) : Option Binary64 :=
  let before := cs.takeWhile (· != '.')
  match cs.dropWhile (· != '.') with
  | [] => none
  | _ :: after =>
    let fraction := after.takeWhile (isDigitOf 10)
    let digits := fraction.filter isDigit
    let value (whole : Nat) (power : Int) : Binary64 :=
      Binary64.ofDecimal negative (whole * Nat.pow 10 digits.length + digitsValue 10 digits)
        (power - digits.length)
    if before.isEmpty ∧ ["inf", "Inf", "INF"].contains (String.ofList after) then
      some (.infinite negative)
    else if before.isEmpty ∧ !signed ∧ ["nan", "NaN", "NAN"].contains (String.ofList after) then
      some .nan
    else
      match exponent? (after.drop fraction.length) with
      | none => none
      | some power =>
        if before.isEmpty then
          if !signed ∧ startsDecimal fraction then some (value 0 power) else none
        else if startsDecimal before then some (value (digitsValue 10 before) power)
        else
          match sixtieths? before with
          | some (first :: rest) =>
            if startsDecimal first ∧ (after.drop fraction.length).isEmpty then
              some (value (sixtiethsValue (first :: rest)) 0)
            else none
          | _ => none

/-- The floating-point number that plain text shows. -/
def float? (cs : List Char) : Option Meaning :=
  let (negative, rest) := unsigned cs
  (decimal? negative (rest.length ≠ cs.length) rest).map fun x => .scalar (.float x)

/-- Whether a year is a leap year. -/
def isLeap (year : Nat) : Bool :=
  year % 4 == 0 && (year % 100 != 0 || year % 400 == 0)

/-- The days of a month. -/
def daysIn (year month : Nat) : Nat :=
  if month = 2 then if isLeap year then 29 else 28
  else if [4, 6, 9, 11].contains month then 30
  else 31

/-- The date that plain text shows. -/
def date? (cs : List Char) : Option Meaning :=
  match Text.splitAtChar '-' cs with
  | [y, m, d] =>
    if y.length = 4 ∧ m.length = 2 ∧ d.length = 2 ∧ (y ++ m ++ d).all isDigit then
      let (year, month, day) := (digitsValue 10 y, digitsValue 10 m, digitsValue 10 d)
      some (if year = 0 then .broken "year 0 is out of range"
        else if month = 0 ∨ 12 < month then .broken "month must be in 1..12"
        else if day = 0 ∨ daysIn year month < day then .broken "day is out of range for month"
        else .scalar (.date year month day))
    else none
  | _ => none

/-- What plain text means. -/
def meaning (s : String) : Meaning :=
  let cs := s.toList
  if nullWords.contains s then .scalar .null
  else if trueWords.contains s then .scalar (.bool true)
  else if falseWords.contains s then .scalar (.bool false)
  else if s = "<<" then .merge
  else if s = "=" then .equals
  else
    match float? cs, whole? cs, date? cs with
    | some m, _, _ => m
    | none, some m, _ => m
    | none, none, some m => m
    | none, none, none => .scalar (.text s)

end Redline.Yaml.Plain
