import Redline.Text.Numeral

/-!
# Binary floating-point numbers of 64 bits

A number is a sign, a whole significand and a power of two, so that arithmetic on it is arithmetic
of whole numbers: `round` gives the number nearest to a ratio, a tie going to the even significand,
`truncate?` the whole part, and `text` the fewest decimal digits that read back.
-/

namespace Redline

/-- A number `± significand · 2 ^ exponent`, an infinity, or not a number. A finite number that is
not zero has a significand below `2 ^ 53`, and at least `2 ^ 52` unless the exponent is the least,
`-1074`. -/
inductive Binary64 where
  | finite (negative : Bool) (significand : Nat) (exponent : Int)
  | infinite (negative : Bool)
  | nan
  deriving DecidableEq, Repr, Inhabited

namespace Binary64

/-- The ratio `num / den` scaled by `2 ^ (-e)`, as a numerator and a denominator. -/
def scale (num den : Nat) (e : Int) : Nat × Nat :=
  if e < 0 then (num * Nat.pow 2 (-e).toNat, den) else (num, den * Nat.pow 2 e.toNat)

/-- A ratio rounded to the nearest whole number, a tie to the even one. -/
def roundHalfEven (num den : Nat) : Nat :=
  let q := num / den
  let twice := 2 * (num % den)
  if twice < den then q
  else if den < twice then q + 1
  else q + q % 2

/-- The greatest `e` with `2 ^ e ≤ num / den`, for a positive ratio. -/
def binaryExponent (num den : Nat) : Int :=
  let e : Int := num.log2 - den.log2
  let (n, d) := scale num den e
  if n < d then e - 1 else e

/-- The number nearest to `± num / den`; the infinity when the ratio is too large. -/
def round (negative : Bool) (num den : Nat) : Binary64 :=
  if num = 0 ∨ den = 0 then .finite negative 0 (-1074)
  else
    let e := max (binaryExponent num den - 52) (-1074)
    let (n, d) := scale num den e
    let m := roundHalfEven n d
    let (m, e) := if m = Nat.pow 2 53 then (Nat.pow 2 52, e + 1) else (m, e)
    if 971 < e then .infinite negative else .finite negative m e

/-- The absolute value of a finite number as a ratio. -/
def ratio (significand : Nat) (exponent : Int) : Nat × Nat :=
  if exponent < 0 then (significand, Nat.pow 2 (-exponent).toNat)
  else (significand * Nat.pow 2 exponent.toNat, 1)

/-- The number nearest to `± digits · 10 ^ power`. Powers that leave no doubt are not computed: from
`10 ^ 310` on all is infinite, and up to `10 ^ (-330)` all is zero. -/
def ofDecimal (negative : Bool) (digits : Nat) (power : Int) : Binary64 :=
  if digits = 0 then .finite negative 0 (-1074)
  else if 310 < power then .infinite negative
  else if power + (Text.Numeral.digitsOf digits).length < -330 then .finite negative 0 (-1074)
  else if power < 0 then round negative digits (Nat.pow 10 (-power).toNat)
  else round negative (digits * Nat.pow 10 power.toNat) 1

/-- The number nearest to a whole number. -/
def ofInt (n : Int) : Binary64 :=
  round (n < 0) n.natAbs 1

/-- The quotient by a positive whole number, rounded. -/
def divNat (x : Binary64) (k : Nat) : Binary64 :=
  match x with
  | .finite negative m e => let (n, d) := ratio m e; round negative n (d * k)
  | x => x

/-- The product with a whole number, rounded. -/
def mulNat (x : Binary64) (k : Nat) : Binary64 :=
  match x with
  | .finite negative m e => let (n, d) := ratio m e; round negative (n * k) d
  | x => x

/-- The whole part of a finite number. -/
def truncate? : Binary64 → Option Int
  | .finite negative m e =>
    let (n, d) := ratio m e
    let q : Int := (n / d : Nat)
    some (if negative then -q else q)
  | _ => none

/-- Whether the number is a zero of either sign. -/
def isZero : Binary64 → Bool
  | .finite _ 0 _ => true
  | _ => false

/-- The `power` of ten for which `k` decimal digits reach from the first digit of `num / den`, and
the digits below and above the ratio. -/
def decimalGrid (num den : Nat) (k : Nat) (magnitude : Int) : Int × Nat × Nat :=
  let power := magnitude - k + 1
  let (n, d) :=
    if power < 0 then (num * Nat.pow 10 (-power).toNat, den)
    else (num, den * Nat.pow 10 power.toNat)
  (power, n / d, n / d + 1)

/-- The greatest `p` at most `start` with `10 ^ p ≤ num / den`, looking `steps` down. -/
def decimalMagnitude (num den : Nat) : Nat → Int → Int
  | 0, p => p
  | steps + 1, p =>
    let fits :=
      if p < 0 then den ≤ num * Nat.pow 10 (-p).toNat else den * Nat.pow 10 p.toNat ≤ num
    if fits then p else decimalMagnitude num den steps (p - 1)

/-- The fewest decimal digits, with their power of ten, that round to `x`, whose absolute value is
`num / den`; of two candidates of one length the nearer is taken, and of two equally near the
even one. -/
def shortestDigits (num den : Nat) (x : Binary64) : Nat × Int :=
  let magnitude := decimalMagnitude num den 650 309
  let candidate (k : Nat) : Option (Nat × Int) :=
    let (power, low, high) := decimalGrid num den k magnitude
    let back (digits : Nat) : Bool := ofDecimal false digits power == x
    let nearest :=
      let (n, d) := if power < 0 then (num * Nat.pow 10 (-power).toNat, den)
        else (num, den * Nat.pow 10 power.toNat)
      roundHalfEven n d
    if back nearest then some (nearest, power)
    else if back low then some (low, power)
    else if back high then some (high, power)
    else none
  match (List.range 17).findSome? fun k => candidate (k + 1) with
  | some found => found
  | none => (decimalGrid num den 17 magnitude).2.1 |> fun low => (low, magnitude - 16)

/-- Digits without the zeros at their end, and the power of ten that makes up for them. -/
def dropZeros : Nat → Nat → Int → Nat × Int
  | 0, digits, power => (digits, power)
  | steps + 1, digits, power =>
    if digits ≠ 0 ∧ digits % 10 = 0 then dropZeros steps (digits / 10) (power + 1)
    else (digits, power)

/-- Digits with a point after `whole` of them, filled up with zeros on either side. -/
def placePoint (digits : List Char) (whole : Int) : List Char :=
  if whole ≤ 0 then '0' :: '.' :: List.replicate (-whole).toNat '0' ++ digits
  else
    let w := whole.toNat
    if digits.length ≤ w then digits ++ List.replicate (w - digits.length) '0' ++ ['.', '0']
    else digits.take w ++ '.' :: digits.drop w

/-- The shortest text that reads back: positional from `1e-4` to below `1e16`, with an exponent of
at least two digits elsewhere. -/
def text : Binary64 → String
  | .nan => "nan"
  | .infinite negative => if negative then "-inf" else "inf"
  | .finite negative m e =>
    let sign := if negative then "-" else ""
    if m = 0 then sign ++ "0.0"
    else
      let (n, d) := ratio m e
      let (digits, power) := shortestDigits n d (.finite false m e)
      let (digits, power) := dropZeros 20 digits power
      let ds := Text.Numeral.digitsOf digits
      let point : Int := ds.length + power
      if -4 < point ∧ point ≤ 16 then sign ++ String.ofList (placePoint ds point)
      else
        let mantissa := match ds with
          | [] => []
          | [c] => [c]
          | c :: more => c :: '.' :: more
        let exponent := point - 1
        let width := Text.Numeral.digitsOf exponent.natAbs
        let padded := if width.length < 2 then '0' :: width else width
        sign ++ String.ofList (mantissa ++ 'e' :: (if exponent < 0 then '-' else '+') :: padded)

end Binary64

end Redline
