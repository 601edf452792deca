import Redline.Assoc
import Redline.Json.Basic

/-!
# Reading JSON

`Json.parse` reads one document. Beyond the standard it takes `NaN`, `Infinity` and `-Infinity`; of
several members with one key the last value counts, at the place of the first. A document that
cannot be read gives a fault: what was expected, and where.

The readers work on the characters that remain, so a place in the text is the number of characters
from there to its end.
-/

namespace Redline.Json

/-- What is wrong with a document. -/
inductive Defect where
  | expectingValue
  | expectingKey
  | expectingColon
  | expectingComma
  | unterminatedString
  | controlCharacter
  | badEscape
  | badUnicodeEscape
  | extraData
  | byteOrderMark
  deriving DecidableEq, Repr

/-- The wording of a defect. -/
def Defect.message : Defect → String
  | .expectingValue => "Expecting value"
  | .expectingKey => "Expecting property name enclosed in double quotes"
  | .expectingColon => "Expecting ':' delimiter"
  | .expectingComma => "Expecting ',' delimiter"
  | .unterminatedString => "Unterminated string starting at"
  | .controlCharacter => "Invalid control character at"
  | .badEscape => "Invalid \\escape"
  | .badUnicodeEscape => "Invalid \\uXXXX escape"
  | .extraData => "Extra data"
  | .byteOrderMark => "Unexpected UTF-8 BOM (decode using utf-8-sig)"

/-- A defect with the number of characters from its place to the end of the text. -/
structure Fault where
  defect : Defect
  remaining : Nat
  deriving DecidableEq, Repr

/-- A defect at the start of the characters `rest`. -/
def faultAt {α : Type} (defect : Defect) (rest : List Char) : Except Fault α :=
  .error { defect, remaining := rest.length }

/-- The blanks of JSON. -/
def isSpace (c : Char) : Bool :=
  c == ' ' || c == '\t' || c == '\n' || c == '\r'

/-- The text without the blanks at its start. -/
def skipSpace (cs : List Char) : List Char :=
  cs.dropWhile isSpace

/-- The value of a hexadecimal digit. -/
def hexValue? (c : Char) : Option Nat :=
  if '0' ≤ c ∧ c ≤ '9' then some (c.toNat - '0'.toNat)
  else if 'a' ≤ c ∧ c ≤ 'f' then some (c.toNat - 'a'.toNat + 10)
  else if 'A' ≤ c ∧ c ≤ 'F' then some (c.toNat - 'A'.toNat + 10)
  else none

/-- The value of exactly four hexadecimal digits, with the rest. -/
def hex4? : List Char → Option (Nat × List Char)
  | a :: b :: c :: d :: rest => do
    let a ← hexValue? a
    let b ← hexValue? b
    let c ← hexValue? c
    let d ← hexValue? d
    return (((a * 16 + b) * 16 + c) * 16 + d, rest)
  | _ => none

/-- The character of a one-letter escape. -/
def escaped? : Char → Option Char
  | '"' => some '"'
  | '\\' => some '\\'
  | '/' => some '/'
  | 'b' => some '\x08'
  | 'f' => some '\x0C'
  | 'n' => some '\n'
  | 'r' => some '\r'
  | 't' => some '\t'
  | _ => none

/-- The code point of a `\u` escape whose digits start `digits`: a high half takes a low half that
follows it. `place` is where the escape's letter stands. More text must follow the digits. -/
def unicodeEscape (place digits : List Char) : Except Fault (Char × List Char) :=
  match hex4? digits with
  | none => faultAt .badUnicodeEscape place
  | some (_, []) => faultAt .badUnicodeEscape place
  | some (high, rest) =>
    if 0xD800 ≤ high ∧ high ≤ 0xDBFF then
      match rest with
      | '\\' :: 'u' :: more =>
        if more.length < 5 then .ok (Char.ofNat high, rest)
        else
          match hex4? more with
          | none => faultAt .badUnicodeEscape ('u' :: more)
          | some (low, after) =>
            if 0xDC00 ≤ low ∧ low ≤ 0xDFFF then
              .ok (Char.ofNat (0x10000 + (high - 0xD800) * 0x400 + (low - 0xDC00)), after)
            else .ok (Char.ofNat high, rest)
      | _ => .ok (Char.ofNat high, rest)
    else .ok (Char.ofNat high, rest)

/-- The characters of a string up to its closing quote. `opening` is the text from its opening
quote on, and `done` the characters so far, latest first. Each step takes a character, so the
length of the text bounds the steps. -/
def stringBody (opening : List Char) : Nat → List Char → List Char →
    Except Fault (String × List Char)
  | 0, _, _ => faultAt .unterminatedString opening
  | steps + 1, done, cs =>
    match cs with
    | [] => faultAt .unterminatedString opening
    | '"' :: rest => .ok (String.ofList done.reverse, rest)
    | ['\\'] => faultAt .unterminatedString opening
    | '\\' :: 'u' :: rest =>
      match unicodeEscape ('u' :: rest) rest with
      | .error e => .error e
      | .ok (c, rest) => stringBody opening steps (c :: done) rest
    | '\\' :: e :: rest =>
      match escaped? e with
      | some c => stringBody opening steps (c :: done) rest
      | none => faultAt .badEscape cs
    | c :: rest =>
      if c.toNat < 0x20 then faultAt .controlCharacter cs
      else stringBody opening steps (c :: done) rest

/-- A string whose opening quote has been read. -/
def string (rest : List Char) : Except Fault (String × List Char) :=
  stringBody ('"' :: rest) (rest.length + 1) [] rest

/-- Whether a character is an ASCII digit. -/
def isDigit (c : Char) : Bool :=
  '0' ≤ c && c ≤ '9'

/-- The value of ASCII digits. -/
def digitsValue (cs : List Char) : Nat :=
  cs.foldl (fun n c => n * 10 + (c.toNat - '0'.toNat)) 0

/-- The digits at the start of a text, with the rest. -/
def takeDigits (cs : List Char) : List Char × List Char :=
  (cs.takeWhile isDigit, cs.dropWhile isDigit)

/-- The whole part of a number: one zero, or digits that do not start with zero. -/
def wholePart? : List Char → Option (List Char × List Char)
  | '0' :: rest => some (['0'], rest)
  | c :: rest => if isDigit c then some (takeDigits (c :: rest)) else none
  | [] => none

/-- The digits after a point, if a point with a digit after it comes next. -/
def fractionPart? : List Char → Option (List Char × List Char)
  | '.' :: c :: rest => if isDigit c then some (takeDigits (c :: rest)) else none
  | _ => none

/-- The exponent, if one comes next. -/
def exponentPart? : List Char → Option (Int × List Char)
  | e :: rest =>
    if e == 'e' || e == 'E' then
      let (negative, digits) := match rest with
        | '-' :: more => (true, more)
        | '+' :: more => (false, more)
        | more => (false, more)
      match takeDigits digits with
      | ([], _) => none
      | (ds, after) =>
        let n : Int := digitsValue ds
        some (if negative then -n else n, after)
    else none
  | [] => none

/-- A number: whole unless it has a fraction or an exponent. -/
def number? (cs : List Char) : Option (Json × List Char) :=
  let (negative, unsigned) := match cs with
    | '-' :: rest => (true, rest)
    | rest => (false, rest)
  match wholePart? unsigned with
  | none => none
  | some (whole, rest) =>
    match fractionPart? rest with
    | some (fraction, rest) =>
      let (power, rest) := (exponentPart? rest).getD (0, rest)
      some (.float (.ofDecimal negative (digitsValue (whole ++ fraction))
        (power - fraction.length)), rest)
    | none =>
      match exponentPart? rest with
      | some (power, rest) => some (.float (.ofDecimal negative (digitsValue whole) power), rest)
      | none =>
        let n : Int := digitsValue whole
        some (.int (if negative then -n else n), rest)

/-- The words that stand for values. -/
def words : List (List Char × Json) :=
  [("null".toList, .null), ("true".toList, .bool true), ("false".toList, .bool false),
    ("NaN".toList, .float .nan), ("Infinity".toList, .float (.infinite false)),
    ("-Infinity".toList, .float (.infinite true))]

/-- The text after a word, if it starts with the word. -/
def dropWord? (word cs : List Char) : Option (List Char) :=
  if word.isPrefixOf cs then some (cs.drop word.length) else none

/-- A value that is neither a string, an array nor an object. -/
def scalar (cs : List Char) : Except Fault (Json × List Char) :=
  match words.findSome? fun w => (dropWord? w.1 cs).map fun rest => (w.2, rest) with
  | some found => .ok found
  | none =>
    match number? cs with
    | some found => .ok found
    | none => faultAt .expectingValue cs

/-- The colon after a key, with the blanks around it. -/
def colon (cs : List Char) : Except Fault (List Char) :=
  match skipSpace cs with
  | ':' :: rest => .ok (skipSpace rest)
  | rest => faultAt .expectingColon rest

mutual

/-- A value at the start of the text. -/
def value : Nat → List Char → Except Fault (Json × List Char)
  | 0, cs => faultAt .expectingValue cs
  | fuel + 1, cs =>
    match cs with
    | '"' :: rest =>
      match string rest with
      | .error e => .error e
      | .ok (s, rest) => .ok (.str s, rest)
    | '[' :: rest =>
      match skipSpace rest with
      | ']' :: rest => .ok (.arr [], rest)
      | rest => elements fuel [] rest
    | '\x7b' :: rest =>
      match skipSpace rest with
      | '\x7d' :: rest => .ok (.obj [], rest)
      | rest => members fuel [] rest
    | cs => scalar cs

/-- The elements of an array up to its closing bracket, after the elements `done`, latest
first. -/
def elements : Nat → List Json → List Char → Except Fault (Json × List Char)
  | 0, _, cs => faultAt .expectingValue cs
  | fuel + 1, done, cs =>
    match value fuel cs with
    | .error e => .error e
    | .ok (v, rest) =>
      match skipSpace rest with
      | ']' :: rest => .ok (.arr (v :: done).reverse, rest)
      | ',' :: rest => elements fuel (v :: done) (skipSpace rest)
      | rest => faultAt .expectingComma rest

/-- The members of an object up to its closing brace, after the members `done`. -/
def members : Nat → List (String × Json) → List Char → Except Fault (Json × List Char)
  | 0, _, cs => faultAt .expectingKey cs
  | fuel + 1, done, cs =>
    match cs with
    | '"' :: rest =>
      match string rest with
      | .error e => .error e
      | .ok (key, rest) =>
        match colon rest with
        | .error e => .error e
        | .ok rest =>
          match value fuel rest with
          | .error e => .error e
          | .ok (v, rest) =>
            match skipSpace rest with
            | '\x7d' :: rest => .ok (.obj (Assoc.put done key v), rest)
            | ',' :: rest => members fuel (Assoc.put done key v) (skipSpace rest)
            | rest => faultAt .expectingComma rest
    | cs => faultAt .expectingKey cs

end

/-- A whole document: one value with blanks around it. Every step but the first on a level takes a
character, so twice the length bounds the steps. -/
def document (cs : List Char) : Except Fault Json :=
  match cs with
  | '\uFEFF' :: _ => faultAt .byteOrderMark cs
  | cs =>
    match value (2 * cs.length + 2) (skipSpace cs) with
    | .error e => .error e
    | .ok (v, rest) =>
      match skipSpace rest with
      | [] => .ok v
      | rest => faultAt .extraData rest

/-- The wording of a fault of the text `cs`, with its line, column and offset. -/
def Fault.message (f : Fault) (cs : List Char) : String :=
  let offset := cs.length - f.remaining
  let before := cs.take offset
  let line := before.count '\n' + 1
  let column := (before.reverse.takeWhile (· != '\n')).length + 1
  f.defect.message ++ ": line " ++ toString line ++ " column " ++ toString column ++ " (char "
    ++ toString offset ++ ")"

/-- Reads a document; a fault comes with its wording. -/
def parse (s : String) : Except String Json :=
  let cs := s.toList
  (document cs).mapError fun f => f.message cs

end Redline.Json
