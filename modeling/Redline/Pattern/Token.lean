import Redline.Pattern.Fault
import Redline.Text.Numeral

/-!
# The tokens of a pattern

A token is a character, or a backslash with the character after it. A backslash at the end is a
defect, found as soon as the token before it is taken. `Source` is what remains of a text, with the
steps that readers of patterns and of replacement templates share.
-/

namespace Redline.Pattern

/-- A unit of a pattern. -/
inductive Token where
  | plain (c : Char)
  | escape (c : Char)
  /-- A backslash that nothing follows. -/
  | dangling
  deriving DecidableEq, Repr

/-- The number of characters of a token. -/
def Token.width : Token → Nat
  | .escape _ => 2
  | _ => 1

/-- The characters of a token. -/
def Token.chars : Token → List Char
  | .plain c => [c]
  | .escape c => ['\\', c]
  | .dangling => ['\\']

/-- The text of a token. -/
def Token.text (t : Token) : String :=
  String.ofList t.chars

/-- The tokens of a text. -/
def tokens : List Char → List Token
  | [] => []
  | ['\\'] => [.dangling]
  | '\\' :: c :: rest => .escape c :: tokens rest
  | c :: rest => .plain c :: tokens rest

/-- The tokens that remain of a text of `size` characters. -/
structure Source where
  size : Nat
  rest : List Token
  deriving Repr, Inhabited

namespace Source

/-- The place of the next token. -/
def place (s : Source) : Nat :=
  s.rest.foldr (fun t after => after - t.width) s.size

/-- The defect of a backslash at the end, if it comes next. -/
def checked (s : Source) : Except Fault Source :=
  match s.rest with
  | [.dangling] => .error { defect := .danglingEscape, place := some (s.size - 1) }
  | _ => .ok s

/-- The start of a text. -/
def ofString (text : String) : Except Fault Source :=
  checked { size := text.length, rest := tokens text.toList }

/-- A defect `back` characters before the next token. -/
def fault {α : Type} (s : Source) (defect : Defect) (back : Nat) : Except Fault α :=
  .error { defect, place := some (s.place - back) }

/-- The source without its next token. -/
def drop (s : Source) : Except Fault Source :=
  checked { s with rest := s.rest.tail }

/-- The next token and the source after it. -/
def take (s : Source) : Except Fault (Option Token × Source) := do
  return (s.rest.head?, ← s.drop)

/-- Whether the next token is the character `c`. -/
def nextIs (s : Source) (c : Char) : Bool :=
  s.rest.head? == some (.plain c)

/-- Whether the next token is a character of a class. -/
def nextHas (s : Source) (p : Char → Bool) : Bool :=
  match s.rest with
  | .plain c :: _ => p c
  | _ => false

/-- Drops the next token if it is the character `c`, and tells whether it was. -/
def accept (s : Source) (c : Char) : Except Fault (Bool × Source) :=
  if s.nextIs c then do return (true, ← s.drop) else .ok (false, s)

/-- Takes up to `n` characters of a class. -/
def takeWhile (p : Char → Bool) : Nat → Source → Except Fault (List Char × Source)
  | 0, s => .ok ([], s)
  | n + 1, s =>
    match s.rest with
    | .plain c :: _ =>
      if p c then do
        let (cs, s) ← takeWhile p n (← s.drop)
        return (c :: cs, s)
      else .ok ([], s)
    | _ => .ok ([], s)

/-- The characters up to a terminator, which is dropped. -/
def nameBody (terminator : Char) (what : String) : Nat → List Char → Source →
    Except Fault (String × Source)
  | 0, _, s => s.fault (.missingName what) 0
  | n + 1, done, s =>
    match s.rest with
    | [] =>
      if done.isEmpty then s.fault (.missingName what) 0
      else s.fault (.unterminatedName terminator) done.length
    | t :: _ => do
      let s ← s.drop
      if t = .plain terminator then
        if done.isEmpty then s.fault (.missingName what) 1
        else return (String.ofList done, s)
      else nameBody terminator what n (done ++ t.chars) s

/-- The name before a terminator, which is dropped; the name may not be empty. -/
def name (s : Source) (terminator : Char) (what : String) : Except Fault (String × Source) :=
  nameBody terminator what (s.rest.length + 1) [] s

end Source

/-- Whether a text is a name. -/
def isName (s : String) : Bool :=
  match s.toList with
  | [] => false
  | c :: rest => Text.isNameStart c && rest.all Text.isNamePart

/-- The greatest number of groups, counting the whole match. -/
def groupLimit : Nat := 1073741823

/-- The most decimal digits that a whole number is read from. -/
def digitLimit : Nat := 4300

/-- The number of a group that a name shows. -/
def groupNumber? (name : String) : Option Int :=
  if digitLimit < (name.toList.filter Text.isDecimal).length then none
  else Text.Numeral.toInt? name

/-- An octal digit. -/
def isOctal (c : Char) : Bool :=
  '0' ≤ c && c ≤ '7'

/-- A decimal digit of ASCII. -/
def isDigit (c : Char) : Bool :=
  '0' ≤ c && c ≤ '9'

/-- A hexadecimal digit. -/
def isHex (c : Char) : Bool :=
  isDigit c || ('a' ≤ c && c ≤ 'f') || ('A' ≤ c && c ≤ 'F')

/-- A letter of ASCII. -/
def isLetter (c : Char) : Bool :=
  ('a' ≤ c && c ≤ 'z') || ('A' ≤ c && c ≤ 'Z')

/-- The value of digits in a base of at most sixteen. -/
def valueIn (base : Nat) (digits : List Char) : Nat :=
  digits.foldl (fun n c => n * base + digitValue c) 0
where
  /-- The value of one hexadecimal digit. -/
  digitValue (c : Char) : Nat :=
    if isDigit c then c.toNat - 48
    else if 'a' ≤ c then c.toNat - 87
    else c.toNat - 55

/-- The character of a one-letter escape. -/
def controlEscape? : Char → Option Char
  | 'a' => some '\x07'
  | 'b' => some '\x08'
  | 'f' => some '\x0C'
  | 'n' => some '\n'
  | 'r' => some '\r'
  | 't' => some '\t'
  | 'v' => some '\x0B'
  | '\\' => some '\\'
  | _ => none

end Redline.Pattern
