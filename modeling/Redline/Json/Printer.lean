import Redline.Json.Basic

/-!
# Writing JSON

`Json.pretty` writes a document with one element or member a line, indented by two blanks a level.
Only the quote, the backslash and control characters are escaped.
-/

namespace Redline.Json

/-- The digits of a control character's escape. -/
def controlEscape (c : Char) : List Char :=
  ['\\', 'u', '0', '0', Nat.digitChar (c.toNat / 16), Nat.digitChar (c.toNat % 16)]

/-- One character inside a string. -/
def writeChar (c : Char) : List Char :=
  match c with
  | '"' => ['\\', '"']
  | '\\' => ['\\', '\\']
  | '\n' => ['\\', 'n']
  | '\r' => ['\\', 'r']
  | '\t' => ['\\', 't']
  | '\x08' => ['\\', 'b']
  | '\x0C' => ['\\', 'f']
  | c => if c.toNat < 0x20 then controlEscape c else [c]

/-- A string with its quotes. -/
def writeString (s : String) : List Char :=
  '"' :: s.toList.flatMap writeChar ++ ['"']

/-- A floating-point number; the exceptional ones by their words. -/
def writeFloat : Binary64 → List Char
  | .nan => "NaN".toList
  | .infinite negative => if negative then "-Infinity".toList else "Infinity".toList
  | x => x.text.toList

/-- A new line at the indentation of a level. -/
def newline (level : Nat) : List Char :=
  '\n' :: List.replicate (2 * level) ' '

mutual

/-- A value whose surroundings stand at `level`. -/
def write (level : Nat) : Json → List Char
  | .null => "null".toList
  | .bool b => if b then "true".toList else "false".toList
  | .int n => (Text.Numeral.ofInt n).toList
  | .float x => writeFloat x
  | .str s => writeString s
  | .arr items =>
    match items with
    | [] => ['[', ']']
    | item :: rest =>
      '[' :: newline (level + 1) ++ write (level + 1) item ++ writeItems (level + 1) rest
        ++ newline level ++ [']']
  | .obj members =>
    match members with
    | [] => ['\x7b', '\x7d']
    | (key, v) :: rest =>
      '\x7b' :: newline (level + 1) ++ writeString key ++ [':', ' '] ++ write (level + 1) v
        ++ writeMembers (level + 1) rest ++ newline level ++ ['\x7d']

/-- The elements after the first. -/
def writeItems (level : Nat) : List Json → List Char
  | [] => []
  | item :: rest => ',' :: newline level ++ write level item ++ writeItems level rest

/-- The members after the first. -/
def writeMembers (level : Nat) : List (String × Json) → List Char
  | [] => []
  | (key, v) :: rest =>
    ',' :: newline level ++ writeString key ++ [':', ' '] ++ write level v
      ++ writeMembers level rest

end

/-- A document, without a line end after it. -/
def pretty (j : Json) : String :=
  String.ofList (write 0 j)

end Redline.Json
