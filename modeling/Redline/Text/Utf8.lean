/-!
# UTF-8

Octets are read piece by piece: a piece is a character with its size, or a maximal ill-formed
subpart, the longest start of a character that the octets at hand do not complete. Strict reading
(`decode`) stops at the first ill-formed piece and tells where it lies; lenient reading
(`decodeLossy`) puts one replacement character for each. Writing (`encode`) is the inverse of
strict reading.
-/

namespace Redline

/-- The content of a file or of a stream. -/
abbrev Bytes := List UInt8

namespace Text.Utf8

/-- Why octets are not a character. -/
inductive Defect where
  /-- No character starts with this octet. -/
  | badStart
  /-- The octet after a correct start cannot follow it. -/
  | badContinuation
  /-- The octets end inside a character. -/
  | cutShort
  deriving DecidableEq, Repr

/-- The wording of a defect in messages. -/
def Defect.message : Defect → String
  | .badStart => "invalid start byte"
  | .badContinuation => "invalid continuation byte"
  | .cutShort => "unexpected end of data"

/-- What stands at the head of some octets, with the number of octets it takes. -/
inductive Piece where
  | char (c : Char) (size : Nat)
  | ill (defect : Defect) (size : Nat)
  deriving DecidableEq, Repr

/-- The number of octets of a piece. -/
def Piece.size : Piece → Nat
  | .char _ size => size
  | .ill _ size => size

/-- The character that lenient reading gives for a piece. -/
def Piece.toChar : Piece → Char
  | .char c _ => c
  | .ill _ _ => '\uFFFD'

/-- Reads `owed` continuation octets, the first of them between `low` and `high`, onto the value
`value`; `size` octets were read before. -/
def continuation (owed : Nat) (low high : UInt8) (value size : Nat) (bytes : Bytes) : Piece :=
  match owed, bytes with
  | 0, _ => .char (Char.ofNat value) size
  | _ + 1, [] => .ill .cutShort size
  | owed + 1, b :: rest =>
    if low ≤ b ∧ b ≤ high then
      continuation owed 0x80 0xBF (value * 64 + b.toNat % 64) (size + 1) rest
    else
      .ill .badContinuation size

/-- The piece that starts with the octet `b`, before `rest`. -/
def piece (b : UInt8) (rest : Bytes) : Piece :=
  if b < 0x80 then .char (Char.ofNat b.toNat) 1
  else if b < 0xC2 then .ill .badStart 1
  else if b < 0xE0 then continuation 1 0x80 0xBF (b.toNat % 32) 1 rest
  else if b < 0xF0 then
    let low := if b = 0xE0 then 0xA0 else 0x80
    let high := if b = 0xED then 0x9F else 0xBF
    continuation 2 low high (b.toNat % 16) 1 rest
  else if b < 0xF5 then
    let low := if b = 0xF0 then 0x90 else 0x80
    let high := if b = 0xF4 then 0x8F else 0xBF
    continuation 3 low high (b.toNat % 8) 1 rest
  else .ill .badStart 1

/-- The octets as pieces, in order. -/
def pieces : Bytes → List Piece
  | [] => []
  | b :: rest =>
    let p := piece b rest
    p :: pieces (rest.drop (p.size - 1))
termination_by bytes => bytes.length
decreasing_by simp only [List.length_drop, List.length_cons]; omega

/-- Where and why octets are not UTF-8: `size` octets from `position` on, the first of them
`first`. -/
structure Fault where
  defect : Defect
  position : Nat
  size : Nat
  first : UInt8
  deriving DecidableEq, Repr

/-- Two hexadecimal digits of an octet, in lower case. -/
def hexOctet (b : UInt8) : String :=
  String.ofList [Nat.digitChar (b.toNat / 16), Nat.digitChar (b.toNat % 16)]

/-- The wording of a fault. -/
def Fault.message (f : Fault) : String :=
  let place :=
    if f.size = 1 then "byte 0x" ++ hexOctet f.first ++ " in position " ++ toString f.position
    else "bytes in position " ++ toString f.position ++ "-" ++ toString (f.position + f.size - 1)
  "'utf-8' codec can't decode " ++ place ++ ": " ++ f.defect.message

/-- Collects characters until the first ill-formed piece; the pieces start at `position`. -/
def collect (bytes : Bytes) : List Piece → Nat → Except Fault (List Char)
  | [], _ => .ok []
  | .char c size :: rest, position => (collect bytes rest (position + size)).map (c :: ·)
  | .ill defect size :: _, position =>
    .error { defect, position, size, first := bytes.getD position 0 }

/-- Strict reading. -/
def decode (bytes : Bytes) : Except Fault String :=
  (collect bytes (pieces bytes) 0).map String.ofList

/-- Lenient reading: one replacement character for each maximal ill-formed subpart. -/
def decodeLossy (bytes : Bytes) : String :=
  String.ofList ((pieces bytes).map Piece.toChar)

/-- The UTF-8 form of a text. -/
def encode (s : String) : Bytes :=
  s.toList.flatMap String.utf8EncodeChar

end Text.Utf8

end Redline
