import Redline.Failure

/-!
# Reading records out of JSON

The fields of a stored record are read leniently: whole numbers may be given as other numbers, as
truth values or as text, and anything counts as true or false. What cannot be read is a mishap whose
message names the trouble.
-/

namespace Redline.Record

/-- The value of a field that must be there; only an object has fields. -/
def field (j : Json) (key : String) : Except Mishap Json :=
  match j with
  | .obj members =>
    match members.lookup key with
    | some v => .ok v
    | none => .error (.missingKey key)
  | .arr _ => .error (.wrongType "list indices must be integers or slices, not str")
  | .str _ => .error (.wrongType "string indices must be integers, not 'str'")
  | j => .error (.wrongType ("'" ++ j.kindName ++ "' object is not subscriptable"))

/-- The value of a field of an object, or a default. -/
def fieldOr (j : Json) (key : String) (default : Json) : Json :=
  (j.get? key).getD default

/-- The value of a field that may be left out; only an object is asked for one. -/
def optional (j : Json) (key : String) : Except Mishap (Option Json) :=
  match j with
  | .obj members => .ok (members.lookup key)
  | j => .error (.lacks j.kindName "get")

/-- Whether one text is part of another. -/
def isWithin (part : List Char) : List Char → Bool
  | [] => part.isEmpty
  | c :: rest => part.isPrefixOf (c :: rest) || isWithin part rest

/-- Whether a value holds a text: as a key, as an item or as a part. -/
def holds (j : Json) (key : String) : Except Mishap Bool :=
  match j with
  | .obj members => .ok (members.any (·.1 == key))
  | .arr xs => .ok (xs.any (·.asString? == some key))
  | .str s => .ok (isWithin key.toList s.toList)
  | j => .error (.wrongType ("argument of type '" ++ j.kindName ++ "' is not iterable"))

/-- A value that must be a text, as `ability` asks. -/
def textFor (ability : String) : Json → Except Mishap String
  | .str s => .ok s
  | j => .error (.lacks j.kindName ability)

/-- A position in a text; null stands for its end. -/
def position? : Json → Except Mishap (Option Int)
  | .int n => .ok (some n)
  | .bool b => .ok (some (if b then 1 else 0))
  | .null => .ok none
  | _ => .error (.wrongType "slice indices must be integers or None or have an __index__ method")

/-- The items that a value lists: those of an array, the characters of a text or the keys of an
object. -/
def items : Json → Except Mishap (List Json)
  | .arr xs => .ok xs
  | .str s => .ok (s.toList.map fun c => .str c.toString)
  | .obj members => .ok (members.map fun m => .str m.1)
  | j => .error (.wrongType ("'" ++ j.kindName ++ "' object is not iterable"))

/-- A whole number, read leniently: a fraction is cut off. -/
def whole : Json → Except Mishap Int
  | .int n => .ok n
  | .bool b => .ok (if b then 1 else 0)
  | .float .nan => .error (.badValue "cannot convert float NaN to integer")
  | .float x =>
    match x.truncate? with
    | some n => .ok n
    | none => .error (.overflow "cannot convert float infinity to integer")
  | .str s =>
    match Text.Numeral.toInt? s with
    | some n => .ok n
    | none =>
      .error (.badValue ("invalid literal for int() with base 10: " ++ Text.quoted s))
  | j =>
    .error (.wrongType ("int() argument must be a string, a bytes-like object or a real number, "
      ++ "not '" ++ j.kindName ++ "'"))

/-- A field that holds a whole number. -/
def wholeField (j : Json) (key : String) : Except Mishap Int := do
  whole (← field j key)

/-- The text that a field must hold. -/
def text (key : String) : Json → Except Mishap String
  | .str s => .ok s
  | v => .error (.wrongType ("field '" ++ key ++ "' must be a text, not '" ++ v.kindName ++ "'"))

/-- Whether a mishap says that a field is missing or has the wrong sort. -/
def isShapeFault : Mishap → Bool
  | .missingKey _ | .wrongType _ | .badValue _ => true
  | _ => false

end Redline.Record
