import Redline.Binary64

/-!
# JSON values

Values as documents hold them. Whole numbers keep every digit, other numbers are 64-bit floating
point, and an object keeps its members in order, each key once.
-/

namespace Redline

/-- A value of a document. -/
inductive Json where
  | null
  | bool (b : Bool)
  | int (n : Int)
  | float (x : Binary64)
  | str (s : String)
  | arr (items : List Json)
  | obj (members : List (String × Json))
  deriving Repr, BEq, Inhabited

namespace Json

/-- The value of a key of an object. -/
def get? (j : Json) (key : String) : Option Json :=
  match j with
  | .obj members => members.lookup key
  | _ => none

/-- A text value or none. -/
def ofOption (s : Option String) : Json :=
  match s with
  | some s => .str s
  | none => .null

/-- A list of texts. -/
def ofStrings (ss : List String) : Json :=
  .arr (ss.map .str)

/-- The text of a text value. -/
def asString? : Json → Option String
  | .str s => some s
  | _ => none

/-- Whether a value counts as true: neither null, false, zero nor empty. -/
def isTruthy : Json → Bool
  | .null => false
  | .bool b => b
  | .int n => n != 0
  | .float x => !x.isZero
  | .str s => !s.isEmpty
  | .arr items => !items.isEmpty
  | .obj members => !members.isEmpty

/-- The name of the kind of a value in messages. -/
def kindName : Json → String
  | .null => "NoneType"
  | .bool _ => "bool"
  | .int _ => "int"
  | .float _ => "float"
  | .str _ => "str"
  | .arr _ => "list"
  | .obj _ => "dict"

end Json

end Redline
