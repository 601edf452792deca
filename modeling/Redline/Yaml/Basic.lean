import Redline.Assoc
import Redline.Json.Basic
import Redline.Text.Quoted

/-!
# YAML values

A value is a scalar, a sequence or a mapping. The keys of a mapping are scalars, each there once, in
the order in which they were written. `overlay` lays one value over another, key by key.
-/

namespace Redline

/-- A value without parts. -/
inductive Scalar where
  | null
  | bool (b : Bool)
  | int (n : Int)
  | float (x : Binary64)
  | text (s : String)
  | date (year month day : Nat)
  deriving DecidableEq, Repr, Inhabited

/-- A value of a document. -/
inductive Yaml where
  | scalar (s : Scalar)
  | seq (items : List Yaml)
  | map (entries : List (Scalar × Yaml))
  deriving Repr, BEq, Inhabited

namespace Scalar

/-- Whether a scalar counts as true: neither null, false, zero nor the empty text. -/
def isTruthy : Scalar → Bool
  | null => false
  | bool b => b
  | int n => n != 0
  | float x => !x.isZero
  | text s => !s.isEmpty
  | date _ _ _ => true

/-- A number in at least `count` digits. -/
def padded (count n : Nat) : String :=
  let digits := Text.Numeral.digitsOf n
  String.ofList (List.replicate (count - digits.length) '0' ++ digits)

/-- A scalar as a message shows it. -/
def shown : Scalar → String
  | null => "None"
  | bool b => if b then "True" else "False"
  | int n => Text.Numeral.ofInt n
  | float x => x.text
  | text s => s
  | date year month day => padded 4 year ++ "-" ++ padded 2 month ++ "-" ++ padded 2 day

/-- A scalar as a message shows it inside another value: text stands in quotes. -/
def inspected : Scalar → String
  | text s => Text.quoted s
  | date year month day =>
    "datetime.date(" ++ ", ".intercalate ([year, month, day].map (padded 1)) ++ ")"
  | s => s.shown

end Scalar

namespace Yaml

/-- A text value. -/
def text (s : String) : Yaml :=
  .scalar (.text s)

/-- The null value. -/
def null : Yaml :=
  .scalar .null

/-- Whether a value counts as true: a scalar that does, or one that is not empty. -/
def isTruthy : Yaml → Bool
  | .scalar s => s.isTruthy
  | .seq items => !items.isEmpty
  | .map entries => !entries.isEmpty

/-- The value of a text key of a mapping. -/
def get? (v : Yaml) (key : String) : Option Yaml :=
  match v with
  | .map entries => entries.lookup (.text key)
  | _ => none

mutual

/-- A value as a message shows it inside another one. -/
def inspected : Yaml → String
  | .scalar s => s.inspected
  | .seq items => "[" ++ ", ".intercalate (inspectedItems items) ++ "]"
  | .map entries => "\x7b" ++ ", ".intercalate (inspectedEntries entries) ++ "\x7d"

/-- The items of a sequence as a message shows them. -/
def inspectedItems : List Yaml → List String
  | [] => []
  | v :: rest => v.inspected :: inspectedItems rest

/-- The entries of a mapping as a message shows them. -/
def inspectedEntries : List (Scalar × Yaml) → List String
  | [] => []
  | (key, v) :: rest => (key.inspected ++ ": " ++ v.inspected) :: inspectedEntries rest

end

/-- A value as a message shows it. -/
def shown : Yaml → String
  | .scalar s => s.shown
  | v => v.inspected

mutual

/-- One value laid over another: mappings are joined key by key, and any other value hides what is
below it. -/
def overlay (under : Yaml) : Yaml → Yaml
  | .map entries =>
    match under with
    | .map below => .map (overlayEntries below entries)
    | _ => .map entries
  | v => v

/-- The entries of one mapping laid over those of another. -/
def overlayEntries (below : List (Scalar × Yaml)) : List (Scalar × Yaml) → List (Scalar × Yaml)
  | [] => below
  | (key, v) :: rest =>
    let v := match below.lookup key with
      | some old => overlay old v
      | none => v
    overlayEntries (Assoc.put below key v) rest

end

mutual

/-- The value that a JSON document holds. -/
def ofJson : Json → Yaml
  | .null => null
  | .bool b => .scalar (.bool b)
  | .int n => .scalar (.int n)
  | .float x => .scalar (.float x)
  | .str s => text s
  | .arr items => .seq (ofJsonItems items)
  | .obj members => .map (ofJsonMembers members)

/-- The values that the items of an array hold. -/
def ofJsonItems : List Json → List Yaml
  | [] => []
  | j :: rest => ofJson j :: ofJsonItems rest

/-- The entries that the members of an object hold. -/
def ofJsonMembers : List (String × Json) → List (Scalar × Yaml)
  | [] => []
  | (key, j) :: rest => (.text key, ofJson j) :: ofJsonMembers rest

end

mutual

/-- The JSON document that holds a value; keys and dates become text. -/
def toJson : Yaml → Json
  | .scalar .null => .null
  | .scalar (.bool b) => .bool b
  | .scalar (.int n) => .int n
  | .scalar (.float x) => .float x
  | .scalar s => .str s.shown
  | .seq items => .arr (toJsonItems items)
  | .map entries => .obj (toJsonEntries entries)

/-- The items of the array that holds a sequence. -/
def toJsonItems : List Yaml → List Json
  | [] => []
  | v :: rest => v.toJson :: toJsonItems rest

/-- The members of the object that holds a mapping. -/
def toJsonEntries : List (Scalar × Yaml) → List (String × Json)
  | [] => []
  | (key, v) :: rest => (key.shown, v.toJson) :: toJsonEntries rest

end

end Yaml

end Redline
