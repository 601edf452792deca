import Redline.Editset.Basic
import Redline.Record

/-!
# Editsets as they are stored

A stored record is read leniently: whole numbers are read, while texts are handed back as they
stand, also where a file edited by hand holds another value. What is read this way is stored again
without loss; `check` gives the editset, whose texts are texts.
-/

namespace Redline

/-- A reference as it is stored. -/
structure StoredReference where
  refId : Unread
  file : Unread
  range : Range
  preview : Unread
  checksum : Unread
  selected : Bool
  deriving Repr, BEq, Inhabited

/-- An edit as it is stored. -/
structure StoredEdit where
  file : Unread
  offset : Int
  length : Int
  replacement : Unread
  deriving Repr, BEq, Inhabited

/-- An editset as it is stored. -/
structure StoredEditset where
  id : Unread
  operation : Unread
  old : Unread
  new : Unread
  refs : List StoredReference
  edits : List StoredEdit
  createdAt : Unread
  symbolKey : Option Unread
  pattern : Option Unread
  deriving Repr, BEq, Inhabited

namespace Range

/-- The whole numbers that a value lists, at most `n + 1` of them read. -/
def numbers : Nat → List Json → Except Mishap (List Int)
  | _, [] => .ok []
  | 0, x :: _ => do return [← Record.whole x]
  | n + 1, x :: rest => do
    let v ← Record.whole x
    return v :: (← numbers n rest)

/-- A range of exactly four whole numbers. -/
def ofJson (j : Json) : Except Mishap Range := do
  match ← numbers 4 (← Record.items j) with
  | [a, b, c, d] => return { startLine := a, startColumn := b, endLine := c, endColumn := d }
  | vs =>
    if vs.length < 4 then
      throw (.badValue ("not enough values to unpack (expected 4, got " ++ toString vs.length
        ++ ")"))
    else throw (.badValue "too many values to unpack (expected 4)")

end Range

namespace StoredReference

/-- The stored form of a reference. -/
def toJson (r : StoredReference) : Json :=
  .obj [("refId", r.refId), ("file", r.file), ("range", r.range.toJson), ("preview", r.preview),
    ("checksum", r.checksum), ("selected", .bool r.selected)]

/-- A reference from its stored form; a missing selection counts as selected. -/
def ofJson (j : Json) : Except Mishap StoredReference := do
  let range ← Range.ofJson (← Record.field j "range")
  let refId ← Record.field j "refId"
  let file ← Record.field j "file"
  let preview ← Record.field j "preview"
  let checksum ← Record.field j "checksum"
  let selected := (Record.fieldOr j "selected" (.bool true)).isTruthy
  return { refId, file, range, preview, checksum, selected }

/-- A reference whose texts are texts. -/
def check (r : StoredReference) : Except Mishap Reference := do
  let refId ← Record.text "refId" r.refId
  let file ← Record.text "file" r.file
  let checksum ← Record.text "checksum" r.checksum
  return { refId, file, range := r.range, preview := r.preview, checksum, selected := r.selected }

end StoredReference

namespace Reference

/-- A reference as it is stored. -/
def stored (r : Reference) : StoredReference :=
  { refId := .str r.refId
    file := .str r.file
    range := r.range
    preview := r.preview
    checksum := .str r.checksum
    selected := r.selected }

/-- A reference from its stored form. -/
def ofJson (j : Json) : Except Mishap Reference := do
  (← StoredReference.ofJson j).check

end Reference

namespace StoredEdit

/-- The stored form of an edit. -/
def toJson (e : StoredEdit) : Json :=
  .obj [("file", e.file), ("offset", .int e.offset), ("length", .int e.length),
    ("replacement", e.replacement)]

/-- An edit from its stored form. -/
def ofJson (j : Json) : Except Mishap StoredEdit := do
  let file ← Record.field j "file"
  let offset ← Record.wholeField j "offset"
  let length ← Record.wholeField j "length"
  let replacement ← Record.field j "replacement"
  return { file, offset, length, replacement }

/-- An edit whose texts are texts. -/
def check (e : StoredEdit) : Except Mishap Edit := do
  let file ← Record.text "file" e.file
  let replacement ← Record.text "replacement" e.replacement
  return { file, offset := e.offset, length := e.length, replacement }

end StoredEdit

namespace Edit

/-- An edit as it is stored. -/
def stored (e : Edit) : StoredEdit :=
  { file := .str e.file, offset := e.offset, length := e.length, replacement := .str e.replacement }

/-- An edit from its stored form. -/
def ofJson (j : Json) : Except Mishap Edit := do
  (← StoredEdit.ofJson j).check

end Edit

namespace StoredEditset

/-- The stored form of an editset. -/
def toJson (e : StoredEditset) : Json :=
  .obj ([("id", e.id), ("operation", e.operation)]
    ++ Editset.optionalField "symbolKey" e.symbolKey ++ Editset.optionalField "pattern" e.pattern
    ++ [("from", e.old), ("to", e.new), ("refs", .arr (e.refs.map StoredReference.toJson)),
      ("edits", .arr (e.edits.map StoredEdit.toJson)), ("createdAt", e.createdAt)])

/-- The value of an optional field; null counts as not set. -/
def optionalValue (j : Json) (key : String) : Option Unread :=
  match j.get? key with
  | none | some .null => none
  | some v => some v

/-- An editset from its stored form; references and edits may be left out. -/
def ofJson (j : Json) : Except Mishap StoredEditset := do
  let id ← Record.field j "id"
  let operation ← Record.field j "operation"
  let old ← Record.field j "from"
  let new ← Record.field j "to"
  let refs ← (← Record.items (Record.fieldOr j "refs" (.arr []))).mapM StoredReference.ofJson
  let edits ← (← Record.items (Record.fieldOr j "edits" (.arr []))).mapM StoredEdit.ofJson
  return { id, operation, old, new, refs, edits
           createdAt := Record.fieldOr j "createdAt" (.str "")
           symbolKey := optionalValue j "symbolKey"
           pattern := optionalValue j "pattern" }

/-- An editset whose texts are texts. -/
def check (e : StoredEditset) : Except Mishap Editset := do
  let refs ← e.refs.mapM StoredReference.check
  let edits ← e.edits.mapM StoredEdit.check
  return { id := e.id, operation := e.operation, old := e.old, new := e.new, refs, edits
           createdAt := e.createdAt, symbolKey := e.symbolKey, pattern := e.pattern }

end StoredEditset

namespace Editset

/-- An editset as it is stored. -/
def stored (e : Editset) : StoredEditset :=
  { id := e.id
    operation := e.operation
    old := e.old
    new := e.new
    refs := e.refs.map Reference.stored
    edits := e.edits.map Edit.stored
    createdAt := e.createdAt
    symbolKey := e.symbolKey
    pattern := e.pattern }

end Editset

end Redline
