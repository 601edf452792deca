import Redline.Clock
import Redline.Digest
import Redline.Json.Basic
import Redline.Text.Slice

/-!
# Editsets

An editset is a change proposal that can be stored and reviewed: the places found, the edits that
would be made, and for each place a checksum of its file. `toJson` is its stored form, in which an
optional field that is not set is left out.
-/

namespace Redline

/-- A field that is stored and handed back unread: a text in every record made here, and whatever
stands there in a file that was edited by hand. -/
abbrev Unread := Json

/-- Start line, start column, end line and end column, counted from one. -/
structure Range where
  startLine : Int
  startColumn : Int
  endLine : Int
  endColumn : Int
  deriving DecidableEq, Repr, Inhabited

/-- One place where a symbol occurs or a pattern matches. -/
structure Reference where
  refId : String
  file : String
  range : Range
  preview : Unread
  checksum : String
  selected : Bool
  deriving Repr, BEq, Inhabited

/-- A splice: `length` characters from `offset` on are replaced. -/
structure Edit where
  file : String
  offset : Int
  length : Int
  replacement : String
  deriving DecidableEq, Repr, Inhabited

/-- A change proposal. -/
structure Editset where
  id : Unread
  operation : Unread
  old : Unread
  new : Unread
  refs : List Reference
  edits : List Edit
  createdAt : Unread
  symbolKey : Option Unread
  pattern : Option Unread
  deriving Repr, BEq, Inhabited

/-- The checksum of a source text. -/
def checksum (text : String) : String :=
  Digest.ofText 12 text

/-- The text that identifies a place. -/
def Range.key (file : String) (r : Range) : String :=
  file ++ ":" ++ Text.Numeral.ofInt r.startLine ++ ":" ++ Text.Numeral.ofInt r.startColumn ++ ":"
    ++ Text.Numeral.ofInt r.endLine ++ ":" ++ Text.Numeral.ofInt r.endColumn

/-- The identity of a place, derived from it alone. -/
def Range.refId (file : String) (r : Range) : String :=
  Digest.ofText 8 (r.key file)

/-- The order of stored edits: by file, and within a file from the end to the start. -/
def Edit.before (a b : Edit) : Bool :=
  decide (a.file < b.file) || (a.file == b.file && decide (b.offset ≤ a.offset))

/-- The edits in stored order; edits at one offset keep their order. -/
def sortEdits (edits : List Edit) : List Edit :=
  edits.mergeSort Edit.before

/-- The items without those that came before. -/
def distinct {α : Type} [BEq α] (xs : List α) : List α :=
  (xs.foldl (fun seen x => if seen.contains x then seen else x :: seen) []).reverse

/-- The files that have references, in order of their first. -/
def Editset.files (e : Editset) : List String :=
  distinct (e.refs.map Reference.file)

/-- A new editset at a moment. Two made in the same millisecond share an identity. -/
def Editset.make (stem operation old new : String) (refs : List Reference) (edits : List Edit)
    (symbolKey pattern : Option String) (now : Moment) : Editset :=
  { id := .str (stem ++ "-" ++ Text.Numeral.ofInt now.milliseconds)
    operation := .str operation
    old := .str old
    new := .str new
    refs
    edits := sortEdits edits
    createdAt := .str now.text
    symbolKey := symbolKey.map .str
    pattern := pattern.map .str }

namespace Range

/-- The stored form of a range. -/
def toJson (r : Range) : Json :=
  .arr [.int r.startLine, .int r.startColumn, .int r.endLine, .int r.endColumn]

end Range

namespace Reference

/-- The stored form of a reference. -/
def toJson (r : Reference) : Json :=
  .obj [("refId", .str r.refId), ("file", .str r.file), ("range", r.range.toJson),
    ("preview", r.preview), ("checksum", .str r.checksum), ("selected", .bool r.selected)]

end Reference

namespace Edit

/-- The stored form of an edit. -/
def toJson (e : Edit) : Json :=
  .obj [("file", .str e.file), ("offset", .int e.offset), ("length", .int e.length),
    ("replacement", .str e.replacement)]

end Edit

namespace Editset

/-- A field that is left out when it is not set. -/
def optionalField (key : String) (v : Option Unread) : List (String × Json) :=
  match v with
  | some v => [(key, v)]
  | none => []

/-- The stored form of an editset. -/
def toJson (e : Editset) : Json :=
  .obj ([("id", e.id), ("operation", e.operation)] ++ optionalField "symbolKey" e.symbolKey
    ++ optionalField "pattern" e.pattern
    ++ [("from", e.old), ("to", e.new), ("refs", .arr (e.refs.map Reference.toJson)),
      ("edits", .arr (e.edits.map Edit.toJson)), ("createdAt", e.createdAt)])

end Editset

end Redline
