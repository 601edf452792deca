import Redline.Naming
import Redline.Project.Symbols

/-!
# Proposing renames

A rename proposal has a reference for every place that changes with a symbol, and an edit for every
one of them where the old name stands as such. A batch renames every symbol that matches a pattern,
each to its own new name; a place that several symbols share is listed once.
-/

namespace Redline.Project

/-- The edit that renames at a reference, if the old name stands there. -/
def editAt (x : Index) (old new : String) (r : Reference) : Option Edit :=
  match x.source? r.file with
  | none => none
  | some s =>
    match s.offset? r.range.startLine r.range.startColumn,
        s.offset? r.range.endLine r.range.endColumn with
    | some start, some stop =>
      if String.ofList (Text.between s.text start stop) = old then
        some { file := r.file, offset := start, length := stop - start, replacement := new }
      else none
    | _, _ => none

/-- The place that an edit changes. -/
def editPlace (e : Edit) : String × Int × Int :=
  (e.file, e.offset, e.length)

/-- The edits that rename at some references, one for each place. -/
def editsFor (x : Index) (refs : List Reference) (old new : String) : List Edit :=
  distinctBy editPlace (refs.filterMap (editAt x old new))

/-- The proposal to rename the symbol with a key. -/
def rename (now : Moment) (key new : String) : Query Editset := do
  let refs ← references key
  match refs, SymbolKey.ofText key with
  | [], _ | _, .error _ => liftM (failWith (α := Editset) (.symbolMissing key))
  | refs, .ok k =>
    let edits := editsFor (← theIndex) refs k.name new
    return Editset.make ("rename-" ++ k.name ++ "-to-" ++ new) "rename" k.name new refs edits
      (some key) none now

/-- A reference with a note of the new name after its preview. -/
def annotate (old new : String) (r : Reference) : Reference :=
  match r.preview with
  | .str p => { r with preview := .str (p ++ " // " ++ old ++ " → " ++ new) }
  | _ => r

/-- The references and edits of a batch for one symbol; none if the symbol is to be skipped or keeps
its name. -/
def batchPart (x : Index) (pattern : Pattern) (replacement : String) (skip : List String)
    (m : SymbolMatch) : Query (List Reference × List Edit) := do
  let old := m.symbol.name
  let new := Naming.newName old pattern replacement
  if skip.contains old || new == old then return ([], [])
  else
    let refs ← references m.symbol.key.text
    return (refs.map (annotate old new), editsFor x refs old new)

/-- The proposal to rename every symbol that matches a pattern. -/
def renameBatch (now : Moment) (text replacement : String) (skip : List String) :
    Query Editset := do
  let pattern ← liftM (Pattern.compile text true)
  let x ← theIndex
  let parts ← (matchesIn x pattern).mapM (batchPart x pattern replacement skip)
  let refs := distinctBy Reference.refId (parts.flatMap Prod.fst)
  let edits := distinctBy editPlace (parts.flatMap Prod.snd)
  return Editset.make ("rename-batch-" ++ text ++ "-to-" ++ replacement) "rename" text replacement
    refs edits none (some text) now

end Redline.Project
