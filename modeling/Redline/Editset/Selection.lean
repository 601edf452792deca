import Redline.Editset.Basic

/-!
# Selecting references

`Editset.filter` changes which references of an editset are selected. Edits are kept file by file:
those of a file with a selected reference stay, all others are dropped.
-/

namespace Redline.Editset

/-- Whether a reference is selected after a filter; an empty list counts as not given. -/
def selects (include_ exclude : List String) (r : Reference) : Bool :=
  (if include_.isEmpty then r.selected else include_.contains r.refId)
    && !exclude.contains r.refId

/-- The files with a selected reference. -/
def selectedFiles (refs : List Reference) : List String :=
  (refs.filter Reference.selected).map Reference.file

/-- The editset with the references to include selected, and those to exclude not. -/
def filter (e : Editset) (include_ exclude : List String) : Editset :=
  let refs := e.refs.map fun r => { r with selected := selects include_ exclude r }
  { e with refs, edits := e.edits.filter fun x => (selectedFiles refs).contains x.file }

end Redline.Editset
