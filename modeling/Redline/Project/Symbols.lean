import Redline.Pattern.Reader
import Redline.Pattern.Matcher
import Redline.Project.Basic

/-!
# Finding symbols and references

The questions about symbols: which one is at a position, where it is referred to, and which ones
have a name that matches a pattern.
-/

namespace Redline.Project

/-- What stands at a position, if that is an identifier that stands for something. -/
def resolve (file : String) (line column : Int) : Query (Option (Source × Spot × Target)) := do
  match ← source? file with
  | none => return none
  | some source =>
    match source.spotAt? NodeKind.isIdentifier line column with
    | none => return none
    | some spot =>
      return ((← theIndex).targetOf? source spot).map fun t => (source, spot, t)

/-- The symbol at a position. -/
def symbolAt (file : String) (line column : Int) : Query (Option Symbol) := do
  match ← resolve file line column with
  | none => return none
  | some (source, spot, t) => return some ((← theIndex).symbolAt source spot t)

/-- The references of the symbol with a key. A key that cannot be read, or whose name is not at its
position, has none. -/
def references (key : String) : Query (List Reference) := do
  match SymbolKey.ofText key with
  | .error _ => return []
  | .ok k =>
    match ← resolve k.file k.line k.column with
    | none => return []
    | some (source, spot, t) =>
      if source.textOf spot.tree != k.name then return []
      else return (← theIndex).references t

/-- The order of search results: those with the most references first, then by place. -/
def matchBefore (a b : SymbolMatch) : Bool :=
  if a.count != b.count then decide (b.count < a.count)
  else if a.symbol.file != b.symbol.file then decide (a.symbol.file < b.symbol.file)
  else if a.symbol.line != b.symbol.line then decide (a.symbol.line < b.symbol.line)
  else decide (a.symbol.column ≤ b.symbol.column)

/-- The symbols of an index whose name matches a pattern, with their numbers of references. -/
def matchesIn (x : Index) (pattern : Pattern) : List SymbolMatch :=
  ((x.symbols.filter fun (_, _, _, name) => pattern.occursIn name).map
    fun (source, spot, t, _) =>
      { symbol := x.symbolAt source spot t
        count := (x.references t).length }).mergeSort matchBefore

/-- The symbols whose name matches a pattern. -/
def find (pattern : Pattern) : Query (List SymbolMatch) := do
  return matchesIn (← theIndex) pattern

end Redline.Project
