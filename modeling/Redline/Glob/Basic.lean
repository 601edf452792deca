import Redline.Glob.Braces
import Redline.Glob.Segment
import Redline.Text.Class

/-!
# Patterns for paths

A pattern is matched segment by segment. Two stars alone in a segment cover any number of whole
segments; every other segment covers exactly one. Alternatives in braces are expanded first.
-/

namespace Redline.Glob

/-- Whether the segments of a path match those of a pattern. -/
def matchSegments : List String → List String → Bool
  | [], path => path.isEmpty
  | head :: rest, path =>
    if head = "**" then (endParts path).any (matchSegments rest)
    else
      match path with
      | [] => false
      | segment :: more => matchSegment head segment && matchSegments rest more

/-- The segments of a path: parts between slashes of either kind, without empty ones and dots. -/
def pathSegments (path : String) : List String :=
  let slashed := path.toList.map fun c => if c = '\\' then '/' else c
  ((Text.splitAtChar '/' slashed).map String.ofList).filter fun p => p ≠ "" ∧ p ≠ "."

/-- The segments of an expanded pattern: blanks around it and one `./` at its start are dropped. -/
def patternSegments (pattern : String) : List String :=
  let cs := Text.trimChars pattern.toList
  let cs := match cs with
    | '.' :: '/' :: rest => rest
    | _ => cs
  ((Text.splitAtChar '/' cs).map String.ofList).filter fun p => p ≠ ""

/-- Whether a relative path matches a pattern. -/
def matchPath (path pattern : String) : Bool :=
  (expand pattern).any fun p => matchSegments (patternSegments p) (pathSegments path)

end Redline.Glob
