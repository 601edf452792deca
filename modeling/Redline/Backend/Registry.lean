import Redline.Backend.Basic
import Redline.Failure

/-!
# The registry of backends

A registry keeps backends by descending priority, and those of one priority in the order in which
they were registered. No two have one name. Where several backends fit, the first one is taken.
-/

namespace Redline

/-- Backends in order. -/
structure Registry where
  backends : List Backend
  deriving DecidableEq, Repr, Inhabited

namespace Registry

/-- No backends. -/
def empty : Registry :=
  { backends := [] }

/-- The names of the backends, in order. -/
def names (r : Registry) : List String :=
  r.backends.map Backend.name

/-- A backend put in before the first one of lower priority. -/
def insert (b : Backend) : List Backend → List Backend
  | [] => [b]
  | c :: rest => if c.priority < b.priority then b :: c :: rest else c :: insert b rest

/-- Registers a backend whose name is new. -/
def register (r : Registry) (b : Backend) : Outcome Registry :=
  if r.backends.any (·.name == b.name) then failWith (.backendDuplicate b.name)
  else .ok { backends := insert b r.backends }

/-- The backend of a name. -/
def get? (r : Registry) (name : String) : Option Backend :=
  r.backends.find? (·.name == name)

/-- The backend for a file. -/
def forFile? (r : Registry) (path : String) : Option Backend :=
  r.backends.find? (·.handles (Backend.extensionOf path))

/-- The backends that can do something. -/
def withCapability (r : Registry) (c : Capability) : List Backend :=
  r.backends.filter (·.supports c)

/-- The backend of a name, which must have an interface, if one is asked for, and a capability. -/
def require (r : Registry) (name : String) (kind : Option Interface) (c : Capability) :
    Outcome Backend :=
  match r.get? name with
  | none => failWith (.backendUnknown name r.names)
  | some b =>
    if kind.all b.interfaces.contains && b.supports c then .ok b
    else failWith (.backendUnsupported name c.word)

/-- The name of the backend for a pattern: the one that is asked for, else the one for structure if
a variable stands in the pattern, else the one for text. -/
def patternBackend (pattern asked : String) : String :=
  if !asked.isEmpty then asked
  else if pattern.toList.contains '$' then Backend.astGrep.name
  else Backend.ripgrep.name

/-- The backend for a pattern. -/
def selectPattern (r : Registry) (pattern asked : String) : Outcome Backend :=
  r.require (patternBackend pattern asked) (some .pattern) .findPatterns

/-- The backends of the program. -/
def standard : Registry :=
  { backends := [Backend.treeSitter, Backend.astGrep, Backend.ripgrep, Backend.fileRename] }

end Registry

end Redline
