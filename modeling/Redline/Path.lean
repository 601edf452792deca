import Redline.Text.Lines
import Redline.Text.Class

/-!
# Paths

A path is absolute or relative and has parts; empty parts and single dots are dropped when a path is
read, two dots are kept. The text of a path is its parts with slashes between them.
-/

namespace Redline

/-- A path to a file or a directory. -/
structure Path where
  isAbsolute : Bool
  parts : List String
  deriving DecidableEq, Repr, Inhabited

namespace Path

/-- The parts of a path's text. -/
def partsOf (s : String) : List String :=
  (Text.splitOnChar '/' s).filter fun p => p ≠ "" ∧ p ≠ "."

/-- The path that a text names. -/
def ofString (s : String) : Path :=
  { isAbsolute := s.toList.head? == some '/', parts := partsOf s }

/-- The path that a text names, seen from a directory. -/
def join (p : Path) (s : String) : Path :=
  let q := ofString s
  if q.isAbsolute then q else { p with parts := p.parts ++ q.parts }

/-- The path without its last part. -/
def parent (p : Path) : Path :=
  { p with parts := p.parts.dropLast }

/-- The last part. -/
def name (p : Path) : String :=
  p.parts.getLast?.getD ""

/-- The text of a path. -/
def toString (p : Path) : String :=
  if p.isAbsolute then "/" ++ "/".intercalate p.parts
  else if p.parts.isEmpty then "."
  else "/".intercalate p.parts

/-- The ending of a name from its last dot on, with the dot; none for a name that has no dot, starts
with its only one, or ends with one. -/
def suffixOf (name : String) : String :=
  let back := name.toList.reverse
  let ending := back.takeWhile (· != '.')
  let before := (back.dropWhile (· != '.')).drop 1
  if ending.isEmpty ∨ before.isEmpty ∨ before.length + ending.length + 1 ≠ back.length then ""
  else String.ofList ('.' :: ending.reverse)

/-- The ending of the last part. -/
def suffix (p : Path) : String :=
  suffixOf p.name

/-- Parts where two dots take away the part before them; at the top of an absolute path they take
away nothing. -/
def collapse (isAbsolute : Bool) (done : List String) : List String → List String
  | [] => done.reverse
  | ".." :: rest =>
    match done with
    | [] => if isAbsolute then collapse isAbsolute [] rest else collapse isAbsolute [".."] rest
    | ".." :: _ => collapse isAbsolute (".." :: done) rest
    | _ :: more => collapse isAbsolute more rest
  | p :: rest => collapse isAbsolute (p :: done) rest

/-- The path without two dots, as far as its own parts allow. -/
def normalize (p : Path) : Path :=
  { p with parts := collapse p.isAbsolute [] p.parts }

/-- The parts that two lists share at their starts are dropped from both. -/
def dropShared : List String → List String → List String × List String
  | a :: as_, b :: bs => if a = b then dropShared as_ bs else (a :: as_, b :: bs)
  | as_, bs => (as_, bs)

/-- The text of the way from one absolute path to another. -/
def relative (target start : Path) : String :=
  let (down, up) := dropShared target.normalize.parts start.normalize.parts
  let parts := up.map (fun _ => "..") ++ down
  if parts.isEmpty then "." else "/".intercalate parts

end Path

end Redline
