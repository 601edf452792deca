/-!
# Matching one segment of a path

In a segment a star covers any characters, a question mark one, and a set in brackets one of its
members, or one that is not a member after an exclamation mark. Case counts.
-/

namespace Redline.Glob

/-- A member of a set: a range of characters, often of one. -/
structure Range where
  low : Char
  high : Char
  deriving DecidableEq, Repr

/-- A unit of a segment pattern. -/
inductive Unit where
  | star
  | anyChar
  | char (c : Char)
  | set (negated : Bool) (members : List Range)
  deriving DecidableEq, Repr

/-- A character of a set's body, or a hyphen between the ends of a range. -/
inductive Mark where
  | char (c : Char)
  | to
  deriving DecidableEq, Repr

/-- The pieces of a body between the hyphens that make ranges. A hyphen makes a range unless it
stands first, or less than two characters after the last one that does; `wait` counts the characters
before the next hyphen may. -/
def pieces (wait : Nat) (piece : List Char) : List Char → List (List Char)
  | [] => [piece.reverse]
  | c :: rest =>
    match wait with
    | 0 => if c = '-' then piece.reverse :: pieces 2 [] rest else pieces 0 (c :: piece) rest
    | wait + 1 => pieces wait (c :: piece) rest

/-- A hyphen at the very end belongs to the piece before it. -/
def closeLast : List (List Char) → List (List Char)
  | [] => []
  | [p, []] => [p ++ ['-']]
  | p :: rest => p :: closeLast rest

/-- Joins two pieces whose range would be empty, without the ends of that range; works from the last
piece back. -/
def dropEmptyRanges : List (List Char) → List (List Char)
  | [] => []
  | p :: rest =>
    match dropEmptyRanges rest with
    | [] => [p]
    | q :: more =>
      match p.getLast?, q.head? with
      | some low, some high => if high < low then (p.dropLast ++ q.tail) :: more else p :: q :: more
      | _, _ => p :: q :: more

/-- The pieces as one sequence with marks between them. -/
def marks : List (List Char) → List Mark
  | [] => []
  | [p] => p.map .char
  | p :: rest => p.map .char ++ .to :: marks rest

/-- The members that a sequence of marks lists. -/
def members : List Mark → List Range
  | [] => []
  | .char a :: .to :: .char b :: rest => ⟨a, b⟩ :: members rest
  | .char a :: rest => ⟨a, a⟩ :: members rest
  | .to :: rest => ⟨'-', '-'⟩ :: members rest

/-- The set with a body. An exclamation mark that stands first once empty ranges are dropped negates
it; one that starts the body counts as a character before the first hyphen may make a range. -/
def setOf (body : List Char) : Unit :=
  let wait := if body.head? = some '!' then 2 else 1
  match marks (dropEmptyRanges (closeLast (pieces wait [] body))) with
  | .char '!' :: rest => .set true (members rest)
  | listed => .set false (members listed)

/-- The body of a set whose opening bracket has been taken, and the rest after its closing one. A
closing bracket that comes first is a member. -/
def setBody (cs : List Char) : Option (List Char × List Char) :=
  let (mark, rest) := match cs with
    | '!' :: rest => (['!'], rest)
    | _ => ([], cs)
  let (first, rest) := match rest with
    | ']' :: rest => ([']'], rest)
    | _ => ([], rest)
  match rest.dropWhile (· != ']') with
  | [] => none
  | _ :: after => some (mark ++ first ++ rest.takeWhile (· != ']'), after)

/-- The units of a segment pattern. Each takes a character, so the length bounds the steps. -/
def units : Nat → List Char → List Unit
  | 0, _ => []
  | steps + 1, cs =>
    match cs with
    | [] => []
    | '*' :: rest => .star :: units steps rest
    | '?' :: rest => .anyChar :: units steps rest
    | '[' :: rest =>
      match setBody rest with
      | some (body, after) => setOf body :: units steps after
      | none => .char '[' :: units steps rest
    | c :: rest => .char c :: units steps rest

/-- Whether a unit other than a star covers a character. -/
def Unit.covers (c : Char) : Unit → Bool
  | .star => false
  | .anyChar => true
  | .char x => x == c
  | .set negated ranges => (ranges.any fun r => r.low ≤ c && c ≤ r.high) != negated

/-- Every end part of a list, the longest first. -/
def endParts {α : Type} : List α → List (List α)
  | [] => [[]]
  | x :: xs => (x :: xs) :: endParts xs

/-- Whether units cover a whole text. -/
def matchUnits : List Unit → List Char → Bool
  | [], cs => cs.isEmpty
  | .star :: us, cs => (endParts cs).any (matchUnits us)
  | u :: us, cs =>
    match cs with
    | [] => false
    | c :: rest => u.covers c && matchUnits us rest

/-- Whether a segment of a path matches a segment of a pattern. -/
def matchSegment (pattern segment : String) : Bool :=
  matchUnits (units pattern.length pattern.toList) segment.toList

end Redline.Glob
