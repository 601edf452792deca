import Redline.Text.Lines

/-!
# Alternatives in braces

`expand` lists the texts that a pattern with groups such as `\x7ba,b\x7d` stands for, in the order
of the choices from left to right. A group needs at least two alternatives; any other brace stands
for itself.
-/

namespace Redline.Glob

/-- The parts of a group's body between commas that are in no inner group. `depth` counts the open
inner groups and `part` holds the current part, latest character first. -/
def alternatives (depth : Int) (part : List Char) : List Char → List (List Char)
  | [] => [part.reverse]
  | c :: rest =>
    if c = ',' ∧ depth = 0 then part.reverse :: alternatives depth [] rest
    else if c = '\x7b' then alternatives (depth + 1) (c :: part) rest
    else if c = '\x7d' then alternatives (depth - 1) (c :: part) rest
    else alternatives depth (c :: part) rest

/-- A group with the text on either side of it. -/
structure Group where
  before : List Char
  options : List (List Char)
  after : List Char
  deriving DecidableEq, Repr

mutual

/-- The first outermost group with at least two alternatives; `before` holds the text so far, latest
character first. -/
def findGroup (before : List Char) : List Char → Option Group
  | [] => none
  | c :: rest => if c = '\x7b' then inGroup before 0 [] rest else findGroup (c :: before) rest

/-- The same inside a group, with `depth` inner groups open and the body so far, latest character
first. -/
def inGroup (before : List Char) (depth : Nat) (body : List Char) : List Char → Option Group
  | [] => none
  | c :: rest =>
    if c = '\x7b' then inGroup before (depth + 1) (c :: body) rest
    else if c = '\x7d' then
      match depth with
      | depth + 1 => inGroup before depth (c :: body) rest
      | 0 =>
        let options := alternatives 0 [] body.reverse
        if options.length < 2 then findGroup ('\x7d' :: body ++ '\x7b' :: before) rest
        else some { before := before.reverse, options, after := rest }
    else inGroup before depth (c :: body) rest

end

/-- The texts that a pattern stands for. An expansion is shorter than the pattern by a pair of
braces, so the length bounds the steps. -/
def expandChars : Nat → List Char → List (List Char)
  | 0, cs => [cs]
  | steps + 1, cs =>
    match findGroup [] cs with
    | none => [cs]
    | some g => g.options.flatMap fun o => expandChars steps (g.before ++ o ++ g.after)

/-- The texts that a pattern stands for. -/
def expand (pattern : String) : List String :=
  (expandChars pattern.length pattern.toList).map String.ofList

end Redline.Glob
