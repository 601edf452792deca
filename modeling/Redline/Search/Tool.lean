import Redline.Failure
import Redline.Json.Reader
import Redline.Position
import Redline.Record
import Redline.Text.Casing

/-!
# External tools

A search is done by another program. Which program that is, is found out once: of the configured
executable and its fallbacks, the first that is there and, if the tool has a mark, whose version
text shows it. Without a mark the configured executable is taken even if it is not found.

A `Host` answers what a search asks of the machine. Its answers may differ from one question to the
next, so they depend on the number of questions before.
-/

namespace Redline.Search

/-- The outcome of a program that was run. -/
structure Execution where
  status : Int
  stdout : Bytes
  stderr : Bytes
  deriving DecidableEq, Repr, Inhabited

/-- The machine: where executables are found, and what becomes of commands, none for one that cannot
be started. -/
structure Host where
  locate : Nat → String → Option String
  execute : Nat → List String → Option Execution
  deriving Inhabited

/-- An external tool. -/
structure Tool where
  name : String
  executable : String
  hint : String
  fallbacks : List String
  mark : Option String
  /-- The executable that was found. -/
  resolved : Option String
  deriving DecidableEq, Repr, Inhabited

/-- The tool that searches for text. -/
def ripgrep (executable : String) : Tool :=
  { name := "ripgrep"
    executable
    hint := "brew install ripgrep | apt install ripgrep | cargo install ripgrep"
    fallbacks := []
    mark := none
    resolved := none }

/-- The tool that searches for structure. Its short name is also that of other programs. -/
def astGrep (executable : String) : Tool :=
  { name := "ast-grep"
    executable
    hint := "brew install ast-grep | npm install -g @ast-grep/cli | cargo install ast-grep"
    fallbacks := ["ast-grep", "sg"].filter (· != executable)
    mark := some "ast-grep"
    resolved := none }

/-- What a search keeps: the tool, the number of questions asked, and the commands started. -/
structure Session where
  tool : Tool
  asked : Nat
  calls : List (List String)
  deriving DecidableEq, Repr, Inhabited

/-- A step of a search on a machine. -/
abbrev Step := ReaderT Host (ExceptT Trouble (StateM Session))

section

variable {α β : Type} {f : Step α} {g : α → Step β} {host : Host} {s s' : Session}

/-- A step goes on from what the step before it gave. -/
theorem bind_of_ok {y : α} (h : f host s = (.ok y, s')) : (f >>= g) host s = g y host s' := by
  simp only [bind, ReaderT.bind, ExceptT.bind, ExceptT.mk, StateT.bind, h, ExceptT.bindCont]

/-- What stops a step stops those after it. -/
theorem bind_of_error {t : Trouble} (h : f host s = (.error t, s')) :
    (f >>= g) host s = (.error t, s') := by
  simp only [bind, ReaderT.bind, ExceptT.bind, ExceptT.mk, StateT.bind, h, ExceptT.bindCont]
  rfl

end

/-- Asks where an executable is; an empty answer counts as none. -/
def locate (name : String) : Step (Option String) := do
  let s ← get
  set { s with asked := s.asked + 1 }
  return ((← read).locate s.asked name).filter (!·.isEmpty)

/-- Runs a command. -/
def execute (command : List String) : Step (Option Execution) := do
  let s ← get
  set { s with asked := s.asked + 1, calls := s.calls ++ [command] }
  return (← read).execute s.asked command

/-- Whether the version text of an executable shows the mark of the tool. -/
def identifies (path : String) : Step Bool := do
  match (← get).tool.mark with
  | none => return true
  | some mark =>
    match ← execute [path, "--version"] with
    | none => return false
    | some x =>
      let banner := Text.toLower (Text.Utf8.decodeLossy (x.stdout ++ x.stderr))
      return Record.isWithin mark.toList banner.toList

/-- The first of some executables that is the tool. -/
def firstFitting : List String → Step (Option String)
  | [] => return none
  | c :: rest => do
    match ← locate c with
    | none => firstFitting rest
    | some path => if ← identifies path then return some c else firstFitting rest

/-- Stops because there is no such executable. -/
def missing {α : Type} (tool : Tool) (executable : String) : Step α :=
  throw (.failure (.toolMissing tool.name executable tool.hint))

/-- The executable of the tool. -/
def resolve : Step String := do
  let tool := (← get).tool
  match tool.resolved with
  | some executable => return executable
  | none =>
    match ← firstFitting (tool.executable :: tool.fallbacks) with
    | some executable => do
      modify fun s => { s with tool := { s.tool with resolved := some executable } }
      return executable
    | none =>
      if tool.mark.isSome then missing tool tool.executable else return tool.executable

/-- Runs the tool. -/
def run (args : List String) : Step Execution := do
  let executable ← resolve
  match ← execute (executable :: args) with
  | some x => return x
  | none => missing (← get).tool executable

/-- The lines of an output that are not blank. -/
def recordLines (output : String) : List String :=
  (Text.logicalLines output).filter fun l => !(l.toList.all Text.isBlank)

/-- Reads a record that a tool wrote on a line. -/
def parseRecord (tool line : String) : Outcome Json :=
  match Json.parse line with
  | .ok j => .ok j
  | .error reason => failWith (.toolOutput tool line reason)

/-- Something expected of a record that is a mishap when it is not there. -/
def onRecord {α : Type} (e : Except Mishap α) : Outcome α :=
  e.mapError .mishap

/-- The number of characters before an octet; null stands for the end. -/
def charsBefore (bytes : Bytes) (j : Json) : Except Mishap Int := do
  match ← Record.position? j with
  | some n => return Position.charOffset bytes n
  | none => return Position.charOffset bytes bytes.length

end Redline.Search
