import Redline.Command.Answer
import Redline.Json.Printer

/-!
# Running a command line

A command line that is understood prints one document: the answer, or a report of what went wrong
with the status one. One that is not understood prints nothing here and has the status two. While
the session is set up only causes are reported; another error escapes.
-/

namespace Redline.Command

/-- What a command leaves behind besides the disk. -/
structure Reply where
  status : Nat
  /-- The text on the standard output. -/
  output : String
  /-- An error that is not reported. -/
  escaped : Option Mishap
  deriving Repr, Inhabited

/-- The outcome of a command line. -/
structure Outcome where
  reply : Reply
  disk : Disk
  calls : List (List String)

/-- The version of the program. -/
def versionLine : String := "epl, version 0.1.0\n"

/-- What the program can be asked for. -/
def helpText : String :=
  "Usage: epl [OPTIONS] COMMAND [ARGS]...\n\nCommands:\n"
    ++ String.join (forms.map fun f => "  " ++ f.name ++ "  " ++ f.summary ++ "\n")

/-- What a request can be given. -/
def Form.helpText (f : Form) : String :=
  let operands := f.needed ++ f.optional.map fun name => "[" ++ name ++ "]"
  "Usage: epl " ++ " ".intercalate (f.name :: "[OPTIONS]" :: operands) ++ "\n\n  " ++ f.summary
    ++ "\n\nOptions:\n"
    ++ String.join ((f.switches ++ [helpFlag]).map fun s =>
      "  " ++ ", ".intercalate s.spellings ++ (if s.takesValue then " TEXT" else "") ++ "\n")

/-- A text is printed. -/
def displays (text : String) : Reply :=
  { status := 0, output := text, escaped := none }

/-- The command line is not understood. -/
def misused : Reply :=
  { status := 2, output := "", escaped := none }

/-- A document is printed. -/
def prints (status : Nat) (j : Json) : Reply :=
  { status, output := j.pretty ++ "\n", escaped := none }

/-- Something went wrong, and is reported. -/
def reports (f : Failure) : Reply :=
  prints 1 f.envelope

/-- An error escapes. -/
def escapes (m : Mishap) : Reply :=
  { status := 1, output := "", escaped := some m }

/-- The working root: a directory that is there. -/
def workingRoot? (d : Disk) (root : Option String) : Option Path :=
  match root with
  | none => some { isAbsolute := true, parts := d.working }
  | some text =>
    let p := Path.ofString text
    match d.find p with
    | .at place =>
      if !text.isEmpty && d.isFolder p then some { isAbsolute := true, parts := place } else none
    | _ => none

/-- Runs a request. -/
def runRequest (s : Session) (r : Request) (d : Disk) : Outcome :=
  let (answer, t) := ((r.answer.run s).run).run { disk := d, calls := [] }
  { reply := match answer with
      | .ok j => prints 0 j
      | .error t => reports t.toFailure
    disk := t.disk
    calls := t.calls }

/-- Runs a command line. -/
def run (s : Surroundings) (d : Disk) (args : List String) : Outcome :=
  let still (r : Reply) : Outcome := { reply := r, disk := d, calls := [] }
  match Line.read args with
  | .misuse => still misused
  | .help => still (displays helpText)
  | .version => still (displays versionLine)
  | .done line =>
    match workingRoot? d line.preamble.root, form? line.name with
    | none, _ => still misused
    | some _, none =>
      match looksLikeOption line.name, Line.read (line.name :: line.rest) with
      | true, .help => still (displays helpText)
      | true, .version => still (displays versionLine)
      | _, _ => still misused
    | some root, some form =>
      match Session.setUp s root line.preamble.tsconfig line.preamble.verbose d with
      | .error (.failure f) => still (reports f)
      | .error (.mishap m) => still (escapes m)
      | .ok (session, d) =>
        match form.read line.rest with
        | .misuse | .version => { reply := misused, disk := d, calls := [] }
        | .help => { reply := displays form.helpText, disk := d, calls := [] }
        | .done r => runRequest session r d

end Redline.Command
