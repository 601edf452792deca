import Redline.Json.Basic

/-!
# Log levels and outputs

Each event has a level, and each output takes the events from some level on. `Settings` are the
level of the program and its outputs; an output without a level of its own has that of the program.
-/

namespace Redline.Log

/-- How much an event matters. -/
inductive Level where
  | debug
  | info
  | warning
  | error
  | critical
  deriving DecidableEq, Repr, Inhabited

namespace Level

/-- The levels, the least first. -/
def all : List Level :=
  [debug, info, warning, error, critical]

/-- The place of a level among all. -/
def rank : Level → Nat
  | debug => 0
  | info => 1
  | warning => 2
  | error => 3
  | critical => 4

/-- The name of a level in lines of a log. -/
def word : Level → String
  | debug => "debug"
  | info => "info"
  | warning => "warning"
  | error => "error"
  | critical => "critical"

/-- The name of a level in settings. -/
def name : Level → String
  | debug => "DEBUG"
  | info => "INFO"
  | warning => "WARNING"
  | error => "ERROR"
  | critical => "CRITICAL"

/-- The level that settings name. -/
def ofName? (s : String) : Option Level :=
  all.find? fun level => level.name == s

/-- The level of a word in lines of a log. -/
def ofWord? (s : String) : Option Level :=
  all.find? fun level => level.word == s

end Level

/-- How lines of a log are written. -/
inductive Format where
  | json
  | console
  deriving DecidableEq, Repr, Inhabited

namespace Format

/-- The formats. -/
def all : List Format :=
  [json, console]

/-- The name of a format. -/
def name : Format → String
  | json => "json"
  | console => "console"

/-- The format of a name. -/
def ofName? (s : String) : Option Format :=
  all.find? fun format => format.name == s

end Format

/-- Where lines of a log go. -/
structure Output where
  format : Format
  /-- One of the two standard streams by name, or an absolute path. -/
  destination : String
  level : Option Level
  deriving DecidableEq, Repr, Inhabited

/-- What is logged, and where. -/
structure Settings where
  level : Level
  outputs : List Output
  deriving DecidableEq, Repr, Inhabited

/-- The output unless another one is named: the error stream. -/
def Output.usual : Output :=
  { format := .console, destination := "stderr", level := none }

/-- The settings unless others are named. -/
def Settings.usual : Settings :=
  { level := .warning, outputs := [Output.usual] }

/-- Whether an output is a standard stream. -/
def Output.isStream (o : Output) : Bool :=
  o.destination == "stderr" || o.destination == "stdout"

/-- The document of an output. -/
def Output.toJson (o : Output) : Json :=
  .obj [("format", .str o.format.name), ("destination", .str o.destination),
    ("level", .ofOption (o.level.map Level.name))]

/-- The document of settings. -/
def Settings.toJson (s : Settings) : Json :=
  .obj [("level", .str s.level.name), ("outputs", .arr (s.outputs.map Output.toJson))]

end Redline.Log
