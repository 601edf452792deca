import Redline.Log.Basic
import Redline.Text.Lines
import Redline.Yaml.Basic

/-!
# Lines of a log

An event becomes an entry: its text and level with what was said about it, by name. An entry is
written as a JSON object or as a line for the console. The time of an event stands in front of the
line and is no part of it here.
-/

namespace Redline.Log

/-- Something that happened. -/
structure Event where
  level : Level
  text : String
  /-- Who tells it. -/
  logger : Option String
  fields : List (String × Json)
  deriving Repr, Inhabited

/-- What is known about an event, by name. The run to which it belongs is told by its id. -/
def Event.entry (e : Event) (run : Option String) : List (String × Json) :=
  let members := match e.logger with
    | some name => [("logger_name", Json.str name)]
    | none => []
  let members := e.fields.foldl (fun ms f => Assoc.put ms f.1 f.2) members
  let members := Assoc.put (Assoc.put members "event" (.str e.text)) "level" (.str e.level.word)
  match run with
  | some id => Assoc.put members "run_id" (.str id)
  | none => members

/-- Whether a character makes a text stand in quotes on the console. -/
def needsQuotes (c : Char) : Bool :=
  [' ', '\t', '=', '\r', '\n', '"', '\''].contains c

/-- A value on the console. -/
def consoleValue : Json → String
  | .str s => if s.toList.any needsQuotes then Text.quoted s else s
  | j => (Yaml.ofJson j).inspected

/-- What the console shows in front of the other members of an entry, in order: the level, the event
and who tells it. -/
def leading (members : List (String × Json)) : List String :=
  let part (key before after : String) : List String :=
    match members.lookup key with
    | some v => [before ++ (Yaml.ofJson v).shown ++ after]
    | none => []
  part "level" "[" "]" ++ part "event" "" "" ++ part "logger" "[" "]" ++ part "logger_name" "[" "]"

/-- The members that the console shows on lines of their own, or not at all. -/
def apart : List String := ["stack", "exception", "exc_info"]

/-- The members that the console shows without their names. -/
def unnamed : List String := ["level", "event", "logger", "logger_name"]

/-- The text of an entry on the console; it may hold several lines. -/
def consoleText (members : List (String × Json)) : String :=
  let others := members.filter fun m => !apart.contains m.1 && !unnamed.contains m.1
  let others := others.mergeSort fun a b => decide (a.1 ≤ b.1)
  let parts := leading members ++ others.map fun m => m.1 ++ "=" ++ consoleValue m.2
  let line := " ".intercalate (parts.filter (!·.isEmpty))
  let line := String.ofList (line.toList.reverse.dropWhile (· == ' ')).reverse
  let lookup (key : String) : Option String :=
    match members.lookup key with
    | some (.str s) => some s
    | _ => none
  let stack := match lookup "stack" with
    | some s =>
      "\n" ++ s ++ if (lookup "exception").isSome then
        "\n\n" ++ String.ofList (List.replicate 79 '=') ++ "\n" else ""
    | none => ""
  let exception := match lookup "exception" with
    | some s => "\n" ++ s
    | none => ""
  line ++ stack ++ exception

/-- The lines of an entry in a format: an object, or texts. -/
def entryLines (format : Format) (members : List (String × Json)) : List Json :=
  match format with
  | .json => [.obj members]
  | .console => (Text.splitOnChar '\n' (consoleText members)).map .str

end Redline.Log
