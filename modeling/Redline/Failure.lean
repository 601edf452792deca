import Redline.Disk.Basic
import Redline.Json.Basic

/-!
# What can go wrong

A `Failure` is a cause that a caller can act on: it has a code, a kind, a message and details. A
`Mishap` is an error that no operation expects, known by the name of its sort and a message.
`Trouble` is either.
-/

namespace Redline

/-- A cause with a code. -/
inductive Failure where
  | configParse (path reason : String)
  | configInvalid (field value reason : String)
  | configMissing (path : String)
  | fileMissing (path : String)
  | symbolMissing (location : String)
  | patternInvalid (pattern reason : String)
  | editsetMissing (path : String)
  | editsetMalformed (path reason : String)
  | toolMissing (tool executable hint : String)
  | toolFailed (tool : String) (status : Int) (stderr : String)
  | toolOutput (tool line reason : String)
  | backendUnknown (name : String) (available : List String)
  | backendUnsupported (name capability : String)
  | backendDuplicate (name : String)
  | unexpected (reason : String) (details : List (String × Json))
  deriving Repr, BEq, Inhabited

namespace Failure

/-- The number of a cause: its first digit tells the area it belongs to. -/
def code : Failure → Nat
  | configParse _ _ => 2001
  | configInvalid _ _ _ => 2002
  | configMissing _ => 2004
  | fileMissing _ => 3001
  | symbolMissing _ => 3002
  | patternInvalid _ _ => 3003
  | editsetMissing _ => 4001
  | editsetMalformed _ _ => 4002
  | toolMissing _ _ _ => 5001
  | toolFailed _ _ _ => 5002
  | toolOutput _ _ _ => 5003
  | backendUnknown _ _ => 6001
  | backendUnsupported _ _ => 6002
  | backendDuplicate _ => 6003
  | unexpected _ _ => 9001

/-- The name of a cause. -/
def kind : Failure → String
  | configParse _ _ => "CONFIG_PARSE_ERROR"
  | configInvalid _ _ _ => "CONFIG_INVALID_VALUE"
  | configMissing _ => "CONFIG_FILE_NOT_FOUND"
  | fileMissing _ => "FILE_NOT_FOUND"
  | symbolMissing _ => "SYMBOL_NOT_FOUND"
  | patternInvalid _ _ => "INVALID_PATTERN"
  | editsetMissing _ => "EDITSET_NOT_FOUND"
  | editsetMalformed _ _ => "EDITSET_MALFORMED"
  | toolMissing _ _ _ => "TOOL_NOT_INSTALLED"
  | toolFailed _ _ _ => "TOOL_FAILED"
  | toolOutput _ _ _ => "TOOL_OUTPUT_MALFORMED"
  | backendUnknown _ _ => "BACKEND_UNKNOWN"
  | backendUnsupported _ _ => "BACKEND_UNSUPPORTED"
  | backendDuplicate _ => "BACKEND_DUPLICATE"
  | unexpected _ _ => "INTERNAL_ERROR"

/-- The area that a cause belongs to. -/
def area : Failure → String
  | configParse _ _ | configInvalid _ _ _ | configMissing _ => "ConfigError"
  | fileMissing _ | symbolMissing _ | patternInvalid _ _ => "DiscoveryError"
  | editsetMissing _ | editsetMalformed _ _ => "EditsetError"
  | toolMissing _ _ _ | toolFailed _ _ _ | toolOutput _ _ _ => "ToolError"
  | backendUnknown _ _ | backendUnsupported _ _ | backendDuplicate _ => "BackendError"
  | unexpected _ _ => "InternalError"

/-- The message of a cause. -/
def message : Failure → String
  | configParse path reason => "Failed to parse config at " ++ path ++ ": " ++ reason
  | configInvalid field _ reason => "Invalid value for '" ++ field ++ "': " ++ reason
  | configMissing path => "Config file not found: " ++ path
  | fileMissing path => "File not found: " ++ path
  | symbolMissing location => "No symbol found at " ++ location
  | patternInvalid pattern reason => "Invalid pattern " ++ Text.quoted pattern ++ ": " ++ reason
  | editsetMissing path => "Editset file not found: " ++ path
  | editsetMalformed path reason => "Malformed editset at " ++ path ++ ": " ++ reason
  | toolMissing tool executable hint =>
    tool ++ " (" ++ executable ++ ") not found. Install via: " ++ hint
  | toolFailed tool status stderr =>
    tool ++ " exited with status " ++ Text.Numeral.ofInt status ++ ": " ++ Text.trim stderr
  | toolOutput tool _ reason => "Unparseable " ++ tool ++ " output: " ++ reason
  | backendUnknown name _ => "Unknown backend: " ++ name
  | backendUnsupported name capability =>
    "Backend '" ++ name ++ "' does not support " ++ capability
  | backendDuplicate name => "Backend already registered: " ++ name
  | unexpected reason _ => "Internal error: " ++ reason

/-- The particulars of a cause, by name. -/
def details : Failure → List (String × Json)
  | configParse path reason => [("path", .str path), ("reason", .str reason)]
  | configInvalid field value reason =>
    [("field", .str field), ("value", .str value), ("reason", .str reason)]
  | configMissing path | fileMissing path | editsetMissing path => [("path", .str path)]
  | symbolMissing location => [("location", .str location)]
  | patternInvalid pattern reason => [("pattern", .str pattern), ("reason", .str reason)]
  | editsetMalformed path reason => [("path", .str path), ("reason", .str reason)]
  | toolMissing tool executable hint =>
    [("tool", .str tool), ("executable", .str executable), ("install", .str hint)]
  | toolFailed tool status stderr =>
    [("tool", .str tool), ("returncode", .int status), ("stderr", .str stderr)]
  | toolOutput tool line reason =>
    [("tool", .str tool), ("line", .str (String.ofList (line.toList.take 200))),
      ("reason", .str reason)]
  | backendUnknown name available =>
    [("backend", .str name), ("available", .ofStrings available)]
  | backendUnsupported name capability =>
    [("backend", .str name), ("capability", .str capability)]
  | backendDuplicate name => [("backend", .str name)]
  | unexpected _ details => details

/-- Whether a second attempt may succeed; no cause known here goes away by itself. -/
def isRetryable (_ : Failure) : Bool :=
  false

/-- The document that reports a cause. -/
def envelope (f : Failure) : Json :=
  .obj [("error", .str f.message), ("code", .int f.code), ("kind", .str f.kind),
    ("retryable", .bool f.isRetryable), ("details", .obj f.details)]

/-- One line with code, kind and message. -/
def line (f : Failure) : String :=
  "[" ++ toString f.code ++ "] " ++ f.kind ++ ": " ++ f.message

end Failure

/-- An error that no operation expects. -/
inductive Mishap where
  | missingKey (key : String)
  | wrongType (message : String)
  | badValue (message : String)
  | outOfRange
  | overflow (message : String)
  | disk (fault : DiskFault)
  | encoding (fault : Text.Utf8.Fault)
  | settings (message : String)
  /-- A home directory that is not known. -/
  | noHome
  /-- A value of a kind that cannot do what is asked of it. -/
  | lacks (kind ability : String)
  deriving Repr, BEq, Inhabited

namespace Mishap

/-- The name of the sort of an error. -/
def sort : Mishap → String
  | missingKey _ => "KeyError"
  | wrongType _ => "TypeError"
  | badValue _ => "ValueError"
  | outOfRange => "IndexError"
  | overflow _ => "OverflowError"
  | disk (.missing _) | disk (.noPlace _ _) => "FileNotFoundError"
  | disk (.exists_ _) => "FileExistsError"
  | disk (.notFolder _) => "NotADirectoryError"
  | disk (.isFolder _) | disk (.ontoFolder _ _) => "IsADirectoryError"
  | disk (.busy _ _) | disk .full => "OSError"
  | encoding _ => "UnicodeDecodeError"
  | settings _ => "SettingsError"
  | noHome => "RuntimeError"
  | lacks _ _ => "AttributeError"

/-- The message of an error; a missing key is shown in quotes. -/
def message : Mishap → String
  | missingKey key => Text.quoted key
  | wrongType m | badValue m | overflow m | settings m => m
  | outOfRange => "list index out of range"
  | noHome => "Could not determine home directory."
  | lacks kind ability => "'" ++ kind ++ "' object has no attribute '" ++ ability ++ "'"
  | disk f => f.message
  | encoding f => f.message

end Mishap

/-- Anything that stops an operation. -/
inductive Trouble where
  | failure (f : Failure)
  | mishap (m : Mishap)
  deriving Repr, BEq, Inhabited

/-- The outcome of an operation that may stop. -/
abbrev Outcome (α : Type) := Except Trouble α

namespace Trouble

/-- The cause to report: an unexpected error becomes one of its own. -/
def toFailure : Trouble → Failure
  | .failure f => f
  | .mishap m => .unexpected m.message [("type", .str m.sort)]

end Trouble

/-- Stops with a cause. -/
def failWith {α : Type} (f : Failure) : Outcome α :=
  .error (.failure f)

/-- Stops with an unexpected error. -/
def mishapWith {α : Type} (m : Mishap) : Outcome α :=
  .error (.mishap m)

/-- A fault of a disk is unexpected where it is not handled. -/
def onDisk {α : Type} (step : Except DiskFault α) : Outcome α :=
  step.mapError fun f => .mishap (.disk f)

/-- A text that cannot be read is unexpected where it is not handled. -/
def onSourceText {α : Type} (step : Except Disk.SourceFault α) : Outcome α :=
  step.mapError fun
    | .disk f => .mishap (.disk f)
    | .encoding f => .mishap (.encoding f)

end Redline
