import Redline.Config.Basic
import Redline.Failure
import Redline.Yaml.Basic

/-!
# Checking settings

`Config.ofYaml` makes a configuration of a mapping. What is not set has its usual value. The first
setting that does not fit is reported with its path, its value and the reason; the settings are
looked at in the order of the configuration, and after them the top-level keys that mean nothing.
Other unknown keys are passed over.
-/

namespace Redline.Config

/-- Stops at a setting that does not fit. -/
def refuse {α : Type} (path : List String) (v : Yaml) (reason : String) : Outcome α :=
  failWith (.configInvalid (".".intercalate path) v.shown reason)

/-- A setting that is a text. -/
def checkText (path : List String) : Yaml → Outcome String
  | .scalar (.text s) => .ok s
  | v => refuse path v "Input should be a valid string"

/-- Items checked one by one, each under its number. -/
def checkItems {α : Type} (check : List String → Yaml → Outcome α) (path : List String)
    (number : Nat) : List Yaml → Outcome (List α)
  | [] => .ok []
  | v :: rest => do
    let a ← check (path ++ [Text.Numeral.ofInt number]) v
    return a :: (← checkItems check path (number + 1) rest)

/-- A setting that is a list. -/
def checkList {α : Type} (check : List String → Yaml → Outcome α) (path : List String) :
    Yaml → Outcome (List α)
  | .seq items => checkItems check path 0 items
  | v => refuse path v "Input should be a valid list"

/-- A setting that is one of some words. -/
def checkWord {α : Type} (ofName? : String → Option α) (reason : String) (path : List String)
    (v : Yaml) : Outcome α :=
  match v with
  | .scalar (.text s) =>
    match ofName? s with
    | some a => .ok a
    | none => refuse path v reason
  | v => refuse path v reason

/-- Words in quotes, with "or" before the last one. -/
def choices : List String → String
  | [] => ""
  | [a] => Text.quoted a
  | [a, b] => Text.quoted a ++ " or " ++ Text.quoted b
  | a :: rest => Text.quoted a ++ ", " ++ choices rest

/-- A log level. -/
def checkLevel : List String → Yaml → Outcome Log.Level :=
  checkWord Log.Level.ofName? ("Input should be " ++ choices (Log.Level.all.map Log.Level.name))

/-- A log format. -/
def checkFormat : List String → Yaml → Outcome Log.Format :=
  checkWord Log.Format.ofName? ("Input should be " ++ choices (Log.Format.all.map Log.Format.name))

/-- A group of settings. -/
def checkGroup (kind : String) (path : List String) : Yaml → Outcome (String → Option Yaml)
  | .map entries => .ok fun key => entries.lookup (.text key)
  | v => refuse path v ("Input should be a valid dictionary or instance of " ++ kind)

/-- A setting of a group, or its usual value. -/
def checkPart {α : Type} (check : List String → Yaml → Outcome α) (path : List String)
    (group : String → Option Yaml) (key : String) (usual : α) : Outcome α :=
  match group key with
  | some v => check (path ++ [key]) v
  | none => .ok usual

/-- The text of an absolute path; two slashes at the start are kept, other empty parts are not. -/
def absoluteText (s : String) (p : Path) : String :=
  match s.toList with
  | '/' :: '/' :: c :: _ => if c = '/' then p.toString else "/" ++ p.toString
  | ['/', '/'] => "//"
  | _ => p.toString

/-- The destination of an output: a standard stream or an absolute path. A tilde stands for the home
directory; that of another user is not known. -/
def checkDestination (home : String) (path : List String) (v : Yaml) : Outcome String := do
  let s ← checkText path v
  if s = "stderr" ∨ s = "stdout" then return s
  else
    let p := Path.ofString s
    match p.isAbsolute, p.parts with
    | true, _ => return absoluteText s p
    | false, "~" :: rest =>
      let h := Path.ofString home
      return Path.toString { h with parts := h.parts ++ rest }
    | false, first :: _ =>
      if first.toList.head? = some '~' then mishapWith .noHome
      else refuse path v ("Value error, File destination must be absolute path: " ++ s)
    | false, [] => refuse path v ("Value error, File destination must be absolute path: " ++ s)

/-- A level, or null for none. -/
def checkOwnLevel (path : List String) : Yaml → Outcome (Option Log.Level)
  | .scalar .null => .ok none
  | v => (checkLevel path v).map some

/-- An output of the log. -/
def checkOutput (home : String) (path : List String) (v : Yaml) : Outcome Log.Output := do
  let group ← checkGroup "LogOutputConfig" path v
  let usual := Log.Output.usual
  return {
    format := ← checkPart checkFormat path group "format" usual.format
    destination := ← checkPart (checkDestination home) path group "destination" usual.destination
    level := ← checkPart checkOwnLevel path group "level" usual.level }

/-- What is logged, and where. -/
def checkLogging (home : String) (path : List String) (v : Yaml) : Outcome Log.Settings := do
  let group ← checkGroup "LoggingConfig" path v
  let usual := Log.Settings.usual
  return {
    level := ← checkPart checkLevel path group "level" usual.level
    outputs := ← checkPart (checkList (checkOutput home)) path group "outputs" usual.outputs }

/-- The executables of the search tools. -/
def checkTools (path : List String) (v : Yaml) : Outcome ToolSettings := do
  let group ← checkGroup "ToolsConfig" path v
  let usual : ToolSettings := {}
  return {
    ripgrep := ← checkPart checkText path group "ripgrep" usual.ripgrep
    astGrep := ← checkPart checkText path group "ast_grep" usual.astGrep }

/-- Where sources are looked for. -/
def checkDiscovery (path : List String) (v : Yaml) : Outcome DiscoverySettings := do
  let group ← checkGroup "DiscoveryConfig" path v
  let usual : DiscoverySettings := {}
  return {
    tsconfig := ← checkPart checkText path group "tsconfig" usual.tsconfig
    excludeDirs := ← checkPart (checkList checkText) path group "exclude_dirs" usual.excludeDirs
    fileGlob := ← checkPart checkText path group "file_glob" usual.fileGlob }

/-- Where proposals are stored. -/
def checkStorage (path : List String) (v : Yaml) : Outcome StorageSettings := do
  let group ← checkGroup "EditsetConfig" path v
  let usual : StorageSettings := {}
  return {
    output := ← checkPart checkText path group "output" usual.output
    fileOutput := ← checkPart checkText path group "file_output" usual.fileOutput }

/-- The top-level keys. -/
def topLevelKeys : List String :=
  ["logging", "tools", "discovery", "editset"]

/-- Stops at the first top-level key that means nothing. -/
def checkKeys : List (Scalar × Yaml) → Outcome Unit
  | [] => .ok ()
  | (key, v) :: rest =>
    if topLevelKeys.contains key.shown then checkKeys rest
    else refuse [key.shown] v "Extra inputs are not permitted"

/-- Whether a key is a text. -/
def isTextKey (entry : Scalar × Yaml) : Bool :=
  match entry.1 with
  | .text _ => true
  | _ => false

/-- The configuration that a mapping describes; every top-level key must be a text. -/
def ofEntries (home : String) (entries : List (Scalar × Yaml)) : Outcome Config := do
  if !entries.all isTextKey then mishapWith (.wrongType "keywords must be strings")
  else
    let group (key : String) : Option Yaml := entries.lookup (.text key)
    let usual : Config := {}
    let config : Config := {
      logging := ← checkPart (checkLogging home) [] group "logging" usual.logging
      tools := ← checkPart checkTools [] group "tools" usual.tools
      discovery := ← checkPart checkDiscovery [] group "discovery" usual.discovery
      editset := ← checkPart checkStorage [] group "editset" usual.editset }
    checkKeys entries
    return config

end Redline.Config
