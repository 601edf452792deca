import Redline.Config.Basic
import Redline.Failure
import Redline.Json.Reader
import Redline.Text.Casing
import Redline.Yaml.Basic

/-!
# Settings in the environment

A variable names a setting by the program, its group and its key, with two low lines between them;
case does not matter. A variable may also name a group, and then holds its settings as a JSON
object; variables that name single settings lie over it. A setting that is a list is written in
JSON.
-/

namespace Redline.Config

/-- The parts of a name between pairs of low lines. -/
def nameParts : List Char → List (List Char)
  | [] => [[]]
  | '_' :: '_' :: rest => [] :: nameParts rest
  | c :: rest =>
    match nameParts rest with
    | [] => [[c]]
    | part :: parts => (c :: part) :: parts

/-- What the names of all variables start with. -/
def variableStart : String := "editplane__"

/-- A group of settings: its name, its keys, and those of them that are lists. -/
structure Group where
  name : String
  keys : List String
  lists : List String

/-- The groups of settings. -/
def groups : List Group :=
  [ { name := "logging", keys := ["level", "outputs"], lists := ["outputs"] },
    { name := "tools", keys := ["ripgrep", "ast_grep"], lists := [] },
    { name := "discovery", keys := ["tsconfig", "exclude_dirs", "file_glob"],
      lists := ["exclude_dirs"] },
    { name := "editset", keys := ["output", "file_output"], lists := [] } ]

/-- The variables by their names in small letters; of two with one name the later counts. -/
def settingVariables (environment : List (String × String)) : List (String × String) :=
  environment.foldl (fun vars v => Assoc.put vars (Text.toLower v.1) v.2) []

/-- The value of a variable that is written in JSON. -/
def decoded (group : String) (text : String) : Outcome Yaml :=
  match Json.parse text with
  | .ok j => .ok (Yaml.ofJson j)
  | .error _ =>
    mishapWith (.settings
      ("error parsing value for field \"" ++ group ++ "\" from source \"EnvSettingsSource\""))

/-- A value put in at a path of keys. The mappings on the way are made; where something else stands
on the way nothing changes. -/
def putAt (v : Yaml) : List String → Yaml → Yaml
  | [], _ => v
  | key :: rest, .map entries =>
    .map (Assoc.put entries (.text key)
      (putAt v rest ((entries.lookup (.text key)).getD (.map []))))
  | _ :: _, other => other

/-- The path of keys inside a group that a variable names. -/
def keyPath? (group : Group) (name : String) : Option (List String) :=
  let start := variableStart ++ group.name ++ "__"
  if start.toList.isPrefixOf name.toList then
    some ((nameParts (name.toList.drop start.length)).map String.ofList)
  else none

/-- The settings of a group that variables name one by one. -/
def singleSettings (group : Group) : List (String × String) → Yaml → Outcome Yaml
  | [], settings => .ok settings
  | (name, text) :: rest, settings =>
    match keyPath? group name with
    | none => singleSettings group rest settings
    | some path => do
      let isList : Bool := match path with
        | [key] => group.lists.contains key
        | _ => false
      let v ← if isList && !text.isEmpty then decoded group.name text else .ok (Yaml.text text)
      singleSettings group rest (putAt v path settings)

/-- A key of a group whatever the case of its letters. -/
def groupKey (group : Group) (key : Scalar) : Scalar :=
  match key with
  | .text s =>
    match group.keys.find? (· == Text.toLower s) with
    | some known => .text known
    | none => key
  | key => key

/-- What the environment sets in a group. -/
def groupSettings (vars : List (String × String)) (group : Group) : Outcome (Option Yaml) := do
  let named (v : Yaml) : Yaml :=
    match v with
    | .map entries =>
      .map (entries.foldl (fun es e => Assoc.put es (groupKey group e.1) e.2) [])
    | v => v
  match vars.lookup (variableStart ++ group.name) with
  | some text =>
    let whole ← decoded group.name text
    match whole with
    | .map _ => return some (named (whole.overlay (← singleSettings group vars (.map []))))
    | .scalar .null => return none
    | v => return some v
  | none =>
    let settings ← singleSettings group vars (.map [])
    return if settings.isTruthy then some (named settings) else none

/-- What the environment sets. -/
def ofEnvironment (environment : List (String × String)) : Outcome (List (Scalar × Yaml)) := do
  let vars := settingVariables environment
  let settings ← groups.mapM fun group => do
    return (← groupSettings vars group).map fun v => (Scalar.text group.name, v)
  return settings.filterMap id

end Redline.Config
