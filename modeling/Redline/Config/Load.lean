import Redline.Config.Check
import Redline.Config.Environment
import Redline.Store
import Redline.Yaml.Reader

/-!
# Loading the configuration

The configuration is laid together from four sources: a file for all repositories, the file of the
repository, the environment, and what the caller sets. A later source lies over the ones before it,
setting by setting.
-/

namespace Redline.Config

/-- Where settings come from. -/
structure Sources where
  /-- The file for all repositories, if there may be one. -/
  shared : Option Path
  /-- The root of the repository. -/
  root : Path
  environment : List (String × String)
  /-- What the caller sets. -/
  given : List (Scalar × Yaml)
  /-- The home directory of the user. -/
  home : String

/-- The file for all repositories of a user. -/
def sharedFile (home : String) : Path :=
  (Path.ofString home).join ".config/editplane/config.yaml"

/-- The path of a repository's file from its root. -/
def fileOf (root : Path) : Path :=
  (root.join ".editplane").join "config.yaml"

/-- Why a file that is no YAML document cannot be read. -/
def notYaml : String := "not a YAML document"

/-- The settings of a file; no file and an empty document set nothing. A number or a date without a
value is unexpected. -/
def readFile (d : Disk) (p : Path) : Outcome (List (Scalar × Yaml)) := do
  if !d.exists_ p then return []
  else
    let text ← onSourceText (Store.readLines d p)
    match Yaml.ofText? text with
    | none => failWith (.configParse p.toString notYaml)
    | some (.error reason) => mishapWith (.badValue reason)
    | some (.ok v) =>
      if !v.isTruthy then return []
      else
        match v with
        | .map entries => return entries
        | _ => failWith (.configParse p.toString "top-level value must be a mapping")

/-- The settings of all sources. -/
def settings (d : Disk) (s : Sources) : Outcome (List (Scalar × Yaml)) := do
  let shared ← match s.shared with
    | some p => readFile d p
    | none => .ok []
  let own ← readFile d (fileOf s.root)
  let environment ← ofEnvironment s.environment
  return Yaml.overlayEntries (Yaml.overlayEntries shared own)
    (Yaml.overlayEntries environment s.given)

/-- The configuration. -/
def load (d : Disk) (s : Sources) : Outcome Config := do
  ofEntries s.home (← settings d s)

end Redline.Config
