import Redline.Backend.Registry
import Redline.Config.Load
import Redline.Log.Sink
import Redline.Project.Basic
import Redline.Search.Tool
import Redline.Symbol.Basic

/-!
# The session of a command

A command is run in surroundings: a machine, a parser, an environment and a clock. Its session is
set up before the request is looked at: the working root, the configuration and the log. A request
then acts on a disk.
-/

namespace Redline.Command

/-- What a command is run in. -/
structure Surroundings where
  host : Search.Host
  parse : Parser
  environment : List (String × String)
  home : String
  now : Moment

/-- What holds during a command. -/
structure Session where
  surroundings : Surroundings
  root : Path
  config : Config
  /-- The project file, from the root. -/
  tsconfig : String

/-- What a command changes: the disk, and the list of commands that it started. -/
structure State where
  disk : Disk
  calls : List (List String)

/-- A step of a command. -/
abbrev Action := ReaderT Session (ExceptT Trouble (StateM State))

namespace Session

/-- The directories that are left out. -/
def excluded (s : Session) : List String :=
  Excludes.effective (some s.config.discovery.excludeDirs)

/-- The session on a root with a configuration, once the project file that is asked for is there and
the log is open. -/
def setUp (s : Surroundings) (root : Path) (tsconfig : Option String) (verbose : Bool)
    (d : Disk) : Outcome (Session × Disk) := do
  let config ← Config.load d
    { shared := some (Config.sharedFile s.home)
      root
      environment := s.environment
      given := []
      home := s.home }
  let missing : Option String := tsconfig.filter fun t => !d.isFile (root.join t)
  match missing with
  | some t => failWith (.configMissing (root.join t).toString)
  | none =>
    let logging := if verbose then { config.logging with level := .debug } else config.logging
    let d ← onDisk ((Log.Journal.ofSettings logging).create d)
    let tsconfig := tsconfig.getD config.discovery.tsconfig
    return ({ surroundings := s, root, config, tsconfig }, d)

end Session

/-- The disk as it is. -/
def theDisk : Action Disk := do
  return (← get).disk

/-- Changes the disk. -/
def change (step : Disk → Except DiskFault Disk) : Action Unit := do
  let s ← get
  let d ← liftM (onDisk (step s.disk))
  set { s with disk := d }

/-- Puts a question to the project. -/
def ask {α : Type} (q : Query α) : Action α := do
  let s ← read
  let d ← theDisk
  let p := Project.load d s.root s.tsconfig s.excluded s.surroundings.parse
  liftM (((q.run d).run).run p).1

/-- Searches with a tool. -/
def search {α : Type} (tool : Search.Tool) (q : Search.Step α) : Action α := do
  let s ← read
  let (o, x) := ((q.run s.surroundings.host).run).run { tool, asked := 0, calls := [] }
  modify fun t => { t with calls := t.calls ++ x.calls }
  liftM o

/-- Stops unless symbols of a file can be asked for; without a file, of any. -/
def needSymbols (c : Capability) (file : Option String) : Outcome Unit :=
  match file with
  | none =>
    if (Registry.standard.withCapability c).any (·.interfaces.contains .symbol) then .ok ()
    else failWith (.backendUnsupported "*" c.word)
  | some file =>
    match Registry.standard.forFile? file with
    | some b =>
      if b.interfaces.contains .symbol && b.supports c then .ok ()
      else failWith (.backendUnsupported b.name c.word)
    | none => failWith (.backendUnsupported file c.word)

/-- Stops unless symbols of the file of a key can be asked for. A text that is no key has no
file. -/
def needSymbolsOfKey (c : Capability) (key : String) : Outcome Unit :=
  needSymbols c (match SymbolKey.ofText key with
    | .ok k => some k.file
    | .error _ => none)

/-- Where a proposal is stored: the path that is given, or one under the root. -/
def outputPath (given : Option String) (usual : String) : Action Path := do
  match given.filter (!·.isEmpty) with
  | some p => return Path.ofString p
  | none => return (← read).root.join usual

end Redline.Command
