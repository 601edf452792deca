import Redline.Disk.Walk
import Redline.Failure
import Redline.Symbol.Index
import Redline.Text.Casing

/-!
# Projects

A project is the set of script files below the directory of its configuration file. What was read is
kept until `reset`: the list of files, the files with their trees, and the index. A query takes the
disk and the project and gives the project back with what it kept, also when it stops.
-/

namespace Redline

/-- The way files are parsed. -/
abbrev Parser := Grammar → Bytes → Tree

/-- A project. `root` is the directory that paths are relative to. -/
structure Project where
  root : Path
  sourceRoot : Path
  exclude : List String
  parse : Parser
  files : Option (List String)
  sources : List (String × Source)
  index : Option Index
  deriving Inhabited

/-- A question to a project on a disk. -/
abbrev Query := ReaderT Disk (ExceptT Trouble (StateM Project))

namespace Project

/-- The pattern of the paths of script files. -/
def sourceGlob : String :=
  "**/*.\x7bts,tsx,mts,cts,js,jsx,mjs,cjs\x7d"

/-- A project with nothing read yet: in the directory of the configuration file if it is there. -/
def load (d : Disk) (root : Path) (config : String) (exclude : List String) (parse : Parser) :
    Project :=
  let place := root.join config
  { root
    sourceRoot := if d.isFile place then place.parent else root
    exclude
    parse
    files := none
    sources := []
    index := none }

/-- The project with nothing read. -/
def reset (p : Project) : Project :=
  { p with files := none, sources := [], index := none }

/-- The script files on a disk, by their paths from the root. -/
def discover (p : Project) (d : Disk) : List String :=
  (d.walk { pattern := sourceGlob, exclude := p.exclude, includeHidden := false }
    p.sourceRoot).map fun f => (p.sourceRoot.join f).relative p.root

/-- The script files of the project. -/
def listFiles : Query (List String) := do
  let p ← get
  match p.files with
  | some files => return files
  | none => do
    let files := p.discover (← read)
    set { p with files := some files }
    return files

/-- A path as users write it, in the form of this program. -/
def tidy (file : String) : String :=
  match file.toList.map fun c => if c = '\\' then '/' else c with
  | '.' :: '/' :: rest => String.ofList rest
  | cs => String.ofList cs

/-- Reads and parses a file. -/
def parseFile (p : Project) (d : Disk) (file : String) : Outcome Source := do
  let path := p.root.join file
  let content ← onDisk (d.read path)
  let grammar := (Grammar.ofSuffix? (Text.toLower path.suffix)).getD .typescript
  return Source.make file content (p.parse grammar content)

/-- A source file, if it is in the project. -/
def source? (name : String) : Query (Option Source) := do
  let file := tidy name
  match (← get).sources.lookup file with
  | some s => return some s
  | none =>
    if (← listFiles).contains file then
      let p ← get
      let s ← liftM (p.parseFile (← read) file)
      set { p with sources := (file, s) :: p.sources }
      return some s
    else return none

/-- The index of the project. -/
def theIndex : Query Index := do
  match (← get).index with
  | some x => return x
  | none =>
    let sources ← (← listFiles).filterMapM source?
    let x := Index.ofSources sources
    modify fun p => { p with index := some x }
    return x

end Project

end Redline
