import Redline.Assoc
import Redline.Path
import Redline.Text.Quoted
import Redline.Text.Utf8

/-!
# A disk

The files and directories that a program sees, as a value: every directory that holds something is
listed, and a path is looked up part by part from the top, so that a missing part, a file in the
middle of a path and two dots behave as on a real disk. Operations give the changed disk or a fault.
-/

namespace Redline

/-- What stands at a path. -/
inductive Entry where
  | file (content : Bytes)
  | folder
  deriving DecidableEq, Repr, Inhabited

/-- Files and directories by their absolute paths, each once, and the working directory. The top
directory is always there. -/
structure Disk where
  working : List String
  entries : List (List String × Entry)
  deriving Repr, Inhabited

/-- Why an operation on a disk failed. -/
inductive DiskFault where
  | missing (path : Path)
  | exists_ (path : Path)
  | notFolder (path : Path)
  | isFolder (path : Path)
  /-- A file cannot be moved onto a directory. -/
  | ontoFolder (source target : Path)
  /-- A move whose target has no place to be. -/
  | noPlace (source target : Path)
  /-- A move whose target is named by two dots. -/
  | busy (source target : Path)
  | full
  deriving DecidableEq, Repr

/-- A fault's number, its wording and the paths it concerns. -/
def DiskFault.parts : DiskFault → Nat × String × List Path
  | .missing p => (2, "No such file or directory", [p])
  | .exists_ p => (17, "File exists", [p])
  | .notFolder p => (20, "Not a directory", [p])
  | .isFolder p => (21, "Is a directory", [p])
  | .ontoFolder s t => (21, "Is a directory", [s, t])
  | .noPlace s t => (2, "No such file or directory", [s, t])
  | .busy s t => (16, "Device or resource busy", [s, t])
  | .full => (28, "No space left on device", [])

/-- The message of a fault. -/
def DiskFault.message (f : DiskFault) : String :=
  let (number, wording, paths) := f.parts
  let named := paths.map fun p => Text.quoted p.toString
  "[Errno " ++ toString number ++ "] " ++ wording
    ++ (if named.isEmpty then "" else ": " ++ " -> ".intercalate named)

namespace Disk

/-- What stands at an absolute path without dots. -/
def entryAt (d : Disk) (place : List String) : Option Entry :=
  if place.isEmpty then some .folder else d.entries.lookup place

/-- The outcome of following a path. -/
inductive Place where
  /-- An absolute path without dots; all but its last part are directories. -/
  | at (place : List String)
  /-- A part that is needed is not there. -/
  | missing
  /-- A part in the middle is a file. -/
  | notFolder
  deriving DecidableEq, Repr

/-- Follows parts from a directory. -/
def follow (d : Disk) (from_ : List String) : List String → Place
  | [] => .at from_
  | p :: rest =>
    match d.entryAt from_ with
    | none => .missing
    | some (.file _) => .notFolder
    | some .folder =>
      if p = ".." then d.follow from_.dropLast rest else d.follow (from_ ++ [p]) rest

/-- Follows a path. -/
def find (d : Disk) (p : Path) : Place :=
  d.follow (if p.isAbsolute then [] else d.working) p.parts

/-- What a path leads to. -/
def entry? (d : Disk) (p : Path) : Option Entry :=
  match d.find p with
  | .at place => d.entryAt place
  | _ => none

/-- Whether a path leads to something. -/
def exists_ (d : Disk) (p : Path) : Bool :=
  (d.entry? p).isSome

/-- Whether a path leads to a file. -/
def isFile (d : Disk) (p : Path) : Bool :=
  match d.entry? p with
  | some (.file _) => true
  | _ => false

/-- Whether a path leads to a directory. -/
def isFolder (d : Disk) (p : Path) : Bool :=
  match d.entry? p with
  | some .folder => true
  | _ => false

/-- The content of a file. -/
def read (d : Disk) (p : Path) : Except DiskFault Bytes :=
  match d.find p with
  | .missing => .error (.missing p)
  | .notFolder => .error (.notFolder p)
  | .at place =>
    match d.entryAt place with
    | none => .error (.missing p)
    | some .folder => .error (.isFolder p)
    | some (.file content) => .ok content

/-- The disk with an entry set. -/
def put (d : Disk) (place : List String) (e : Entry) : Disk :=
  { d with entries := Assoc.put d.entries place e }

/-- Writes a file, a new one or over an old one. -/
def write (d : Disk) (p : Path) (content : Bytes) : Except DiskFault Disk :=
  match d.find p with
  | .missing => .error (.missing p)
  | .notFolder => .error (.notFolder p)
  | .at place =>
    match d.entryAt place with
    | some .folder => .error (.isFolder p)
    | some (.file _) => .ok (d.put place (.file content))
    | none =>
      match d.entryAt place.dropLast with
      | some .folder => .ok (d.put place (.file content))
      | some (.file _) => .error (.notFolder p)
      | none => .error (.missing p)

/-- Makes a directory whose parent is there. -/
def makeFolder (d : Disk) (p : Path) : Except DiskFault Disk :=
  match d.find p with
  | .missing => .error (.missing p)
  | .notFolder => .error (.notFolder p)
  | .at place =>
    match d.entryAt place with
    | some _ => .error (.exists_ p)
    | none =>
      match d.entryAt place.dropLast with
      | some .folder => .ok (d.put place .folder)
      | some (.file _) => .error (.notFolder p)
      | none => .error (.missing p)

/-- Makes a directory unless it is there, and its parents where they are missing: the disk with the
directories made, and the fault that stopped it. Each step up drops a part, so the number of parts
bounds the steps. -/
def withFoldersWithin (d : Disk) (steps : Nat) (p : Path) : Disk × Option DiskFault :=
  match d.makeFolder p with
  | .ok d => (d, none)
  | .error (.missing q) =>
    match steps with
    | 0 => (d, some (.missing q))
    | steps + 1 =>
      match d.withFoldersWithin steps p.parent with
      | (d, some e) => (d, some e)
      | (d, none) =>
        match d.makeFolder p with
        | .ok d => (d, none)
        | .error e => if d.isFolder p then (d, none) else (d, some e)
  | .error e => if d.isFolder p then (d, none) else (d, some e)

/-- Makes a directory unless it is there, and its parents where they are missing. Directories made
before a fault stay. -/
def withFolders (d : Disk) (p : Path) : Disk × Option DiskFault :=
  d.withFoldersWithin p.parts.length p

/-- Makes a directory unless it is there, and its parents where they are missing, or fails. -/
def makeFolders (d : Disk) (p : Path) : Except DiskFault Disk :=
  match d.withFolders p with
  | (d, none) => .ok d
  | (_, some e) => .error e

/-- Moves a file; a file at the target is replaced. -/
def moveFile (d : Disk) (source target : Path) : Except DiskFault Disk :=
  match d.find source, d.find target with
  | .at from_, .at onto =>
    if target.parts.getLast? = some ".." then .error (.busy source target)
    else
      match d.entryAt from_, d.entryAt onto, d.entryAt onto.dropLast with
      | none, _, _ => .error (.noPlace source target)
      | some _, some .folder, _ => .error (.ontoFolder source target)
      | some e, _, some .folder =>
        if from_ = onto then .ok d
        else .ok { d with entries := (Assoc.put d.entries onto e).filter (·.1 ≠ from_) }
      | _, _, _ => .error (.noPlace source target)
  | _, _ => .error (.noPlace source target)

/-- Removes what stands at a path, with all that is below it. -/
def remove (d : Disk) (p : Path) : Disk :=
  match d.find p with
  | .at place => { d with entries := d.entries.filter fun e => !place.isPrefixOf e.1 }
  | _ => d

/-- The names directly in a directory, with what stands there. -/
def children (d : Disk) (place : List String) : List (String × Entry) :=
  d.entries.filterMap fun e =>
    match e.1.getLast? with
    | some name => if e.1.dropLast = place then some (name, e.2) else none
    | none => none

/-- A file that cannot be read as text: the disk failed, or its octets are not UTF-8. -/
inductive SourceFault where
  | disk (fault : DiskFault)
  | encoding (fault : Text.Utf8.Fault)
  deriving DecidableEq, Repr

/-- The message of a fault. -/
def SourceFault.message : SourceFault → String
  | .disk f => f.message
  | .encoding f => f.message

/-- The text of a file, with its line ends as they are. -/
def readText (d : Disk) (p : Path) : Except SourceFault String :=
  match d.read p with
  | .error e => .error (.disk e)
  | .ok content => (Text.Utf8.decode content).mapError .encoding

/-- Writes a text to a file. -/
def writeText (d : Disk) (p : Path) (text : String) : Except DiskFault Disk :=
  d.write p (Text.Utf8.encode text)

end Disk

end Redline
