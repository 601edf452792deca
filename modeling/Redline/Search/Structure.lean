import Redline.Editset.Basic
import Redline.Search.Template
import Redline.Search.Tool

/-!
# Searching for structure

The structural search lists matches of a pattern with metavariables, one JSON record a line, with
the octets of the file that each match covers. A proposal replaces every match by a template filled
with the text that the metavariables stand for.
-/

namespace Redline.Search

/-- A match: the characters it covers and what its metavariables stand for. -/
structure StructureMatch where
  ref : Reference
  start : Int
  stop : Int
  captures : Captures
  deriving Repr, Inhabited

/-- The arguments of a structural search. -/
def structureArguments (pattern : String) (glob : Option String) : List String :=
  ["run", "--pattern", pattern]
    ++ ((glob.filter (!·.isEmpty)).toList.flatMap fun g => ["--globs", g])
    ++ ["--json=stream", "."]

/-- The members of a value that may be left out; what counts as false has none. -/
def membersOr (v : Option Json) : Except Mishap (List (String × Json)) :=
  match v with
  | none => .ok []
  | some j =>
    if !j.isTruthy then .ok []
    else
      match j with
      | .obj members => .ok members
      | j => .error (.lacks j.kindName "items")

/-- A member of a value that may be left out; what counts as false has none. -/
def memberOr (v : Option Json) (key : String) : Except Mishap (Option Json) :=
  match v with
  | none => .ok none
  | some j => if j.isTruthy then Record.optional j key else .ok none

/-- The octets that a record says it covers. -/
def octetsOf (node : Json) : Except Mishap Json := do
  Record.field (← Record.field node "range") "byteOffset"

/-- The text from the first to the last node of a run. -/
def runText (bytes : Bytes) (text : List Char) (nodes : Json) : Except Mishap String := do
  if !nodes.isTruthy then return ""
  else
    let first ← match nodes with
      | .arr (n :: _) => pure n
      | .obj _ => throw (.missingKey "0")
      | .str s => pure (.str s)
      | j => throw (.wrongType ("'" ++ j.kindName ++ "' object is not subscriptable"))
    let last := match nodes with
      | .arr ns => ns.getLast?.getD .null
      | j => j
    let start ← charsBefore bytes (← Record.field (← octetsOf first) "start")
    let stop ← charsBefore bytes (← Record.field (← octetsOf last) "end")
    return String.ofList (Text.between text start stop)

/-- What the metavariables of a record stand for. -/
def capturesOf (bytes : Bytes) (text : List Char) (record : Json) : Except Mishap Captures := do
  let captured ← Record.optional record "metaVariables"
  let single ← (← membersOr (← memberOr captured "single")).mapM fun m => do
    let t ← Record.optional m.2 "text"
    return (m.1, (t.bind Json.asString?).getD "")
  let multi ← (← membersOr (← memberOr captured "multi")).mapM fun m => do
    return (m.1, ← runText bytes text m.2)
  return { single, multi }

/-- The match that a record describes in a file with a content. -/
def matchIn (file : String) (bytes : Bytes) (content : String) (octets record : Json) :
    Except Mishap StructureMatch := do
  let text := content.toList
  let start ← charsBefore bytes (← Record.field octets "start")
  let stop ← charsBefore bytes (← Record.field octets "end")
  let (startLine, startColumn) := Position.lineColumn content start
  let (endLine, endColumn) := Position.lineColumn content stop
  let captures ← capturesOf bytes text record
  let range : Range := { startLine, startColumn, endLine, endColumn }
  let firstLine := (Text.between text start stop).takeWhile (· != '\n')
  return {
    ref :=
      { refId := range.refId file
        file
        range
        preview := .str (Text.trim (Position.lineText content startLine) ++ " // "
          ++ String.ofList firstLine)
        checksum := checksum content
        selected := true }
    start
    stop
    captures }

/-- Reads where a record's match is. What is missing or has the wrong sort makes the output
unreadable. -/
def placeOf (tool line : String) (record : Json) : Outcome (String × Json) :=
  let read : Except Mishap (String × Json) := do
    let file := plainPath (← Record.textFor "replace" (← Record.field record "file"))
    return (file, ← octetsOf record)
  match read with
  | .ok place => .ok place
  | .error m =>
    match m with
    | .missingKey _ | .wrongType _ => failWith (.toolOutput tool line m.message)
    | m => mishapWith m

/-- The match of a line of output; none if its file is not there. -/
def structureMatch? (d : Disk) (root : Path) (line : String) : Outcome (Option StructureMatch) := do
  let record ← parseRecord "ast-grep" line
  let (file, octets) ← placeOf "ast-grep" line record
  if !d.isFile (root.join file) then return none
  else
    let bytes ← onDisk (d.read (root.join file))
    let content ← onSourceText ((Text.Utf8.decode bytes).mapError .encoding)
    return some (← onRecord (matchIn file bytes content octets record))

/-- The matches that an output lists. -/
def structureMatches (d : Disk) (root : Path) (output : String) :
    Outcome (List StructureMatch) := do
  let found ← (recordLines output).mapM (structureMatch? d root)
  return found.flatMap Option.toList

/-- Whether a text has blanks only. -/
def isBlankText (s : String) : Bool :=
  s.toList.all Text.isBlank

/-- Searches for structure. The status one with nothing written says that there is no match; with
something written only on the standard output it does not matter. -/
def searchStructure (d : Disk) (root : Path) (pattern : String) (glob : Option String) :
    Step (List StructureMatch) := do
  let x ← run (structureArguments pattern glob)
  let stdout := Text.Utf8.decodeLossy x.stdout
  let stderr := Text.Utf8.decodeLossy x.stderr
  if x.status = 1 ∧ isBlankText stdout ∧ isBlankText stderr then return []
  else if x.status ≠ 0 ∧ (x.status ≠ 1 ∨ !isBlankText stderr) then
    throw (.failure (.toolFailed (← get).tool.name x.status stderr))
  else
    liftM (structureMatches d root stdout)

/-- The references of the matches of a structural search. -/
def findStructure (d : Disk) (root : Path) (pattern : String) (glob : Option String) :
    Step (List Reference) := do
  return (← searchStructure d root pattern glob).map StructureMatch.ref

/-- The edit that replaces a match. -/
def structureEdit (replacement : String) (m : StructureMatch) : Edit :=
  { file := m.ref.file
    offset := m.start
    length := m.stop - m.start
    replacement := render replacement m.captures }

/-- The proposal to replace every match of a structural search. -/
def replaceStructure (d : Disk) (root : Path) (now : Moment) (pattern replacement : String)
    (glob : Option String) : Step Editset := do
  let found ← searchStructure d root pattern glob
  return Editset.make "structural-replace" "replace" pattern replacement
    (found.map StructureMatch.ref) (found.map (structureEdit replacement)) none (some pattern) now

end Redline.Search
