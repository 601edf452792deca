import Redline.Editset.Basic
import Redline.Pattern.Reader
import Redline.Pattern.Template
import Redline.Search.Template
import Redline.Search.Tool

/-!
# Searching for text

The text search lists lines with matches, one JSON record a line, with the octets that each match
covers in its line. A proposal replaces every match by a template filled with the groups of the
pattern; letter case is left alone.
-/

namespace Redline.Search

/-- A match, with the text it covers. -/
structure TextMatch where
  ref : Reference
  text : String
  deriving Repr, Inhabited

/-- The arguments of a text search. -/
def textArguments (pattern : String) (glob : Option String) : List String :=
  ["--json", "--line-number", "--column", "--regexp", pattern]
    ++ ((glob.filter (!·.isEmpty)).toList.flatMap fun g => ["--glob", g]) ++ ["."]

/-- Where the matches of a record are. -/
structure MatchLine where
  file : String
  checksum : String
  number : Int
  text : String
  deriving DecidableEq, Repr, Inhabited

/-- A match on a line. -/
def matchOn (pattern : String) (l : MatchLine) (sub : Json) : Except Mishap TextMatch := do
  let bytes := Text.Utf8.encode l.text
  let startColumn := (← charsBefore bytes (← Record.field sub "start")) + 1
  let endColumn := (← charsBefore bytes (← Record.field sub "end")) + 1
  let covered ← Record.optional (← Record.field sub "match") "text"
  let text ← match covered with
    | none => pure ""
    | some (.str s) => pure s
    | some j =>
      throw (.wrongType ("expected string or bytes-like object, got '" ++ j.kindName ++ "'"))
  let range : Range :=
    { startLine := l.number, startColumn, endLine := l.number, endColumn }
  return {
    ref :=
      { refId := range.refId l.file
        file := l.file
        range
        preview := .str (Text.trim l.text ++ " // \"" ++ text ++ "\" → \"" ++ pattern ++ "\"")
        checksum := l.checksum
        selected := true }
    text }

/-- The number of a line. -/
def lineNumber : Json → Except Mishap Int
  | .int n => .ok n
  | .bool b => .ok (if b then 1 else 0)
  | j => .error (.wrongType
      ("unsupported operand type(s) for -: '" ++ j.kindName ++ "' and 'int'"))

/-- The matches of a record. Records that are no match, whose path or line is no text, and those of
files that are not there, have none. -/
def matchesOf (d : Disk) (root : Path) (pattern : String) (record : Json) :
    Outcome (List TextMatch) := do
  if (← onRecord (Record.optional record "type")).bind Json.asString? != some "match" then return []
  else
    let data ← onRecord (Record.field record "data")
    let path ← onRecord (Record.field data "path")
    if !(← onRecord (Record.holds path "text")) then return []
    else
      let lines ← onRecord (Record.field data "lines")
      if !(← onRecord (Record.holds lines "text")) then return []
      else
        let name ← onRecord (Record.field path "text")
        let file := plainPath (← onRecord (Record.textFor "replace" name))
        if !d.isFile (root.join file) then return []
        else
          let checksum := checksum (← onSourceText (d.readText (root.join file)))
          let text ← onRecord (Record.textFor "encode" (← onRecord (Record.field lines "text")))
          let number ← onRecord (lineNumber (← onRecord (Record.field data "line_number")))
          let subs ← onRecord (Record.items (← onRecord (Record.field data "submatches")))
          subs.mapM fun sub => onRecord (matchOn pattern { file, checksum, number, text } sub)

/-- The matches that an output lists. -/
def textMatches (d : Disk) (root : Path) (pattern output : String) :
    Outcome (List TextMatch) := do
  let found ← (recordLines output).mapM fun line => do
    matchesOf d root pattern (← parseRecord "ripgrep" line)
  return found.flatten

/-- Searches for text. The status one says that there is no match. -/
def searchText (d : Disk) (root : Path) (pattern : String) (glob : Option String) :
    Step (List TextMatch) := do
  let x ← run (textArguments pattern glob)
  if x.status = 1 then return []
  else if x.status ≠ 0 then
    throw (.failure (.toolFailed (← get).tool.name x.status (Text.Utf8.decodeLossy x.stderr)))
  else liftM (textMatches d root pattern (Text.Utf8.decodeLossy x.stdout))

/-- The references of the matches of a text search. -/
def findText (d : Disk) (root : Path) (pattern : String) (glob : Option String) :
    Step (List Reference) := do
  return (← searchText d root pattern glob).map TextMatch.ref

/-- The edit that replaces a match. -/
def textEdit (d : Disk) (root : Path) (p : Pattern) (replacement : String) (m : TextMatch) :
    Outcome Edit := do
  let content ← onSourceText (d.readText (root.join m.ref.file))
  match p.substitute (substitution replacement) m.text with
  | .error f => failWith (.patternInvalid replacement (f.message (substitution replacement)))
  | .ok new =>
    match Position.offset? content m.ref.range.startLine m.ref.range.startColumn with
    | none => mishapWith .outOfRange
    | some offset =>
      return {
        file := m.ref.file
        offset
        length := m.ref.range.endColumn - m.ref.range.startColumn
        replacement := new }

/-- The proposal to replace every match of a text search. -/
def replaceText (d : Disk) (root : Path) (now : Moment) (pattern replacement : String)
    (glob : Option String) : Step Editset := do
  let p ← liftM (Pattern.compile pattern false)
  let found ← searchText d root pattern glob
  let edits ← liftM (found.mapM (textEdit d root p replacement))
  return Editset.make "text-replace" "replace" pattern replacement (found.map TextMatch.ref) edits
    none (some pattern) now

end Redline.Search
