import Redline.Command.Request
import Redline.Command.Session
import Redline.Editset.Apply
import Redline.Editset.Drift
import Redline.Editset.Selection
import Redline.FileRename.Apply
import Redline.FileRename.Plan
import Redline.FileRename.Stored
import Redline.Project.Conflicts
import Redline.Search.Structure
import Redline.Search.Text
import Redline.Text.Wording

/-!
# Answering requests

Every request is answered by one document, and some change the disk on the way.
-/

namespace Redline.Command

/-- The entries of an option that is a list. -/
def listOption (v : Option String) : List String :=
  Text.listEntries (v.getD "")

/-! ## Symbols -/

/-- The symbol at a position of a file that is there. -/
def answerSymbolAt (file : String) (line column : Int) : Action Json := do
  if !(← theDisk).isFile ((← read).root.join file) then throw (.failure (.fileMissing file))
  else
    liftM (needSymbols .getSymbolAt (some file))
    match ← ask (Project.symbolAt file line column) with
    | some s => return s.toJson
    | none =>
      throw (.failure (.symbolMissing
        (file ++ ":" ++ Text.Numeral.ofInt line ++ ":" ++ Text.Numeral.ofInt column)))

/-- The references of a symbol. -/
def answerReferences (key : String) : Action Json := do
  liftM (needSymbolsOfKey .getReferences key)
  return .arr ((← ask (Project.references key)).map Reference.toJson)

/-- The symbols that a pattern finds. -/
def answerFindSymbols (pattern : String) : Action Json := do
  liftM (needSymbols .findSymbols none)
  let p ← liftM (Pattern.compile pattern true)
  return .arr ((← ask (Project.find p)).map SymbolMatch.toJson)

/-- The members that tell where a proposal is stored and how large it is. -/
def summary (e : Editset) (p : Path) : List (String × Json) :=
  [("editsetPath", .str p.toString), ("refCount", .int e.refs.length),
    ("fileCount", .int e.files.length)]

/-- Stores a proposal to rename a symbol. -/
def answerRename (key new : String) (output : Option String) : Action Json := do
  liftM (needSymbolsOfKey .createRenameProposal key)
  let s ← read
  let e ← ask (Project.rename s.surroundings.now key new)
  let p ← outputPath output s.config.editset.output
  change fun d => e.save d p
  return .obj (summary e p ++ [("symbolCount", .int 1)])

/-- The mark between the text of a line and what becomes of a name in it. -/
def noteMark : List Char := [' ', '/', '/', ' ']

/-- What stands behind the last mark in a text; the whole text if there is none. -/
def afterLastMark (text rest : List Char) : List Char :=
  match rest with
  | [] => text
  | c :: more =>
    if noteMark.isPrefixOf (c :: more) then afterLastMark ((c :: more).drop 4) more
    else afterLastMark text more

/-- The change of name that a reference of a batch notes. -/
def noted (r : Reference) : String :=
  let cs := (r.preview.asString?.getD "").toList
  String.ofList (afterLastMark cs cs)

/-- Stores a proposal to rename every symbol that a pattern finds, or only reports conflicts. -/
def answerRenameBatch (pattern replacement : String) (output skip : Option String)
    (onlyCheck : Bool) : Action Json := do
  let skipped := listOption skip
  if onlyCheck then
    liftM (needSymbols .checkConflicts none)
    return (← ask (Project.checkConflicts pattern replacement)).toJson
  else
    liftM (needSymbols .createBatchRenameProposal none)
    let s ← read
    let e ← ask (Project.renameBatch s.surroundings.now pattern replacement skipped)
    let p ← outputPath output s.config.editset.output
    change fun d => e.save d p
    return .obj (summary e p
      ++ [("symbolCount", .int (distinct (e.refs.map noted)).length)]
      ++ if skipped.isEmpty then [] else [("skippedSymbols", .ofStrings skipped)])

/-! ## Patterns -/

/-- The references of the matches of a pattern. -/
def answerFindPattern (pattern : String) (glob backend : Option String) : Action Json := do
  let b ← liftM (Registry.standard.selectPattern pattern (backend.getD ""))
  let s ← read
  let d ← theDisk
  let refs ←
    if b.name = Backend.astGrep.name then
      search (Search.astGrep s.config.tools.astGrep) (Search.findStructure d s.root pattern glob)
    else search (Search.ripgrep s.config.tools.ripgrep) (Search.findText d s.root pattern glob)
  return .arr (refs.map Reference.toJson)

/-- Stores a proposal to replace the matches of a pattern. -/
def answerReplacePattern (pattern replacement : String) (glob backend output : Option String) :
    Action Json := do
  let b ← liftM (Registry.standard.selectPattern pattern (backend.getD ""))
  let s ← read
  let d ← theDisk
  let now := s.surroundings.now
  let e ←
    if b.name = Backend.astGrep.name then
      search (Search.astGrep s.config.tools.astGrep)
        (Search.replaceStructure d s.root now pattern replacement glob)
    else
      search (Search.ripgrep s.config.tools.ripgrep)
        (Search.replaceText d s.root now pattern replacement glob)
  let p ← outputPath output s.config.editset.output
  change fun d => e.save d p
  return .obj (summary e p ++ [("backend", .str b.name)])

/-! ## Editsets -/

/-- Stores an editset with another selection. -/
def answerSelect (file : String) (include_ exclude output : Option String) : Action Json := do
  let source := Path.ofString file
  let e ← liftM (Editset.load (← theDisk) source)
  let e := e.filter (listOption include_) (listOption exclude)
  let p := match output.filter (!·.isEmpty) with
    | some p => Path.ofString p
    | none => source
  change fun d => e.save d p
  return .obj [("editsetPath", .str p.toString),
    ("selectedRefs", .int (e.refs.filter Reference.selected).length),
    ("totalRefs", .int e.refs.length)]

/-- Whether the files of an editset are as they were. -/
def answerVerify (file : String) : Action Json := do
  let d ← theDisk
  let e ← liftM (Editset.load d (Path.ofString file))
  return (e.verify d (← read).root).toJson

/-- Applies an editset. -/
def answerApply (file : String) (dryRun : Bool) : Action Json := do
  let d ← theDisk
  let e ← liftM (Editset.load d (Path.ofString file))
  let (d, report) := e.apply { root := (← read).root, dryRun, blocked := [] } d
  modify fun s => { s with disk := d }
  return report.toJson

/-! ## File names -/

/-- The renames to look for; an empty glob counts as none. -/
def fileRequest (pattern replacement : String) (glob : Option String) :
    Action FileRename.Request := do
  let s ← read
  let glob := (glob.filter (!·.isEmpty)).getD s.config.discovery.fileGlob
  return { pattern, replacement, glob, exclude := s.excluded }

/-- The documents of old and new paths. -/
def pathPairs (ops : List FileOp) : Json :=
  .arr (ops.map fun op => .obj [("oldPath", .str op.oldPath), ("newPath", .str op.newPath)])

/-- The files whose names would change. -/
def answerFindFiles (pattern replacement : String) (glob : Option String) : Action Json := do
  let r ← fileRequest pattern replacement glob
  let ops ← liftM (onDisk (FileRename.find r (← theDisk) (← read).root))
  return .obj [("pattern", .str pattern), ("replacement", .str replacement), ("glob", .str r.glob),
    ("files", pathPairs ops), ("count", .int ops.length)]

/-- Stores a proposal to rename files, or only reports conflicts. -/
def answerRenameFiles (pattern replacement : String) (glob output : Option String)
    (onlyCheck : Bool) : Action Json := do
  let s ← read
  let d ← theDisk
  let r ← fileRequest pattern replacement glob
  let ops ← liftM (onDisk (FileRename.find r d s.root))
  if ops.isEmpty then
    return .obj [("message", .str "No files found matching pattern"), ("pattern", .str pattern),
      ("glob", .str r.glob)]
  else if onlyCheck then return (FileRename.check ops d s.root).toJson
  else
    let e ← liftM (onDisk (FileRename.propose r d s.root s.surroundings.now))
    let p ← outputPath output s.config.editset.fileOutput
    change fun d => e.save d p
    return .obj [("editsetPath", .str p.toString), ("fileCount", .int e.ops.length),
      ("importEditCount", .int e.importEdits.length), ("files", pathPairs e.ops)]

/-- Whether the files of a file editset are as they were. -/
def answerVerifyFiles (file : String) : Action Json := do
  let d ← theDisk
  let e ← liftM (FileEditset.load d (Path.ofString file))
  let members := match FileEditset.verifyReport (e.verify d (← read).root) with
    | .obj members => members
    | _ => []
  return .obj (members ++ [("fileCount", .int e.ops.length)])

/-- Applies a file editset. -/
def answerApplyFiles (file : String) (dryRun : Bool) : Action Json := do
  let d ← theDisk
  let e ← liftM (FileEditset.load d (Path.ofString file))
  let (d, report) := e.apply (← read).root dryRun d
  modify fun s => { s with disk := d }
  return report.toJson

/-- The answer to a request. -/
def Request.answer : Request → Action Json
  | .symbolAt file line column => answerSymbolAt file line column
  | .references key => answerReferences key
  | .findSymbols pattern => answerFindSymbols pattern
  | .rename key new output => answerRename key new output
  | .renameBatch pattern replacement output skip onlyCheck =>
    answerRenameBatch pattern replacement output skip onlyCheck
  | .findPattern pattern glob backend => answerFindPattern pattern glob backend
  | .replacePattern pattern replacement glob backend output =>
    answerReplacePattern pattern replacement glob backend output
  | .select file include_ exclude output => answerSelect file include_ exclude output
  | .verify file => answerVerify file
  | .apply file dryRun => answerApply file dryRun
  | .findFiles pattern replacement glob => answerFindFiles pattern replacement glob
  | .renameFiles pattern replacement glob output onlyCheck =>
    answerRenameFiles pattern replacement glob output onlyCheck
  | .verifyFiles file => answerVerifyFiles file
  | .applyFiles file dryRun => answerApplyFiles file dryRun
  | .listBackends => return .arr (Registry.standard.backends.map Backend.describe)

end Redline.Command
