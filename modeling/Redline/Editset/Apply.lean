import Redline.Disk.Basic
import Redline.Editset.Basic

/-!
# Applying an editset

Each file is checked against the checksum of every reference recorded for it, then written as a
whole. A file that changed since the editset was made is left alone, with all its edits counted as
skipped; a file that cannot be read or written has its edits counted as errors; the other files are
still processed.
-/

namespace Redline

/-- The text with one edit made; places may be counted from the end. -/
def Edit.splice (e : Edit) (cs : List Char) : List Char :=
  Text.before cs e.offset ++ e.replacement.toList ++ Text.onward cs (e.offset + e.length)

/-- The edits from the greatest offset down; edits at one offset keep their order. -/
def descending (edits : List Edit) : List Edit :=
  edits.mergeSort fun a b => decide (b.offset ≤ a.offset)

/-- The text with all edits made, from the greatest offset down. -/
def applyEdits (content : String) (edits : List Edit) : String :=
  String.ofList ((descending edits).foldl (fun cs e => e.splice cs) content.toList)

/-- What became of an editset. -/
structure ApplyReport where
  /-- The number of edits made, or that would be made in a dry run. -/
  applied : Nat
  skipped : Nat
  errors : Nat
  drift : List String
  errorDetails : List String
  written : List String
  dryRun : Bool
  deriving DecidableEq, Repr, Inhabited

/-- The document that reports it. -/
def ApplyReport.toJson (r : ApplyReport) : Json :=
  .obj [("applied", .int r.applied), ("skipped", .int r.skipped), ("errors", .int r.errors),
    ("driftDetected", .ofStrings r.drift), ("errorDetails", .ofStrings r.errorDetails),
    ("written", .ofStrings r.written), ("dryRun", .bool r.dryRun)]

namespace Editset

/-- What became of one file. -/
inductive FileOutcome where
  | unrecorded
  | drifted
  | failed (reason : String)
  | computed
  | written
  deriving DecidableEq, Repr

/-- How an editset is applied: where its files are, whether nothing is to be written, and the paths
that cannot be written. -/
structure Application where
  root : Path
  dryRun : Bool
  blocked : List Path
  deriving Repr, Inhabited

/-- Writes a file unless it is blocked. -/
def Application.write (a : Application) (d : Disk) (p : Path) (text : String) :
    Except DiskFault Disk :=
  if a.blocked.contains p then .error .full else d.writeText p text

/-- Makes the edits of one file whose recorded checksums are `expected`. -/
def Application.applyFile (a : Application) (d : Disk) (file : String) (expected : List String)
    (edits : List Edit) : Disk × FileOutcome :=
  if expected.isEmpty then (d, .unrecorded)
  else
    match d.readText (a.root.join file) with
    | .error e => (d, .failed e.message)
    | .ok content =>
      if expected.any (· != checksum content) then (d, .drifted)
      else if a.dryRun then (d, .computed)
      else
        match a.write d (a.root.join file) (applyEdits content edits) with
        | .error e => (d, .failed e.message)
        | .ok d => (d, .written)

/-- Adds what became of a file with `count` edits to a report. -/
def FileOutcome.record (o : FileOutcome) (file : String) (count : Nat) (r : ApplyReport) :
    ApplyReport :=
  let skipping := ", skipping " ++ toString count ++ " edits"
  match o with
  | .unrecorded =>
    { r with skipped := r.skipped + count
             drift := r.drift ++ [file ++ ": no recorded checksum" ++ skipping] }
  | .drifted =>
    { r with skipped := r.skipped + count
             drift := r.drift ++ [file ++ ": checksum mismatch" ++ skipping] }
  | .failed reason =>
    { r with
      errors := r.errors + count
      errorDetails := r.errorDetails ++ [file ++ ": " ++ reason] }
  | .computed => { r with applied := r.applied + count }
  | .written => { r with applied := r.applied + count, written := r.written ++ [file] }

/-- The files that have edits, in order of their first. -/
def editFiles (e : Editset) : List String :=
  distinct (e.edits.map Edit.file)

/-- The edits of a file, in order. -/
def editsOf (e : Editset) (file : String) : List Edit :=
  e.edits.filter (·.file == file)

/-- The checksums recorded for a file, in order. -/
def checksumsOf (e : Editset) (file : String) : List String :=
  (e.refs.filter (·.file == file)).map Reference.checksum

/-- Makes the edits of the next file. -/
def applyStep (e : Editset) (a : Application) (state : Disk × ApplyReport) (file : String) :
    Disk × ApplyReport :=
  let edits := e.editsOf file
  let (d, o) := a.applyFile state.1 file (e.checksumsOf file) edits
  (d, o.record file edits.length state.2)

/-- Applies an editset to a disk: the disk afterwards, and the report. -/
def apply (e : Editset) (a : Application) (d : Disk) : Disk × ApplyReport :=
  let start : ApplyReport :=
    { applied := 0, skipped := 0, errors := 0, drift := [], errorDetails := [], written := []
      dryRun := a.dryRun }
  e.editFiles.foldl (e.applyStep a) (d, start)

end Editset

end Redline
