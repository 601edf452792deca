import Redline.Editset.Stored
import Redline.Json.Printer
import Redline.Json.Reader
import Redline.Text.Lines

/-!
# Stored documents

A document is stored as indented JSON with a line feed at the end. Reading takes every convention
for line ends. What is there but no such document is reported as malformed.
-/

namespace Redline.Store

/-- The text of a stored document. -/
def textOf (j : Json) : String :=
  j.pretty ++ "\n"

/-- Writes a document, making the directories on the way. -/
def save (d : Disk) (p : Path) (j : Json) : Except DiskFault Disk := do
  let d ← d.makeFolders p.parent
  d.writeText p (textOf j)

/-- The text of a file with its line ends unified. -/
def readLines (d : Disk) (p : Path) : Except Disk.SourceFault String := do
  return String.ofList (Text.unifyNewlines (← d.readText p).toList)

/-- Reads a document and makes a record of it. -/
def load {α : Type} (ofJson : Json → Except Mishap α) (d : Disk) (p : Path) : Outcome α := do
  let malformed (reason : String) : Outcome α := failWith (.editsetMalformed p.toString reason)
  if !d.exists_ p then failWith (.editsetMissing p.toString)
  else
    let text ← onSourceText (readLines d p)
    match Json.parse text with
    | .error reason => malformed reason
    | .ok j =>
      match j with
      | .obj _ =>
        match ofJson j with
        | .ok a => return a
        | .error m =>
          if Record.isShapeFault m then malformed ("missing or invalid field: " ++ m.message)
          else mishapWith m
      | _ => malformed "top-level value must be an object"

end Redline.Store

namespace Redline.StoredEditset

/-- Stores an editset. -/
def save (e : StoredEditset) (d : Disk) (p : Path) : Except DiskFault Disk :=
  Store.save d p e.toJson

/-- Reads a stored editset. -/
def load (d : Disk) (p : Path) : Outcome StoredEditset :=
  Store.load ofJson d p

end Redline.StoredEditset

namespace Redline.Editset

/-- Stores an editset. -/
def save (e : Editset) (d : Disk) (p : Path) : Except DiskFault Disk :=
  Store.save d p e.toJson

/-- Reads a stored editset, whose texts must be texts. -/
def load (d : Disk) (p : Path) : Outcome Editset := do
  (← StoredEditset.load d p).check.mapError .mishap

end Redline.Editset
