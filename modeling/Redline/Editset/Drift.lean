import Redline.Disk.Basic
import Redline.Editset.Basic

/-!
# Verifying an editset

`Editset.verify` tells for every file with references whether it still is as it was recorded: it is
there, it can be read as text, and it has the checksum that the last of its references recorded.
-/

namespace Redline

/-- Whether nothing drifted, and what did. -/
structure VerifyReport where
  issues : List String
  deriving DecidableEq, Repr, Inhabited

/-- Nothing drifted. -/
def VerifyReport.isValid (r : VerifyReport) : Bool :=
  r.issues.isEmpty

/-- The document that reports it. -/
def VerifyReport.toJson (r : VerifyReport) : Json :=
  .obj [("valid", .bool r.isValid), ("issues", .ofStrings r.issues)]

namespace Editset

/-- The checksum that the last reference of a file recorded. -/
def recorded (e : Editset) (file : String) : String :=
  ((e.refs.filter (·.file == file)).getLast?.map Reference.checksum).getD ""

/-- What is wrong with a file that should have a checksum. -/
def issue (d : Disk) (root : Path) (file expected : String) : Option String :=
  let path := root.join file
  if !d.exists_ path then some (file ++ ": file no longer exists")
  else
    match d.readText path with
    | .error e => some (file ++ ": unreadable (" ++ e.message ++ ")")
    | .ok content =>
      let actual := checksum content
      if actual = expected then none
      else
        some (file ++ ": checksum mismatch (expected " ++ expected ++ ", got " ++ actual ++ ")")

/-- Checks every file with references. -/
def verify (e : Editset) (d : Disk) (root : Path) : VerifyReport :=
  { issues := e.files.filterMap fun file => issue d root file (e.recorded file) }

end Editset

end Redline
