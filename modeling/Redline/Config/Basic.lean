import Redline.Disk.Walk
import Redline.Excludes
import Redline.Log.Basic

/-!
# Configuration

What can be set, and what holds unless it is.
-/

namespace Redline

/-- The executables of the search tools. -/
structure ToolSettings where
  ripgrep : String := "rg"
  astGrep : String := "ast-grep"
  deriving DecidableEq, Repr, Inhabited

/-- Where sources are looked for. -/
structure DiscoverySettings where
  /-- The project file; its directory is the root of the project. -/
  tsconfig : String := "tsconfig.json"
  /-- The names of directories that are left out. -/
  excludeDirs : List String := Disk.sortNames Excludes.byDefault
  /-- The files whose names may be changed. -/
  fileGlob : String := "**/*.\x7bts,tsx,js,jsx\x7d"
  deriving DecidableEq, Repr, Inhabited

/-- Where proposals are stored. -/
structure StorageSettings where
  output : String := "editset.json"
  fileOutput : String := "file-editset.json"
  deriving DecidableEq, Repr, Inhabited

/-- A configuration. -/
structure Config where
  logging : Log.Settings := Log.Settings.usual
  tools : ToolSettings := {}
  discovery : DiscoverySettings := {}
  editset : StorageSettings := {}
  deriving DecidableEq, Repr, Inhabited

namespace Config

/-- The document of a configuration. -/
def toJson (c : Config) : Json :=
  .obj [
    ("logging", c.logging.toJson),
    ("tools", .obj [("ripgrep", .str c.tools.ripgrep), ("ast_grep", .str c.tools.astGrep)]),
    ("discovery", .obj [("tsconfig", .str c.discovery.tsconfig),
      ("exclude_dirs", .ofStrings c.discovery.excludeDirs),
      ("file_glob", .str c.discovery.fileGlob)]),
    ("editset", .obj [("output", .str c.editset.output),
      ("file_output", .str c.editset.fileOutput)])]

end Config

end Redline
