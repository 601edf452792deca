import Redline.Path
import Redline.Scope.Resolve

/-!
# Modules and what they export

The modules of a project are its analysed files, in order. An import or re-export names another
module by a relative path, which may leave out the ending. `Modules.exportOf?` follows re-exports to
the binding behind an exported name: re-exports of the name first, then the modules all of whose
names are exported, in order. Every pair of module and name is looked at once, so cycles end.
-/

namespace Redline

/-- A binding of a file. -/
structure BindingId where
  file : String
  number : Nat
  deriving DecidableEq, Repr, Inhabited

/-- The analysed files of a project, by their paths. -/
structure Modules where
  files : List (String × Scopes)
  deriving Inhabited

namespace Modules

/-- The analysis of a file. -/
def scopes? (m : Modules) (file : String) : Option Scopes :=
  m.files.lookup file

/-- Whether there is a module at a path. -/
def has (m : Modules) (file : String) : Bool :=
  m.files.any (·.1 == file)

/-- A binding's declaration. -/
def declaration? (m : Modules) (b : BindingId) : Option Declaration :=
  (m.scopes? b.file).bind (·.binding? b.number)

/-- The endings that a specifier may leave out, in the order they are tried. -/
def endings : List String :=
  [".ts", ".tsx", ".d.ts", ".mts", ".cts", ".js", ".jsx", ".mjs", ".cjs"]

/-- The endings of compiled files, with those of the files they come from. -/
def sourceEndings : List (String × List String) :=
  [(".js", [".ts", ".tsx"]), (".jsx", [".tsx"]), (".mjs", [".mts"]), (".cjs", [".cts"])]

/-- A path without an ending, if it has it after a name: dots alone are no name. -/
def stem? (path ending : String) : Option String :=
  let cs := path.toList
  let stem := cs.take (cs.length - ending.length)
  if cs.drop stem.length = ending.toList
      ∧ (stem.reverse.takeWhile (· != '/')).any (· != '.') then
    some (String.ofList stem)
  else none

/-- The path that a specifier in a file names. -/
def basePath (from_ specifier : String) : String :=
  let p := Path.ofString from_
  ({ p with parts := (p.parts.dropLast ++ Path.partsOf specifier) } : Path).normalize.toString

/-- The paths that a specifier may mean, in the order they are tried. -/
def candidates (from_ specifier : String) : List String :=
  let base := basePath from_ specifier
  base :: (sourceEndings.flatMap fun e =>
      match stem? base e.1 with
      | some stem => e.2.map (stem ++ ·)
      | none => [])
    ++ endings.map (base ++ ·) ++ endings.map (base ++ "/index" ++ ·)

/-- The module that a specifier in a file names; only relative specifiers name one. -/
def resolve? (m : Modules) (from_ specifier : String) : Option String :=
  if specifier.toList.head? = some '.' then (candidates from_ specifier).find? m.has else none

/-- The names under which modules are looked at when one name is followed. -/
def reexports (m : Modules) : List String :=
  m.files.flatMap fun f => f.2.exports.names.filterMap fun e =>
    match e.2 with
    | .passed _ imported _ => some imported
    | .own _ => none

/-- Pairs of module and name that were looked at. -/
abbrev Seen := List (String × String)

/-- Follows an exported name to a binding; `fuel` bounds the steps down. -/
def exportWithin (m : Modules) (fuel : Nat) (file name : String) (seen : Seen) :
    Option BindingId × Seen :=
  match fuel with
  | 0 => (none, seen)
  | fuel + 1 =>
    if seen.contains (file, name) then (none, seen)
    else
      match m.scopes? file with
      | none => (none, seen)
      | some s =>
        let seen := (file, name) :: seen
        match s.exports.names.lookup name with
        | some (.own number) => (some { file, number }, seen)
        | some (.passed source imported _) =>
          match m.resolve? file source with
          | some target => m.exportWithin fuel target imported seen
          | none => (none, seen)
        | none =>
          if name = "default" then (none, seen)
          else
            s.exports.stars.foldl (fun acc source =>
              match acc.1, m.resolve? file source with
              | none, some target => m.exportWithin fuel target name acc.2
              | _, _ => acc) (none, seen)

/-- The binding behind an exported name. Each step down takes a new pair of a module and a name: the
name itself or one that is re-exported. -/
def exportOf? (m : Modules) (file name : String) : Option BindingId :=
  (m.exportWithin (m.files.length * (m.reexports.length + 1) + 1) file name []).1

end Modules

end Redline
