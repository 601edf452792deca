import Redline.Link.Links

/-!
# The index of a project

`Index` holds the modules of a project with their links. It answers what an identifier stands for
and where that occurs: for a binding, every node that belongs to it in its own file and in the
modules that import or re-export it by its own name; for a property, every node with its name where
properties stand.
-/

namespace Redline

/-- What an identifier stands for. -/
inductive Target where
  | binding (b : BindingId)
  | property (name : String)
  deriving DecidableEq, Repr, Inhabited

/-- The analysis of a whole project. -/
structure Index where
  modules : Modules
  links : Links
  deriving Inhabited

/-- The items that come first with their key. -/
def distinctBy {α κ : Type} [BEq κ] (key : α → κ) (xs : List α) : List α :=
  (xs.foldl (fun kept x => if kept.any fun y => key y == key x then kept else x :: kept) []).reverse

namespace Index

/-- The index of some source files. -/
def ofSources (sources : List Source) : Index :=
  let files := sources.foldl (fun files s => Assoc.put files s.path (Scopes.ofSource s)) []
  let modules : Modules := { files }
  { modules, links := Links.ofModules modules }

/-- A source file. -/
def source? (x : Index) (file : String) : Option Source :=
  (x.modules.scopes? file).map Scopes.source

/-- The binding that a node belongs to or stands for. -/
def bindingAt? (x : Index) (file : String) (s : Spot) : Option BindingId :=
  match x.modules.scopes? file with
  | none => none
  | some scopes =>
    match scopes.at? s.start with
    | some number => some { file, number }
    | none => x.links.named.lookup (file, s.start)

/-- What an identifier stands for. -/
def targetOf? (x : Index) (source : Source) (s : Spot) : Option Target :=
  match x.bindingAt? source.path s with
  | some b => some (.binding b)
  | none =>
    if NodeKind.isProperty s.kind then some (.property (source.textOf s.tree)) else none

/-- The kind of what an identifier stands for. -/
def kindOf (x : Index) : Target → Option SymbolKind
  | .binding b => (x.modules.declaration? b).map Declaration.kind
  | .property _ => some .property

/-- The nodes of a binding in its own file. -/
def spotsOf (x : Index) (b : BindingId) : List Place :=
  match x.modules.scopes? b.file with
  | some s => (s.spotsOf b.number).map fun spot => { file := b.file, spot }
  | none => []

/-- The names in other modules that stand for a binding. -/
def nodesOf (x : Index) (b : BindingId) : List Place :=
  (x.links.nodes.filter (·.1 == b)).map Prod.snd

/-- The nodes that change with the name `name` of what a binding imports. -/
def importerPlaces (x : Index) (name : String) (b : BindingId) : List Place :=
  match x.modules.declaration? b with
  | none => []
  | some d =>
    match d.origin with
    | none => []
    | some i =>
      if i.imported != name then []
      else
        (i.nameSpot.toList.map fun spot => { file := b.file, spot })
          ++ (if d.isAlias then [] else x.spotsOf b ++ x.nodesOf b)

/-- The order of places: by file, then by octet. -/
def placeBefore (a b : Place) : Bool :=
  decide (a.file < b.file) || (a.file == b.file && decide (a.spot.start ≤ b.spot.start))

/-- Every place that changes with the name of a binding, each once and in order. -/
def bindingPlaces (x : Index) (b : BindingId) : List Place :=
  let root := x.links.canonical x.modules b
  let name := ((x.modules.declaration? root).map Declaration.name).getD ""
  let importers := (x.links.importers.filter (·.1 == root)).map Prod.snd
  let found := x.spotsOf root ++ x.nodesOf root ++ importers.flatMap (x.importerPlaces name)
  (distinctBy (fun p => (p.file, p.spot.start)) found).mergeSort placeBefore

/-- The files in order of their paths. -/
def sorted (x : Index) : List (String × Scopes) :=
  x.modules.files.mergeSort fun a b => decide (a.1 ≤ b.1)

/-- Every place where a name stands as properties do. -/
def propertyPlaces (x : Index) (name : String) : List Place :=
  x.sorted.flatMap fun f =>
    (f.2.properties.filter (·.1 == name)).map fun p => { file := f.1, spot := p.2 }

/-- Every place that changes with a name. -/
def places (x : Index) : Target → List Place
  | .binding b => x.bindingPlaces b
  | .property name => x.propertyPlaces name

/-- The symbol at an identifier. -/
def symbolAt (x : Index) (source : Source) (s : Spot) (t : Target) : Symbol :=
  let r := source.rangeOf s.tree
  { name := source.textOf s.tree
    kind := classify s (x.kindOf t)
    file := source.path
    line := r.startLine
    column := r.startColumn }

/-- A place as a reference. -/
def referenceAt (source : Source) (s : Spot) : Reference :=
  let range := source.rangeOf s.tree
  { refId := range.refId source.path
    file := source.path
    range
    preview := .str (Text.trim ((source.lineText? range.startLine).getD ""))
    checksum := source.checksum
    selected := true }

/-- The references of what an identifier stands for. -/
def references (x : Index) (t : Target) : List Reference :=
  (x.places t).filterMap fun p => (x.source? p.file).map fun s => referenceAt s p.spot

/-- The symbols of a file that can be searched for, with what they stand for. -/
def listed (f : String × Scopes) : List (Source × Spot × Target × String) :=
  f.2.listed.filterMap fun
    | .binding number =>
      (f.2.binding? number).map fun d =>
        (f.2.source, d.spot, .binding { file := f.1, number }, d.name)
    | .member spot name => some (f.2.source, spot, .property name, name)

/-- All symbols that can be searched for, file by file, with what they stand for. -/
def symbols (x : Index) : List (Source × Spot × Target × String) :=
  x.sorted.flatMap listed

end Index

end Redline
