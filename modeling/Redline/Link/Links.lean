import Redline.Link.Basic

/-!
# Links between modules

`Links` ties imports to the bindings they import. An import is linked once; the binding behind it is
linked first, if it is an import itself, so a chain of imports is followed to its end. The target of
an import is *canonical*: it is an alias or has no target of its own.
-/

namespace Redline

/-- A node of a file. -/
structure Place where
  file : String
  spot : Spot
  deriving Repr, Inhabited

/-- The links made so far. `begun` are the imports whose linking was begun, `importers` tells for
bindings what imports them, `nodes` which names in other modules stand for them, and `named` what
such a name stands for, the latest first. -/
structure Links where
  begun : List BindingId
  targets : List (BindingId × BindingId)
  namespaces : List (BindingId × String)
  importers : List (BindingId × BindingId)
  nodes : List (BindingId × Place)
  named : List ((String × Nat) × BindingId)
  deriving Inhabited

namespace Modules

/-- The bindings of a file that are imports. -/
def importsOf (file : String) (s : Scopes) : List BindingId :=
  (s.bindings.zipIdx.filter fun d => d.1.origin.isSome).map fun d => { file, number := d.2 }

/-- All imports, file by file. -/
def imports (m : Modules) : List BindingId :=
  m.files.flatMap fun f => importsOf f.1 f.2

/-- Whether a binding is an import under another name. -/
def isAlias (m : Modules) (b : BindingId) : Bool :=
  ((m.declaration? b).map Declaration.isAlias).getD false

end Modules

namespace Links

/-- No links. -/
def none : Links :=
  { begun := [], targets := [], namespaces := [], importers := [], nodes := [], named := [] }

/-- Follows targets from a binding up to an alias or a binding without target. -/
def follow (l : Links) (m : Modules) : Nat → BindingId → BindingId
  | 0, b => b
  | fuel + 1, b =>
    match l.targets.lookup b with
    | some t => if m.isAlias b then b else l.follow m fuel t
    | Option.none => b

/-- The canonical binding behind a binding. Targets make no cycle, so their number bounds the
way. -/
def canonical (l : Links) (m : Modules) (b : BindingId) : BindingId :=
  l.follow m l.targets.length b

/-- Ties an import to its target. Where the import gives another name, the name imported is a name
of the target. -/
def tie (l : Links) (b : BindingId) (d : Declaration) (i : Import) (target : BindingId) : Links :=
  { l with
    targets := (b, target) :: l.targets
    importers := l.importers ++ [(target, b)]
    named :=
      match i.nameSpot with
      | some n => if d.isAlias then ((b.file, n.start), target) :: l.named else l.named
      | Option.none => l.named }

/-- Links an import, and first the import behind it; `fuel` bounds the length of such a chain. -/
def linkWithin (l : Links) (m : Modules) (fuel : Nat) (b : BindingId) : Links :=
  match fuel with
  | 0 => l
  | fuel + 1 =>
    if l.begun.contains b then l
    else
      match m.declaration? b with
      | Option.none => l
      | some d =>
        match d.origin with
        | Option.none => l
        | some i =>
          let l := { l with begun := b :: l.begun }
          match m.resolve? b.file i.source with
          | Option.none => l
          | some file =>
            if i.imported = "*" then { l with namespaces := (b, file) :: l.namespaces }
            else
              match m.exportOf? file i.imported with
              | Option.none => l
              | some behind =>
                let l := l.linkWithin m fuel behind
                let target := l.canonical m behind
                if target = b then l else l.tie b d i target

/-- Links an import. Every import in a chain is another one, so their number bounds its length. -/
def linkImport (m : Modules) (l : Links) (b : BindingId) : Links :=
  l.linkWithin m (m.imports.length + 1) b

/-- Notes that a name in a file stands for a binding. -/
def linkNode (l : Links) (target : BindingId) (place : Place) : Links :=
  { l with
    nodes := l.nodes ++ [(target, place)]
    named := ((place.file, place.spot.start), target) :: l.named }

/-- The canonical binding behind an exported name. -/
def exported? (l : Links) (m : Modules) (file name : String) : Option BindingId :=
  (m.exportOf? file name).map (l.canonical m)

/-- Notes that a name in a file stands for what a module exports under it, if that has the name. -/
def linkName (m : Modules) (l : Links) (module_ name : String) (place : Place) : Links :=
  match l.exported? m module_ name with
  | some target =>
    if (m.declaration? target).map Declaration.name = some name then l.linkNode target place else l
  | Option.none => l

/-- Links a name in an export clause to what it re-exports. -/
def linkExport (m : Modules) (file : String) (l : Links) (e : Export) : Links :=
  match e with
  | .own _ => l
  | .passed source imported spot =>
    match m.resolve? file source with
    | some target => l.linkName m target imported { file, spot }
    | Option.none => l

/-- Links the member of a namespace that a use of the namespace asks for. -/
def linkMember (m : Modules) (file : String) (source : Source) (module_ : String) (l : Links)
    (use : Spot) : Links :=
  match use.above, use.address with
  | parent :: above, _ :: address =>
    let p : Spot := { tree := parent, above, address }
    match p.child? "object", p.child? "property" with
    | some object, some member =>
      if p.kind = "member_expression" ∧ object.start = use.start then
        l.linkName m module_ (source.textOf member.tree) { file, spot := member }
      else l
    | _, _ => l
  | _, _ => l

/-- Links the members of all namespaces that a file imports. -/
def linkMembers (m : Modules) (file : String) (s : Scopes) (l : Links) (b : BindingId) : Links :=
  match l.namespaces.lookup b with
  | some module_ => (s.spotsOf b.number).tail.foldl (linkMember m file s.source module_) l
  | Option.none => l

/-- Links what a file re-exports, then the members of its namespaces. -/
def linkFile (m : Modules) (l : Links) (f : String × Scopes) : Links :=
  let l := (f.2.exports.names.map Prod.snd).foldl (linkExport m f.1) l
  (Modules.importsOf f.1 f.2).foldl (linkMembers m f.1 f.2) l

/-- The links of a project: all imports first, then the names in other modules. -/
def ofModules (m : Modules) : Links :=
  m.files.foldl (linkFile m) (m.imports.foldl (linkImport m) none)

end Links

end Redline
