import Redline.Assoc
import Redline.Scope.Walk

/-!
# Resolving names in a file

`Scopes.ofSource` puts together what the walk found. The declarations of one name in one scope are
one binding; a use belongs to the binding of its name in the nearest scope around it that has one,
whether declared before or after it. `mentions` lists every node that belongs to a binding: first
all declarations, then the uses.
-/

namespace Redline

/-- A node that belongs to a binding, which is given by its number. -/
structure Mention where
  spot : Spot
  binding : Nat
  deriving Repr, Inhabited

/-- A symbol that can be searched for: a binding, or a property of an interface. -/
inductive Listed where
  | binding (number : Nat)
  | member (spot : Spot) (name : String)
  deriving Repr, Inhabited

/-- What a name is exported as: a binding of the file, or what another module exports. -/
inductive Export where
  | own (binding : Nat)
  | passed (source imported : String) (spot : Spot)
  deriving Repr, Inhabited

namespace Scope

/-- The declarations among events. -/
def declarations (es : List Event) : List Declaration :=
  es.filterMap fun
    | .declares d => some d
    | _ => none

/-- The first declaration of every binding; `seen` are those that came before. -/
def bindingsFrom (seen : List Declaration) : List Declaration → List Declaration
  | [] => seen
  | d :: ds => bindingsFrom (if seen.any d.merges then seen else seen ++ [d]) ds

/-- The first declaration of every binding. -/
def bindings (ds : List Declaration) : List Declaration :=
  bindingsFrom [] ds

/-- The number of the binding of a name in a scope. -/
def find? (bs : List Declaration) (scope : Option Address) (name : String) : Option Nat :=
  bs.findIdx? fun b => b.scope == scope && b.name == name

/-- The number of the binding of a name in the nearest scope that has one. -/
def lookup? (bs : List Declaration) (around : List Scope) (name : String) : Option Nat :=
  around.findSome? fun s => find? bs s.owner name

/-- Whether an identifier is a use of a name: not the name of what is imported, a part of a type
path, a name exported from another module, nor the name that an export gives. -/
def isUse (s : Spot) : Bool :=
  match s.above with
  | [] => true
  | parent :: more =>
    if parent.kind = "import_specifier" ∨ parent.kind = "nested_type_identifier" then false
    else if parent.kind = "export_specifier" then
      if ((more[1]?).bind (·.child? "source")).isSome then false
      else
        match parent.child? "alias" with
        | none => true
        | some alias_ => alias_.start != s.start
    else true

/-- The nodes that declare names, with the bindings they belong to. -/
def declaredMentions (bs ds : List Declaration) : List Mention :=
  ds.filterMap fun d => (find? bs d.scope d.name).map fun n => { spot := d.spot, binding := n }

/-- The uses among events that belong to a binding. Nodes that declare names are no uses. -/
def usedMentions (bs : List Declaration) (declared : List Nat) (es : List Event) : List Mention :=
  es.filterMap fun
    | .uses spot name around =>
      if declared.contains spot.start || !isUse spot then none
      else (lookup? bs around name).map fun n => { spot, binding := n }
    | _ => none

/-- The symbols among events, where those of `seen` declarations are already listed. -/
def listedFrom (seen : List Declaration) : List Event → List Listed
  | [] => []
  | .declares d :: es =>
    if seen.any d.merges then listedFrom seen es
    else
      (if d.isSymbol then [.binding seen.length] else []) ++ listedFrom (seen ++ [d]) es
  | .member spot name :: es => .member spot name :: listedFrom seen es
  | _ :: es => listedFrom seen es

/-- The number of the binding that the node at an octet belongs to; of several, the one found
last. -/
def mentionedAt? (ms : List Mention) (start : Nat) : Option Nat :=
  (ms.filter (·.spot.start == start)).getLast?.map Mention.binding

/-- What the export statements of a file export: names, and all names of other modules. -/
structure Exports where
  names : List (String × Export)
  stars : List String
  deriving Repr, Inhabited

namespace Exports

/-- Exports a name; it replaces an earlier export of the name. -/
def add (x : Exports) (name : String) (e : Export) : Exports :=
  { x with names := Assoc.put x.names name e }

/-- Adds the exports of a statement with a declaration. -/
def addDeclared (x : Exports) (bs : List Declaration) (isDefault : Bool) (statement : Address) :
    Exports :=
  let numbered := bs.zipIdx.filter fun b => b.1.statement == some statement
  if isDefault then
    match numbered.head? with
    | some b => x.add "default" (.own b.2)
    | none => x
  else numbered.foldl (fun x b => x.add b.1.name (.own b.2)) x

/-- Adds one name of an export clause. -/
def addSpecifier (source : Source) (ms : List Mention) (from_ : Option String) (x : Exports)
    (spec : Spot) : Exports :=
  match spec.child? "name" with
  | none => x
  | some name =>
    let exported := unquoted (source.textOf ((spec.child? "alias").getD name).tree)
    match from_ with
    | some s => x.add exported (.passed s (unquoted (source.textOf name.tree)) name)
    | none =>
      match mentionedAt? ms name.start with
      | some n => x.add exported (.own n)
      | none => x

/-- Adds the exports of a statement. -/
def addStatement (source : Source) (bs : List Declaration) (ms : List Mention) (x : Exports)
    (s : Spot) : Exports :=
  let from_ := sourceOf? source s
  let isDefault := s.children.any (·.kind == "default")
  match s.child? "declaration" with
  | some d => x.addDeclared bs isDefault d.address
  | none =>
    if isDefault then
      match (s.child? "value").bind fun v => mentionedAt? ms v.start with
      | some n => x.add "default" (.own n)
      | none => x
    else
      match s.namedChildren.find? (·.kind == "export_clause") with
      | some clause =>
        (clause.namedChildren.filter (·.kind == "export_specifier")).foldl
          (addSpecifier source ms from_) x
      | none =>
        match from_ with
        | some other =>
          if s.namedChildren.any (·.kind == "namespace_export") then x
          else { x with stars := x.stars ++ [other] }
        | none => x

end Exports

/-- The statements among events that export names. -/
def exportStatements (es : List Event) : List Spot :=
  es.filterMap fun
    | .exports s => some s
    | _ => none

/-- The names among events that stand where properties do. -/
def properties (es : List Event) : List (String × Spot) :=
  es.filterMap fun
    | .property spot name => some (name, spot)
    | _ => none

end Scope

/-- The bindings of a file and what belongs to them. -/
structure Scopes where
  source : Source
  bindings : List Declaration
  mentions : List Mention
  listed : List Listed
  exports : Scope.Exports
  properties : List (String × Spot)
  deriving Inhabited

namespace Scopes

open Scope

/-- The analysis of a source file. -/
def ofSource (source : Source) : Scopes :=
  let es := events source
  let ds := declarations es
  let bs := Scope.bindings ds
  let ms := declaredMentions bs ds ++ usedMentions bs (ds.map (·.spot.start)) es
  { source
    bindings := bs
    mentions := ms
    listed := listedFrom [] es
    exports := (exportStatements es).foldl (Exports.addStatement source bs ms)
      { names := [], stars := [] }
    properties := Scope.properties es }

/-- The binding with a number. -/
def binding? (s : Scopes) (number : Nat) : Option Declaration :=
  s.bindings[number]?

/-- The number of the binding that the node at an octet belongs to. -/
def at? (s : Scopes) (start : Nat) : Option Nat :=
  mentionedAt? s.mentions start

/-- The nodes of a binding: its first declaration first. -/
def spotsOf (s : Scopes) (number : Nat) : List Spot :=
  (s.mentions.filter (·.binding == number)).map Mention.spot

end Scopes

end Redline
