import Redline.Proofs.Scope.Identifiers
import Redline.Proofs.Tree.Check

/-!
# The rules of scoping

The rules are about a node in its place and do not speak of a walk: which scope a node opens for
what is below it, which scopes are around a node, which names a pattern binds, and which node
`Introduces` which name in which scope. The walk that lists the events of a file follows them: it
comes to every node with the scopes of its `chain`, and the declarations that it tells are the
names that are `DeclaredIn` a scope.
-/

namespace Redline

namespace Scope

/-- The scopes that the nodes of a way up open, and the scope of the file. -/
def chainFrom : List Tree → Address → List Scope
  | t :: above, _ :: address =>
    (opened? { tree := t, above, address }).toList ++ chainFrom above address
  | _, _ => [file]

/-- The scopes around a spot, nearest first. -/
def chain (s : Spot) : List Scope :=
  chainFrom s.above s.address

/-- A pattern binds a name: the pattern is the name, or a part of it that is bound, not a key and
not a default, binds the name. -/
inductive PatternBinds : Spot → Spot → Prop where
  | name {n : Spot} (hkind : isBoundName n.kind = true) : PatternBinds n n
  | value {p v n : Spot} (hkind : p.kind = "pair_pattern") (hv : p.child? "value" = some v)
      (hn : PatternBinds v n) : PatternBinds p n
  | left {p v n : Spot}
      (hkind : p.kind = "object_assignment_pattern" ∨ p.kind = "assignment_pattern")
      (hv : p.child? "left" = some v) (hn : PatternBinds v n) : PatternBinds p n
  | part {p v n : Spot}
      (hkind : p.kind = "object_pattern" ∨ p.kind = "array_pattern" ∨ p.kind = "rest_pattern")
      (hv : v ∈ p.namedChildren) (hn : PatternBinds v n) : PatternBinds p n

/-- A clause of an import statement names what is imported. -/
inductive Imports (s : Spot) : Spot → Prop where
  | default {clause n : Spot} (hclause : clause ∈ s.namedChildren)
      (hkind : clause.kind = "import_clause") (hn : n ∈ clause.namedChildren)
      (hname : n.kind = "identifier") : Imports s n
  | whole {clause part n : Spot} (hclause : clause ∈ s.namedChildren)
      (hkind : clause.kind = "import_clause") (hpart : part ∈ clause.namedChildren)
      (hkind' : part.kind = "namespace_import") (hn : n ∈ part.namedChildren)
      (hname : n.kind = "identifier") : Imports s n
  | named {clause part spec name : Spot} (hclause : clause ∈ s.namedChildren)
      (hkind : clause.kind = "import_clause") (hpart : part ∈ clause.namedChildren)
      (hkind' : part.kind = "named_imports") (hspec : spec ∈ part.namedChildren)
      (hkind'' : spec.kind = "import_specifier") (hname : spec.child? "name" = some name) :
      Imports s ((spec.child? "alias").getD name)

/-- The node at a spot introduces a name in a scope. Function declarations and `var` go to the
nearest scope of a function or of the file, the name and the lone parameter of a function expression
to its own scope, everything else to the nearest scope or to the one that the node opens. -/
inductive Introduces (s : Spot) : Scope → Spot → Prop where
  | function {n : Spot} (hkind : NodeKind.isHoisted s.kind = true) (hn : s.child? "name" = some n) :
      Introduces s (ofFunction (chain s)) n
  | functionExpression {n : Spot} (hkind : NodeKind.isFunction s.kind = true)
      (hno : NodeKind.isHoisted s.kind = false) (hno' : s.kind ≠ "method_definition")
      (hn : s.child? "name" = some n) : Introduces s (opened s true) n
  | loneParameter {p n : Spot} (hkind : NodeKind.isFunction s.kind = true)
      (hp : s.child? "parameter" = some p) (hn : PatternBinds p n) :
      Introduces s (opened s true) n
  | parameter {p n : Spot} (hkind : s.kind = "required_parameter" ∨ s.kind = "optional_parameter")
      (hp : s.child? "pattern" = some p) (hn : PatternBinds p n) :
      Introduces s (nearest (chain s)) n
  | varDeclarator {p n : Spot} (hkind : s.kind = "variable_declarator")
      (hvar : s.parent?.map Tree.kind = some "variable_declaration")
      (hp : s.child? "name" = some p) (hn : PatternBinds p n) :
      Introduces s (ofFunction (chain s)) n
  | declarator {p n : Spot} (hkind : s.kind = "variable_declarator")
      (hvar : s.parent?.map Tree.kind ≠ some "variable_declaration")
      (hp : s.child? "name" = some p) (hn : PatternBinds p n) : Introduces s (nearest (chain s)) n
  | varLoop {k p n : Spot} (hkind : s.kind = "for_in_statement") (hk : s.child? "kind" = some k)
      (hvar : k.kind = "var") (hp : s.child? "left" = some p) (hn : PatternBinds p n) :
      Introduces s (ofFunction (chain s)) n
  | loop {k p n : Spot} (hkind : s.kind = "for_in_statement") (hk : s.child? "kind" = some k)
      (hvar : k.kind ≠ "var") (hp : s.child? "left" = some p) (hn : PatternBinds p n) :
      Introduces s (opened s false) n
  | caught {p n : Spot} (hkind : s.kind = "catch_clause") (hp : s.child? "parameter" = some p)
      (hn : PatternBinds p n) : Introduces s (opened s false) n
  | classExpression {n : Spot} (hkind : s.kind = "class") (hn : s.child? "name" = some n) :
      Introduces s (opened s false) n
  | type {n : Spot}
      (hkind : NodeKind.isClassDeclaration s.kind = true ∨ s.kind = "interface_declaration" ∨
        s.kind = "type_alias_declaration" ∨ s.kind = "enum_declaration" ∨ s.kind = "type_parameter")
      (hn : s.child? "name" = some n) : Introduces s (nearest (chain s)) n
  | imported {n : Spot} (hkind : s.kind = "import_statement") (hn : Imports s n) :
      Introduces s (nearest (chain s)) n

/-- A node of a file declares a name in the scope of an owner. -/
def DeclaredIn (source : Source) (owner : Option Address) (name : String) (n : Spot) : Prop :=
  ∃ s scope, (Spot.root source.tree).Under s ∧ Introduces s scope n ∧ scope.owner = owner ∧
    source.textOf n.tree = name

variable {source : Source}

/-! ### The events of a file, node by node -/

/-- What the node at a spot means, in the scopes around it. -/
def told (source : Source) (s : Spot) : List Event :=
  identifierEvents source (chain s) s ++ (visit source (chain s) s).1

theorem visit_chain (s : Spot) : (visit source (chain s) s).2 = (opened? s).toList ++ chain s :=
  (outcome source (chain s) s).spec.2

theorem chainFrom_number (above : List Tree) (address : Address) (i j : Nat) :
    chainFrom above (i :: address) = chainFrom above (j :: address) := by
  cases above <;> rfl

mutual

theorem eventsIn_eq (above : List Tree) (address : Address) (t : Tree) :
    eventsIn source (chainFrom above address) above address t =
      (Tree.spotsIn above address t).flatMap (told source) := by
  match t with
  | .node label children =>
      have hchain : (visit source (chainFrom above address)
            (Spot.at (.node label children) above address)).2 =
          chainFrom (.node label children :: above) (0 :: address) :=
        visit_chain (Spot.at (.node label children) above address)
      rw [eventsIn, Tree.spotsIn, List.flatMap_cons]
      dsimp only
      rw [hchain, eventsAmong_eq (.node label children :: above) address 0 children]
      rfl

theorem eventsAmong_eq (above : List Tree) (address : Address) (number : Nat) (ts : List Tree) :
    eventsAmong source (chainFrom above (number :: address)) above address number ts =
      (Tree.spotsAmong above address number ts).flatMap (told source) := by
  match ts with
  | [] => rfl
  | t :: ts =>
      rw [eventsAmong, Tree.spotsAmong, List.flatMap_append,
        eventsIn_eq above (number :: address) t, chainFrom_number above address number (number + 1),
        eventsAmong_eq above address (number + 1) ts]

end

/-- The walk tells what each node means in the scopes of its chain, in the order of the text. -/
theorem events_eq (source : Source) : events source = source.tree.spots.flatMap (told source) :=
  eventsIn_eq [] [] source.tree

end Scope

end Redline
