import Redline.Scope.Basic

/-!
# Walking a parse tree

`events` lists what the nodes of a source file mean, in the order of the text. A node opens a scope
for its children or hands on the ones around it. Declarations with `var` and functions go to the
scope of the function around them; the body of a function shares the scope of its parameters.
-/

namespace Redline.Scope

mutual

/-- The names that a pattern binds, in order: not the keys, nor anything in a default. -/
def patternNames (above : List Tree) (address : Address) : Tree → List Spot
  | .node label children =>
    let t : Tree := .node label children
    if ["identifier", "shorthand_property_identifier_pattern"].contains label.kind then
      [{ tree := t, above, address }]
    else if label.kind = "pair_pattern" then
      namesInField "value" (t :: above) address 0 children
    else if ["object_assignment_pattern", "assignment_pattern"].contains label.kind then
      namesInField "left" (t :: above) address 0 children
    else if ["object_pattern", "array_pattern", "rest_pattern"].contains label.kind then
      namesInNamed (t :: above) address 0 children
    else []

/-- The names bound by the first tree in a field. -/
def namesInField (field : String) (above : List Tree) (address : Address) (number : Nat) :
    List Tree → List Spot
  | [] => []
  | t :: ts =>
    if t.label.field == some field then patternNames above (number :: address) t
    else namesInField field above address (number + 1) ts

/-- The names bound by the trees that are not tokens. -/
def namesInNamed (above : List Tree) (address : Address) (number : Nat) : List Tree → List Spot
  | [] => []
  | t :: ts =>
    (if t.label.isNamed then patternNames above (number :: address) t else [])
      ++ namesInNamed above address (number + 1) ts

end

/-- The names that the pattern in a field of a node binds. -/
def namesBound (s : Spot) (field : String) : List Spot :=
  match s.child? field with
  | some p => patternNames p.above p.address p.tree
  | none => []

/-- How a name is declared. -/
structure Manner where
  scope : Scope
  kind : SymbolKind
  statement : Option Address
  isSymbol : Bool
  deriving Repr, Inhabited

/-- The declaration of the name that a node shows. -/
def declare (source : Source) (m : Manner) (name : Spot) : Event :=
  .declares
    { scope := m.scope.owner
      name := source.textOf name.tree
      kind := m.kind
      spot := name
      statement := m.statement
      isSymbol := m.isSymbol
      origin := none }

/-- The declaration of the name of a node, if it has one. -/
def declareNamed (source : Source) (m : Manner) (s : Spot) : List Event :=
  (s.child? "name").toList.map (declare source m)

/-- A text without the quotes around it: without its first and last character, when the first is a
quote. -/
def unquoted (text : String) : String :=
  match text.toList with
  | c :: d :: rest =>
    if ['\x27', '"', '\x60'].contains c then String.ofList (d :: rest).dropLast else text
  | _ => text

/-- The text of the source that a statement imports or exports from. -/
def sourceOf? (source : Source) (s : Spot) : Option String :=
  (s.child? "source").map fun t => unquoted (source.textOf t.tree)

/-- The declaration of an imported name. -/
def declareImport (source : Source) (scope : Scope) (from_ : Option String) (imported : String)
    (nameSpot : Option Spot) (name : Spot) : Event :=
  .declares
    { scope := scope.owner
      name := source.textOf name.tree
      kind := .variable
      spot := name
      statement := none
      isSymbol := false
      origin := from_.map fun s => { source := s, imported, nameSpot } }

/-- The declarations of one part of an import clause: a default import, a namespace import or a list
of names. -/
def importEvents (source : Source) (scope : Scope) (from_ : Option String) (s : Spot) :
    List Event :=
  if s.kind = "identifier" then [declareImport source scope from_ "default" none s]
  else if s.kind = "namespace_import" then
    (s.namedChildren.filter (·.kind = "identifier")).map
      (declareImport source scope from_ "*" none)
  else if s.kind = "named_imports" then
    (s.namedChildren.filter (·.kind = "import_specifier")).filterMap fun spec =>
      (spec.child? "name").map fun name =>
        declareImport source scope from_ (unquoted (source.textOf name.tree)) (some name)
          ((spec.child? "alias").getD name)
  else []

/-- The declarations of an import statement. -/
def importsOf (source : Source) (scope : Scope) (s : Spot) : List Event :=
  (s.namedChildren.filter (·.kind = "import_clause")).flatMap fun clause =>
    clause.namedChildren.flatMap (importEvents source scope (sourceOf? source s))

/-- The properties that an interface declares. -/
def membersOf (source : Source) (s : Spot) : List Event :=
  match s.child? "body" with
  | none => []
  | some body =>
    (body.namedChildren.filter (·.kind = "property_signature")).filterMap fun m =>
      match m.child? "name" with
      | some name =>
        if name.kind = "property_identifier" then some (.member name (source.textOf name.tree))
        else none
      | none => none

/-- What a name means by itself: it may stand where properties do, and it may be a use. -/
def identifierEvents (source : Source) (around : List Scope) (s : Spot) : List Event :=
  (if NodeKind.isProperty s.kind then [.property s (source.textOf s.tree)] else [])
    ++ (if NodeKind.isReference s.kind then [.uses s (source.textOf s.tree) around] else [])

/-- What a function declares: its own name, around it or inside, and a lone parameter. -/
def functionEvents (source : Source) (around : List Scope) (s : Spot) : List Event :=
  let inner := opened s true
  let statement := some s.address
  (if NodeKind.isHoisted s.kind then
      declareNamed source
        { scope := ofFunction around, kind := .function, statement, isSymbol := true } s
    else if s.kind = "method_definition" then []
    else declareNamed source { scope := inner, kind := .function, statement, isSymbol := false } s)
    ++ (namesBound s "parameter").map (declare source
      { scope := inner, kind := .parameter, statement := none, isSymbol := true })

/-- What the loop variable of a loop over members declares. -/
def loopEvents (source : Source) (around : List Scope) (s : Spot) : List Event :=
  match s.child? "kind" with
  | none => []
  | some kind =>
    let inner := opened s false
    let scope := if kind.kind = "var" then ofFunction (inner :: around) else inner
    (namesBound s "left").map
      (declare source { scope, kind := .variable, statement := some s.address, isSymbol := true })

/-- What a declarator of variables declares. -/
def declaratorEvents (source : Source) (around : List Scope) (s : Spot) : List Event :=
  let hoisted := (s.parent?.map Tree.kind) == some "variable_declaration"
  let scope := if hoisted then ofFunction around else nearest around
  (namesBound s "name").map
    (declare source { scope, kind := .variable, statement := s.parentAddress?, isSymbol := true })

/-- Whether a node is the body of a function. -/
def isFunctionBody (s : Spot) : Bool :=
  s.kind == "statement_block" && (s.parent?.map fun p => NodeKind.isFunction p.kind) == some true

/-- What a node declares and exports, and the scopes around its children. -/
def visit (source : Source) (around : List Scope) (s : Spot) : List Event × List Scope :=
  let t := s.kind
  let here := nearest around
  let named (kind : SymbolKind) (isSymbol : Bool) (scope : Scope) :=
    declareNamed source { scope, kind, statement := some s.address, isSymbol } s
  let inBlock := opened s false :: around
  if NodeKind.isFunction t then (functionEvents source around s, opened s true :: around)
  else if NodeKind.isSignature t then ([], opened s true :: around)
  else if isFunctionBody s then ([], around)
  else if NodeKind.isClassDeclaration t then (named .classType true here, inBlock)
  else if t = "class" then (named .classType false (opened s false), inBlock)
  else if NodeKind.isBlock t then ([], inBlock)
  else if t = "for_in_statement" then (loopEvents source around s, inBlock)
  else if t = "catch_clause" then
    ((namesBound s "parameter").map (declare source
      { scope := opened s false, kind := .variable, statement := none, isSymbol := false }),
      inBlock)
  else if t = "variable_declarator" then (declaratorEvents source around s, around)
  else if t = "required_parameter" ∨ t = "optional_parameter" then
    ((namesBound s "pattern").map (declare source
      { scope := here, kind := .parameter, statement := none, isSymbol := true }), around)
  else if t = "interface_declaration" then
    (named .interface true here ++ membersOf source s, inBlock)
  else if t = "type_alias_declaration" then (named .typeName true here, inBlock)
  else if t = "enum_declaration" ∨ t = "type_parameter" then (named .typeName false here, around)
  else if t = "import_statement" then (importsOf source here s, around)
  else if t = "export_statement" then ([.exports s], around)
  else ([], around)

mutual

/-- What the nodes of a tree mean. -/
def eventsIn (source : Source) (around : List Scope) (above : List Tree) (address : Address) :
    Tree → List Event
  | .node label children =>
    let t : Tree := .node label children
    let here : Spot := { tree := t, above, address }
    let (events, inner) := visit source around here
    identifierEvents source around here ++ events
      ++ eventsAmong source inner (t :: above) address 0 children

/-- What the nodes of some siblings mean. -/
def eventsAmong (source : Source) (around : List Scope) (above : List Tree) (address : Address)
    (number : Nat) : List Tree → List Event
  | [] => []
  | t :: ts =>
    eventsIn source around above (number :: address) t
      ++ eventsAmong source around above address (number + 1) ts

end

/-- What the nodes of a source file mean. -/
def events (source : Source) : List Event :=
  eventsIn source [file] [] [] source.tree

end Redline.Scope
