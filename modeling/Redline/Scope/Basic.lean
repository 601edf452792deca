import Redline.Symbol.Basic
import Redline.Tree.Source

/-!
# Scopes and declarations

The words of lexical analysis: scopes, declarations of names in them, uses of names, and the kinds
of nodes that make them. A scope belongs to the node that opens it; the scope of the whole file
belongs to none. Where a name is looked up, the scopes around it stand in a list, nearest first.
-/

namespace Redline

/-- Where names are declared. -/
structure Scope where
  owner : Option Address
  isFunction : Bool
  deriving DecidableEq, Repr, Inhabited

namespace Scope

/-- The scope of a whole file. -/
def file : Scope :=
  { owner := none, isFunction := true }

/-- The scope that a node opens. -/
def opened (s : Spot) (isFunction : Bool) : Scope :=
  { owner := some s.address, isFunction }

/-- The scope that names are declared in at a place. -/
def nearest (around : List Scope) : Scope :=
  around.head?.getD file

/-- The scope that hoisted names are declared in at a place. -/
def ofFunction (around : List Scope) : Scope :=
  (around.find? Scope.isFunction).getD file

end Scope

/-- What a binding imports: a name, `default` or `*`, and the node of the name where it stands apart
from the binding. -/
structure Import where
  source : String
  imported : String
  nameSpot : Option Spot
  deriving Repr, Inhabited

/-- A declaration of a name. `statement` is the statement that makes it, for exports. -/
structure Declaration where
  scope : Option Address
  name : String
  kind : SymbolKind
  spot : Spot
  statement : Option Address
  isSymbol : Bool
  origin : Option Import
  deriving Repr, Inhabited

/-- Whether two declarations are of one binding: one name in one scope. -/
def Declaration.merges (a b : Declaration) : Bool :=
  a.scope == b.scope && a.name == b.name

/-- Whether an import gives another name to what it imports. -/
def Declaration.isAlias (d : Declaration) : Bool :=
  match d.origin with
  | some i => d.name != i.imported
  | none => false

/-- What a node means for the analysis. -/
inductive Event where
  /-- A name is declared. -/
  | declares (d : Declaration)
  /-- A name is used, with these scopes around it. -/
  | uses (spot : Spot) (name : String) (around : List Scope)
  /-- A name stands where properties do. -/
  | property (spot : Spot) (name : String)
  /-- A property of an interface is declared. -/
  | member (spot : Spot) (name : String)
  /-- A statement exports names. -/
  | exports (spot : Spot)
  deriving Repr, Inhabited

/-! The kinds of nodes, by what they mean here. -/

namespace NodeKind

/-- Functions of all kinds. -/
def isFunction (kind : String) : Bool :=
  ["function_declaration", "generator_function_declaration", "function_expression", "function",
    "generator_function", "arrow_function", "method_definition", "function_signature"].contains kind

/-- Functions whose name belongs to the function around them. -/
def isHoisted (kind : String) : Bool :=
  ["function_declaration", "generator_function_declaration", "function_signature"].contains kind

/-- Types and members with parameters; they have a scope so that the parameters stay inside. -/
def isSignature (kind : String) : Bool :=
  ["function_type", "constructor_type", "method_signature", "abstract_method_signature",
    "call_signature", "construct_signature"].contains kind

/-- Declarations of classes. -/
def isClassDeclaration (kind : String) : Bool :=
  ["class_declaration", "abstract_class_declaration"].contains kind

/-- Statements with a scope of their own and nothing else. -/
def isBlock (kind : String) : Bool :=
  ["statement_block", "for_statement", "switch_body"].contains kind

/-- Names that are looked up. -/
def isReference (kind : String) : Bool :=
  ["identifier", "type_identifier", "shorthand_property_identifier"].contains kind

/-- Names of properties. -/
def isProperty (kind : String) : Bool :=
  ["property_identifier", "shorthand_property_identifier",
    "shorthand_property_identifier_pattern"].contains kind

/-- Names of any sort. -/
def isIdentifier (kind : String) : Bool :=
  isReference kind || isProperty kind

/-- The kind of symbol that a node declares with its name. -/
def declared? (kind : String) : Option SymbolKind :=
  [("interface_declaration", SymbolKind.interface), ("type_alias_declaration", .typeName),
    ("function_declaration", .function), ("generator_function_declaration", .function),
    ("function_signature", .function), ("class_declaration", .classType),
    ("abstract_class_declaration", .classType), ("class", .classType),
    ("method_definition", .method), ("method_signature", .method),
    ("abstract_method_signature", .method), ("property_signature", .property),
    ("public_field_definition", .property), ("required_parameter", .parameter),
    ("optional_parameter", .parameter), ("variable_declarator", .variable)].lookup kind

end NodeKind

/-- The kind of the symbol that an identifier stands for: what the node above declares if this is
its name, else the kind of its binding. -/
def classify (s : Spot) (binding : Option SymbolKind) : SymbolKind :=
  let otherwise :=
    binding.getD (if NodeKind.isProperty s.kind then .property else .variable)
  match s.parent? with
  | none => otherwise
  | some parent =>
    match NodeKind.declared? parent.kind with
    | none => otherwise
    | some kind =>
      match (parent.child? "name").or (parent.child? "pattern") with
      | some name => if name.start = s.start then kind else otherwise
      | none => otherwise

end Redline
