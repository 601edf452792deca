import Redline.Proofs.Scope.Events

/-!
# What a visit tells

The kind of the node that is visited decides which scope its visit opens and what it tells
(`Outcome`). `Visited` keeps of this the shape of the events. Every name that is declared is the
text of its node, and stands as the name of the node that declares it, in a pattern of that node, or
in an import.
-/

namespace Redline

namespace NodeKind

/-- Declarations of types and classes. -/
def isNamedDeclaration (kind : String) : Bool :=
  ["class_declaration", "abstract_class_declaration", "class", "interface_declaration",
    "type_alias_declaration", "enum_declaration", "type_parameter"].contains kind

/-- Nodes with a pattern that declares names. -/
def isBinder (kind : String) : Bool :=
  ["catch_clause", "variable_declarator", "required_parameter", "optional_parameter"].contains kind

end NodeKind

namespace Scope

/-- The scope that a node opens for what is below it. The body of a function has the scope of the
function. -/
def opened? (s : Spot) : Option Scope :=
  if NodeKind.isFunction s.kind || NodeKind.isSignature s.kind then some (opened s true)
  else if isFunctionBody s then none
  else if NodeKind.isClassDeclaration s.kind || NodeKind.isBlock s.kind
      || ["class", "for_in_statement", "catch_clause", "interface_declaration",
        "type_alias_declaration"].contains s.kind then some (opened s false)
  else none

/-- A visit of a node: what it tells and the scopes it hands on, by the kind of the node. -/
inductive Outcome (source : Source) (around : List Scope) (s : Spot) :
    List Event × List Scope → Prop where
  | function (hkind : NodeKind.isFunction s.kind = true) :
      Outcome source around s (functionEvents source around s, opened s true :: around)
  | signature (hkind : NodeKind.isSignature s.kind = true) :
      Outcome source around s ([], opened s true :: around)
  | body (hbody : isFunctionBody s = true) : Outcome source around s ([], around)
  | block (hkind : NodeKind.isBlock s.kind = true) (hbody : isFunctionBody s = false) :
      Outcome source around s ([], opened s false :: around)
  | classDeclaration (hkind : NodeKind.isClassDeclaration s.kind = true) :
      Outcome source around s
        (declareNamed source ⟨nearest around, .classType, some s.address, true⟩ s,
          opened s false :: around)
  | classExpression (hkind : s.kind = "class") :
      Outcome source around s
        (declareNamed source ⟨opened s false, .classType, some s.address, false⟩ s,
          opened s false :: around)
  | loop (hkind : s.kind = "for_in_statement") :
      Outcome source around s (loopEvents source around s, opened s false :: around)
  | caught (hkind : s.kind = "catch_clause") :
      Outcome source around s
        ((namesBound s "parameter").map (declare source ⟨opened s false, .variable, none, false⟩),
          opened s false :: around)
  | declarator (hkind : s.kind = "variable_declarator") :
      Outcome source around s (declaratorEvents source around s, around)
  | parameter (hkind : s.kind = "required_parameter" ∨ s.kind = "optional_parameter") :
      Outcome source around s
        ((namesBound s "pattern").map (declare source ⟨nearest around, .parameter, none, true⟩),
          around)
  | interface (hkind : s.kind = "interface_declaration") :
      Outcome source around s
        (declareNamed source ⟨nearest around, .interface, some s.address, true⟩ s
          ++ membersOf source s, opened s false :: around)
  | typeAlias (hkind : s.kind = "type_alias_declaration") :
      Outcome source around s
        (declareNamed source ⟨nearest around, .typeName, some s.address, true⟩ s,
          opened s false :: around)
  | typeName (hkind : s.kind = "enum_declaration" ∨ s.kind = "type_parameter") :
      Outcome source around s
        (declareNamed source ⟨nearest around, .typeName, some s.address, false⟩ s, around)
  | imports (hkind : s.kind = "import_statement") :
      Outcome source around s (importsOf source (nearest around) s, around)
  | exports (hkind : s.kind = "export_statement") : Outcome source around s ([.exports s], around)
  | other (hopened : opened? s = none) (hvisit : visit source around s = ([], around)) :
      Outcome source around s ([], around)

theorem outcome (source : Source) (around : List Scope) (s : Spot) :
    Outcome source around s (visit source around s) := by
  rw [visit]
  by_cases hfun : NodeKind.isFunction s.kind = true
  · rw [if_pos hfun]
    exact .function hfun
  rw [if_neg hfun]
  by_cases hsig : NodeKind.isSignature s.kind = true
  · rw [if_pos hsig]
    exact .signature hsig
  rw [if_neg hsig]
  by_cases hbody : isFunctionBody s = true
  · rw [if_pos hbody]
    exact .body hbody
  rw [if_neg hbody]
  by_cases hclass : NodeKind.isClassDeclaration s.kind = true
  · rw [if_pos hclass]
    exact .classDeclaration hclass
  rw [if_neg hclass]
  by_cases hclass' : s.kind = "class"
  · rw [if_pos hclass']
    exact .classExpression hclass'
  rw [if_neg hclass']
  by_cases hblock : NodeKind.isBlock s.kind = true
  · rw [if_pos hblock]
    exact .block hblock (Bool.eq_false_iff.2 hbody)
  rw [if_neg hblock]
  by_cases hloop : s.kind = "for_in_statement"
  · rw [if_pos hloop]
    exact .loop hloop
  rw [if_neg hloop]
  by_cases hcatch : s.kind = "catch_clause"
  · rw [if_pos hcatch]
    exact .caught hcatch
  rw [if_neg hcatch]
  by_cases hvar : s.kind = "variable_declarator"
  · rw [if_pos hvar]
    exact .declarator hvar
  rw [if_neg hvar]
  by_cases hparam : s.kind = "required_parameter" ∨ s.kind = "optional_parameter"
  · rw [if_pos hparam]
    exact .parameter hparam
  rw [if_neg hparam]
  by_cases hface : s.kind = "interface_declaration"
  · rw [if_pos hface]
    exact .interface hface
  rw [if_neg hface]
  by_cases halias : s.kind = "type_alias_declaration"
  · rw [if_pos halias]
    exact .typeAlias halias
  rw [if_neg halias]
  by_cases henum : s.kind = "enum_declaration" ∨ s.kind = "type_parameter"
  · rw [if_pos henum]
    exact .typeName henum
  rw [if_neg henum]
  by_cases himport : s.kind = "import_statement"
  · rw [if_pos himport]
    exact .imports himport
  rw [if_neg himport]
  by_cases hexport : s.kind = "export_statement"
  · rw [if_pos hexport]
    exact .exports hexport
  rw [if_neg hexport]
  refine .other ?_ ?_
  · simp [opened?, hfun, hsig, hbody, hclass, hblock, hclass', hloop, hcatch, hface, halias]
  · simp [visit, hfun, hsig, hbody, hclass, hblock, hclass', hloop, hcatch, hface, halias, hvar,
      hparam, henum, himport, hexport]

theorem kind_of_isFunctionBody {s : Spot} (h : isFunctionBody s = true) :
    s.kind = "statement_block" := by
  rw [isFunctionBody, Bool.and_eq_true, beq_iff_eq] at h
  exact h.1

/-- The kind of a node and the place of a block decide what its visit gives, and the scope that it
opens is handed on. -/
theorem Outcome.spec {source : Source} {around : List Scope} {s : Spot}
    {r : List Event × List Scope} (h : Outcome source around s r) :
    visit source around s = r ∧ r.2 = (opened? s).toList ++ around := by
  cases h with
  | function hkind => simp [visit, opened?, hkind]
  | signature hkind =>
      have hno : NodeKind.isFunction s.kind = false := by
        simp only [NodeKind.isSignature, List.contains_eq_mem, decide_eq_true_eq, List.mem_cons,
          List.not_mem_nil, or_false] at hkind
        rcases hkind with h | h | h | h | h | h <;> rw [h] <;> decide
      simp [visit, opened?, hkind, hno]
  | body hbody =>
      have hkind := kind_of_isFunctionBody hbody
      simp [visit, opened?, hkind, hbody, NodeKind.isFunction, NodeKind.isSignature]
  | block hkind hbody =>
      simp only [NodeKind.isBlock, List.contains_eq_mem, decide_eq_true_eq, List.mem_cons,
        List.not_mem_nil, or_false] at hkind
      rcases hkind with h | h | h <;>
        simp [visit, opened?, h, hbody, NodeKind.isFunction, NodeKind.isSignature,
          NodeKind.isBlock, NodeKind.isClassDeclaration]
  | classDeclaration hkind =>
      simp only [NodeKind.isClassDeclaration, List.contains_eq_mem, decide_eq_true_eq,
        List.mem_cons, List.not_mem_nil, or_false] at hkind
      rcases hkind with h | h <;>
        simp [visit, opened?, h, isFunctionBody, NodeKind.isFunction, NodeKind.isSignature,
          NodeKind.isClassDeclaration]
  | parameter hkind | typeName hkind =>
      rcases hkind with h | h <;>
        simp [visit, opened?, h, isFunctionBody, NodeKind.isFunction, NodeKind.isSignature,
          NodeKind.isBlock, NodeKind.isClassDeclaration]
  | other hopened hvisit => simp [hvisit, hopened]
  | classExpression hkind | loop hkind | caught hkind | declarator hkind | interface hkind
  | typeAlias hkind | imports hkind | exports hkind =>
      simp [visit, opened?, hkind, isFunctionBody, NodeKind.isFunction, NodeKind.isSignature,
        NodeKind.isBlock, NodeKind.isClassDeclaration]

/-- The events of a visit, by the kind of the node. -/
inductive Visited (source : Source) (around : List Scope) (s : Spot) : List Event → Prop where
  | nothing : Visited source around s []
  | function (hkind : NodeKind.isFunction s.kind = true) :
      Visited source around s (functionEvents source around s)
  | named (m : Manner) (hkind : NodeKind.isNamedDeclaration s.kind = true) :
      Visited source around s (declareNamed source m s)
  | interface (m : Manner) (hkind : s.kind = "interface_declaration") :
      Visited source around s (declareNamed source m s ++ membersOf source s)
  | loop (hkind : s.kind = "for_in_statement") :
      Visited source around s (loopEvents source around s)
  | bound (m : Manner) (field : String) (hkind : NodeKind.isBinder s.kind = true) :
      Visited source around s ((namesBound s field).map (declare source m))
  | imports (scope : Scope) (hkind : s.kind = "import_statement") :
      Visited source around s (importsOf source scope s)
  | exports (hkind : s.kind = "export_statement") : Visited source around s [.exports s]

theorem isNamedDeclaration_of_isClassDeclaration {kind : String}
    (h : NodeKind.isClassDeclaration kind = true) : NodeKind.isNamedDeclaration kind = true := by
  rw [NodeKind.isClassDeclaration, List.contains_eq_mem, decide_eq_true_eq, List.mem_cons,
    List.mem_singleton] at h
  rcases h with rfl | rfl <;> decide

theorem visited (source : Source) (around : List Scope) (s : Spot) :
    Visited source around s (visit source around s).1 := by
  have houtcome := outcome source around s
  generalize visit source around s = r at houtcome
  cases houtcome with
  | signature | body | block | other => exact .nothing
  | function hkind => exact .function hkind
  | loop hkind => exact .loop hkind
  | interface hkind => exact .interface _ hkind
  | imports hkind => exact .imports _ hkind
  | exports hkind => exact .exports hkind
  | classDeclaration hkind => exact .named _ (isNamedDeclaration_of_isClassDeclaration hkind)
  | classExpression hkind | typeAlias hkind => exact .named _ (by rw [hkind]; decide)
  | typeName hkind => exact .named _ (by rcases hkind with h | h <;> rw [h] <;> decide)
  | caught hkind | declarator hkind => exact .bound _ _ (by rw [hkind]; decide)
  | parameter hkind => exact .bound _ _ (by rcases hkind with h | h <;> rw [h] <;> decide)

theorem eq_member_of_mem_membersOf {source : Source} {s : Spot} {e : Event}
    (he : e ∈ membersOf source s) : ∃ name text, e = .member name text := by
  rw [membersOf] at he
  split at he
  · cases he
  · obtain ⟨m, -, hm⟩ := List.mem_filterMap.1 he
    split at hm
    · split_ifs at hm
      cases hm
      exact ⟨_, _, rfl⟩
    · cases hm

theorem eq_declares_of_mem_map_declare {source : Source} {names : List Spot} {m : Manner}
    {e : Event}
    (he : e ∈ names.map (declare source m)) : ∃ d, e = .declares d := by
  obtain ⟨n, -, rfl⟩ := List.mem_map.1 he
  exact ⟨_, rfl⟩

theorem eq_declares_of_mem_importsOf {source : Source} {scope : Scope} {s : Spot} {e : Event}
    (he : e ∈ importsOf source scope s) : ∃ d, e = .declares d := by
  obtain ⟨clause, -, he⟩ := List.mem_flatMap.1 he
  obtain ⟨part, -, he⟩ := List.mem_flatMap.1 he
  rw [importEvents] at he
  split_ifs at he
  · rw [List.mem_singleton] at he
    exact ⟨_, he⟩
  · obtain ⟨name, -, rfl⟩ := List.mem_map.1 he
    exact ⟨_, rfl⟩
  · obtain ⟨spec, -, hsome⟩ := List.mem_filterMap.1 he
    obtain ⟨name, -, rfl⟩ := Option.map_eq_some_iff.1 hsome
    exact ⟨_, rfl⟩
  · cases he

/-- A visit tells of declarations, members and exports only. -/
theorem eq_of_mem_visit {source : Source} {around : List Scope} {s : Spot} {e : Event}
    (he : e ∈ (visit source around s).1) :
    (∃ d, e = .declares d) ∨ (∃ n text, e = .member n text) ∨
      (e = .exports s ∧ s.kind = "export_statement") := by
  have hvisit := visited source around s
  generalize (visit source around s).1 = es at he hvisit
  cases hvisit with
  | nothing => cases he
  | function hkind =>
      rw [functionEvents] at he
      rcases List.mem_append.1 he with he | he
      · split_ifs at he
        · exact Or.inl (eq_declares_of_mem_map_declare he)
        · cases he
        · exact Or.inl (eq_declares_of_mem_map_declare he)
      · exact Or.inl (eq_declares_of_mem_map_declare he)
  | named m hkind => exact Or.inl (eq_declares_of_mem_map_declare he)
  | interface m hkind =>
      rcases List.mem_append.1 he with he | he
      · exact Or.inl (eq_declares_of_mem_map_declare he)
      · exact Or.inr (Or.inl (eq_member_of_mem_membersOf he))
  | loop hkind =>
      rw [loopEvents] at he
      split at he
      · cases he
      · exact Or.inl (eq_declares_of_mem_map_declare he)
  | bound m field hkind => exact Or.inl (eq_declares_of_mem_map_declare he)
  | imports scope hkind => exact Or.inl (eq_declares_of_mem_importsOf he)
  | exports hkind => exact Or.inr (Or.inr ⟨List.mem_singleton.1 he, hkind⟩)

end Scope

end Redline
