import Redline.Proofs.Scope.Declared
import Redline.Proofs.Scope.Rules

/-!
# What the walk declares

The walk declares a name in a scope exactly when a node of the file introduces it there: first the
names of patterns and of imports, then one visit, node kind by node kind, and from it the events of
a whole file.
-/

namespace Redline

namespace Scope

variable {source : Source}

/-! ### Patterns -/

theorem namesInField_eq (field : String) (above : List Tree) (address : Address) (number : Nat)
    (ts : List Tree) :
    namesInField field above address number ts =
      match (ts.mapIdx fun i t => Spot.at t above ((number + i) :: address)).find?
          (·.tree.label.field == some field) with
      | some p => patternNames p.above p.address p.tree
      | none => [] := by
  induction ts generalizing number with
  | nil => rw [namesInField]; rfl
  | cons t ts ih =>
      rw [namesInField, List.mapIdx_cons, List.find?_cons, Nat.add_zero]
      cases hfield : t.label.field == some field with
      | true => simp
      | false => simp [ih, Nat.add_assoc, Nat.add_comm 1]

theorem namesInNamed_eq (above : List Tree) (address : Address) (number : Nat) (ts : List Tree) :
    namesInNamed above address number ts =
      ((ts.mapIdx fun i t => Spot.at t above ((number + i) :: address)).filter
        (·.tree.label.isNamed)).flatMap fun p => patternNames p.above p.address p.tree := by
  induction ts generalizing number with
  | nil => rw [namesInNamed]; rfl
  | cons t ts ih =>
      rw [namesInNamed, List.mapIdx_cons, List.filter_cons, Nat.add_zero, ih]
      cases hnamed : t.label.isNamed with
      | true => simp [Nat.add_assoc, Nat.add_comm 1]
      | false => simp [Nat.add_assoc, Nat.add_comm 1]

theorem namesInField_children (p : Spot) (field : String) :
    namesInField field (p.tree :: p.above) p.address 0 p.tree.children = namesBound p field := by
  rw [namesInField_eq, namesBound, Spot.child?, Spot.children]
  simp only [Nat.zero_add]
  rfl

theorem namesInNamed_children (p : Spot) :
    namesInNamed (p.tree :: p.above) p.address 0 p.tree.children =
      p.namedChildren.flatMap fun q => patternNames q.above q.address q.tree := by
  rw [namesInNamed_eq, Spot.namedChildren, Spot.children]
  simp only [Nat.zero_add]
  rfl

/-- The names of a pattern, by its kind. -/
theorem patternNames_eq (p : Spot) :
    patternNames p.above p.address p.tree =
      if isBoundName p.kind then [p]
      else if p.kind = "pair_pattern" then namesBound p "value"
      else if ["object_assignment_pattern", "assignment_pattern"].contains p.kind then
        namesBound p "left"
      else if ["object_pattern", "array_pattern", "rest_pattern"].contains p.kind then
        p.namedChildren.flatMap fun q => patternNames q.above q.address q.tree
      else [] := by
  rw [← namesInField_children, ← namesInField_children, ← namesInNamed_children]
  obtain ⟨⟨label, children⟩, above, address⟩ := p
  rw [patternNames]
  rfl

theorem mem_namesBound {p n : Spot} {field : String} :
    n ∈ namesBound p field ↔
      ∃ q, p.child? field = some q ∧ n ∈ patternNames q.above q.address q.tree := by
  rw [namesBound]
  cases p.child? field with
  | none => simp
  | some q => simp

theorem patternBinds_of_mem {n : Spot} (p : Spot)
    (h : n ∈ patternNames p.above p.address p.tree) : PatternBinds p n := by
  rw [patternNames_eq] at h
  split_ifs at h with hname hpair hassign hlist
  · rw [List.mem_singleton] at h
    subst h
    exact .name hname
  · obtain ⟨q, hq, h⟩ := mem_namesBound.1 h
    exact .value hpair hq (patternBinds_of_mem q h)
  · obtain ⟨q, hq, h⟩ := mem_namesBound.1 h
    exact .left (by simpa using hassign) hq (patternBinds_of_mem q h)
  · obtain ⟨q, hq, h⟩ := List.mem_flatMap.1 h
    exact .part (by simpa using hlist) hq (patternBinds_of_mem q h)
  · cases h
termination_by sizeOf p.tree
decreasing_by
  · exact Spot.sizeOf_tree_lt_of_mem_children (Spot.mem_children_of_child? hq)
  · exact Spot.sizeOf_tree_lt_of_mem_children (Spot.mem_children_of_child? hq)
  · exact Spot.sizeOf_tree_lt_of_mem_children (mem_children_of_mem_namedChildren hq)

theorem mem_of_patternBinds {p n : Spot} (h : PatternBinds p n) :
    n ∈ patternNames p.above p.address p.tree := by
  induction h with
  | name hkind =>
      rw [patternNames_eq, if_pos hkind]
      exact List.mem_singleton_self _
  | value hkind hv _ ih =>
      rw [patternNames_eq, if_neg (by rw [hkind]; decide), if_pos hkind]
      exact mem_namesBound.2 ⟨_, hv, ih⟩
  | left hkind hv _ ih =>
      have hmem := mem_namesBound.2 ⟨_, hv, ih⟩
      rw [patternNames_eq]
      rcases hkind with h | h <;> simpa [h, isBoundName] using hmem
  | part hkind hv _ ih =>
      have hmem := List.mem_flatMap (f := fun q : Spot => patternNames q.above q.address q.tree)
        |>.2 ⟨_, hv, ih⟩
      rw [patternNames_eq]
      rcases hkind with h | h | h <;> simpa [h, isBoundName] using hmem

theorem mem_namesBound_iff {s n : Spot} {field : String} :
    n ∈ namesBound s field ↔ ∃ p, s.child? field = some p ∧ PatternBinds p n := by
  rw [mem_namesBound]
  exact exists_congr fun p => and_congr_right fun _ =>
    ⟨patternBinds_of_mem p, mem_of_patternBinds⟩

/-! ### What events tell of a node -/

/-- Events declare the name at a node in the scope of an owner. -/
def Tells (es : List Event) (owner : Option Address) (n : Spot) : Prop :=
  ∃ d, .declares d ∈ es ∧ d.scope = owner ∧ d.spot = n

variable {owner : Option Address} {n s : Spot} {es fs : List Event} {m : Manner} {scope : Scope}

theorem not_tells_nil : ¬ Tells [] owner n := by
  rintro ⟨d, hd, -⟩
  cases hd

theorem tells_append : Tells (es ++ fs) owner n ↔ Tells es owner n ∨ Tells fs owner n := by
  simp only [Tells, List.mem_append, or_and_right, exists_or]

theorem tells_map_declare {names : List Spot} :
    Tells (names.map (declare source m)) owner n ↔ n ∈ names ∧ m.scope.owner = owner := by
  constructor
  · rintro ⟨d, hd, rfl, rfl⟩
    obtain ⟨name, hname, heq⟩ := List.mem_map.1 hd
    cases heq
    exact ⟨hname, rfl⟩
  · rintro ⟨hn, rfl⟩
    exact ⟨_, List.mem_map.2 ⟨n, hn, rfl⟩, rfl, rfl⟩

theorem tells_declareNamed :
    Tells (declareNamed source m s) owner n ↔ s.child? "name" = some n ∧ m.scope.owner = owner := by
  rw [declareNamed, tells_map_declare, Option.mem_toList]

theorem tells_bound {field : String} :
    Tells ((namesBound s field).map (declare source m)) owner n ↔
      (∃ p, s.child? field = some p ∧ PatternBinds p n) ∧ m.scope.owner = owner := by
  rw [tells_map_declare, mem_namesBound_iff]

theorem not_tells_membersOf : ¬ Tells (membersOf source s) owner n := by
  rintro ⟨d, hd, -⟩
  obtain ⟨_, _, heq⟩ := eq_member_of_mem_membersOf hd
  cases heq

theorem tells_importsOf :
    Tells (importsOf source scope s) owner n ↔ Imports s n ∧ scope.owner = owner := by
  constructor
  · rintro ⟨d, hd, hscope, rfl⟩
    rw [scope_of_mem_importsOf hd] at hscope
    refine ⟨?_, hscope⟩
    obtain ⟨clause, hclause, hd⟩ := List.mem_flatMap.1 hd
    obtain ⟨part, hpart, hd⟩ := List.mem_flatMap.1 hd
    obtain ⟨hclause, hkind⟩ := List.mem_filter.1 hclause
    rw [decide_eq_true_eq] at hkind
    rw [importEvents] at hd
    split_ifs at hd with hdefault hspace hnamed
    · cases List.mem_singleton.1 hd
      exact .default hclause hkind hpart hdefault
    · obtain ⟨name, hname, heq⟩ := List.mem_map.1 hd
      obtain ⟨hname, hname'⟩ := List.mem_filter.1 hname
      cases heq
      exact .whole hclause hkind hpart hspace hname (by simpa using hname')
    · obtain ⟨spec, hspec, hsome⟩ := List.mem_filterMap.1 hd
      obtain ⟨hspec, hspec'⟩ := List.mem_filter.1 hspec
      obtain ⟨name, hname, heq⟩ := Option.map_eq_some_iff.1 hsome
      cases heq
      exact .named hclause hkind hpart hnamed hspec (by simpa using hspec') hname
    · cases hd
  · rintro ⟨himports, rfl⟩
    have htells : ∀ {clause part name : Spot} (imported : String) (nameSpot : Option Spot),
        clause ∈ s.namedChildren → clause.kind = "import_clause" → part ∈ clause.namedChildren →
        declareImport source scope (sourceOf? source s) imported nameSpot name
          ∈ importEvents source scope (sourceOf? source s) part →
        Tells (importsOf source scope s) scope.owner name := by
      intro clause part name imported nameSpot hclause hkind hpart hd
      exact ⟨_, List.mem_flatMap.2 ⟨clause, List.mem_filter.2 ⟨hclause, by simpa using hkind⟩,
        List.mem_flatMap.2 ⟨part, hpart, hd⟩⟩, rfl, rfl⟩
    cases himports with
    | default hclause hkind hn hname =>
        refine htells "default" none hclause hkind hn ?_
        rw [importEvents, if_pos hname]
        exact List.mem_singleton_self _
    | whole hclause hkind hpart hkind' hn hname =>
        refine htells "*" none hclause hkind hpart ?_
        rw [importEvents, if_neg (by rw [hkind']; decide), if_pos hkind']
        exact List.mem_map.2 ⟨n, List.mem_filter.2 ⟨hn, by simpa using hname⟩, rfl⟩
    | @named clause part spec name hclause hkind hpart hkind' hspec hkind'' hname =>
        refine htells (unquoted (source.textOf name.tree)) (some name) hclause hkind hpart ?_
        rw [importEvents, if_neg (by rw [hkind']; decide), if_neg (by rw [hkind']; decide),
          if_pos hkind']
        refine List.mem_filterMap.2 ⟨spec, List.mem_filter.2 ⟨hspec, by simpa using hkind''⟩, ?_⟩
        rw [hname]
        rfl

/-! ### What one visit introduces -/

theorem introduces_of_tells_functionEvents (hkind : NodeKind.isFunction s.kind = true)
    (h : Tells (functionEvents source (chain s) s) owner n) :
    ∃ scope, Introduces s scope n ∧ scope.owner = owner := by
  rw [functionEvents, tells_append] at h
  rcases h with h | h
  · split_ifs at h with hhoisted hmethod
    · obtain ⟨hn, howner⟩ := tells_declareNamed.1 h
      exact ⟨_, .function hhoisted hn, howner⟩
    · exact absurd h not_tells_nil
    · obtain ⟨hn, howner⟩ := tells_declareNamed.1 h
      exact ⟨_, .functionExpression hkind (Bool.eq_false_iff.2 hhoisted) hmethod hn, howner⟩
  · obtain ⟨⟨p, hp, hn⟩, howner⟩ := tells_bound.1 h
    exact ⟨_, .loneParameter hkind hp hn, howner⟩

theorem introduces_of_tells_loopEvents (hkind : s.kind = "for_in_statement")
    (h : Tells (loopEvents source (chain s) s) owner n) :
    ∃ scope, Introduces s scope n ∧ scope.owner = owner := by
  rw [loopEvents] at h
  split at h
  · exact absurd h not_tells_nil
  · rename_i k hk
    obtain ⟨⟨p, hp, hn⟩, howner⟩ := tells_bound.1 h
    dsimp only at howner
    split_ifs at howner with hvar
    · exact ⟨_, .varLoop hkind hk hvar hp hn, howner⟩
    · exact ⟨_, .loop hkind hk hvar hp hn, howner⟩

theorem introduces_of_tells_declaratorEvents (hkind : s.kind = "variable_declarator")
    (h : Tells (declaratorEvents source (chain s) s) owner n) :
    ∃ scope, Introduces s scope n ∧ scope.owner = owner := by
  rw [declaratorEvents] at h
  obtain ⟨⟨p, hp, hn⟩, howner⟩ := tells_bound.1 h
  dsimp only at howner
  split_ifs at howner with hvar
  · exact ⟨_, .varDeclarator hkind (beq_iff_eq.1 hvar) hp hn, howner⟩
  · exact ⟨_, .declarator hkind (fun heq => hvar (beq_iff_eq.2 heq)) hp hn, howner⟩

theorem introduces_of_tells (h : Tells (visit source (chain s) s).1 owner n) :
    ∃ scope, Introduces s scope n ∧ scope.owner = owner := by
  have houtcome := outcome source (chain s) s
  generalize visit source (chain s) s = r at h houtcome
  cases houtcome with
  | function hkind => exact introduces_of_tells_functionEvents hkind h
  | loop hkind => exact introduces_of_tells_loopEvents hkind h
  | declarator hkind => exact introduces_of_tells_declaratorEvents hkind h
  | signature hkind => exact absurd h not_tells_nil
  | body hbody => exact absurd h not_tells_nil
  | block hkind hbody => exact absurd h not_tells_nil
  | other hopened hvisit => exact absurd h not_tells_nil
  | classDeclaration hkind =>
      obtain ⟨hn, howner⟩ := tells_declareNamed.1 h
      exact ⟨_, .type (Or.inl hkind) hn, howner⟩
  | classExpression hkind =>
      obtain ⟨hn, howner⟩ := tells_declareNamed.1 h
      exact ⟨_, .classExpression hkind hn, howner⟩
  | caught hkind =>
      obtain ⟨⟨p, hp, hn⟩, howner⟩ := tells_bound.1 h
      exact ⟨_, .caught hkind hp hn, howner⟩
  | parameter hkind =>
      obtain ⟨⟨p, hp, hn⟩, howner⟩ := tells_bound.1 h
      exact ⟨_, .parameter hkind hp hn, howner⟩
  | interface hkind =>
      obtain ⟨hn, howner⟩ :=
        tells_declareNamed.1 ((tells_append.1 h).resolve_right not_tells_membersOf)
      exact ⟨_, .type (Or.inr (Or.inl hkind)) hn, howner⟩
  | typeAlias hkind =>
      obtain ⟨hn, howner⟩ := tells_declareNamed.1 h
      exact ⟨_, .type (Or.inr (Or.inr (Or.inl hkind))) hn, howner⟩
  | typeName hkind =>
      obtain ⟨hn, howner⟩ := tells_declareNamed.1 h
      exact ⟨_, .type (Or.inr (Or.inr (Or.inr hkind))) hn, howner⟩
  | imports hkind =>
      obtain ⟨hn, howner⟩ := tells_importsOf.1 h
      exact ⟨_, .imported hkind hn, howner⟩
  | exports hkind =>
      obtain ⟨d, hd, -⟩ := h
      cases List.mem_singleton.1 hd

theorem isFunction_of_isHoisted {kind : String} (h : NodeKind.isHoisted kind = true) :
    NodeKind.isFunction kind = true := by
  simp only [NodeKind.isHoisted, List.contains_eq_mem, decide_eq_true_eq, List.mem_cons,
    List.not_mem_nil, or_false] at h
  rcases h with rfl | rfl | rfl <;> decide

theorem tells_of_introduces (source : Source) (h : Introduces s scope n) :
    Tells (visit source (chain s) s).1 scope.owner n := by
  cases h with
  | function hkind hn =>
      rw [(Outcome.function (isFunction_of_isHoisted hkind)).spec.1]
      refine tells_append.2 (Or.inl ?_)
      rw [if_pos hkind]
      exact tells_declareNamed.2 ⟨hn, rfl⟩
  | functionExpression hkind hno hno' hn =>
      rw [(Outcome.function hkind).spec.1]
      refine tells_append.2 (Or.inl ?_)
      rw [if_neg (Bool.eq_false_iff.1 hno), if_neg hno']
      exact tells_declareNamed.2 ⟨hn, rfl⟩
  | loneParameter hkind hp hn =>
      rw [(Outcome.function hkind).spec.1]
      exact tells_append.2 (Or.inr (tells_bound.2 ⟨⟨_, hp, hn⟩, rfl⟩))
  | parameter hkind hp hn =>
      rw [(Outcome.parameter hkind).spec.1]
      exact tells_bound.2 ⟨⟨_, hp, hn⟩, rfl⟩
  | varDeclarator hkind hvar hp hn =>
      rw [(Outcome.declarator hkind).spec.1]
      refine tells_bound.2 ⟨⟨_, hp, hn⟩, ?_⟩
      rw [if_pos (beq_iff_eq.2 hvar)]
  | declarator hkind hvar hp hn =>
      rw [(Outcome.declarator hkind).spec.1]
      refine tells_bound.2 ⟨⟨_, hp, hn⟩, ?_⟩
      rw [if_neg fun heq => hvar (beq_iff_eq.1 heq)]
  | varLoop hkind hk hvar hp hn =>
      rw [(Outcome.loop hkind).spec.1]
      dsimp only
      rw [loopEvents, hk]
      refine tells_bound.2 ⟨⟨_, hp, hn⟩, ?_⟩
      rw [if_pos hvar]
      rfl
  | loop hkind hk hvar hp hn =>
      rw [(Outcome.loop hkind).spec.1]
      dsimp only
      rw [loopEvents, hk]
      refine tells_bound.2 ⟨⟨_, hp, hn⟩, ?_⟩
      rw [if_neg hvar]
  | caught hkind hp hn =>
      rw [(Outcome.caught hkind).spec.1]
      exact tells_bound.2 ⟨⟨_, hp, hn⟩, rfl⟩
  | classExpression hkind hn =>
      rw [(Outcome.classExpression hkind).spec.1]
      exact tells_declareNamed.2 ⟨hn, rfl⟩
  | type hkind hn =>
      rcases hkind with hkind | hkind | hkind | hkind
      · rw [(Outcome.classDeclaration hkind).spec.1]
        exact tells_declareNamed.2 ⟨hn, rfl⟩
      · rw [(Outcome.interface hkind).spec.1]
        exact tells_append.2 (Or.inl (tells_declareNamed.2 ⟨hn, rfl⟩))
      · rw [(Outcome.typeAlias hkind).spec.1]
        exact tells_declareNamed.2 ⟨hn, rfl⟩
      · rw [(Outcome.typeName hkind).spec.1]
        exact tells_declareNamed.2 ⟨hn, rfl⟩
  | imported hkind hn =>
      rw [(Outcome.imports hkind).spec.1]
      exact tells_importsOf.2 ⟨hn, rfl⟩

/-! ### The events of a file -/

theorem mem_events {e : Event} :
    e ∈ events source ↔ ∃ s, (Spot.root source.tree).Under s ∧
      (e ∈ identifierEvents source (chain s) s ∨ e ∈ (visit source (chain s) s).1) := by
  simp only [events_eq, List.mem_flatMap, Tree.mem_spots, told, List.mem_append]

/-- The walk declares a name in a scope at a node exactly when the node is declared there. -/
theorem declares_mem_events_iff {name : String} :
    (∃ d, .declares d ∈ events source ∧ d.scope = owner ∧ d.name = name ∧ d.spot = n) ↔
      DeclaredIn source owner name n := by
  constructor
  · rintro ⟨d, hd, howner, rfl, rfl⟩
    have hname := name_of_declares_mem_events hd
    obtain ⟨s, hs, hd | hd⟩ := mem_events.1 hd
    · exact absurd hd declares_notMem_identifierEvents
    · obtain ⟨scope, hintroduces, hscope⟩ := introduces_of_tells ⟨d, hd, howner, rfl⟩
      exact ⟨s, scope, hs, hintroduces, hscope, hname.symm⟩
  · rintro ⟨s, scope, hs, hintroduces, rfl, rfl⟩
    obtain ⟨d, hd, hscope, rfl⟩ := tells_of_introduces source hintroduces
    have hd := mem_events.2 ⟨s, hs, Or.inr hd⟩
    exact ⟨d, hd, hscope, name_of_declares_mem_events hd, rfl⟩

end Scope

end Redline
