import Redline.Proofs.Scope.Visits
import Redline.Proofs.Tree.WellFormed
import Redline.Scope.Resolve

/-!
# Every name that is found is an identifier

In a well-formed file the events name identifiers only, and so do the mentions, the properties and
the exports that are put together from them.
-/

namespace Redline

/-- The spots of the names that an event tells. -/
def Event.names : Event → List Spot
  | .declares d => d.spot :: (d.origin.bind Import.nameSpot).toList
  | .uses spot _ _ => [spot]
  | .property spot _ => [spot]
  | .member spot _ => [spot]
  | .exports _ => []

namespace Scope

variable {source : Source}

theorem isIdentifier_of_isBoundName {kind : String} (h : isBoundName kind = true) :
    NodeKind.isIdentifier kind = true := by
  rw [isBoundName, List.contains_eq_mem, decide_eq_true_eq, List.mem_cons,
    List.mem_singleton] at h
  rcases h with rfl | rfl <;> decide

theorem name_mem_nameFields {kind : String} (h : NodeKind.isNamedDeclaration kind = true) :
    "name" ∈ NodeKind.nameFields kind := by
  simp only [NodeKind.isNamedDeclaration, List.contains_eq_mem, decide_eq_true_eq, List.mem_cons,
    List.not_mem_nil, or_false] at h
  rcases h with rfl | rfl | rfl | rfl | rfl | rfl | rfl <;> decide

/-- What a pattern under a spot declares are identifiers. -/
theorem identifier_of_mem_map_declare {s : Spot} (hs : (Spot.root source.tree).Under s)
    {field : String} {m : Manner} {e : Event}
    (he : e ∈ (namesBound s field).map (declare source m)) :
    ∀ n ∈ e.names, source.Identifier n := by
  obtain ⟨name, hname, rfl⟩ := List.mem_map.1 he
  obtain ⟨hunder, hkind⟩ := under_of_mem_namesBound hname
  intro n hn
  rw [declare, Event.names, Option.bind_none, Option.toList_none, List.mem_singleton] at hn
  subst hn
  exact ⟨hs.trans hunder, isIdentifier_of_isBoundName hkind⟩

theorem identifier_of_mem_declareNamed (h : source.WellFormed) {s : Spot}
    (hs : (Spot.root source.tree).Under s) (hfield : "name" ∈ NodeKind.nameFields s.kind)
    {m : Manner} {e : Event} (he : e ∈ declareNamed source m s) :
    ∀ n ∈ e.names, source.Identifier n := by
  obtain ⟨name, hname, rfl⟩ := List.mem_map.1 he
  intro n hn
  rw [declare, Event.names, Option.bind_none, Option.toList_none, List.mem_singleton] at hn
  subst hn
  exact h.identifier_of_child? hs hfield (Option.mem_toList.1 hname)

theorem identifier_of_mem_identifierEvents {around : List Scope} {s : Spot}
    (hs : (Spot.root source.tree).Under s) {e : Event}
    (he : e ∈ identifierEvents source around s) : ∀ n ∈ e.names, source.Identifier n := by
  rw [identifierEvents] at he
  intro n hn
  rcases List.mem_append.1 he with he | he
  · split_ifs at he with hkind
    · rw [List.mem_singleton] at he
      subst he
      rw [Event.names, List.mem_singleton] at hn
      subst hn
      exact ⟨hs, by rw [NodeKind.isIdentifier, hkind, Bool.or_true]⟩
    · cases he
  · split_ifs at he with hkind
    · rw [List.mem_singleton] at he
      subst he
      rw [Event.names, List.mem_singleton] at hn
      subst hn
      exact ⟨hs, by rw [NodeKind.isIdentifier, hkind, Bool.true_or]⟩
    · cases he

theorem identifier_of_mem_importEvents (h : source.WellFormed) {scope : Scope}
    {from_ : Option String} {s : Spot} (hs : (Spot.root source.tree).Under s) {e : Event}
    (he : e ∈ importEvents source scope from_ s) : ∀ n ∈ e.names, source.Identifier n := by
  intro n hn
  have hplain : ∀ {name : Spot} {imported : String}, (Spot.root source.tree).Under name →
      name.kind = "identifier" →
      n ∈ (declareImport source scope from_ imported none name).names → source.Identifier n := by
    intro name imported hname hkind hn
    have heq : n = name := by
      cases from_ <;> simpa [declareImport, Event.names] using hn
    subst heq
    exact ⟨hname, by rw [hkind]; decide⟩
  rw [importEvents] at he
  split_ifs at he with hdefault hspace hnamed
  · rw [List.mem_singleton] at he
    subst he
    exact hplain hs hdefault hn
  · obtain ⟨name, hname, rfl⟩ := List.mem_map.1 he
    obtain ⟨hname, hkind⟩ := List.mem_filter.1 hname
    exact hplain (Spot.under_of_mem_namedChildren hs hname) (by simpa using hkind) hn
  · obtain ⟨spec, hspec, hsome⟩ := List.mem_filterMap.1 he
    obtain ⟨hspec, hkind⟩ := List.mem_filter.1 hspec
    have hunder := Spot.under_of_mem_namedChildren hs hspec
    have hfields : NodeKind.nameFields spec.kind = ["name", "alias"] := by
      rw [show spec.kind = "import_specifier" by simpa using hkind]
      rfl
    obtain ⟨name, hname, rfl⟩ := Option.map_eq_some_iff.1 hsome
    have hid := h.identifier_of_child? hunder (by rw [hfields]; simp) hname
    have hlocal : source.Identifier ((spec.child? "alias").getD name) := by
      cases halias : spec.child? "alias" with
      | none => exact hid
      | some a => exact h.identifier_of_child? hunder (by rw [hfields]; simp) halias
    have heq : n = (spec.child? "alias").getD name ∨ n = name := by
      cases from_ with
      | none =>
          left
          simpa [declareImport, Event.names] using hn
      | some from_ => simpa [declareImport, Event.names] using hn
    rcases heq with rfl | rfl
    · exact hlocal
    · exact hid
  · cases he

theorem identifier_of_mem_importsOf (h : source.WellFormed) {scope : Scope} {s : Spot}
    (hs : (Spot.root source.tree).Under s) {e : Event} (he : e ∈ importsOf source scope s) :
    ∀ n ∈ e.names, source.Identifier n := by
  obtain ⟨clause, hclause, he⟩ := List.mem_flatMap.1 he
  obtain ⟨part, hpart, he⟩ := List.mem_flatMap.1 he
  have hunder := Spot.under_of_mem_namedChildren hs (List.mem_filter.1 hclause).1
  exact identifier_of_mem_importEvents h (Spot.under_of_mem_namedChildren hunder hpart) he

theorem identifier_of_mem_membersOf {s : Spot} (hs : (Spot.root source.tree).Under s) {e : Event}
    (he : e ∈ membersOf source s) : ∀ n ∈ e.names, source.Identifier n := by
  rw [membersOf] at he
  cases hbody : s.child? "body" with
  | none =>
      rw [hbody] at he
      cases he
  | some body =>
      rw [hbody] at he
      obtain ⟨m, hm, hsome⟩ := List.mem_filterMap.1 he
      have hunder := Spot.under_of_mem_namedChildren (Spot.under_of_child? hs hbody)
        (List.mem_filter.1 hm).1
      cases hname : m.child? "name" with
      | none =>
          rw [hname] at hsome
          cases hsome
      | some name =>
          rw [hname] at hsome
          dsimp only at hsome
          split_ifs at hsome with hkind
          cases hsome
          intro n hn
          rw [Event.names, List.mem_singleton] at hn
          subst hn
          exact ⟨Spot.under_of_child? hunder hname, by rw [hkind]; decide⟩

theorem identifier_of_mem_functionEvents (h : source.WellFormed) {around : List Scope} {s : Spot}
    (hs : (Spot.root source.tree).Under s) (hkind : NodeKind.isFunction s.kind = true) {e : Event}
    (he : e ∈ functionEvents source around s) : ∀ n ∈ e.names, source.Identifier n := by
  have hfields : s.kind ≠ "method_definition" → "name" ∈ NodeKind.nameFields s.kind := by
    intro hmethod
    have hno : s.kind ≠ "import_specifier" ∧ s.kind ≠ "export_specifier" ∧
        s.kind ≠ "member_expression" := by
      refine ⟨?_, ?_, ?_⟩ <;> intro heq <;> rw [heq] at hkind <;> revert hkind <;> decide
    rw [NodeKind.nameFields, if_neg hno.1, if_neg hno.2.1, if_neg hno.2.2, if_pos]
    · simp
    · simp [hkind, hmethod]
  rw [functionEvents] at he
  rcases List.mem_append.1 he with he | he
  · split_ifs at he with hhoisted hmethod
    · refine identifier_of_mem_declareNamed h hs (hfields ?_) he
      intro heq
      rw [heq] at hhoisted
      revert hhoisted
      decide
    · cases he
    · exact identifier_of_mem_declareNamed h hs (hfields hmethod) he
  · exact identifier_of_mem_map_declare hs he

theorem identifier_of_mem_loopEvents {around : List Scope} {s : Spot}
    (hs : (Spot.root source.tree).Under s) {e : Event} (he : e ∈ loopEvents source around s) :
    ∀ n ∈ e.names, source.Identifier n := by
  rw [loopEvents] at he
  cases hkind : s.child? "kind" with
  | none =>
      rw [hkind] at he
      cases he
  | some kind =>
      rw [hkind] at he
      exact identifier_of_mem_map_declare hs he

theorem identifier_of_mem_visit (h : source.WellFormed) {around : List Scope} {s : Spot}
    (hs : (Spot.root source.tree).Under s) {e : Event} (he : e ∈ (visit source around s).1) :
    ∀ n ∈ e.names, source.Identifier n := by
  have hvisit := visited source around s
  generalize (visit source around s).1 = es at he hvisit
  cases hvisit with
  | nothing => cases he
  | function hkind => exact identifier_of_mem_functionEvents h hs hkind he
  | named m hkind => exact identifier_of_mem_declareNamed h hs (name_mem_nameFields hkind) he
  | interface m hkind =>
      rcases List.mem_append.1 he with he | he
      · exact identifier_of_mem_declareNamed h hs (by rw [hkind]; decide) he
      · exact identifier_of_mem_membersOf hs he
  | loop hkind => exact identifier_of_mem_loopEvents hs he
  | bound m field hkind => exact identifier_of_mem_map_declare hs he
  | imports scope hkind => exact identifier_of_mem_importsOf h hs he
  | exports hkind =>
      rw [List.mem_singleton] at he
      subst he
      intro n hn
      cases hn

/-- Only export statements export. -/
theorem under_of_exports_mem_events {s : Spot} (he : .exports s ∈ events source) :
    (Spot.root source.tree).Under s ∧ s.kind = "export_statement" := by
  obtain ⟨s', around, hwalks, he | he⟩ := exists_spot_of_mem_events he
  · rw [identifierEvents] at he
    rcases List.mem_append.1 he with he | he <;> split_ifs at he <;> simp at he
  · rcases eq_of_mem_visit he with ⟨d, heq⟩ | ⟨n, text, heq⟩ | ⟨heq, hkind⟩
    · cases heq
    · cases heq
    · cases heq
      exact ⟨hwalks.under, hkind⟩

/-- Events name identifiers only. -/
theorem identifier_of_mem_events (h : source.WellFormed) {e : Event} (he : e ∈ events source) :
    ∀ n ∈ e.names, source.Identifier n := by
  obtain ⟨s, around, hs, he⟩ := exists_spot_of_mem_events he
  rcases he with he | he
  · exact identifier_of_mem_identifierEvents hs.under he
  · exact identifier_of_mem_visit h hs.under he

theorem mem_declarations {es : List Event} {d : Declaration} :
    d ∈ declarations es ↔ .declares d ∈ es := by
  rw [declarations, List.mem_filterMap]
  constructor
  · rintro ⟨e, he, hd⟩
    cases e <;> cases hd
    exact he
  · intro hd
    exact ⟨_, hd, rfl⟩

theorem mem_properties {es : List Event} {name : String} {spot : Spot} :
    (name, spot) ∈ properties es ↔ .property spot name ∈ es := by
  rw [properties, List.mem_filterMap]
  constructor
  · rintro ⟨e, he, hd⟩
    cases e <;> cases hd
    exact he
  · intro hd
    exact ⟨_, hd, rfl⟩

theorem mem_exportStatements {es : List Event} {s : Spot} :
    s ∈ exportStatements es ↔ .exports s ∈ es := by
  rw [exportStatements, List.mem_filterMap]
  constructor
  · rintro ⟨e, he, hd⟩
    cases e <;> cases hd
    exact he
  · intro hd
    exact ⟨_, hd, rfl⟩

/-- The first declarations of the bindings are among the declarations. -/
theorem mem_of_mem_bindingsFrom {seen ds : List Declaration} {d : Declaration}
    (h : d ∈ bindingsFrom seen ds) : d ∈ seen ∨ d ∈ ds := by
  induction ds generalizing seen with
  | nil => exact Or.inl h
  | cons a ds ih =>
      rw [bindingsFrom] at h
      rcases ih h with hseen | hds
      · split_ifs at hseen with hany
        · exact Or.inl hseen
        · rcases List.mem_append.1 hseen with hseen | hseen
          · exact Or.inl hseen
          · exact Or.inr (by rw [List.mem_singleton.1 hseen]; exact List.mem_cons_self)
      · exact Or.inr (List.mem_cons_of_mem _ hds)

theorem mem_of_mem_bindings {ds : List Declaration} {d : Declaration} (h : d ∈ bindings ds) :
    d ∈ ds :=
  (mem_of_mem_bindingsFrom h).resolve_left List.not_mem_nil

theorem exists_of_mem_declaredMentions {bs ds : List Declaration} {m : Mention}
    (h : m ∈ declaredMentions bs ds) :
    ∃ d ∈ ds, m.spot = d.spot ∧ find? bs d.scope d.name = some m.binding := by
  obtain ⟨d, hd, hm⟩ := List.mem_filterMap.1 h
  obtain ⟨n, hn, rfl⟩ := Option.map_eq_some_iff.1 hm
  exact ⟨d, hd, rfl, hn⟩

theorem exists_of_mem_usedMentions {bs : List Declaration} {declared : List Nat} {es : List Event}
    {m : Mention} (h : m ∈ usedMentions bs declared es) :
    ∃ name around, .uses m.spot name around ∈ es ∧ m.spot.start ∉ declared ∧
      isUse m.spot = true ∧ lookup? bs around name = some m.binding := by
  obtain ⟨e, he, hm⟩ := List.mem_filterMap.1 h
  cases e with
  | uses spot name around =>
      dsimp only at hm
      split_ifs at hm with hno
      obtain ⟨n, hn, rfl⟩ := Option.map_eq_some_iff.1 hm
      rw [Bool.or_eq_true, not_or] at hno
      refine ⟨name, around, he, ?_, ?_, hn⟩
      · simpa using hno.1
      · simpa using hno.2
  | declares d => cases hm
  | property spot name => cases hm
  | member spot name => cases hm
  | exports s => cases hm

end Scope

namespace Scope.Exports

variable {source : Source}

/-- A name in an export clause that passes on what another module exports under it. -/
structure Passed (source : Source) (from_ imported : String) (n : Spot) : Prop where
  clause : ∃ s clause spec : Spot, (Spot.root source.tree).Under s ∧ clause ∈ s.children ∧
    spec ∈ clause.children ∧ spec.kind = "export_specifier" ∧ spec.child? "name" = some n ∧
    sourceOf? source s = some from_
  text : imported = unquoted (source.textOf n.tree)

/-- The names of what is passed on from other modules are identifiers. -/
theorem Passed.identifier (hw : source.WellFormed) {from_ imported : String} {n : Spot}
    (h : Passed source from_ imported n) : source.Identifier n := by
  obtain ⟨⟨s, clause, spec, hs, hclause, hspec, hkind, hname, -⟩, -⟩ := h
  have hunder := Spot.under_of_mem_children (Spot.under_of_mem_children hs hclause) hspec
  exact hw.identifier_of_child? hunder (by rw [hkind]; decide) hname

/-- What is passed on from other modules stands in export clauses. -/
def Sound (source : Source) (x : Exports) : Prop :=
  ∀ name from_ imported n, (name, Export.passed from_ imported n) ∈ x.names →
    Passed source from_ imported n

theorem Sound.add_own {x : Exports} (h : x.Sound source) (name : String) (number : Nat) :
    (x.add name (.own number)).Sound source := by
  intro name' from_ imported n hmem
  rcases Assoc.mem_of_mem_put hmem with hmem | heq
  · exact h name' from_ imported n hmem
  · cases heq

theorem Sound.add_passed {x : Exports} (h : x.Sound source) {from_ imported : String} {n : Spot}
    (hn : Passed source from_ imported n) (name : String) :
    (x.add name (.passed from_ imported n)).Sound source := by
  intro name' from_' imported' n' hmem
  rcases Assoc.mem_of_mem_put hmem with hmem | heq
  · exact h name' from_' imported' n' hmem
  · cases heq
    exact hn

theorem Sound.addDeclared {x : Exports} (h : x.Sound source) (bs : List Declaration)
    (isDefault : Bool) (statement : Address) :
    (x.addDeclared bs isDefault statement).Sound source := by
  rw [Exports.addDeclared]
  split_ifs with hdefault
  · split
    · exact h.add_own _ _
    · exact h
  · exact List.foldlRecOn _ _ h fun x hx b _ => hx.add_own _ _

theorem Sound.addSpecifier {x : Exports} (h : x.Sound source) {s clause spec : Spot}
    (hs : (Spot.root source.tree).Under s) (hclause : clause ∈ s.children)
    (hspec : spec ∈ clause.children) (hkind : spec.kind = "export_specifier")
    (ms : List Mention) :
    (Exports.addSpecifier source ms (sourceOf? source s) x spec).Sound source := by
  rw [Exports.addSpecifier]
  cases hname : spec.child? "name" with
  | none => exact h
  | some name =>
      cases hfrom : sourceOf? source s with
      | some from_ =>
          exact h.add_passed ⟨⟨s, clause, spec, hs, hclause, hspec, hkind, hname, hfrom⟩, rfl⟩ _
      | none =>
          dsimp only
          split
          · exact h.add_own _ _
          · exact h

theorem Sound.addStatement {x : Exports} (h : x.Sound source) {s : Spot}
    (hs : (Spot.root source.tree).Under s) (bs : List Declaration) (ms : List Mention) :
    (Exports.addStatement source bs ms x s).Sound source := by
  rw [Exports.addStatement]
  split
  · exact h.addDeclared _ _ _
  · split
    · split
      · exact h.add_own _ _
      · exact h
    · split
      · rename_i clause hclause
        have hclause := (List.mem_filter.1 (List.mem_of_find?_eq_some hclause)).1
        refine List.foldlRecOn _ _ h fun x hx spec hspec => ?_
        obtain ⟨hspec, hkind⟩ := List.mem_filter.1 hspec
        exact hx.addSpecifier hs hclause (List.mem_filter.1 hspec).1 (by simpa using hkind) _
      · split
        · split
          · exact h
          · exact h
        · exact h

end Scope.Exports

namespace Scopes

open Scope

variable {source : Source}

theorem identifier_of_mem_mentions (h : source.WellFormed) {m : Mention}
    (hm : m ∈ (ofSource source).mentions) : source.Identifier m.spot := by
  rcases List.mem_append.1 hm with hm | hm
  · obtain ⟨d, hd, hspot, -⟩ := exists_of_mem_declaredMentions hm
    rw [hspot]
    exact identifier_of_mem_events h (mem_declarations.1 hd) _ List.mem_cons_self
  · obtain ⟨name, around, he, -⟩ := exists_of_mem_usedMentions hm
    exact identifier_of_mem_events h he _ List.mem_cons_self

theorem identifier_of_mem_spotsOf (h : source.WellFormed) {number : Nat} {n : Spot}
    (hn : n ∈ (ofSource source).spotsOf number) : source.Identifier n := by
  obtain ⟨m, hm, rfl⟩ := List.mem_map.1 hn
  exact identifier_of_mem_mentions h (List.mem_filter.1 hm).1

theorem identifier_of_mem_properties (h : source.WellFormed) {name : String} {n : Spot}
    (hn : (name, n) ∈ (ofSource source).properties) : source.Identifier n :=
  identifier_of_mem_events h (mem_properties.1 hn) _ List.mem_cons_self

theorem mem_declarations_of_binding? {number : Nat} {d : Declaration}
    (hd : (ofSource source).binding? number = some d) : d ∈ declarations (events source) :=
  mem_of_mem_bindings (List.mem_of_getElem? hd)

theorem identifier_of_nameSpot (h : source.WellFormed) {number : Nat} {d : Declaration}
    (hd : (ofSource source).binding? number = some d) {i : Import} (hi : d.origin = some i)
    {n : Spot} (hn : i.nameSpot = some n) : source.Identifier n := by
  refine identifier_of_mem_events h (mem_declarations.1 (mem_declarations_of_binding? hd)) n ?_
  rw [Event.names, hi, Option.bind_some, hn]
  simp

theorem sound_exports (source : Source) : (ofSource source).exports.Sound source := by
  refine List.foldlRecOn _ _ (fun _ _ _ _ hmem => by cases hmem) fun x hx s hs => ?_
  obtain ⟨hunder, -⟩ := under_of_exports_mem_events (mem_exportStatements.1 hs)
  exact hx.addStatement hunder _ _

end Scopes

end Redline
