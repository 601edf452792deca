import Redline.Proofs.Scope.Visits

/-!
# Where declared names stand

A name is declared by one node: the one above the patterns that the name is in, or the import
statement that it is imported by. The number of steps up to it can be read off the name, so the
declarations of one name agree on the scope. A declared name is no member of an access and no part
of an export clause, and in a part of an import it is the local name.
-/

namespace Redline

namespace Scope

/-- The kinds of nodes that declare names, imports apart. -/
def isDeclarer (kind : String) : Bool :=
  NodeKind.isFunction kind || NodeKind.isNamedDeclaration kind || NodeKind.isBinder kind
    || kind == "for_in_statement"

/-- How a declared name stands to the node that declares it. -/
inductive Declares (source : Source) (s : Spot) (d : Declaration) : Prop where
  | bound {field : String} {a : Spot} (hkind : isDeclarer s.kind = true)
      (ha : s.child? field = some a) (hn : UnderPatterns a d.spot) (horigin : d.origin = none)
  | default {clause : Spot} (hkind : s.kind = "import_statement") (hclause : clause ∈ s.children)
      (hkind' : clause.kind = "import_clause") (hn : d.spot ∈ clause.children)
      (horigin : ∀ i, d.origin = some i → i.nameSpot = none)
  | whole {clause part : Spot} (hkind : s.kind = "import_statement") (hclause : clause ∈ s.children)
      (hpart : part ∈ clause.children) (hkind' : part.kind = "namespace_import")
      (hn : d.spot ∈ part.children) (horigin : ∀ i, d.origin = some i → i.nameSpot = none)
  | named {clause part spec name : Spot} (hkind : s.kind = "import_statement")
      (hclause : clause ∈ s.children) (hpart : part ∈ clause.children)
      (hspec : spec ∈ part.children) (hkind' : spec.kind = "import_specifier")
      (hname : spec.child? "name" = some name)
      (hn : d.spot = (spec.child? "alias").getD name)
      (horigin : ∀ i, d.origin = some i → i.nameSpot = some name ∧
        i.imported = unquoted (source.textOf name.tree))

variable {source : Source}

theorem mem_children_of_mem_namedChildren {s c : Spot} (h : c ∈ s.namedChildren) :
    c ∈ s.children :=
  (List.mem_filter.1 h).1

theorem declares_of_mem_map_declare {s : Spot} {m : Manner} {field : String} {d : Declaration}
    (hkind : isDeclarer s.kind = true)
    (h : .declares d ∈ (namesBound s field).map (declare source m)) :
    Declares source s d ∧ d.name = source.textOf d.spot.tree := by
  obtain ⟨n, hn, heq⟩ := List.mem_map.1 h
  obtain ⟨a, ha, hunder, -⟩ := exists_of_mem_namesBound hn
  cases heq
  exact ⟨.bound hkind ha hunder rfl, rfl⟩

theorem declares_of_mem_declareNamed {s : Spot} {m : Manner} {d : Declaration}
    (hkind : isDeclarer s.kind = true) (h : .declares d ∈ declareNamed source m s) :
    Declares source s d ∧ d.name = source.textOf d.spot.tree := by
  obtain ⟨n, hn, heq⟩ := List.mem_map.1 h
  cases heq
  exact ⟨.bound hkind (Option.mem_toList.1 hn) .self rfl, rfl⟩

theorem declares_of_mem_importsOf {scope : Scope} {s : Spot} {d : Declaration}
    (hkind : s.kind = "import_statement") (h : .declares d ∈ importsOf source scope s) :
    Declares source s d ∧ d.name = source.textOf d.spot.tree := by
  obtain ⟨clause, hclause, h⟩ := List.mem_flatMap.1 h
  obtain ⟨part, hpart, h⟩ := List.mem_flatMap.1 h
  obtain ⟨hclause, hclausekind⟩ := List.mem_filter.1 hclause
  have hclause := mem_children_of_mem_namedChildren hclause
  have hpart := mem_children_of_mem_namedChildren hpart
  have hplain : ∀ {name : Spot} {imported : String},
      .declares d = declareImport source scope (sourceOf? source s) imported none name →
      d.spot = name ∧ d.name = source.textOf d.spot.tree ∧
        ∀ i, d.origin = some i → i.nameSpot = none := by
    intro name imported heq
    cases heq
    refine ⟨rfl, rfl, fun i hi => ?_⟩
    obtain ⟨_, -, rfl⟩ := Option.map_eq_some_iff.1 hi
    rfl
  rw [importEvents] at h
  split_ifs at h with hdefault hspace hnamed
  · obtain ⟨hspot, htext, horigin⟩ := hplain (List.mem_singleton.1 h)
    exact ⟨.default hkind hclause (by simpa using hclausekind) (hspot ▸ hpart) horigin, htext⟩
  · obtain ⟨name, hname, heq⟩ := List.mem_map.1 h
    obtain ⟨hspot, htext, horigin⟩ := hplain heq.symm
    have hname := mem_children_of_mem_namedChildren (List.mem_filter.1 hname).1
    exact ⟨.whole hkind hclause hpart hspace (hspot ▸ hname) horigin, htext⟩
  · obtain ⟨spec, hspec, hsome⟩ := List.mem_filterMap.1 h
    obtain ⟨hspec, hspeckind⟩ := List.mem_filter.1 hspec
    obtain ⟨name, hname, heq⟩ := Option.map_eq_some_iff.1 hsome
    cases heq
    refine ⟨.named hkind hclause hpart (mem_children_of_mem_namedChildren hspec)
      (by simpa using hspeckind) hname rfl fun i hi => ?_, rfl⟩
    obtain ⟨_, -, rfl⟩ := Option.map_eq_some_iff.1 hi
    exact ⟨rfl, rfl⟩
  · cases h

/-- The local name of a part of an import is one of its children. -/
theorem spot_mem_children {spec name n : Spot} (hname : spec.child? "name" = some name)
    (hn : n = (spec.child? "alias").getD name) : n ∈ spec.children := by
  subst hn
  cases halias : spec.child? "alias" with
  | none => exact Spot.mem_children_of_child? hname
  | some alias_ => exact Spot.mem_children_of_child? halias

/-- What a visit declares stands where its node has names. -/
theorem declares_of_mem_visit {around : List Scope} {s : Spot} {d : Declaration}
    (h : .declares d ∈ (visit source around s).1) :
    Declares source s d ∧ d.name = source.textOf d.spot.tree := by
  have hvisit := visited source around s
  generalize (visit source around s).1 = es at h hvisit
  cases hvisit with
  | nothing => cases h
  | function hkind =>
      have hdeclarer : isDeclarer s.kind = true := by rw [isDeclarer, hkind]; rfl
      rw [functionEvents] at h
      rcases List.mem_append.1 h with h | h
      · split_ifs at h
        · exact declares_of_mem_declareNamed hdeclarer h
        · cases h
        · exact declares_of_mem_declareNamed hdeclarer h
      · exact declares_of_mem_map_declare hdeclarer h
  | named m hkind => exact declares_of_mem_declareNamed (by simp [isDeclarer, hkind]) h
  | interface m hkind =>
      rcases List.mem_append.1 h with h | h
      · exact declares_of_mem_declareNamed (by rw [hkind]; decide) h
      · obtain ⟨_, _, heq⟩ := eq_member_of_mem_membersOf h
        cases heq
  | loop hkind =>
      rw [loopEvents] at h
      split at h
      · cases h
      · exact declares_of_mem_map_declare (by rw [hkind]; decide) h
  | bound m field hkind => exact declares_of_mem_map_declare (by simp [isDeclarer, hkind]) h
  | imports scope hkind => exact declares_of_mem_importsOf hkind h
  | exports hkind => cases List.mem_singleton.1 h

/-! ### The way up from a name -/

theorem UnderPatterns.eq_or_isPattern {a n : Spot} (h : UnderPatterns a n) :
    n = a ∨ ∃ parent, n.parent? = some parent ∧ isPattern parent.kind = true := by
  cases h with
  | self => exact Or.inl rfl
  | step hs hkind hc => exact Or.inr ⟨_, rfl, hkind⟩

/-- Above the patterns around a name is what the patterns are in. -/
theorem UnderPatterns.drop_address {a n : Spot} (h : UnderPatterns a n)
    (ha : a.above.takeWhile (isPattern ·.kind) = []) :
    n.address.drop (n.above.takeWhile (isPattern ·.kind)).length = a.address := by
  induction h with
  | self => rw [ha, List.length_nil, List.drop_zero]
  | @step s number child _ hkind hc ih =>
      have habove : (s.below child number).above = s.tree :: s.above := rfl
      rw [habove, List.takeWhile_cons_of_pos (by exact hkind), List.length_cons,
        Spot.address_below, List.drop_succ_cons, ih]

/-- The number of steps from a declared name up to the node that declares it. -/
def rise (n : Spot) : Nat :=
  let kind := (n.parent?.map Tree.kind).getD ""
  if kind = "import_clause" then 2
  else if kind = "namespace_import" then 3
  else if kind = "import_specifier" then 4
  else (n.above.takeWhile (isPattern ·.kind)).length + 1

/-- The kinds of nodes that a declared name stands in directly, imports apart. -/
theorem Declares.parent_of_bound {s : Spot} {field : String} {a n : Spot}
    (hkind : isDeclarer s.kind = true) (ha : s.child? field = some a) (hn : UnderPatterns a n) :
    ∃ parent, n.parent? = some parent ∧
      (isPattern parent.kind || isDeclarer parent.kind) = true := by
  rcases hn.eq_or_isPattern with rfl | ⟨parent, hparent, hpattern⟩
  · obtain ⟨number, child, -, rfl⟩ := Spot.mem_children.1 (Spot.mem_children_of_child? ha)
    exact ⟨s.tree, rfl, by rw [Bool.or_eq_true]; exact Or.inr hkind⟩
  · exact ⟨parent, hparent, by rw [hpattern, Bool.true_or]⟩

theorem isPattern_eq_false_of_isDeclarer {kind : String} (h : isDeclarer kind = true) :
    isPattern kind = false := by
  rw [Bool.eq_false_iff]
  intro hpattern
  simp only [isPattern, List.contains_eq_mem, decide_eq_true_eq, List.mem_cons, List.not_mem_nil,
    or_false] at hpattern
  rcases hpattern with rfl | rfl | rfl | rfl | rfl | rfl <;> revert h <;> decide

/-- The node that declares a name can be told from the name. -/
theorem Declares.address_eq {s : Spot} {d : Declaration} (h : Declares source s d) :
    s.address = d.spot.address.drop (rise d.spot) := by
  cases h with
  | bound hkind ha hn horigin =>
      obtain ⟨parent, hparent, hparentkind⟩ := Declares.parent_of_bound hkind ha hn
      have hno : ∀ kind, (isPattern kind || isDeclarer kind) = false →
          (d.spot.parent?.map Tree.kind).getD "" ≠ kind := by
        intro kind hfalse heq
        rw [hparent] at heq
        rw [show parent.kind = kind from heq, hfalse] at hparentkind
        cases hparentkind
      obtain ⟨number, child, -, rfl⟩ := Spot.mem_children.1 (Spot.mem_children_of_child? ha)
      have hdrop := hn.drop_address (by
        rw [show (s.below child number).above = s.tree :: s.above from rfl]
        exact List.takeWhile_cons_of_neg (by
          rw [show s.tree.kind = s.kind from rfl, isPattern_eq_false_of_isDeclarer hkind]
          simp))
      simp only [rise]
      rw [if_neg (hno _ (by decide)), if_neg (hno _ (by decide)), if_neg (hno _ (by decide)),
        ← List.drop_drop, hdrop, Spot.address_below, List.drop_one, List.tail_cons]
  | default hkind hclause hkind' hn horigin =>
      obtain ⟨i, clause, -, rfl⟩ := Spot.mem_children.1 hclause
      obtain ⟨j, name, -, hspot⟩ := Spot.mem_children.1 hn
      have hparent : (d.spot.parent?.map Tree.kind).getD "" = "import_clause" := hspot ▸ hkind'
      have hrise : rise d.spot = 2 := by simp [rise, hparent]
      rw [hrise, hspot]
      rfl
  | whole hkind hclause hpart hkind' hn horigin =>
      obtain ⟨i, clause, -, rfl⟩ := Spot.mem_children.1 hclause
      obtain ⟨j, part, -, rfl⟩ := Spot.mem_children.1 hpart
      obtain ⟨k, name, -, hspot⟩ := Spot.mem_children.1 hn
      have hparent : (d.spot.parent?.map Tree.kind).getD "" = "namespace_import" := hspot ▸ hkind'
      have hrise : rise d.spot = 3 := by simp [rise, hparent]
      rw [hrise, hspot]
      rfl
  | @named clause part spec name hkind hclause hpart hspec hkind' hname hn horigin =>
      obtain ⟨i, clause, -, rfl⟩ := Spot.mem_children.1 hclause
      obtain ⟨j, part, -, rfl⟩ := Spot.mem_children.1 hpart
      obtain ⟨k, spec, -, rfl⟩ := Spot.mem_children.1 hspec
      obtain ⟨l, local_, -, hspot⟩ := Spot.mem_children.1 (spot_mem_children hname hn)
      have hparent : (d.spot.parent?.map Tree.kind).getD "" = "import_specifier" := hspot ▸ hkind'
      have hrise : rise d.spot = 4 := by simp [rise, hparent]
      rw [hrise, hspot]
      rfl

/-! ### One scope for a name -/

theorem scope_of_mem_map_declare {names : List Spot} {m : Manner} {d : Declaration}
    (h : .declares d ∈ names.map (declare source m)) : d.scope = m.scope.owner := by
  obtain ⟨n, -, heq⟩ := List.mem_map.1 h
  cases heq
  rfl

theorem scope_of_mem_importsOf {scope : Scope} {s : Spot} {d : Declaration}
    (h : .declares d ∈ importsOf source scope s) : d.scope = scope.owner := by
  obtain ⟨clause, -, h⟩ := List.mem_flatMap.1 h
  obtain ⟨part, -, h⟩ := List.mem_flatMap.1 h
  rw [importEvents] at h
  split_ifs at h
  · cases List.mem_singleton.1 h
    rfl
  · obtain ⟨name, -, heq⟩ := List.mem_map.1 h
    cases heq
    rfl
  · obtain ⟨spec, -, hsome⟩ := List.mem_filterMap.1 h
    obtain ⟨name, -, heq⟩ := Option.map_eq_some_iff.1 hsome
    cases heq
    rfl
  · cases h

/-- A child of a node that declares names is not in a pattern in another field. -/
theorem field_eq_of_underPatterns {s a n : Spot} {field field' : String}
    (hkind : isDeclarer s.kind = true) (hn : s.child? field = some n)
    (ha : s.child? field' = some a) (hunder : UnderPatterns a n) : field = field' := by
  rcases hunder.eq_or_isPattern with rfl | ⟨parent, hparent, hpattern⟩
  · exact Option.some.inj ((Spot.field_of_child? hn).symm.trans (Spot.field_of_child? ha))
  · obtain ⟨number, child, -, rfl⟩ := Spot.mem_children.1 (Spot.mem_children_of_child? hn)
    cases hparent
    rw [show s.tree.kind = s.kind from rfl, isPattern_eq_false_of_isDeclarer hkind] at hpattern
    cases hpattern

theorem scope_eq_of_mem_functionEvents {around : List Scope} {s : Spot} {d d' : Declaration}
    (hkind : NodeKind.isFunction s.kind = true) (hspot : d.spot = d'.spot)
    (h : .declares d ∈ functionEvents source around s)
    (h' : .declares d' ∈ functionEvents source around s) : d.scope = d'.scope := by
  have hdeclarer : isDeclarer s.kind = true := by rw [isDeclarer, hkind]; rfl
  have hnamed : ∀ {m : Manner} {d : Declaration}, .declares d ∈ declareNamed source m s →
      s.child? "name" = some d.spot := by
    intro m d h
    obtain ⟨n, hn, heq⟩ := List.mem_map.1 h
    cases heq
    exact Option.mem_toList.1 hn
  have hbound : ∀ {m : Manner} {d : Declaration},
      .declares d ∈ (namesBound s "parameter").map (declare source m) →
      s.child? "name" ≠ some d.spot := by
    intro m d h hname
    obtain ⟨n, hn, heq⟩ := List.mem_map.1 h
    obtain ⟨a, ha, hunder, -⟩ := exists_of_mem_namesBound hn
    cases heq
    exact absurd (field_eq_of_underPatterns hdeclarer hname ha hunder) (by decide)
  rw [functionEvents] at h h'
  rcases List.mem_append.1 h with h | h <;> rcases List.mem_append.1 h' with h' | h'
  · split_ifs at h h'
    · rw [scope_of_mem_map_declare h, scope_of_mem_map_declare h']
    · cases h
    · rw [scope_of_mem_map_declare h, scope_of_mem_map_declare h']
  · refine absurd ?_ (hbound h')
    split_ifs at h
    · exact hspot ▸ hnamed h
    · cases h
    · exact hspot ▸ hnamed h
  · refine absurd ?_ (hbound h)
    split_ifs at h'
    · exact hspot ▸ hnamed h'
    · cases h'
    · exact hspot ▸ hnamed h'
  · rw [scope_of_mem_map_declare h, scope_of_mem_map_declare h']

theorem scope_eq_of_mem_visit {around : List Scope} {s : Spot} {d d' : Declaration}
    (hspot : d.spot = d'.spot) (h : .declares d ∈ (visit source around s).1)
    (h' : .declares d' ∈ (visit source around s).1) : d.scope = d'.scope := by
  have hvisit := visited source around s
  generalize (visit source around s).1 = es at h h' hvisit
  have hmember : ∀ {d : Declaration}, .declares d ∉ membersOf source s := by
    intro d h
    obtain ⟨_, _, heq⟩ := eq_member_of_mem_membersOf h
    cases heq
  cases hvisit with
  | nothing => cases h
  | function hkind => exact scope_eq_of_mem_functionEvents hkind hspot h h'
  | named m hkind => rw [scope_of_mem_map_declare h, scope_of_mem_map_declare h']
  | interface m hkind =>
      rw [scope_of_mem_map_declare ((List.mem_append.1 h).resolve_right hmember),
        scope_of_mem_map_declare ((List.mem_append.1 h').resolve_right hmember)]
  | loop hkind =>
      rw [loopEvents] at h h'
      split at h
      · cases h
      · rename_i kind hfield
        rw [hfield] at h'
        rw [scope_of_mem_map_declare h, scope_of_mem_map_declare h']
  | bound m field hkind => rw [scope_of_mem_map_declare h, scope_of_mem_map_declare h']
  | imports scope hkind => rw [scope_of_mem_importsOf h, scope_of_mem_importsOf h']
  | exports hkind => cases List.mem_singleton.1 h

theorem declares_notMem_identifierEvents {around : List Scope} {s : Spot} {d : Declaration} :
    .declares d ∉ identifierEvents source around s := by
  intro h
  rw [identifierEvents] at h
  rcases List.mem_append.1 h with h | h <;> split_ifs at h <;> simp at h

/-- A declaration comes from a visit. -/
theorem exists_of_declares_mem_events {d : Declaration} (h : .declares d ∈ events source) :
    ∃ s around, Walks source s around ∧ .declares d ∈ (visit source around s).1 := by
  obtain ⟨s, around, hs, h⟩ := exists_spot_of_mem_events h
  exact ⟨s, around, hs, h.resolve_left declares_notMem_identifierEvents⟩

theorem name_of_declares_mem_events {d : Declaration} (h : .declares d ∈ events source) :
    d.name = source.textOf d.spot.tree := by
  obtain ⟨s, around, -, h⟩ := exists_of_declares_mem_events h
  exact (declares_of_mem_visit h).2

/-- The declarations of one spot are in one scope. -/
theorem scope_eq_of_spot_eq {d d' : Declaration} (h : .declares d ∈ events source)
    (h' : .declares d' ∈ events source) (hspot : d.spot = d'.spot) : d.scope = d'.scope := by
  obtain ⟨s, around, hs, h⟩ := exists_of_declares_mem_events h
  obtain ⟨s', around', hs', h'⟩ := exists_of_declares_mem_events h'
  have haddress := (declares_of_mem_visit h).1.address_eq
  rw [hspot, ← (declares_of_mem_visit h').1.address_eq] at haddress
  obtain rfl := Spot.eq_of_address_eq hs.under hs'.under haddress
  obtain rfl := hs.unique hs' rfl
  exact scope_eq_of_mem_visit hspot h h'

/-! ### The names of imports -/

/-- A child is directly below one spot only. -/
theorem eq_of_mem_children {s s' c : Spot} (h : c ∈ s.children) (h' : c ∈ s'.children) :
    s = s' := by
  obtain ⟨i, child, -, rfl⟩ := Spot.mem_children.1 h
  obtain ⟨j, child', -, heq⟩ := Spot.mem_children.1 h'
  obtain ⟨t, above, address⟩ := s
  obtain ⟨t', above', address'⟩ := s'
  simp only [Spot.below, Spot.mk.injEq, List.cons.injEq] at heq ⊢
  exact ⟨heq.2.1.1, heq.2.1.2, heq.2.2.2⟩

/-- The kinds of nodes that declared names stand in directly. -/
def holdsNames (kind : String) : Bool :=
  isPattern kind || isDeclarer kind
    || ["import_clause", "namespace_import", "import_specifier"].contains kind

/-- A child of a node that holds no declared names is not declared. -/
theorem spot_ne_of_mem_children {d : Declaration} (h : .declares d ∈ events source) {s n : Spot}
    (hn : n ∈ s.children) (hkind : holdsNames s.kind = false) : d.spot ≠ n := by
  rintro rfl
  obtain ⟨s', around, -, h⟩ := exists_of_declares_mem_events h
  have hheld : ∀ {parent : Spot}, d.spot ∈ parent.children → holdsNames parent.kind = false :=
    fun hparent => eq_of_mem_children hn hparent ▸ hkind
  cases (declares_of_mem_visit h).1 with
  | bound hkind' ha hn' horigin =>
      obtain ⟨parent, hparent, hparentkind⟩ := Declares.parent_of_bound hkind' ha hn'
      obtain ⟨j, name, -, hspot⟩ := Spot.mem_children.1 hn
      rw [hspot] at hparent
      cases hparent
      rw [holdsNames, show (isPattern s.kind || isDeclarer s.kind) = true from hparentkind,
        Bool.true_or] at hkind
      cases hkind
  | default hkind' hclause hclausekind hn' horigin =>
      exact absurd (hclausekind ▸ hheld hn') (by decide)
  | whole hkind' hclause hpart hpartkind hn' horigin =>
      exact absurd (hpartkind ▸ hheld hn') (by decide)
  | named hkind' hclause hpart hspec hspeckind hname hn' horigin =>
      exact absurd (hspeckind ▸ hheld (spot_mem_children hname hn')) (by decide)

/-- The name that is declared in a part of an import is the local one. -/
theorem spot_of_declares_of_mem_children {d : Declaration} (h : .declares d ∈ events source)
    {spec : Spot} (hkind : spec.kind = "import_specifier") (hn : d.spot ∈ spec.children) :
    ∃ name, spec.child? "name" = some name ∧ d.spot = (spec.child? "alias").getD name := by
  obtain ⟨s, around, -, h⟩ := exists_of_declares_mem_events h
  obtain ⟨j, name, -, hspot⟩ := Spot.mem_children.1 hn
  cases (declares_of_mem_visit h).1 with
  | bound hkind' ha hn' horigin =>
      obtain ⟨parent', hparent', hparentkind⟩ := Declares.parent_of_bound hkind' ha hn'
      rw [hspot] at hparent'
      cases hparent'
      rw [← Spot.kind, hkind] at hparentkind
      exact absurd hparentkind (by decide)
  | default hkind' hclause hclausekind hn' horigin =>
      rw [eq_of_mem_children hn' hn, hkind] at hclausekind
      exact absurd hclausekind (by decide)
  | whole hkind' hclause hpart hpartkind hn' horigin =>
      rw [eq_of_mem_children hn' hn, hkind] at hpartkind
      exact absurd hpartkind (by decide)
  | named hkind' hclause hpart hspec hspeckind hname hn' horigin =>
      obtain rfl := eq_of_mem_children (spot_mem_children hname hn') hn
      exact ⟨_, hname, hn'⟩

/-- The name of what is imported stands beside the local name or is it. -/
theorem exists_of_nameSpot {d : Declaration} (h : .declares d ∈ events source) {i : Import}
    (hi : d.origin = some i) {n : Spot} (hn : i.nameSpot = some n) :
    ∃ spec : Spot, spec.kind = "import_specifier" ∧ spec.child? "name" = some n ∧
      d.spot = (spec.child? "alias").getD n ∧ i.imported = unquoted (source.textOf n.tree) := by
  obtain ⟨s, around, -, h⟩ := exists_of_declares_mem_events h
  cases (declares_of_mem_visit h).1 with
  | bound hkind ha hn' horigin =>
      rw [horigin] at hi
      cases hi
  | default hkind hclause hkind' hn' horigin =>
      rw [horigin i hi] at hn
      cases hn
  | whole hkind hclause hpart hkind' hn' horigin =>
      rw [horigin i hi] at hn
      cases hn
  | named hkind hclause hpart hspec hkind' hname hn' horigin =>
      obtain ⟨hspot, himported⟩ := horigin i hi
      rw [hn] at hspot
      cases hspot
      exact ⟨_, hkind', hname, hn', himported⟩

end Scope

end Redline
