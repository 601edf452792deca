import Redline.Proofs.Scope.Declared
import Redline.Proofs.Scope.Identifiers

/-!
# One binding for a node

In a well-formed file every node belongs to one binding at most: the declarations of a spot are in
one scope, a use is looked up from one place, and a node that declares a name is no use. So what is
found at the start of a node is the binding that the node belongs to. Parts of imports, export
clauses and accesses that only name something in another module belong to none.
-/

namespace Redline

namespace Scope

variable {source : Source}

/-- A use comes from the visit of its own node. -/
theorem uses_of_mem_events {n : Spot} {name : String} {around : List Scope}
    (h : .uses n name around ∈ events source) :
    Walks source n around ∧ name = source.textOf n.tree ∧ NodeKind.isReference n.kind = true := by
  obtain ⟨s, around', hs, h | h⟩ := exists_spot_of_mem_events h
  · rw [identifierEvents] at h
    rcases List.mem_append.1 h with h | h
    · split_ifs at h <;> simp at h
    · split_ifs at h with hkind
      · cases List.mem_singleton.1 h
        exact ⟨hs, rfl, hkind⟩
      · cases h
  · rcases eq_of_mem_visit h with ⟨d, heq⟩ | ⟨n, text, heq⟩ | ⟨heq, -⟩ <;> cases heq

/-! ### The bindings of a file -/

theorem pairwise_bindingsFrom {seen ds : List Declaration}
    (h : seen.Pairwise fun a b => b.merges a = false) :
    (bindingsFrom seen ds).Pairwise fun a b => b.merges a = false := by
  induction ds generalizing seen with
  | nil => exact h
  | cons d ds ih =>
      rw [bindingsFrom]
      split_ifs with hany
      · exact ih h
      · refine ih (List.pairwise_append.2 ⟨h, List.pairwise_singleton _ _, fun a ha b hb => ?_⟩)
        rw [List.mem_singleton.1 hb, Bool.eq_false_iff]
        exact fun hmerges => hany (List.any_eq_true.2 ⟨a, ha, hmerges⟩)

/-- Different bindings have different names or scopes. -/
theorem eq_of_bindings {ds : List Declaration} {j k : Nat} {d d' : Declaration}
    (hj : (bindings ds)[j]? = some d) (hk : (bindings ds)[k]? = some d')
    (hscope : d.scope = d'.scope) (hname : d.name = d'.name) : j = k := by
  obtain ⟨hjlt, rfl⟩ := List.getElem?_eq_some_iff.1 hj
  obtain ⟨hklt, rfl⟩ := List.getElem?_eq_some_iff.1 hk
  have hpairwise : (bindings ds).Pairwise fun a b => b.merges a = false :=
    pairwise_bindingsFrom List.Pairwise.nil
  rw [List.pairwise_iff_getElem] at hpairwise
  rcases Nat.lt_trichotomy j k with hlt | heq | hgt
  · have hfalse := hpairwise j k hjlt hklt hlt
    simp [bindings, Declaration.merges] at hscope hname hfalse
    exact absurd hname.symm (hfalse hscope.symm)
  · exact heq
  · have hfalse := hpairwise k j hklt hjlt hgt
    simp [bindings, Declaration.merges] at hscope hname hfalse
    exact absurd hname (hfalse hscope)

theorem exists_of_find? {bs : List Declaration} {scope : Option Address} {name : String} {k : Nat}
    (h : find? bs scope name = some k) :
    ∃ d, bs[k]? = some d ∧ d.scope = scope ∧ d.name = name := by
  obtain ⟨hk, hd, -⟩ := List.findIdx?_eq_some_iff_getElem.1 h
  refine ⟨bs[k], List.getElem?_eq_getElem hk, ?_⟩
  simpa using hd

/-- A binding is found by its scope and name. -/
theorem find?_of_bindings {ds : List Declaration} {k : Nat} {d : Declaration}
    (h : (bindings ds)[k]? = some d) : find? (bindings ds) d.scope d.name = some k := by
  cases hfind : find? (bindings ds) d.scope d.name with
  | none =>
      have hno := List.findIdx?_eq_none_iff.1 hfind d (List.mem_of_getElem? h)
      simp at hno
  | some j =>
      obtain ⟨d', hd', hscope, hname⟩ := exists_of_find? hfind
      rw [eq_of_bindings hd' h hscope hname]

end Scope

namespace Scopes

open Scope

variable {source : Source}

/-- The first declaration of a binding belongs to it. -/
theorem mem_mentions_of_binding? {k : Nat} {d : Declaration}
    (h : (ofSource source).binding? k = some d) :
    { spot := d.spot, binding := k } ∈ (ofSource source).mentions := by
  refine List.mem_append_left _ (List.mem_filterMap.2 ⟨d, mem_declarations_of_binding? h, ?_⟩)
  rw [find?_of_bindings h]
  rfl

/-- A node belongs to one of the bindings, by whose name it goes. -/
theorem exists_binding?_of_mem_mentions {m : Mention} (hm : m ∈ (ofSource source).mentions) :
    ∃ d, (ofSource source).binding? m.binding = some d ∧ source.textOf m.spot.tree = d.name := by
  rcases List.mem_append.1 hm with hm | hm
  · obtain ⟨d', hd', hspot, hfind⟩ := exists_of_mem_declaredMentions hm
    obtain ⟨d, hd, -, hname⟩ := exists_of_find? hfind
    refine ⟨d, hd, ?_⟩
    rw [hspot, hname, name_of_declares_mem_events (mem_declarations.1 hd')]
  · obtain ⟨name, around, huse, -, -, hlookup⟩ := exists_of_mem_usedMentions hm
    obtain ⟨_, -, hfind⟩ := List.exists_of_findSome?_eq_some hlookup
    obtain ⟨d, hd, -, hname⟩ := exists_of_find? hfind
    refine ⟨d, hd, ?_⟩
    rw [hname, (uses_of_mem_events huse).2.1]

/-- Two mentions that start at one octet are of one binding. -/
theorem binding_eq_of_start_eq (hw : source.WellFormed) {m m' : Mention}
    (hm : m ∈ (ofSource source).mentions) (hm' : m' ∈ (ofSource source).mentions)
    (hstart : m.spot.start = m'.spot.start) : m.binding = m'.binding := by
  have hspot := hw.eq_of_start_eq (identifier_of_mem_mentions hw hm)
    (identifier_of_mem_mentions hw hm') hstart
  have hmixed : ∀ {m m' : Mention}, m.spot = m'.spot →
      m ∈ declaredMentions (Scope.bindings (declarations (events source)))
        (declarations (events source)) →
      m' ∉ usedMentions (Scope.bindings (declarations (events source)))
        ((declarations (events source)).map (·.spot.start)) (events source) := by
    intro m m' hspot hm hm'
    obtain ⟨d, hd, hdspot, -⟩ := exists_of_mem_declaredMentions hm
    obtain ⟨_, _, -, hno, -⟩ := exists_of_mem_usedMentions hm'
    exact hno (List.mem_map.2 ⟨d, hd, by rw [← hdspot, hspot]⟩)
  rcases List.mem_append.1 hm with hm | hm <;> rcases List.mem_append.1 hm' with hm' | hm'
  · obtain ⟨d, hd, hdspot, hfind⟩ := exists_of_mem_declaredMentions hm
    obtain ⟨d', hd', hdspot', hfind'⟩ := exists_of_mem_declaredMentions hm'
    have hd := mem_declarations.1 hd
    have hd' := mem_declarations.1 hd'
    have heq : d.spot = d'.spot := by rw [← hdspot, ← hdspot', hspot]
    rw [scope_eq_of_spot_eq hd hd' heq, name_of_declares_mem_events hd, heq,
      ← name_of_declares_mem_events hd', hfind'] at hfind
    exact (Option.some.inj hfind).symm
  · exact absurd hm' (hmixed hspot hm)
  · exact absurd hm (hmixed hspot.symm hm')
  · obtain ⟨name, around, huse, -, -, hlookup⟩ := exists_of_mem_usedMentions hm
    obtain ⟨name', around', huse', -, -, hlookup'⟩ := exists_of_mem_usedMentions hm'
    obtain ⟨hwalks, rfl, -⟩ := uses_of_mem_events huse
    obtain ⟨hwalks', rfl, -⟩ := uses_of_mem_events huse'
    rw [hwalks.unique hwalks' hspot, hspot, hlookup'] at hlookup
    exact (Option.some.inj hlookup).symm

theorem exists_mention_of_at? {start k : Nat} (h : (ofSource source).at? start = some k) :
    ∃ m ∈ (ofSource source).mentions, m.spot.start = start ∧ m.binding = k := by
  obtain ⟨m, hm, rfl⟩ := Option.map_eq_some_iff.1 h
  obtain ⟨hm, hstart⟩ := List.mem_filter.1 (List.mem_of_getLast? hm)
  exact ⟨m, hm, by simpa using hstart, rfl⟩

/-- What is found at the start of a node is the binding that the node belongs to. -/
theorem at?_of_mem_mentions (hw : source.WellFormed) {m : Mention}
    (hm : m ∈ (ofSource source).mentions) :
    (ofSource source).at? m.spot.start = some m.binding := by
  cases hat : (ofSource source).at? m.spot.start with
  | none =>
      rw [at?, mentionedAt?, Option.map_eq_none_iff, List.getLast?_eq_none_iff,
        List.filter_eq_nil_iff] at hat
      exact absurd (by simp) (hat m hm)
  | some k =>
      obtain ⟨m', hm', hstart, rfl⟩ := exists_mention_of_at? hat
      rw [binding_eq_of_start_eq hw hm' hm hstart]

theorem mem_spotsOf {k : Nat} {n : Spot} :
    n ∈ (ofSource source).spotsOf k ↔ { spot := n, binding := k } ∈ (ofSource source).mentions := by
  rw [spotsOf, List.mem_map]
  constructor
  · rintro ⟨m, hm, rfl⟩
    obtain ⟨hm, hk⟩ := List.mem_filter.1 hm
    rw [beq_iff_eq] at hk
    exact hk ▸ hm
  · intro h
    exact ⟨_, List.mem_filter.2 ⟨h, by simp⟩, rfl⟩

theorem at?_of_mem_spotsOf (hw : source.WellFormed) {k : Nat} {n : Spot}
    (h : n ∈ (ofSource source).spotsOf k) : (ofSource source).at? n.start = some k :=
  at?_of_mem_mentions hw (mem_spotsOf.1 h)

theorem exists_of_at? {start k : Nat} (h : (ofSource source).at? start = some k) :
    ∃ n ∈ (ofSource source).spotsOf k, n.start = start := by
  obtain ⟨m, hm, hstart, rfl⟩ := exists_mention_of_at? h
  exact ⟨m.spot, mem_spotsOf.2 hm, hstart⟩

/-! ### Nodes that belong to no binding -/

/-- A node that declares nothing and is no use belongs to no binding. -/
theorem at?_eq_none (hw : source.WellFormed) {n : Spot} (hn : source.Identifier n)
    (hdeclares : ∀ d, .declares d ∈ events source → d.spot ≠ n)
    (huse : isUse n = false ∨ NodeKind.isReference n.kind = false) :
    (ofSource source).at? n.start = none := by
  cases hat : (ofSource source).at? n.start with
  | none => rfl
  | some k =>
      exfalso
      obtain ⟨m, hm, hstart, -⟩ := exists_mention_of_at? hat
      have hspot := hw.eq_of_start_eq (identifier_of_mem_mentions hw hm) hn hstart
      rcases List.mem_append.1 hm with hm | hm
      · obtain ⟨d, hd, hdspot, -⟩ := exists_of_mem_declaredMentions hm
        exact hdeclares d (mem_declarations.1 hd) (hdspot.symm.trans hspot)
      · obtain ⟨_, _, he, -, htrue, -⟩ := exists_of_mem_usedMentions hm
        have hkind := (uses_of_mem_events he).2.2
        rw [hspot] at htrue hkind
        rcases huse with hfalse | hfalse
        · rw [htrue] at hfalse
          cases hfalse
        · rw [hkind] at hfalse
          cases hfalse

/-- The name of what is imported belongs to no binding where it stands beside the local name. -/
theorem at?_nameSpot_eq_none (hw : source.WellFormed) {spec n : Spot} (hn : source.Identifier n)
    (hkind : spec.kind = "import_specifier") (hname : spec.child? "name" = some n)
    (hlocal : n ≠ (spec.child? "alias").getD n) : (ofSource source).at? n.start = none := by
  have hchild := Spot.mem_children_of_child? hname
  refine at?_eq_none hw hn (fun d hd hspot => ?_) (Or.inl ?_)
  · obtain ⟨name, hname', hdspot⟩ :=
      spot_of_declares_of_mem_children hd hkind (hspot ▸ hchild)
    rw [hname] at hname'
    cases hname'
    exact hlocal (hspot.symm.trans hdspot)
  · obtain ⟨i, child, -, rfl⟩ := Spot.mem_children.1 hchild
    show (if spec.kind = _ ∨ spec.kind = _ then false else _) = false
    rw [if_pos (Or.inl hkind)]

/-- A name that is exported from another module belongs to no binding. -/
theorem at?_exported_eq_none (hw : source.WellFormed) {s clause spec n : Spot}
    (hn : source.Identifier n) (hsource : (s.child? "source").isSome)
    (hclause : clause ∈ s.children) (hspec : spec ∈ clause.children)
    (hkind : spec.kind = "export_specifier") (hname : spec.child? "name" = some n) :
    (ofSource source).at? n.start = none := by
  obtain ⟨i, clause, -, rfl⟩ := Spot.mem_children.1 hclause
  obtain ⟨j, spec, -, rfl⟩ := Spot.mem_children.1 hspec
  have hname := Spot.mem_children_of_child? hname
  refine at?_eq_none hw hn
    (fun d hd => spot_ne_of_mem_children hd hname (by rw [hkind]; decide)) (Or.inl ?_)
  obtain ⟨k, name, -, rfl⟩ := Spot.mem_children.1 hname
  have hsource' : (s.tree.child? "source").isSome = true := by
    rw [Tree.child?, List.find?_isSome]
    obtain ⟨c, hc⟩ := Option.isSome_iff_exists.1 hsource
    obtain ⟨l, child, hchild, rfl⟩ := Spot.mem_children.1 (Spot.mem_children_of_child? hc)
    exact ⟨child, List.mem_of_getElem? hchild, beq_iff_eq.2 (Spot.field_of_child? hc)⟩
  have hkind : spec.kind = "export_specifier" := hkind
  simp [isUse, Spot.below, hkind, hsource']

/-- A child of a node that holds no declared names belongs to no binding if it is nothing that is
looked up. -/
theorem at?_child_eq_none (hw : source.WellFormed) {p n : Spot} (hn : source.Identifier n)
    (hchild : n ∈ p.children) (hkind : holdsNames p.kind = false)
    (hreference : NodeKind.isReference n.kind = false) : (ofSource source).at? n.start = none :=
  at?_eq_none hw hn (fun _ hd => spot_ne_of_mem_children hd hchild hkind) (Or.inr hreference)

end Scopes

end Redline
