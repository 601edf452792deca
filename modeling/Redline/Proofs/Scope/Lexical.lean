import Redline.Proofs.Scope.Fresh
import Redline.Proofs.Scope.Introduced

/-!
# Names mean what the rules of scoping say

One binding stands for a name in a scope, with all nodes that declare it there. A use belongs to the
binding of its name in the nearest scope around it where any node of the file declares the name, and
to none where no scope around it has the name. Bindings are looked up by the octet that a node
starts at, so uses are told apart by it, and a use starts where no declared name does.
-/

namespace Redline

namespace Scope

/-- A node that uses a name: looked up by its kind and place, with no declared name in its place. -/
structure IsUsed (source : Source) (n : Spot) : Prop where
  under : (Spot.root source.tree).Under n
  kind : NodeKind.isReference n.kind = true
  place : isUse n = true
  undeclared : ∀ owner name m, DeclaredIn source owner name m → m.start ≠ n.start

/-- The binding of the text of a node in the nearest scope around it where the text is declared. -/
def Resolves (source : Source) (n : Spot) (k : Nat) : Prop :=
  ∃ nearer scope outer d, chain n = nearer ++ scope :: outer ∧
    (∀ o ∈ nearer, ∀ m, ¬ DeclaredIn source o.owner (source.textOf n.tree) m) ∧
    (∃ m, DeclaredIn source scope.owner (source.textOf n.tree) m) ∧
    (Scopes.ofSource source).binding? k = some d ∧ d.scope = scope.owner ∧
      d.name = source.textOf n.tree

variable {source : Source}

/-- In a well-formed file a node that is looked up and declares nothing is used. -/
theorem isUsed_of_wellFormed (hw : source.WellFormed) {n : Spot}
    (hn : (Spot.root source.tree).Under n) (hkind : NodeKind.isReference n.kind = true)
    (hplace : isUse n = true) (hno : ∀ owner name, ¬ DeclaredIn source owner name n) :
    IsUsed source n := by
  refine ⟨hn, hkind, hplace, fun owner name m hm hstart => ?_⟩
  obtain ⟨d, hd, -, -, rfl⟩ := declares_mem_events_iff.2 hm
  have hid := identifier_of_mem_events hw hd d.spot List.mem_cons_self
  have hid' : source.Identifier n := ⟨hn, by rw [NodeKind.isIdentifier, hkind, Bool.true_or]⟩
  exact hno owner name (hw.eq_of_start_eq hid hid' hstart ▸ hm)

theorem IsUsed.identifier {n : Spot} (h : IsUsed source n) : source.Identifier n :=
  ⟨h.under, by rw [NodeKind.isIdentifier, h.kind, Bool.true_or]⟩

/-! ### Bindings and the scopes that have them -/

/-- A scope has a binding of a name when a node declares the name there. -/
theorem find?_eq_none_iff {owner : Option Address} {name : String} :
    find? (bindings (declarations (events source))) owner name = none ↔
      ∀ m, ¬ DeclaredIn source owner name m := by
  constructor
  · intro hnone m hm
    obtain ⟨d, hd, rfl, rfl, -⟩ := declares_mem_events_iff.2 hm
    obtain ⟨k, hk, -⟩ := Renamed.exists_find?_of_declares hd
    rw [hnone] at hk
    cases hk
  · intro hno
    cases hfind : find? (bindings (declarations (events source))) owner name with
    | none => rfl
    | some k =>
        obtain ⟨d, hd, howner, hname⟩ := exists_of_find? hfind
        have hd := mem_declarations.1 (mem_of_mem_bindings (List.mem_of_getElem? hd))
        exact absurd (declares_mem_events_iff.1 ⟨d, hd, howner, hname, rfl⟩) (hno d.spot)

theorem find?_eq_some_iff {owner : Option Address} {name : String} {k : Nat} :
    find? (bindings (declarations (events source))) owner name = some k ↔
      ∃ d, (Scopes.ofSource source).binding? k = some d ∧ d.scope = owner ∧ d.name = name := by
  constructor
  · exact exists_of_find?
  · rintro ⟨d, hd, rfl, rfl⟩
    exact find?_of_bindings hd

/-- What is looked up from the scopes around a node is what the node resolves to. -/
theorem lookup?_eq_some_iff {n : Spot} {k : Nat} :
    lookup? (bindings (declarations (events source))) (chain n) (source.textOf n.tree) = some k ↔
      Resolves source n k := by
  rw [lookup?, List.findSome?_eq_some_iff]
  constructor
  · rintro ⟨nearer, scope, outer, hchain, hfind, hnone⟩
    obtain ⟨d, hd⟩ := find?_eq_some_iff.1 hfind
    refine ⟨nearer, scope, outer, d, hchain, fun o ho => find?_eq_none_iff.1 (hnone o ho), ?_, hd⟩
    by_contra hno
    rw [find?_eq_none_iff.2 (not_exists.1 hno)] at hfind
    cases hfind
  · rintro ⟨nearer, scope, outer, d, hchain, hnone, -, hd⟩
    exact ⟨nearer, scope, outer, hchain, find?_eq_some_iff.2 ⟨d, hd⟩,
      fun o ho => find?_eq_none_iff.2 (hnone o ho)⟩

theorem lookup?_eq_none_iff {n : Spot} :
    lookup? (bindings (declarations (events source))) (chain n) (source.textOf n.tree) = none ↔
      ∀ scope ∈ chain n, ∀ m, ¬ DeclaredIn source scope.owner (source.textOf n.tree) m := by
  simp only [lookup?, List.findSome?_eq_none_iff, find?_eq_none_iff]

/-! ### Uses -/

/-- The walk tells of a use at each node that is looked up, in the scopes of its chain. -/
theorem uses_mem_events_iff {n : Spot} {name : String} {around : List Scope} :
    .uses n name around ∈ events source ↔
      (Spot.root source.tree).Under n ∧ NodeKind.isReference n.kind = true ∧
        name = source.textOf n.tree ∧ around = chain n := by
  constructor
  · intro h
    obtain ⟨s, hs, h | h⟩ := mem_events.1 h
    · rw [identifierEvents] at h
      rcases List.mem_append.1 h with h | h
      · split_ifs at h <;> simp at h
      · split_ifs at h with hkind
        · cases List.mem_singleton.1 h
          exact ⟨hs, hkind, rfl, rfl⟩
        · cases h
    · rcases eq_of_mem_visit h with ⟨d, heq⟩ | ⟨n, text, heq⟩ | ⟨heq, -⟩ <;> cases heq
  · rintro ⟨hs, hkind, rfl, rfl⟩
    refine mem_events.2 ⟨n, hs, Or.inl (List.mem_append_right _ ?_)⟩
    rw [if_pos hkind]
    exact List.mem_singleton_self _

theorem start_mem_iff {start : Nat} :
    start ∈ (declarations (events source)).map (·.spot.start) ↔
      ∃ owner name m, DeclaredIn source owner name m ∧ m.start = start := by
  rw [List.mem_map]
  constructor
  · rintro ⟨d, hd, rfl⟩
    exact ⟨_, _, d.spot,
      declares_mem_events_iff.1 ⟨d, mem_declarations.1 hd, rfl, rfl, rfl⟩, rfl⟩
  · rintro ⟨owner, name, m, hm, rfl⟩
    obtain ⟨d, hd, -, -, rfl⟩ := declares_mem_events_iff.2 hm
    exact ⟨d, mem_declarations.2 hd, rfl⟩

end Scope

namespace Scopes

open Scope

variable {source : Source}

/-- The nodes of a binding: those that declare it and the uses that resolve to it. -/
theorem mem_mentions_iff {n : Spot} {k : Nat} :
    { spot := n, binding := k } ∈ (ofSource source).mentions ↔
      (∃ d, (ofSource source).binding? k = some d ∧ DeclaredIn source d.scope d.name n) ∨
        IsUsed source n ∧ Resolves source n k := by
  constructor
  · intro h
    rcases List.mem_append.1 h with h | h
    · obtain ⟨d, hd, rfl, hfind⟩ := exists_of_mem_declaredMentions h
      obtain ⟨b, hb, hscope, hname⟩ := exists_of_find? hfind
      exact Or.inl ⟨b, hb, declares_mem_events_iff.1
        ⟨d, mem_declarations.1 hd, hscope.symm, hname.symm, rfl⟩⟩
    · obtain ⟨name, around, huse, hfree, hplace, hlookup⟩ := exists_of_mem_usedMentions h
      obtain ⟨hunder, hkind, rfl, rfl⟩ := uses_mem_events_iff.1 huse
      refine Or.inr ⟨⟨hunder, hkind, hplace, fun owner name m hm hstart => ?_⟩,
        lookup?_eq_some_iff.1 hlookup⟩
      exact hfree (start_mem_iff.2 ⟨owner, name, m, hm, hstart⟩)
  · rintro (⟨b, hb, hn⟩ | ⟨hused, hresolves⟩)
    · obtain ⟨d, hd, hscope, hname, rfl⟩ := declares_mem_events_iff.2 hn
      refine List.mem_append_left _ (List.mem_filterMap.2 ⟨d, mem_declarations.2 hd, ?_⟩)
      rw [hscope, hname, find?_of_bindings hb]
      rfl
    · have huse := uses_mem_events_iff.2 ⟨hused.under, hused.kind, rfl, rfl⟩
      refine List.mem_append_right _ (List.mem_filterMap.2 ⟨_, huse, ?_⟩)
      have hfree :
          ((declarations (events source)).map (·.spot.start)).contains n.start = false := by
        rw [Bool.eq_false_iff, ne_eq, List.contains_iff_mem, start_mem_iff]
        rintro ⟨owner, name, m, hm, hstart⟩
        exact hused.undeclared owner name m hm hstart
      dsimp only
      rw [hfree, hused.place, if_neg (by decide), lookup?_eq_some_iff.2 hresolves]
      rfl

/-- What is found at a use, if no other use starts there. -/
theorem at?_eq_lookup? {n : Spot} (hused : IsUsed source n)
    (hsole : ∀ m, IsUsed source m → m.start = n.start → m = n) :
    (ofSource source).at? n.start =
      lookup? (Scope.bindings (declarations (events source))) (chain n) (source.textOf n.tree) := by
  have hsound : ∀ k, (ofSource source).at? n.start = some k → Resolves source n k := by
    intro k hk
    obtain ⟨m, hm, hstart, rfl⟩ := exists_mention_of_at? hk
    rcases mem_mentions_iff.1 hm with ⟨d, -, hdeclared⟩ | ⟨hm, hresolves⟩
    · exact absurd hstart (hused.undeclared _ _ _ hdeclared)
    · exact hsole _ hm hstart ▸ hresolves
  cases hat : (ofSource source).at? n.start with
  | some k => exact (lookup?_eq_some_iff.2 (hsound k hat)).symm
  | none =>
      symm
      rw [Option.eq_none_iff_forall_ne_some]
      intro k hk
      have hm := mem_mentions_iff.2 (Or.inr ⟨hused, lookup?_eq_some_iff.1 hk⟩)
      rw [at?, mentionedAt?, Option.map_eq_none_iff, List.getLast?_eq_none_iff,
        List.filter_eq_nil_iff] at hat
      exact hat _ hm (by simp)

/-- Lexical scoping. The nodes that declare one name in one scope are nodes of one binding, the only
one of that name and scope; a use is a node of the binding that it resolves to, which is found at
its first octet if no other use starts there, and nothing is found there when no scope around the
use has the name. -/
theorem lexical_scoping (source : Source) :
    (∀ owner name n, DeclaredIn source owner name n →
      ∃ k d, (ofSource source).binding? k = some d ∧ d.scope = owner ∧ d.name = name ∧
        (∀ j e, (ofSource source).binding? j = some e → e.scope = owner → e.name = name → j = k) ∧
        ∀ m, DeclaredIn source owner name m → m ∈ (ofSource source).spotsOf k) ∧
    ∀ n, IsUsed source n →
      (∀ k, n ∈ (ofSource source).spotsOf k ↔ Resolves source n k) ∧
      ((∀ m, IsUsed source m → m.start = n.start → m = n) →
        (∀ k, (ofSource source).at? n.start = some k ↔ Resolves source n k) ∧
        ((ofSource source).at? n.start = none ↔
          ∀ scope ∈ chain n, ∀ m, ¬ DeclaredIn source scope.owner (source.textOf n.tree) m)) := by
  refine ⟨fun owner name n hn => ?_, fun n hused => ⟨fun k => ?_, fun hsole => ⟨fun k => ?_, ?_⟩⟩⟩
  · cases hfind : find? (Scope.bindings (declarations (events source))) owner name with
    | none => exact absurd hn (find?_eq_none_iff.1 hfind n)
    | some k =>
        obtain ⟨d, hd, rfl, rfl⟩ := find?_eq_some_iff.1 hfind
        refine ⟨k, d, hd, rfl, rfl, fun j e he hscope hname => eq_of_bindings he hd hscope hname,
          fun m hm => mem_spotsOf.2 (mem_mentions_iff.2 (Or.inl ⟨d, hd, hm⟩))⟩
  · rw [mem_spotsOf, mem_mentions_iff]
    refine ⟨fun h => ?_, fun h => Or.inr ⟨hused, h⟩⟩
    rcases h with ⟨d, -, hdeclared⟩ | ⟨-, hresolves⟩
    · exact absurd rfl (hused.undeclared _ _ _ hdeclared)
    · exact hresolves
  · rw [at?_eq_lookup? hused hsole, lookup?_eq_some_iff]
  · rw [at?_eq_lookup? hused hsole, lookup?_eq_none_iff]

/-- A name that is used in a block before it is declared there with `var`. -/
def hoisting : Source :=
  Source.make "a.ts" (Text.Utf8.encode "\x7b x; var x; \x7d\n")
    (.ofKind "program" 0 14 [.ofKind "statement_block" 0 13 [.token "\x7b" 0 1 none,
      .ofKind "expression_statement" 2 4 [.ofKind "identifier" 2 3 [], .token ";" 3 4 none],
      .ofKind "variable_declaration" 5 11 [.token "var" 5 8 none,
        .ofKind "variable_declarator" 9 10 [.inField "name" "identifier" 9 10 []],
        .token ";" 10 11 none],
      .token "\x7d" 12 13 none]])

/-- The use comes first, in the scope of the block; the declaration is in the scope of the file, and
both nodes belong to its binding. -/
theorem lexical_scoping_hoisting :
    ∃ n, IsUsed hoisting n ∧ (∀ m, IsUsed hoisting m → m.start = n.start → m = n) ∧
      n.start = 2 ∧ (chain n).length = 2 ∧ Resolves hoisting n 0 ∧
      ∃ m, DeclaredIn hoisting none "x" m ∧ m.start = 9 ∧
        m ∈ (ofSource hoisting).spotsOf 0 ∧ n ∈ (ofSource hoisting).spotsOf 0 := by
  have hw : hoisting.WellFormed := by decide +kernel
  obtain ⟨n, hn⟩ : ∃ n, hoisting.identifiers[0]? = some n := ⟨_, rfl⟩
  have hstart : n.start = 2 := by
    cases hn
    rfl
  have hused : IsUsed hoisting n := by
    obtain ⟨hunder, -⟩ := Source.mem_identifiers.1 (List.mem_of_getElem? hn)
    refine isUsed_of_wellFormed hw hunder (by cases hn; rfl) (by cases hn; rfl) ?_
    intro owner name hdeclared
    have hmem := start_mem_iff.2 ⟨owner, name, n, hdeclared, hstart⟩
    revert hmem
    decide +kernel
  have hsole : ∀ m, IsUsed hoisting m → m.start = n.start → m = n := fun m hm hstart =>
    hw.eq_of_start_eq hm.identifier hused.identifier hstart
  obtain ⟨hdeclared, huses⟩ := lexical_scoping hoisting
  obtain ⟨hspots, hat⟩ := huses n hused
  have hresolves : Resolves hoisting n 0 :=
    ((hat hsole).1 0).1 (by rw [hstart]; decide +kernel)
  obtain ⟨d, hd⟩ : ∃ d, (ofSource hoisting).binding? 0 = some d := ⟨_, rfl⟩
  have hfields : d.scope = none ∧ d.name = "x" ∧ d.spot.start = 9 := by
    have hall : ((ofSource hoisting).binding? 0).all
        (fun d => d.scope == none && d.name == "x" && d.spot.start == 9) = true := by
      decide +kernel
    simpa [hd, and_assoc] using hall
  have hm : DeclaredIn hoisting none "x" d.spot := declares_mem_events_iff.1
    ⟨d, mem_declarations.1 (mem_declarations_of_binding? hd), hfields.1, hfields.2.1, rfl⟩
  obtain ⟨k, -, -, -, -, honly, hall⟩ := hdeclared none "x" d.spot hm
  obtain rfl := honly 0 d hd hfields.1 hfields.2.1
  exact ⟨n, hused, hsole, hstart, by cases hn; rfl, hresolves, d.spot, hm, hfields.2.2,
    hall d.spot hm, (hspots 0).2 hresolves⟩

end Scopes

end Redline
