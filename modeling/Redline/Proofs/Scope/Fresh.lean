import Redline.Proofs.Pairs
import Redline.Proofs.Scope.Mentions
import Redline.Proofs.Scope.Moved

/-!
# A fresh name changes no binding

`Renamed` relates a file to one in which some identifiers show the name `new` instead of `old`: the
tree is moved, nodes whose starts are compared still start apart, `new` was the text of no
identifier, and with one node of a binding all of them are renamed. Then two names are equal after
the change only if they were equal before, and those of one binding stay equal. So the same
declarations merge, the same scope is the nearest with a name, and the analysis finds the same
bindings under the same numbers, each with the same nodes.
-/

namespace Redline

/-! ### Files pair by pair -/

/-- A node of a binding, in the moved tree. -/
def Mention.moved (f : Nat → Nat) (m : Mention) : Mention :=
  { m with spot := m.spot.moved f }

/-- Nodes whose starts the analysis compares: identifiers, and the aliases of exports. -/
def Source.Compared (s : Source) (n : Spot) : Prop :=
  s.Identifier n ∨ ∃ p, (Spot.root s.tree).Under p ∧ p.kind = "export_specifier" ∧
    p.child? "alias" = some n

/-- A child of the tree of a spot is the tree of a child of the spot. -/
theorem Spot.exists_of_tree_child? {s : Spot} {field : String} {t : Tree}
    (h : s.tree.child? field = some t) : ∃ c, s.child? field = some c ∧ c.tree = t := by
  have hchildren : s.children.map Spot.tree = s.tree.children := by
    refine List.ext_getElem? fun i => ?_
    rw [List.getElem?_map, children, List.getElem?_mapIdx]
    cases s.tree.children[i]? <;> rfl
  rw [Tree.child?, ← hchildren, List.find?_map] at h
  exact Option.map_eq_some_iff.1 h

/-- Whether a node below another is a use of a name, told by the node above. -/
theorem Scope.isUse_below (p : Spot) (child : Tree) (number : Nat) :
    isUse (p.below child number) =
      if p.kind = "import_specifier" ∨ p.kind = "nested_type_identifier" then false
      else if p.kind = "export_specifier" then
        if ((p.above[1]?).bind (·.child? "source")).isSome then false
        else
          match p.tree.child? "alias" with
          | none => true
          | some a => a.start != child.start
      else true :=
  rfl

/-- The declaration that the node at an octet leads to: the first of its binding. -/
def Scopes.declarationAt? (s : Scopes) (start : Nat) : Option Spot :=
  (s.at? start).bind fun number => (s.binding? number).map Declaration.spot

namespace Scope

/-- The file `s'` is `s` with the identifiers in `E` renamed from `old` to `new`. -/
structure Renamed (f : Nat → Nat) (E : Spot → Prop) (old new : String) (s s' : Source) : Prop where
  tree : s'.tree = s.tree.moved f
  starts : ∀ n m, s.Compared n → s.Compared m → f n.start = f m.start → n.start = m.start
  renamed : ∀ n, s.Identifier n → E n →
    s.textOf n.tree = old ∧ s'.textOf (n.tree.moved f) = new
  kept : ∀ n, s.Identifier n → ¬E n → s'.textOf (n.tree.moved f) = s.textOf n.tree
  fresh : ∀ n, s.Identifier n → s.textOf n.tree ≠ new
  closed : ∀ m ∈ (Scopes.ofSource s).mentions, ∀ m' ∈ (Scopes.ofSource s).mentions,
    m.binding = m'.binding → E m.spot → E m'.spot

namespace Renamed

variable {f : Nat → Nat} {E : Spot → Prop} {old new : String} {s s' : Source}

/-! ### Names -/

/-- Names that are equal after the change were equal before. -/
theorem textOf_eq_of_moved (h : Renamed f E old new s s') {n m : Spot} (hn : s.Identifier n)
    (hm : s.Identifier m) (heq : s'.textOf (n.tree.moved f) = s'.textOf (m.tree.moved f)) :
    s.textOf n.tree = s.textOf m.tree := by
  by_cases hEn : E n <;> by_cases hEm : E m
  · rw [(h.renamed n hn hEn).1, (h.renamed m hm hEm).1]
  · rw [(h.renamed n hn hEn).2, h.kept m hm hEm] at heq
    exact absurd heq.symm (h.fresh m hm)
  · rw [h.kept n hn hEn, (h.renamed m hm hEm).2] at heq
    exact absurd heq (h.fresh n hn)
  · rwa [h.kept n hn hEn, h.kept m hm hEm] at heq

/-- Equal names that change together stay equal. -/
theorem textOf_moved_eq (h : Renamed f E old new s s') {n m : Spot} (hn : s.Identifier n)
    (hm : s.Identifier m) (hE : E n ↔ E m) (heq : s.textOf n.tree = s.textOf m.tree) :
    s'.textOf (n.tree.moved f) = s'.textOf (m.tree.moved f) := by
  by_cases hEn : E n
  · rw [(h.renamed n hn hEn).2, (h.renamed m hm (hE.1 hEn)).2]
  · rw [h.kept n hn hEn, h.kept m hm fun hEm => hEn (hE.2 hEm), heq]

/-! ### The events, pair by pair -/

/-- A declaration of the file and the same one after the change. -/
def Pair (f : Nat → Nat) (s s' : Source) (d d' : Declaration) : Prop :=
  .declares d ∈ events s ∧ d.Follows f s s' d'

theorem forall₂_events (h : Renamed f E old new s s') :
    List.Forall₂ (fun e e' => e ∈ events s ∧ e.Follows f s s' e') (events s) (events s') :=
  forall₂_mem (follows_events h.tree)

theorem forall₂_declarations (h : Renamed f E old new s s') :
    List.Forall₂ (Pair f s s') (declarations (events s)) (declarations (events s')) := by
  refine List.rel_filterMap ?_ h.forall₂_events
  rintro e e' ⟨he, hfollows⟩
  cases hfollows with
  | declares hd => exact .some ⟨he, hd⟩
  | uses => exact .none
  | property => exact .none
  | member => exact .none
  | exports => exact .none

theorem Pair.identifier (hw : s.WellFormed) {d d' : Declaration} (h : Pair f s s' d d') :
    s.Identifier d.spot :=
  identifier_of_mem_events hw h.1 _ List.mem_cons_self

theorem Pair.name' {d d' : Declaration} (h : Pair f s s' d d') :
    d'.name = s'.textOf (d.spot.tree.moved f) := by
  rw [h.2.text', h.2.spot, Spot.tree_moved]

/-! ### The bindings -/

/-- Every declaration is of a binding. -/
theorem exists_merges_of_mem {seen ds : List Declaration} {d : Declaration}
    (h : d ∈ seen ∨ d ∈ ds) : ∃ b ∈ bindingsFrom seen ds, b.scope = d.scope ∧ b.name = d.name := by
  induction ds generalizing seen d with
  | nil => exact ⟨d, h.resolve_right List.not_mem_nil, rfl, rfl⟩
  | cons a ds ih =>
      rw [bindingsFrom]
      split_ifs with hany
      · rcases h with h | h
        · exact ih (Or.inl h)
        · rcases List.mem_cons.1 h with rfl | h
          · obtain ⟨b, hb, hmerges⟩ := List.any_eq_true.1 hany
            obtain ⟨c, hc, hscope, hname⟩ := ih (Or.inl hb)
            simp only [Declaration.merges, Bool.and_eq_true, beq_iff_eq] at hmerges
            exact ⟨c, hc, hscope.trans hmerges.1.symm, hname.trans hmerges.2.symm⟩
          · exact ih (Or.inr h)
      · refine ih ?_
        rcases h with h | h
        · exact Or.inl (List.mem_append_left _ h)
        · rcases List.mem_cons.1 h with rfl | h
          · exact Or.inl (List.mem_append_right _ (List.mem_singleton.2 rfl))
          · exact Or.inr h

/-- Every node that declares belongs to the binding of its scope and name. -/
theorem exists_find?_of_declares {d : Declaration} (h : .declares d ∈ events s) :
    ∃ k, find? (bindings (declarations (events s))) d.scope d.name = some k ∧
      { spot := d.spot, binding := k } ∈ (Scopes.ofSource s).mentions := by
  have hd := mem_declarations.2 h
  have hseen : d ∈ ([] : List Declaration) ∨ d ∈ declarations (events s) := Or.inr hd
  obtain ⟨b, hb, hscope, hname⟩ := exists_merges_of_mem hseen
  obtain ⟨k, hk⟩ := List.getElem?_of_mem hb
  have hfind := find?_of_bindings hk
  rw [hscope, hname] at hfind
  refine ⟨k, hfind, List.mem_append_left _ (List.mem_filterMap.2 ⟨d, hd, ?_⟩)⟩
  rw [hfind]
  rfl

variable (h : Renamed f E old new s s') (hw : s.WellFormed)

include h hw

/-- The same declarations are of one binding. -/
theorem merges_eq {a a' b b' : Declaration} (ha : Pair f s s' a a') (hb : Pair f s s' b b') :
    a'.merges b' = a.merges b := by
  rw [Bool.eq_iff_iff]
  simp only [Declaration.merges, Bool.and_eq_true, beq_iff_eq]
  rw [ha.2.scope, hb.2.scope, ha.name', hb.name', ha.2.text, hb.2.text]
  refine and_congr_right fun hscope => ⟨h.textOf_eq_of_moved (ha.identifier hw) (hb.identifier hw),
    fun htext => ?_⟩
  obtain ⟨k, hk, hmk⟩ := exists_find?_of_declares ha.1
  obtain ⟨j, hj, hmj⟩ := exists_find?_of_declares hb.1
  rw [hscope, ha.2.text, htext, ← hb.2.text, hj] at hk
  obtain rfl := Option.some.inj hk
  exact h.textOf_moved_eq (ha.identifier hw) (hb.identifier hw)
    ⟨h.closed _ hmk _ hmj rfl, h.closed _ hmj _ hmk rfl⟩ htext

theorem any_merges_eq {seen seen' : List Declaration}
    (hseen : List.Forall₂ (Pair f s s') seen seen') {d d' : Declaration} (hd : Pair f s s' d d') :
    seen'.any d'.merges = seen.any d.merges := by
  induction hseen with
  | nil => rfl
  | cons hb _ ih => rw [List.any_cons, List.any_cons, h.merges_eq hw hd hb, ih]

theorem forall₂_bindingsFrom {seen seen' ds ds' : List Declaration}
    (hseen : List.Forall₂ (Pair f s s') seen seen') (hds : List.Forall₂ (Pair f s s') ds ds') :
    List.Forall₂ (Pair f s s') (bindingsFrom seen ds) (bindingsFrom seen' ds') := by
  induction hds generalizing seen seen' with
  | nil => exact hseen
  | cons hd _ ih =>
      rw [bindingsFrom, bindingsFrom, h.any_merges_eq hw hseen hd]
      split_ifs
      · exact ih hseen
      · exact ih (List.rel_append hseen (.cons hd .nil))

/-- The bindings are the same, with the same numbers. -/
theorem forall₂_bindings :
    List.Forall₂ (Pair f s s') (bindings (declarations (events s)))
      (bindings (declarations (events s'))) :=
  h.forall₂_bindingsFrom hw .nil h.forall₂_declarations

/-- A declaration is of the binding with the same number. -/
theorem find?_eq {d d' : Declaration} (hd : Pair f s s' d d') :
    find? (bindings (declarations (events s'))) d'.scope d'.name =
      find? (bindings (declarations (events s))) d.scope d.name := by
  refine findIdx?_eq_of_forall₂ (h.forall₂_bindings hw) fun b b' hb => ?_
  have hmerges := h.merges_eq hw hb hd
  rwa [Declaration.merges, Declaration.merges] at hmerges

/-! ### Uses -/

omit h hw in
/-- A name is found in the scope that it was found in, if the bindings that have it now had it
before and those that were found for it still have it. -/
theorem lookup?_congr {R : Declaration → Declaration → Prop} {bs bs' : List Declaration}
    (hbs : List.Forall₂ R bs bs') {name name' : String} {around : List Scope}
    (hscope : ∀ b b', R b b' → b'.scope = b.scope)
    (hback : ∀ b b', R b b' → b'.name = name' → b.name = name)
    (hforth : ∀ k c, lookup? bs around name = some k → bs[k]? = some c → ∀ b ∈ bs, ∀ b', R b b' →
      b.scope = c.scope → b.name = name → b'.name = name') :
    lookup? bs' around name' = lookup? bs around name := by
  induction around with
  | nil => rfl
  | cons o around ih =>
      rw [lookup?, List.findSome?_cons] at hforth ⊢
      rw [lookup?, List.findSome?_cons]
      cases hfind : find? bs o.owner name with
      | none =>
          have hnone : find? bs' o.owner name' = none := by
            refine List.findIdx?_eq_none_iff.2 fun b' hb' => ?_
            obtain ⟨b, hb, hR⟩ := (exists_mem_of_forall₂ hbs).2 _ hb'
            have hno := List.findIdx?_eq_none_iff.1 hfind b hb
            rw [Bool.eq_false_iff] at hno ⊢
            simp only [ne_eq, Bool.and_eq_true, beq_iff_eq] at hno ⊢
            rw [hscope b b' hR]
            exact fun heq => hno ⟨heq.1, hback b b' hR heq.2⟩
          rw [hfind] at hforth
          rw [hnone]
          exact ih hforth
      | some k =>
          obtain ⟨c, hc, hcscope, -⟩ := exists_of_find? hfind
          have hsame : find? bs' o.owner name' = some k := by
            rw [← hfind]
            refine findIdx?_eq_of_forall₂ (forall₂_mem hbs) fun b b' hb => ?_
            rw [Bool.eq_iff_iff]
            simp only [Bool.and_eq_true, beq_iff_eq]
            rw [hscope b b' hb.2]
            refine and_congr_right fun heq => ⟨hback b b' hb.2, ?_⟩
            exact hforth k c (by rw [hfind]) hc b hb.1 b' hb.2 (heq.trans hcscope.symm)
          rw [hsame]

/-- What a name meant is what it means, if the name and its binding change together: the nearest
scope that has the name is the same. -/
theorem lookup?_eq {n : Spot} (hn : s.Identifier n) (around : List Scope)
    (htogether : ∀ k d, lookup? (bindings (declarations (events s))) around (s.textOf n.tree) =
      some k → (bindings (declarations (events s)))[k]? = some d → (E n ↔ E d.spot)) :
    lookup? (bindings (declarations (events s'))) around (s'.textOf (n.tree.moved f)) =
      lookup? (bindings (declarations (events s))) around (s.textOf n.tree) := by
  refine lookup?_congr (h.forall₂_bindings hw) (fun b b' hb => hb.2.scope) ?_ ?_
  · intro b b' hb hname
    rw [hb.2.text]
    exact h.textOf_eq_of_moved (hb.identifier hw) hn (hb.name'.symm.trans hname)
  · intro k c hlookup hc b hb b' hpair hscope hname
    obtain ⟨_, -, hfind⟩ := List.exists_of_findSome?_eq_some hlookup
    obtain ⟨c', hc', -, hcname⟩ := exists_of_find? hfind
    obtain rfl := Option.some.inj (hc'.symm.trans hc)
    obtain ⟨j, hj⟩ := List.getElem?_of_mem hb
    obtain rfl := eq_of_bindings hj hc hscope (hname.trans hcname.symm)
    obtain rfl := Option.some.inj (hj.symm.trans hc)
    rw [hpair.name']
    exact h.textOf_moved_eq (hpair.identifier hw) hn (htogether j b hlookup hc).symm
      (hpair.2.text.symm.trans hname)

omit hw in
/-- The same identifiers are uses. -/
theorem isUse_moved {n : Spot} (hn : s.Identifier n) : isUse (n.moved f) = isUse n := by
  obtain ⟨hunder, hkind⟩ := hn
  cases hunder with
  | self => rfl
  | @step p number child hp hc =>
      have hsource : (((p.moved f).above[1]?).bind (·.child? "source")).isSome =
          ((p.above[1]?).bind (·.child? "source")).isSome := by
        rw [Spot.above_moved, List.getElem?_map]
        cases p.above[1]? with
        | none => rfl
        | some t => rw [Option.map_some, Option.bind_some, Tree.child?_moved, Option.isSome_map,
            Option.bind_some]
      rw [Spot.moved_below, isUse_below, isUse_below, Spot.kind_moved, hsource, Spot.tree_moved,
        Tree.child?_moved, Tree.start_moved]
      split_ifs with _ hexport
      · rfl
      · rfl
      · cases ha : p.tree.child? "alias" with
        | none => rfl
        | some a =>
            obtain ⟨c, hc', rfl⟩ := Spot.exists_of_tree_child? ha
            rw [Option.map_some]
            dsimp only
            rw [Tree.start_moved, Bool.eq_iff_iff, bne_iff_ne, bne_iff_ne, not_iff_not]
            exact ⟨h.starts c _ (Or.inr ⟨p, hp, hexport, hc'⟩) (Or.inl ⟨hp.step hc, hkind⟩),
              congrArg f⟩
      · rfl

/-- Nodes that declare still start where no use starts. -/
theorem contains_start_eq {n : Spot} (hn : s.Identifier n) :
    ((declarations (events s')).map (·.spot.start)).contains (f n.start) =
      ((declarations (events s)).map (·.spot.start)).contains n.start := by
  rw [Bool.eq_iff_iff, List.contains_iff_mem, List.contains_iff_mem, List.mem_map, List.mem_map]
  constructor
  · rintro ⟨d', hd', hstart⟩
    obtain ⟨d, hd, hpair⟩ := (exists_mem_of_forall₂ h.forall₂_declarations).2 _ hd'
    rw [hpair.2.spot, Spot.start_moved] at hstart
    exact ⟨d, hd, h.starts _ _ (Or.inl (hpair.identifier hw)) (Or.inl hn) hstart⟩
  · rintro ⟨d, hd, hstart⟩
    obtain ⟨d', hd', hpair⟩ := (exists_mem_of_forall₂ h.forall₂_declarations).1 _ hd
    exact ⟨d', hd', by rw [hpair.2.spot, Spot.start_moved, hstart]⟩

/-! ### The analysis -/

theorem declaredMentions_eq :
    declaredMentions (bindings (declarations (events s'))) (declarations (events s')) =
      (declaredMentions (bindings (declarations (events s))) (declarations (events s))).map
        (Mention.moved f) := by
  refine filterMap_eq_of_forall₂ h.forall₂_declarations fun d d' hd => ?_
  rw [h.find?_eq hw hd, hd.2.spot, Option.map_map]
  rfl

theorem usedMentions_eq :
    usedMentions (bindings (declarations (events s')))
        ((declarations (events s')).map (·.spot.start)) (events s') =
      (usedMentions (bindings (declarations (events s)))
        ((declarations (events s)).map (·.spot.start)) (events s)).map (Mention.moved f) := by
  refine filterMap_eq_of_forall₂ h.forall₂_events ?_
  rintro e e' ⟨he, hfollows⟩
  cases hfollows with
  | declares => rfl
  | property => rfl
  | member => rfl
  | exports => rfl
  | uses n around =>
      have hn : s.Identifier n := identifier_of_mem_events hw he n List.mem_cons_self
      dsimp only
      rw [Spot.start_moved, h.contains_start_eq hw hn, h.isUse_moved hn]
      split_ifs with hskip
      · rfl
      · rw [Spot.tree_moved, h.lookup?_eq hw hn around, Option.map_map]
        · rfl
        · intro k d hlookup hd
          have hmention : { spot := n, binding := k } ∈ (Scopes.ofSource s).mentions := by
            refine List.mem_append_right _ (List.mem_filterMap.2 ⟨_, he, ?_⟩)
            dsimp only
            rw [if_neg hskip, hlookup]
            rfl
          have hfirst : { spot := d.spot, binding := k } ∈ (Scopes.ofSource s).mentions :=
            Scopes.mem_mentions_of_binding? hd
          exact ⟨h.closed _ hmention _ hfirst rfl, h.closed _ hfirst _ hmention rfl⟩

/-- The nodes of the bindings are the same, moved. -/
theorem mentions_eq :
    (Scopes.ofSource s').mentions = (Scopes.ofSource s).mentions.map (Mention.moved f) := by
  show declaredMentions _ _ ++ usedMentions _ _ _ = (declaredMentions _ _ ++ _).map _
  rw [h.declaredMentions_eq hw, h.usedMentions_eq hw, List.map_append]

/-- The first declarations of the bindings are the same, moved. -/
theorem spot_binding?_eq (k : Nat) :
    ((Scopes.ofSource s').binding? k).map Declaration.spot =
      (((Scopes.ofSource s).binding? k).map Declaration.spot).map (Spot.moved f) := by
  have hspots : (bindings (declarations (events s'))).map Declaration.spot =
      ((bindings (declarations (events s))).map Declaration.spot).map (Spot.moved f) := by
    have hbindings := h.forall₂_bindings hw
    generalize bindings (declarations (events s)) = bs at hbindings
    generalize bindings (declarations (events s')) = bs' at hbindings
    induction hbindings with
    | nil => rfl
    | cons hb _ ih => rw [List.map_cons, List.map_cons, List.map_cons, hb.2.spot, ih]
  show ((bindings (declarations (events s')))[k]?).map Declaration.spot = _
  rw [← List.getElem?_map, hspots, List.getElem?_map, List.getElem?_map]
  rfl

theorem at?_eq {n : Spot} (hn : s.Identifier n) :
    (Scopes.ofSource s').at? (f n.start) = (Scopes.ofSource s).at? n.start := by
  have hfilter : (Scopes.ofSource s).mentions.filter
        ((fun m : Mention => m.spot.start == f n.start) ∘ Mention.moved f) =
      (Scopes.ofSource s).mentions.filter (·.spot.start == n.start) := by
    refine List.filter_congr fun m hm => ?_
    rw [Function.comp_apply, Mention.moved, Spot.start_moved, Bool.eq_iff_iff, beq_iff_eq,
      beq_iff_eq]
    exact ⟨h.starts _ _ (Or.inl (Scopes.identifier_of_mem_mentions hw hm)) (Or.inl hn),
      congrArg f⟩
  rw [Scopes.at?, mentionedAt?, h.mentions_eq hw, List.filter_map, hfilter, List.getLast?_map,
    Option.map_map]
  rfl

/-- Every identifier leads to the declaration that it led to, moved, or to none as before. -/
theorem declarationAt?_eq {n : Spot} (hn : s.Identifier n) :
    (Scopes.ofSource s').declarationAt? (n.moved f).start =
      ((Scopes.ofSource s).declarationAt? n.start).map (Spot.moved f) := by
  rw [Scopes.declarationAt?, Spot.start_moved, h.at?_eq hw hn, Scopes.declarationAt?]
  cases (Scopes.ofSource s).at? n.start with
  | none => rfl
  | some k => exact h.spot_binding?_eq hw k

end Renamed

end Scope

end Redline
