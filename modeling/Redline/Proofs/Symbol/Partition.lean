import Redline.Proofs.Symbol.Consistency
import Redline.Proofs.Tree.Check

/-!
# Every place changes with one name

The places of two bindings are the same list where both lead to one root, and have no octet in
common where they do not. A place that is listed for a root is a node of the root or of an import
that leads there by its own name, a name that `Stands` for the root, or the name of an import that
stands beside an equal local name; none of these is another, and each is so for one root. A list
that has one node of a binding has them all.
-/

namespace Redline

theorem Declaration.merges_iff {a b : Declaration} :
    a.merges b = true ↔ a.scope = b.scope ∧ a.name = b.name := by
  simp [Declaration.merges]

theorem Declaration.merges_comm (a b : Declaration) : a.merges b = b.merges a := by
  rw [Bool.eq_iff_iff, merges_iff, merges_iff, eq_comm, @eq_comm _ a.name]

namespace Scope

/-- The first declarations come first among all bindings. -/
theorem getElem?_bindingsFrom {seen : List Declaration} {k : Nat} (hk : k < seen.length)
    (ds : List Declaration) : (bindingsFrom seen ds)[k]? = seen[k]? := by
  induction ds generalizing seen with
  | nil => rfl
  | cons d ds ih =>
      rw [bindingsFrom]
      split_ifs
      · exact ih hk
      · rw [ih (by rw [List.length_append]; omega), List.getElem?_append_left hk]

/-- Of the declarations with the scope and the name of a binding, the first is the binding. -/
theorem find?_bindingsFrom {seen ds : List Declaration} {k : Nat} {d : Declaration}
    (hseen : seen.Pairwise fun a b => b.merges a = false) (hk : seen.length ≤ k)
    (h : (bindingsFrom seen ds)[k]? = some d) : ds.find? (·.merges d) = some d := by
  have hpairwise : (bindingsFrom seen ds).Pairwise fun a b => b.merges a = false :=
    pairwise_bindingsFrom hseen
  have hapart : ∀ {j : Nat} {a : Declaration}, j < k → (bindingsFrom seen ds)[j]? = some a →
      d.merges a = false := fun {j a} hj ha => by
    obtain ⟨hjlt, rfl⟩ := List.getElem?_eq_some_iff.1 ha
    obtain ⟨hklt, rfl⟩ := List.getElem?_eq_some_iff.1 h
    exact List.pairwise_iff_getElem.1 hpairwise j k hjlt hklt hj
  induction ds generalizing seen with
  | nil =>
      rw [bindingsFrom, List.getElem?_eq_none_iff.2 hk] at h
      cases h
  | cons e ds ih =>
      rw [bindingsFrom] at h hpairwise hapart
      rw [List.find?_cons]
      split_ifs at h hpairwise hapart with hany
      · obtain ⟨a, ha, hmerges⟩ := List.any_eq_true.1 hany
        obtain ⟨j, hj, rfl⟩ := List.getElem_of_mem ha
        have hother := hapart (Nat.lt_of_lt_of_le hj hk)
          (by rw [getElem?_bindingsFrom hj, List.getElem?_eq_getElem hj])
        obtain ⟨hscope, hname⟩ := Declaration.merges_iff.1 hmerges
        rw [show e.merges d = d.merges seen[j] by
          rw [d.merges_comm, Declaration.merges, hscope, hname, Declaration.merges], hother]
        exact ih hseen hk h hpairwise hapart
      · have hnew : (seen ++ [e]).Pairwise fun a b => b.merges a = false := by
          refine List.pairwise_append.2 ⟨hseen, List.pairwise_singleton _ _, fun a ha b hb => ?_⟩
          rw [List.mem_singleton.1 hb, Bool.eq_false_iff]
          exact fun hmerges => hany (List.any_eq_true.2 ⟨a, ha, hmerges⟩)
        have hlast : seen.length < (seen ++ [e]).length := by
          rw [List.length_append, List.length_singleton]
          omega
        have he : (bindingsFrom (seen ++ [e]) ds)[seen.length]? = some e := by
          rw [getElem?_bindingsFrom hlast, List.getElem?_concat_length]
        rcases Nat.eq_or_lt_of_le hk with rfl | hlt
        · rw [he] at h
          obtain rfl := Option.some.inj h
          simp [Declaration.merges]
        · have hother := hapart hlt he
          rw [e.merges_comm, hother]
          refine ih hnew ?_ h hpairwise hapart
          rw [List.length_append, List.length_singleton]
          exact hlt

end Scope

namespace Scopes

open Scope

variable {source : Source}

/-- The nodes of a binding after its first declaration: where it is declared again and where it is
used. -/
def usesOf (s : Scopes) (number : Nat) : List Spot :=
  (s.spotsOf number).tail

/-- The nodes of a binding are its first declaration and its uses. -/
theorem spotsOf_eq_cons {k : Nat} {d : Declaration} (h : (ofSource source).binding? k = some d) :
    (ofSource source).spotsOf k = d.spot :: (ofSource source).usesOf k := by
  have hfirst : (declarations (events source)).find? (·.merges d) = some d :=
    find?_bindingsFrom List.Pairwise.nil (Nat.zero_le k) h
  obtain ⟨before, after, hsplit, hbefore⟩ :
      ∃ before after, declarations (events source) = before ++ d :: after ∧
        ∀ e ∈ before, e.merges d = false := by
    obtain ⟨-, before, after, hsplit, hbefore⟩ := List.find?_eq_some_iff_append.1 hfirst
    exact ⟨before, after, hsplit, fun e he => by simpa using hbefore e he⟩
  have hnone : ((declaredMentions (Scope.bindings (declarations (events source))) before).filter
      (·.binding == k)) = [] := by
    refine List.filter_eq_nil_iff.2 fun m hm => ?_
    obtain ⟨e, he, hfind⟩ := List.mem_filterMap.1 hm
    obtain ⟨number, hnumber, rfl⟩ := Option.map_eq_some_iff.1 hfind
    obtain ⟨d', hd', hscope, hname⟩ := exists_of_find? hnumber
    rw [beq_iff_eq]
    rintro rfl
    obtain rfl := Option.some.inj (hd'.symm.trans h)
    have hfalse := hbefore e he
    simp [Declaration.merges, hscope, hname] at hfalse
  have hhead : (ofSource source).spotsOf k = d.spot :: ((declaredMentions
      (Scope.bindings (declarations (events source))) after ++ usedMentions
        (Scope.bindings (declarations (events source)))
        ((declarations (events source)).map (·.spot.start)) (events source)).filter
          (·.binding == k)).map Mention.spot := by
    have hdeclared : declaredMentions (Scope.bindings (declarations (events source)))
        (declarations (events source)) =
          declaredMentions (Scope.bindings (declarations (events source))) before ++
            { spot := d.spot, binding := k } ::
              declaredMentions (Scope.bindings (declarations (events source))) after := by
      conv_lhs => rw [hsplit]
      rw [declaredMentions, List.filterMap_append, List.filterMap_cons, ← hsplit,
        find?_of_bindings h]
      rfl
    show (((declaredMentions _ (declarations (events source)) ++ usedMentions _ _ _).filter
      (·.binding == k)).map Mention.spot) = _
    rw [hdeclared, List.append_assoc, List.filter_append, hnone, List.nil_append, List.cons_append,
      List.filter_cons_of_pos (by simp), List.map_cons]
  rw [usesOf, hhead, List.tail_cons]

/-- What is found at an octet is the binding whose declaration or use starts there. -/
theorem at?_eq_some_iff (hw : source.WellFormed) {start k : Nat} :
    (ofSource source).at? start = some k ↔ ∃ d, (ofSource source).binding? k = some d ∧
      (d.spot.start = start ∨ ∃ n ∈ (ofSource source).usesOf k, n.start = start) := by
  constructor
  · intro h
    obtain ⟨n, hn, hstart⟩ := exists_of_at? h
    obtain ⟨d, hd, -⟩ := exists_binding?_of_mem_mentions (mem_spotsOf.1 hn)
    rw [spotsOf_eq_cons hd] at hn
    refine ⟨d, hd, ?_⟩
    rcases List.mem_cons.1 hn with rfl | hn
    · exact Or.inl hstart
    · exact Or.inr ⟨n, hn, hstart⟩
  · rintro ⟨d, hd, hstart | ⟨n, hn, rfl⟩⟩
    · rw [← hstart]
      exact at?_of_mem_spotsOf hw (by rw [spotsOf_eq_cons hd]; exact List.mem_cons_self)
    · exact at?_of_mem_spotsOf hw (List.mem_of_mem_tail hn)

end Scopes

/-- The file of a place and the octet that it starts at. -/
def Place.key (p : Place) : String × Nat :=
  (p.file, p.spot.start)

/-- The place comes first: by its file, in one file by its octet. -/
def Place.Before (p q : Place) : Prop :=
  p.file < q.file ∨ p.file = q.file ∧ p.spot.start < q.spot.start

namespace Index

variable {sources : List Source}

/-! ### The order of places -/

theorem placeBefore_iff {p q : Place} :
    placeBefore p q = true ↔ p.file < q.file ∨ p.file = q.file ∧ p.spot.start ≤ q.spot.start := by
  simp [placeBefore]

theorem placeBefore_trans (p q r : Place) (hpq : placeBefore p q = true)
    (hqr : placeBefore q r = true) : placeBefore p r = true := by
  rw [placeBefore_iff] at *
  rcases hpq with hpq | ⟨hpq, hle⟩
  · left
    rcases hqr with hqr | ⟨hqr, -⟩
    · exact String.lt_trans hpq hqr
    · exact hqr ▸ hpq
  · rw [hpq]
    exact hqr.imp_right fun h => ⟨h.1, Nat.le_trans hle h.2⟩

theorem placeBefore_total (p q : Place) : (placeBefore p q || placeBefore q p) = true := by
  rw [Bool.or_eq_true, placeBefore_iff, placeBefore_iff]
  by_cases hlt : p.file < q.file
  · exact Or.inl (Or.inl hlt)
  · by_cases hgt : q.file < p.file
    · exact Or.inr (Or.inl hgt)
    · have hfile := String.le_antisymm (String.not_lt.1 hgt) (String.not_lt.1 hlt)
      exact (Nat.le_total p.spot.start q.spot.start).imp (fun h => Or.inr ⟨hfile, h⟩)
        fun h => Or.inr ⟨hfile.symm, h⟩

/-- Of some places one for each octet, sorted: these are in strict order. -/
theorem pairwise_sorted (found : List Place) :
    ((distinctBy (fun p => (p.file, p.spot.start)) found).mergeSort placeBefore).Pairwise
      Place.Before := by
  have hsorted := List.pairwise_mergeSort placeBefore_trans placeBefore_total
    (distinctBy (fun p : Place => (p.file, p.spot.start)) found)
  have hkeys := ((List.mergeSort_perm (distinctBy (fun p : Place => (p.file, p.spot.start)) found)
    placeBefore).map Place.key).nodup_iff.2 (distinctBy_nodup _ found)
  refine (hsorted.and (List.pairwise_map.1 hkeys)).imp fun {p q} h => ?_
  obtain ⟨hbefore, hne⟩ := h
  rcases placeBefore_iff.1 hbefore with hlt | ⟨hfile, hle⟩
  · exact Or.inl hlt
  · exact Or.inr ⟨hfile, Nat.lt_of_le_of_ne hle fun hstart => hne (Prod.ext hfile hstart)⟩

/-- The places of a binding are listed in order, each octet once. -/
theorem pairwise_bindingPlaces (x : Index) (b : BindingId) :
    (x.bindingPlaces b).Pairwise Place.Before := by
  rw [bindingPlaces]
  exact pairwise_sorted _

/-! ### How a place comes to be listed -/

/-- How a place is listed for the binding `r` at the end of a chain: as a node of `r`, as a node of
an import that is tied to `r` by its own name, as a name that stands for `r`, or as the name of such
an import that stands beside an equal local one. -/
inductive Lists (x : Index) (r : BindingId) : Place → Prop where
  | own {b : BindingId} {place : Place} (hspot : place ∈ x.spotsOf b)
      (hlead : b = r ∨ (b, r) ∈ x.links.targets ∧ x.modules.isAlias b = false)
      (hall : ∀ place' ∈ x.spotsOf b, place' ∈ x.bindingPlaces r) : Lists x r place
  | stands {place : Place} (h : x.Stands place r) : Lists x r place
  | beside {b : BindingId} {d : Declaration} {i : Import} {n : Spot}
      (hmem : (b, r) ∈ x.links.targets) (hd : x.modules.declaration? b = some d)
      (hi : d.origin = some i) (hn : i.nameSpot = some n) (halias : d.isAlias = false)
      (hne : n ≠ d.spot) : Lists x r { file := b.file, spot := n }

section

variable (hw : ∀ s ∈ sources, s.WellFormed)

include hw

theorem lists_of_mem_bindingPlaces {r : BindingId} (hroot : (ofSources sources).rootOf r = r)
    {place : Place} (h : place ∈ (ofSources sources).bindingPlaces r) :
    (ofSources sources).Lists r place := by
  have hown : ∀ place' ∈ (ofSources sources).spotsOf r,
      place' ∈ (ofSources sources).bindingPlaces r := fun place' hmem => by
    rw [mem_bindingPlaces_iff hw, hroot]
    exact Or.inl hmem
  rw [mem_bindingPlaces_iff hw, hroot] at h
  rcases h with hspot | hnode | ⟨c, hc, hmem⟩
  · exact .own hspot (Or.inl rfl) hown
  · exact .stands (.noted hnode)
  · obtain ⟨d, i, hd, hi⟩ := exists_of_mem_targets hc
    obtain ⟨hname, hshown⟩ := (mem_importerPlaces_iff hd hi).1 hmem
    have hall : d.isAlias = false → ∀ place' ∈ (ofSources sources).spotsOf c,
        place' ∈ (ofSources sources).bindingPlaces r := fun halias place' hmem' => by
      rw [mem_bindingPlaces_iff hw, hroot]
      exact Or.inr (Or.inr ⟨c, hc, (mem_importerPlaces_iff hd hi).2
        ⟨hname, Or.inr ⟨halias, Or.inl hmem'⟩⟩⟩)
    have hlead : d.isAlias = false → (c, r) ∈ (ofSources sources).links.targets ∧
        (ofSources sources).modules.isAlias c = false := fun halias =>
      ⟨hc, (isAlias_of_declaration? hd).trans halias⟩
    rcases hshown with ⟨n, hn, rfl⟩ | ⟨halias, hspot | hnode⟩
    · cases halias : d.isAlias with
      | true => exact .stands (.imported hc hd hi hn halias)
      | false =>
          by_cases hlocal : n = d.spot
          · rw [hlocal]
            exact .own (declared_mem_spotsOf hd) (Or.inr (hlead halias)) (hall halias)
          · exact .beside hc hd hi hn halias hlocal
    · exact .own hspot (Or.inr (hlead halias)) (hall halias)
    · refine absurd (rootOf_of_final (final_of_mem_nodes (mem_nodesOf_iff.1 hnode))) ?_
      exact (ne_rootOf_of_tie hc hd halias).symm

/-- A node belongs to one binding. -/
theorem eq_of_mem_spotsOf {b c : BindingId} {place : Place}
    (hb : place ∈ (ofSources sources).spotsOf b) (hc : place ∈ (ofSources sources).spotsOf c) :
    b = c := by
  obtain ⟨s, hs, hsc, hfile, hspot⟩ := exists_source_of_mem_spotsOf hb
  obtain ⟨s', -, hsc', hfile', hspot'⟩ := exists_source_of_mem_spotsOf hc
  have hfiles : b.file = c.file := hfile.symm.trans hfile'
  rw [← hfiles, hsc] at hsc'
  rw [← Option.some.inj hsc'] at hspot'
  have hnumber := Scopes.at?_of_mem_spotsOf (hw s hs) hspot
  rw [Scopes.at?_of_mem_spotsOf (hw s hs) hspot'] at hnumber
  obtain ⟨file, number⟩ := b
  obtain ⟨file', number'⟩ := c
  cases hfiles
  cases hnumber
  rfl

/-- The name of an import that stands beside an equal local name belongs to no binding and stands
for none. -/
theorem Lists.beside_apart {b : BindingId} {d : Declaration} {i : Import} {n : Spot}
    (hd : (ofSources sources).modules.declaration? b = some d) (hi : d.origin = some i)
    (hn : i.nameSpot = some n) (halias : d.isAlias = false) (hne : n ≠ d.spot) {c : BindingId}
    {place : Place} (hplace : place = { file := b.file, spot := n }) :
    place ∉ (ofSources sources).spotsOf c ∧ ¬(ofSources sources).Stands place c := by
  constructor
  · intro hspot
    subst hplace
    obtain ⟨s, hs, hsc, hbinding⟩ := exists_source_of_declaration? hd
    obtain ⟨s', hs', hsc', hfile, hspot⟩ := exists_source_of_mem_spotsOf hspot
    rw [← show b.file = c.file from hfile, hsc] at hsc'
    have hat := at?_eq_none_of_ne_local hw hs hbinding hi hn hne
    rw [Option.some.inj hsc', Scopes.at?_of_mem_spotsOf (hw s' hs') hspot] at hat
    cases hat
  · intro hstands
    cases hstands with
    | imported hmem hd' hi' hn' halias' =>
        rw [Place.mk.injEq] at hplace
        obtain ⟨hfile, rfl⟩ := hplace
        obtain rfl := eq_of_nameSpot_eq hfile hd' hi' hn' hd hi hn
        obtain rfl := Option.some.inj (hd.symm.trans hd')
        rw [halias] at halias'
        cases halias'
    | noted hmem =>
        obtain ⟨spec, hkind, hchild⟩ := mem_children_of_nameSpot hd hi hn
        subst hplace
        exact not_shows_of_import (shows_of_mem_nodes hmem) hkind hchild

variable (hl : ∀ s ∈ sources, s.Lexical)

include hl

/-- A place is listed for one root. -/
theorem Lists.unique {r r' : BindingId} (hr : (ofSources sources).rootOf r = r)
    (hr' : (ofSources sources).rootOf r' = r') {place place' : Place}
    (h : (ofSources sources).Lists r place) (h' : (ofSources sources).Lists r' place')
    (heq : place = place') : r = r' := by
  have hnot : ∀ {b t : BindingId}, (b, t) ∈ (ofSources sources).links.targets →
      (ofSources sources).modules.isAlias b = false → (ofSources sources).rootOf b ≠ b := by
    intro b t hmem halias
    obtain ⟨d, i, hd, -⟩ := exists_of_mem_targets hmem
    exact (ne_rootOf_of_tie hmem hd ((isAlias_of_declaration? hd).symm.trans halias)).symm
  cases h with
  | own hspot hlead =>
      cases h' with
      | own hspot' hlead' =>
          obtain rfl := eq_of_mem_spotsOf hw hspot (heq ▸ hspot')
          rcases hlead with rfl | ⟨htie, halias⟩ <;> rcases hlead' with rfl | ⟨htie', halias'⟩
          · rfl
          · exact absurd hr (hnot htie' halias')
          · exact absurd hr' (hnot htie halias)
          · exact (chained_links sources).eq_of_mem htie htie'
      | stands hstands' => exact absurd (heq ▸ hstands') (not_stands_of_mem_spotsOf hw hl hspot)
      | beside _ hd hi hn halias hne =>
          exact absurd hspot (Lists.beside_apart hw hd hi hn halias hne heq).1
  | stands hstands =>
      cases h' with
      | own hspot' => exact absurd (heq ▸ hstands) (not_stands_of_mem_spotsOf hw hl hspot')
      | stands hstands' => exact stands_unique hw hstands hstands' heq
      | beside _ hd hi hn halias hne =>
          exact absurd hstands (Lists.beside_apart hw hd hi hn halias hne heq).2
  | beside hmem hd hi hn halias hne =>
      cases h' with
      | own hspot' =>
          exact absurd hspot' (Lists.beside_apart hw hd hi hn halias hne heq.symm).1
      | stands hstands' =>
          exact absurd hstands' (Lists.beside_apart hw hd hi hn halias hne heq.symm).2
      | beside hmem' hd' hi' hn' =>
          rw [Place.mk.injEq] at heq
          obtain ⟨hfile, rfl⟩ := heq
          obtain rfl := eq_of_nameSpot_eq hfile hd hi hn hd' hi' hn'
          exact (chained_links sources).eq_of_mem hmem hmem'

/-- The places of bindings with different roots have no octet in common. -/
theorem key_ne_of_rootOf_ne {b c : BindingId}
    (hne : (ofSources sources).rootOf b ≠ (ofSources sources).rootOf c) {p q : Place}
    (hp : p ∈ (ofSources sources).bindingPlaces b)
    (hq : q ∈ (ofSources sources).bindingPlaces c) : p.key ≠ q.key := by
  intro hkey
  have heq := eq_of_start_eq hw (holds_of_mem_bindingPlaces hw hp)
    (holds_of_mem_bindingPlaces hw hq) (congrArg Prod.fst hkey) (congrArg Prod.snd hkey)
  rw [bindingPlaces_congr (rootOf_rootOf b).symm] at hp
  rw [bindingPlaces_congr (rootOf_rootOf c).symm] at hq
  exact hne (Lists.unique hw hl (rootOf_rootOf b) (rootOf_rootOf c)
    (lists_of_mem_bindingPlaces hw (rootOf_rootOf b) hp)
    (lists_of_mem_bindingPlaces hw (rootOf_rootOf c) hq) heq)

/-- A list that has one node of a binding has them all. -/
theorem spotsOf_subset_bindingPlaces {b c : BindingId} {place : Place}
    (h : place ∈ (ofSources sources).bindingPlaces b)
    (hspot : place ∈ (ofSources sources).spotsOf c) {place' : Place}
    (hspot' : place' ∈ (ofSources sources).spotsOf c) :
    place' ∈ (ofSources sources).bindingPlaces b := by
  rw [bindingPlaces_congr (rootOf_rootOf b).symm] at h ⊢
  cases lists_of_mem_bindingPlaces hw (rootOf_rootOf b) h with
  | own hown _ hall =>
      obtain rfl := eq_of_mem_spotsOf hw hspot hown
      exact hall place' hspot'
  | stands hstands => exact absurd hstands (not_stands_of_mem_spotsOf hw hl hspot)
  | beside _ hd hi hn halias hne =>
      exact absurd hspot (Lists.beside_apart hw hd hi hn halias hne rfl).1

/-- Every place changes with one name. The places of two bindings are one list where they lead to
one root, with all nodes of the root, and have no octet in common where they do not; every list is
in strict order; and in each file an octet is found for the binding that is declared or used there,
which is one for each node. -/
theorem bindingPlaces_partition :
    (∀ b c, ((ofSources sources).rootOf b = (ofSources sources).rootOf c →
        (ofSources sources).bindingPlaces b = (ofSources sources).bindingPlaces c) ∧
      ((ofSources sources).rootOf b ≠ (ofSources sources).rootOf c →
        ∀ p ∈ (ofSources sources).bindingPlaces b, ∀ q ∈ (ofSources sources).bindingPlaces c,
          p.key ≠ q.key)) ∧
    (∀ b, (∀ p ∈ (ofSources sources).spotsOf ((ofSources sources).rootOf b),
        p ∈ (ofSources sources).bindingPlaces b) ∧
      ((ofSources sources).bindingPlaces b).Pairwise Place.Before) ∧
    ∀ s ∈ sources, (∀ start k, (Scopes.ofSource s).at? start = some k ↔
        ∃ d, (Scopes.ofSource s).binding? k = some d ∧
          (d.spot.start = start ∨ ∃ n ∈ (Scopes.ofSource s).usesOf k, n.start = start)) ∧
      ∀ j k n, n ∈ (Scopes.ofSource s).spotsOf j → n ∈ (Scopes.ofSource s).spotsOf k → j = k := by
  refine ⟨fun b c => ⟨bindingPlaces_congr, fun hne p hp q hq =>
    key_ne_of_rootOf_ne hw hl hne hp hq⟩, fun b => ⟨fun p hp => ?_, pairwise_bindingPlaces _ b⟩,
    fun s hs => ⟨fun start k => Scopes.at?_eq_some_iff (hw s hs), fun j k n hj hk => ?_⟩⟩
  · exact (mem_bindingPlaces_iff hw).2 (Or.inl hp)
  · have hj := Scopes.at?_of_mem_spotsOf (hw s hs) hj
    rw [Scopes.at?_of_mem_spotsOf (hw s hs) hk] at hj
    exact (Option.some.inj hj).symm

end

/-! ### An import under another name -/

/-- A file with `export const v = 1;` on a line. -/
def valueSource : Source :=
  Source.make "a.ts" (Text.Utf8.encode "export const v = 1;\n")
    (.ofKind "program" 0 20 [.ofKind "export_statement" 0 19 [.token "export" 0 6 none,
      .inField "declaration" "lexical_declaration" 7 19 [.token "const" 7 12 (some "kind"),
        .ofKind "variable_declarator" 13 18 [.inField "name" "identifier" 13 14 [],
          .token "=" 15 16 none, .inField "value" "number" 17 18 []],
        .token ";" 18 19 none]]])

/-- A file that imports `v` as `w` and uses `w`. -/
def aliasSource : Source :=
  Source.make "b.ts" (Text.Utf8.encode "import \x7b v as w \x7d from './a';\nw;\n")
    (.ofKind "program" 0 33 [.ofKind "import_statement" 0 29 [.token "import" 0 6 none,
        .ofKind "import_clause" 7 17 [.ofKind "named_imports" 7 17 [.token "\x7b" 7 8 none,
          .ofKind "import_specifier" 9 15 [.inField "name" "identifier" 9 10 [],
            .token "as" 11 13 none, .inField "alias" "identifier" 14 15 []],
          .token "\x7d" 16 17 none]],
        .token "from" 18 22 none,
        .inField "source" "string" 23 28 [.token "\x27" 23 24 none,
          .ofKind "string_fragment" 24 27 [], .token "\x27" 27 28 none],
        .token ";" 28 29 none],
      .ofKind "expression_statement" 30 32 [.ofKind "identifier" 30 31 [], .token ";" 31 32 none]])

/-- `v` and `w` have places side by side in one import, and none in common. -/
theorem partition_aliased :
    (∀ s ∈ [valueSource, aliasSource], s.WellFormed) ∧
    (∀ s ∈ [valueSource, aliasSource], s.Lexical) ∧
    (ofSources [valueSource, aliasSource]).rootOf ⟨"a.ts", 0⟩ ≠
      (ofSources [valueSource, aliasSource]).rootOf ⟨"b.ts", 0⟩ ∧
    ("b.ts", 9) ∈ ((ofSources [valueSource, aliasSource]).bindingPlaces ⟨"a.ts", 0⟩).map Place.key ∧
    ("b.ts", 14) ∈ ((ofSources [valueSource, aliasSource]).bindingPlaces ⟨"b.ts", 0⟩).map
      Place.key ∧
    ∀ p ∈ (ofSources [valueSource, aliasSource]).bindingPlaces ⟨"a.ts", 0⟩,
      ∀ q ∈ (ofSources [valueSource, aliasSource]).bindingPlaces ⟨"b.ts", 0⟩, p.key ≠ q.key := by
  have hw : ∀ s ∈ [valueSource, aliasSource], s.WellFormed := by decide +kernel
  have hl : ∀ s ∈ [valueSource, aliasSource], s.Lexical := by decide +kernel
  have hroot : (ofSources [valueSource, aliasSource]).rootOf ⟨"a.ts", 0⟩ ≠
      (ofSources [valueSource, aliasSource]).rootOf ⟨"b.ts", 0⟩ := by decide +kernel
  obtain ⟨hpartition, hlisted, -⟩ := bindingPlaces_partition hw hl
  refine ⟨hw, hl, hroot, ?_, ?_, (hpartition _ _).2 hroot⟩
  · rw [bindingPlaces]
    simp only [List.mem_map, List.mem_mergeSort]
    decide +kernel
  · refine List.mem_map.2 ?_
    obtain ⟨p, hp, hkey⟩ : ∃ p ∈ (ofSources [valueSource, aliasSource]).spotsOf
        ((ofSources [valueSource, aliasSource]).rootOf ⟨"b.ts", 0⟩), p.key = ("b.ts", 14) := by
      decide +kernel
    exact ⟨p, (hlisted _).1 p hp, hkey⟩

end Index

end Redline
