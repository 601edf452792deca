import Redline.Proofs.Symbol.Stands

/-!
# References do not depend on where one asks

What is found at the places of a binding and the places that are listed for it agree as long as the
imports that lead to it are `Straight`: an import that shows the name of what it is tied to is tied
to the end of the chain, by the name declared there, and shows it at one node unless it gives
another name. Each import that is not straight has a place where the two differ.
-/

namespace Redline

namespace Index

variable {sources : List Source}

/-- The name that a binding is declared by. -/
def nameOf (x : Index) (b : BindingId) : String :=
  ((x.modules.declaration? b).map Declaration.name).getD ""

/-- The binding at the end of the chain from a binding. -/
def rootOf (x : Index) (b : BindingId) : BindingId :=
  x.links.canonical x.modules b

/-- An import that shows a name of what it is tied to shows the name that all else goes by. -/
def Straight (x : Index) (b t : BindingId) : Prop :=
  ∀ d i, x.modules.declaration? b = some d → d.origin = some i →
    (d.isAlias = true → i.nameSpot.isSome = true) →
    x.rootOf t = t ∧ i.imported = x.nameOf t ∧
      (d.isAlias = false → ∀ n, i.nameSpot = some n → n = d.spot)

/-- The references that are found at a place. -/
def answerAt (x : Index) (place : Place) : List Reference :=
  match x.source? place.file with
  | none => []
  | some s =>
    match x.targetOf? s place.spot with
    | none => []
    | some t => x.references t

/-- A place of a binding is among the places listed for it, and at all these the same is found. -/
def Consistent (x : Index) (place : Place) (b : BindingId) : Prop :=
  place ∈ x.bindingPlaces b ∧
    ∀ place' ∈ x.bindingPlaces b, x.answerAt place' = x.references (.binding b)

/-! ### The places of a binding -/

theorem mem_nodesOf_iff {x : Index} {b : BindingId} {place : Place} :
    place ∈ x.nodesOf b ↔ (b, place) ∈ x.links.nodes := by
  rw [nodesOf, List.mem_map]
  constructor
  · rintro ⟨⟨b', place⟩, hmem, rfl⟩
    obtain ⟨hmem, hb⟩ := List.mem_filter.1 hmem
    rw [beq_iff_eq] at hb
    exact hb ▸ hmem
  · intro hmem
    exact ⟨_, List.mem_filter.2 ⟨hmem, by simp⟩, rfl⟩

theorem mem_importerPlaces_iff {x : Index} {name : String} {b : BindingId} {d : Declaration}
    {i : Import} {place : Place} (hd : x.modules.declaration? b = some d) (hi : d.origin = some i) :
    place ∈ x.importerPlaces name b ↔ i.imported = name ∧
      ((∃ n, i.nameSpot = some n ∧ place = { file := b.file, spot := n }) ∨
        (d.isAlias = false ∧ (place ∈ x.spotsOf b ∨ place ∈ x.nodesOf b))) := by
  rw [importerPlaces, hd]
  dsimp only
  rw [hi]
  dsimp only
  by_cases hname : i.imported = name
  · rw [if_neg (by simp [hname]), List.mem_append]
    refine ⟨fun h => ⟨hname, h.imp ?_ ?_⟩, fun h => h.2.imp ?_ ?_⟩
    · intro hmem
      obtain ⟨n, hn, rfl⟩ := List.mem_map.1 hmem
      exact ⟨n, Option.mem_toList.1 hn, rfl⟩
    · intro hmem
      split_ifs at hmem with halias
      · cases hmem
      · exact ⟨Bool.eq_false_iff.2 halias, List.mem_append.1 hmem⟩
    · rintro ⟨n, hn, rfl⟩
      exact List.mem_map.2 ⟨n, Option.mem_toList.2 hn, rfl⟩
    · rintro ⟨halias, hmem⟩
      rw [if_neg (by rw [halias]; simp)]
      exact List.mem_append.2 hmem
  · rw [if_pos (by simpa using hname)]
    exact ⟨fun h => absurd h List.not_mem_nil, fun h => absurd h.1 hname⟩

/-- What is listed for a binding: the nodes of its root, the names that stand for it, and what the
imports tied to it show. -/
theorem mem_bindingPlaces_iff (hw : ∀ s ∈ sources, s.WellFormed) {b : BindingId} {place : Place} :
    place ∈ (ofSources sources).bindingPlaces b ↔
      place ∈ (ofSources sources).spotsOf ((ofSources sources).rootOf b) ∨
      ((ofSources sources).rootOf b, place) ∈ (ofSources sources).links.nodes ∨
      ∃ c, (c, (ofSources sources).rootOf b) ∈ (ofSources sources).links.targets ∧
        place ∈ (ofSources sources).importerPlaces
          ((ofSources sources).nameOf ((ofSources sources).rootOf b)) c := by
  have himporters : ∀ {c t : BindingId},
      c ∈ ((ofSources sources).links.importers.filter (·.1 == t)).map Prod.snd ↔
        (c, t) ∈ (ofSources sources).links.targets := by
    intro c t
    rw [← mem_importers_iff, List.mem_map]
    constructor
    · rintro ⟨⟨t', c⟩, hmem, rfl⟩
      obtain ⟨hmem, ht⟩ := List.mem_filter.1 hmem
      rw [beq_iff_eq] at ht
      exact ht ▸ hmem
    · intro hmem
      exact ⟨_, List.mem_filter.2 ⟨hmem, by simp⟩, rfl⟩
  have hfound : ∀ {place : Place},
      place ∈ (ofSources sources).spotsOf ((ofSources sources).rootOf b)
          ++ (ofSources sources).nodesOf ((ofSources sources).rootOf b)
          ++ (((ofSources sources).links.importers.filter
              (·.1 == (ofSources sources).rootOf b)).map Prod.snd).flatMap
            ((ofSources sources).importerPlaces
              ((ofSources sources).nameOf ((ofSources sources).rootOf b))) ↔
        place ∈ (ofSources sources).spotsOf ((ofSources sources).rootOf b) ∨
        ((ofSources sources).rootOf b, place) ∈ (ofSources sources).links.nodes ∨
        ∃ c, (c, (ofSources sources).rootOf b) ∈ (ofSources sources).links.targets ∧
          place ∈ (ofSources sources).importerPlaces
            ((ofSources sources).nameOf ((ofSources sources).rootOf b)) c := by
    intro place
    rw [List.mem_append, List.mem_append, mem_nodesOf_iff, List.mem_flatMap, or_assoc]
    simp only [himporters]
  rw [← hfound]
  constructor
  · intro h
    rw [bindingPlaces] at h
    exact mem_of_mem_distinctBy _ (List.mem_mergeSort.1 h)
  · intro h
    have hplace : (ofSources sources).Holds place := by
      rcases List.mem_append.1 h with h | h
      · rcases List.mem_append.1 h with h | h
        · exact holds_of_mem_spotsOf hw h
        · exact holds_of_mem_nodesOf hw h
      · obtain ⟨c, -, h⟩ := List.mem_flatMap.1 h
        exact holds_of_mem_importerPlaces hw h
    obtain ⟨place', hmem, hkey⟩ :=
      exists_mem_distinctBy (fun p : Place => (p.file, p.spot.start)) h
    have hmem' : place' ∈ (ofSources sources).bindingPlaces b := List.mem_mergeSort.2 hmem
    rw [Prod.mk.injEq] at hkey
    rwa [eq_of_start_eq hw hplace (holds_of_mem_bindingPlaces hw hmem') hkey.1.symm hkey.2.symm]

theorem bindingPlaces_congr {x : Index} {b b' : BindingId} (h : x.rootOf b = x.rootOf b') :
    x.bindingPlaces b = x.bindingPlaces b' := by
  rw [rootOf, rootOf] at h
  rw [bindingPlaces, bindingPlaces, h]

/-- Bindings with one root have the same references. -/
theorem references_congr {x : Index} {b b' : BindingId} (h : x.rootOf b = x.rootOf b') :
    x.references (.binding b) = x.references (.binding b') := by
  rw [references, references, places, places, bindingPlaces_congr h]

/-- A place that is listed is shown by a reference. -/
theorem referenceAt_mem_references {t : Target} {place : Place} {s : Source}
    (h : place ∈ (ofSources sources).places t)
    (hs : (ofSources sources).source? place.file = some s) :
    referenceAt s place.spot ∈ (ofSources sources).references t :=
  List.mem_filterMap.2 ⟨place, h, by rw [hs]; rfl⟩

/-- Where a binding is found, its references are the answer. -/
theorem answerAt_of_bindingAt? {place : Place} (hplace : (ofSources sources).Holds place)
    {b : BindingId} (h : (ofSources sources).bindingAt? place.file place.spot = some b) :
    (ofSources sources).answerAt place = (ofSources sources).references (.binding b) := by
  obtain ⟨s, hs, -⟩ := hplace
  have hpath := (exists_source_of_source? hs).2
  rw [answerAt, hs]
  dsimp only
  rw [targetOf?, hpath, h]

theorem rootOf_rootOf (b : BindingId) :
    (ofSources sources).rootOf ((ofSources sources).rootOf b) = (ofSources sources).rootOf b :=
  Links.canonical_canonical (chained_links sources) b

/-- A name is noted for the end of a chain. -/
theorem final_of_mem_nodes {t : BindingId} {place : Place}
    (h : (t, place) ∈ (ofSources sources).links.nodes) :
    Links.Final (ofSources sources).modules (ofSources sources).links.targets t := by
  have hexported : ∀ {module_ name : String},
      (ofSources sources).importLinks.exported? (ofSources sources).modules module_ name = some t →
      Links.Final (ofSources sources).modules (ofSources sources).links.targets t := by
    intro module_ name ht
    obtain ⟨b, -, rfl⟩ := Option.map_eq_some_iff.1 ht
    rw [targets_links]
    exact Links.final_canonical (coherent_importLinks _).chained b
  cases shows_of_mem_nodes h with
  | passed hsc he hmodule hb => exact hexported hb
  | member hsc huse hspace hp haddress hkind hobject hstart hmember hb => exact hexported hb

theorem isAlias_of_declaration? {m : Modules} {b : BindingId} {d : Declaration}
    (h : m.declaration? b = some d) : m.isAlias b = d.isAlias := by
  rw [Modules.isAlias, h]
  rfl

/-- A binding that is not the end of its chain is an import by the name it imports. -/
theorem exists_tie_of_rootOf_ne {b : BindingId} (h : (ofSources sources).rootOf b ≠ b) :
    (ofSources sources).modules.isAlias b = false ∧
      ∃ t, (b, t) ∈ (ofSources sources).links.targets ∧
        (ofSources sources).rootOf t = (ofSources sources).rootOf b := by
  have hfinal : ¬Links.Final (ofSources sources).modules (ofSources sources).links.targets b :=
    fun hfinal => h (Links.canonical_of_final (chained_links sources) hfinal)
  rw [Links.Final, not_or, not_not, Bool.not_eq_true] at hfinal
  obtain ⟨⟨c, t⟩, hmem, heq⟩ := List.mem_map.1 hfinal.2
  cases heq
  exact ⟨hfinal.1, t, hmem, (Links.canonical_of_tie (chained_links sources) hmem hfinal.1).symm⟩

theorem rootOf_of_final {b : BindingId}
    (h : Links.Final (ofSources sources).modules (ofSources sources).links.targets b) :
    (ofSources sources).rootOf b = b :=
  Links.canonical_of_final (chained_links sources) h

theorem rootOf_of_tie {b t : BindingId} (hmem : (b, t) ∈ (ofSources sources).links.targets)
    {d : Declaration} (hd : (ofSources sources).modules.declaration? b = some d)
    (halias : d.isAlias = false) :
    (ofSources sources).rootOf b = (ofSources sources).rootOf t :=
  Links.canonical_of_tie (chained_links sources) hmem ((isAlias_of_declaration? hd).trans halias)

/-- The end of a chain is no import by the name it imports. -/
theorem ne_rootOf_of_tie {b c t : BindingId} (hmem : (b, t) ∈ (ofSources sources).links.targets)
    {d : Declaration} (hd : (ofSources sources).modules.declaration? b = some d)
    (halias : d.isAlias = false) : b ≠ (ofSources sources).rootOf c := by
  intro heq
  have hfinal := Links.final_canonical (chained_links sources) c
  rw [← rootOf, ← heq] at hfinal
  rcases hfinal with htrue | hno
  · rw [isAlias_of_declaration? hd, halias] at htrue
    cases htrue
  · exact hno (List.mem_map.2 ⟨_, hmem, rfl⟩)

/-- The first declaration of a binding is a place of it. -/
theorem declared_mem_spotsOf {b : BindingId} {d : Declaration}
    (hd : (ofSources sources).modules.declaration? b = some d) :
    { file := b.file, spot := d.spot } ∈ (ofSources sources).spotsOf b := by
  obtain ⟨s, -, hsc, hbinding⟩ := exists_source_of_declaration? hd
  exact (mem_spotsOf_iff hsc).2
    ⟨rfl, Scopes.mem_spotsOf.2 (Scopes.mem_mentions_of_binding? hbinding)⟩

/-- What is no import is listed where it is declared. -/
theorem declared_mem_bindingPlaces (hw : ∀ s ∈ sources, s.WellFormed) {b : BindingId}
    {d : Declaration} (hd : (ofSources sources).modules.declaration? b = some d)
    (hplain : d.origin = none) :
    { file := b.file, spot := d.spot } ∈ (ofSources sources).bindingPlaces b := by
  have hroot : (ofSources sources).rootOf b = b := by
    by_contra hne
    obtain ⟨-, t, htie, -⟩ := exists_tie_of_rootOf_ne hne
    obtain ⟨d', i, hd', hi⟩ := exists_of_mem_targets htie
    rw [hd] at hd'
    obtain rfl := Option.some.inj hd'
    rw [hplain] at hi
    cases hi
  rw [mem_bindingPlaces_iff hw, hroot]
  exact Or.inl (declared_mem_spotsOf hd)

section

variable (hw : ∀ s ∈ sources, s.WellFormed) (hl : ∀ s ∈ sources, s.Lexical) {r : BindingId}

include hw hl

/-- What is listed for a binding is found to be its own, as far as imports are straight. -/
theorem rootOf_of_mem_bindingPlaces (hroot : (ofSources sources).rootOf r = r)
    (hstraight : ∀ b t, (b, t) ∈ (ofSources sources).links.targets →
      (ofSources sources).rootOf t = r → (ofSources sources).Straight b t)
    {place : Place} (h : place ∈ (ofSources sources).bindingPlaces r) :
    ∃ b, (ofSources sources).bindingAt? place.file place.spot = some b ∧
      (ofSources sources).rootOf b = r := by
  have hplace := holds_of_mem_bindingPlaces hw h
  have hfound : ∀ {b : BindingId}, (place ∈ (ofSources sources).spotsOf b ∨
      (ofSources sources).Stands place b) → (ofSources sources).rootOf b = r →
      ∃ b, (ofSources sources).bindingAt? place.file place.spot = some b ∧
        (ofSources sources).rootOf b = r := fun h hr =>
    ⟨_, (bindingAt?_eq_some_iff hw hl hplace).2 h, hr⟩
  rw [mem_bindingPlaces_iff hw, hroot] at h
  rcases h with hspot | hnode | ⟨c, hc, hmem⟩
  · exact hfound (Or.inl hspot) hroot
  · exact hfound (Or.inr (.noted hnode)) hroot
  · obtain ⟨d, i, hd, hi⟩ := exists_of_mem_targets hc
    obtain ⟨-, hshown⟩ := (mem_importerPlaces_iff hd hi).1 hmem
    rcases hshown with ⟨n, hn, rfl⟩ | ⟨halias, hown⟩
    · cases halias : d.isAlias with
      | true => exact hfound (Or.inr (.imported hc hd hi hn halias)) hroot
      | false =>
          obtain ⟨-, -, hlocal⟩ := hstraight c r hc hroot d i hd hi (by simp [halias])
          obtain rfl := hlocal halias n hn
          exact hfound (Or.inl (declared_mem_spotsOf hd))
            ((rootOf_of_tie hc hd halias).trans hroot)
    · rcases hown with hspot | hnode
      · exact hfound (Or.inl hspot) ((rootOf_of_tie hc hd halias).trans hroot)
      · refine absurd (rootOf_of_final (final_of_mem_nodes (mem_nodesOf_iff.1 hnode))) ?_
        exact (ne_rootOf_of_tie hc hd halias).symm

/-- What is found to belong to a binding is listed for it, as far as imports are straight. -/
theorem mem_bindingPlaces_of_rootOf (hroot : (ofSources sources).rootOf r = r)
    (hstraight : ∀ b t, (b, t) ∈ (ofSources sources).links.targets →
      (ofSources sources).rootOf t = r → (ofSources sources).Straight b t)
    {place : Place} (hplace : (ofSources sources).Holds place) {b : BindingId}
    (hb : (ofSources sources).bindingAt? place.file place.spot = some b)
    (hbr : (ofSources sources).rootOf b = r) : place ∈ (ofSources sources).bindingPlaces r := by
  rw [mem_bindingPlaces_iff hw, hroot]
  rcases (bindingAt?_eq_some_iff hw hl hplace).1 hb with hspot | hstands
  · by_cases heq : b = r
    · exact Or.inl (heq ▸ hspot)
    · have hne : (ofSources sources).rootOf b ≠ b := fun hb => heq (hb.symm.trans hbr)
      obtain ⟨halias, t, hmem, htr⟩ := exists_tie_of_rootOf_ne hne
      obtain ⟨d, i, hd, hi⟩ := exists_of_mem_targets hmem
      have halias : d.isAlias = false := (isAlias_of_declaration? hd).symm.trans halias
      have htr := htr.trans hbr
      obtain ⟨htt, hname, -⟩ := hstraight b t hmem htr d i hd hi (by simp [halias])
      obtain rfl : t = r := htt.symm.trans htr
      exact Or.inr (Or.inr ⟨b, hmem, (mem_importerPlaces_iff hd hi).2
        ⟨hname, Or.inr ⟨halias, Or.inl hspot⟩⟩⟩)
  · cases hstands with
    | imported hmem hd hi hn halias =>
        obtain ⟨htt, hname, -⟩ := hstraight _ b hmem hbr _ _ hd hi (by simp [hn])
        obtain rfl : b = r := htt.symm.trans hbr
        exact Or.inr (Or.inr ⟨_, hmem, (mem_importerPlaces_iff hd hi).2
          ⟨hname, Or.inl ⟨_, hn, rfl⟩⟩⟩)
    | noted hmem =>
        obtain rfl : b = r := (rootOf_of_final (final_of_mem_nodes hmem)).symm.trans hbr
        exact Or.inr (Or.inl hmem)

/-- References do not depend on where one asks, as far as imports are straight. -/
theorem consistent_of_straight
    (hstraight : ∀ b t, (b, t) ∈ (ofSources sources).links.targets →
      (ofSources sources).rootOf t = r → (ofSources sources).Straight b t)
    {place : Place} (hplace : (ofSources sources).Holds place) {b : BindingId}
    (hb : (ofSources sources).bindingAt? place.file place.spot = some b)
    (hbr : (ofSources sources).rootOf b = r) : (ofSources sources).Consistent place b := by
  have hroot : (ofSources sources).rootOf r = r := by rw [← hbr, rootOf_rootOf]
  have hplaces := bindingPlaces_congr (hbr.trans hroot.symm)
  refine ⟨?_, fun place' hmem => ?_⟩
  · rw [hplaces]
    exact mem_bindingPlaces_of_rootOf hw hl hroot hstraight hplace hb hbr
  · have hplace' := holds_of_mem_bindingPlaces hw hmem
    rw [hplaces] at hmem
    obtain ⟨b', hb', hbr'⟩ := rootOf_of_mem_bindingPlaces hw hl hroot hstraight hmem
    rw [answerAt_of_bindingAt? hplace' hb']
    exact references_congr (hbr'.trans hbr.symm)

/-- The name of what an import under another name imports is listed only where the import is tied
to what it is listed for, by that name. -/
theorem straight_of_mem_of_imported {b t : BindingId} {d : Declaration} {i : Import} {n : Spot}
    (hmem : (b, t) ∈ (ofSources sources).links.targets)
    (hd : (ofSources sources).modules.declaration? b = some d) (hi : d.origin = some i)
    (hn : i.nameSpot = some n) (halias : d.isAlias = true)
    (h : { file := b.file, spot := n } ∈ (ofSources sources).bindingPlaces t) :
    (ofSources sources).rootOf t = t ∧ i.imported = (ofSources sources).nameOf t := by
  have hstands : (ofSources sources).Stands { file := b.file, spot := n } t :=
    .imported hmem hd hi hn halias
  obtain ⟨spec, hkind, hchild⟩ := mem_children_of_nameSpot hd hi hn
  have hnode : ∀ {c : BindingId},
      (c, { file := b.file, spot := n }) ∉ (ofSources sources).links.nodes := fun hc =>
    not_shows_of_import (shows_of_mem_nodes hc) hkind hchild
  rcases (mem_bindingPlaces_iff hw).1 h with hspot | hc | ⟨c, hc, hshown⟩
  · exact absurd hstands (not_stands_of_mem_spotsOf hw hl hspot)
  · exact absurd hc hnode
  · obtain ⟨d', i', hd', hi'⟩ := exists_of_mem_targets hc
    obtain ⟨hname, ⟨n', hn', heq⟩ | ⟨-, hspot | hnode'⟩⟩ :=
      (mem_importerPlaces_iff hd' hi').1 hshown
    · rw [Place.mk.injEq] at heq
      obtain ⟨hfile, rfl⟩ := heq
      obtain rfl := eq_of_nameSpot_eq hfile hd hi hn hd' hi' hn'
      obtain rfl := Option.some.inj (hd.symm.trans hd')
      obtain rfl := Option.some.inj (hi.symm.trans hi')
      have htie := (chained_links sources).eq_of_mem hmem hc
      exact ⟨htie.symm, by rw [hname, ← htie]⟩
    · exact absurd hstands (not_stands_of_mem_spotsOf hw hl hspot)
    · exact absurd (mem_nodesOf_iff.1 hnode') hnode

/-- The declaration of an import by the name it imports is listed only for what the import is tied
to, by that name. -/
theorem straight_of_mem_of_declared {b t : BindingId} {d : Declaration} {i : Import}
    (hmem : (b, t) ∈ (ofSources sources).links.targets)
    (hd : (ofSources sources).modules.declaration? b = some d) (hi : d.origin = some i)
    (halias : d.isAlias = false)
    (h : { file := b.file, spot := d.spot } ∈ (ofSources sources).bindingPlaces t) :
    (ofSources sources).rootOf t = t ∧ i.imported = (ofSources sources).nameOf t := by
  have hown := declared_mem_spotsOf hd
  have hplace := holds_of_mem_spotsOf hw hown
  have hfound := (bindingAt?_eq_some_iff hw hl hplace).2 (Or.inl hown)
  have hsame : ∀ {c : BindingId},
      { file := b.file, spot := d.spot } ∈ (ofSources sources).spotsOf c →
      b = c := by
    intro c hc
    have hfound' := (bindingAt?_eq_some_iff hw hl hplace).2 (Or.inl hc)
    exact Option.some.inj (hfound.symm.trans hfound')
  have hstands : ∀ {c : BindingId},
      ¬(ofSources sources).Stands { file := b.file, spot := d.spot } c :=
    not_stands_of_mem_spotsOf hw hl hown
  have hresult : ∀ {c : BindingId} {d' : Declaration} {i' : Import}, b = c →
      (c, (ofSources sources).rootOf t) ∈ (ofSources sources).links.targets →
      (ofSources sources).modules.declaration? c = some d' → d'.origin = some i' →
      i'.imported = (ofSources sources).nameOf ((ofSources sources).rootOf t) →
      (ofSources sources).rootOf t = t ∧ i.imported = (ofSources sources).nameOf t := by
    rintro c d' i' rfl hc hd' hi' hname
    obtain rfl := Option.some.inj (hd.symm.trans hd')
    obtain rfl := Option.some.inj (hi.symm.trans hi')
    have htie := (chained_links sources).eq_of_mem hmem hc
    exact ⟨htie.symm, by rw [hname, ← htie]⟩
  rcases (mem_bindingPlaces_iff hw).1 h with hspot | hc | ⟨c, hc, hshown⟩
  · exact absurd (hsame hspot) (ne_rootOf_of_tie hmem hd halias)
  · exact absurd (.noted hc) hstands
  · obtain ⟨d', i', hd', hi'⟩ := exists_of_mem_targets hc
    obtain ⟨hname, ⟨n', hn', heq⟩ | ⟨-, hspot | hnode'⟩⟩ :=
      (mem_importerPlaces_iff hd' hi').1 hshown
    · rw [Place.mk.injEq] at heq
      obtain ⟨hfile, rfl⟩ := heq
      cases halias' : d'.isAlias with
      | true =>
          have hstands' := Stands.imported hc hd' hi' hn' halias'
          rw [← hfile] at hstands'
          exact absurd hstands' hstands
      | false =>
          obtain ⟨s, hs, hsc, hbinding⟩ := exists_source_of_declaration? hd'
          by_cases hlocal : d.spot = d'.spot
          · refine hresult (hsame ?_) hc hd' hi' hname
            rw [hfile, hlocal]
            exact declared_mem_spotsOf hd'
          · have hnone := at?_eq_none_of_ne_local hw hs hbinding hi' hn' hlocal
            obtain ⟨s', hs', hsc', -, hspot⟩ := exists_source_of_mem_spotsOf hown
            rw [hfile, hsc] at hsc'
            rw [Option.some.inj hsc', Scopes.at?_of_mem_spotsOf (hw s' hs') hspot] at hnone
            cases hnone
    · exact hresult (hsame hspot) hc hd' hi' hname
    · exact absurd (.noted (mem_nodesOf_iff.1 hnode')) hstands

/-- Nothing is found at a name that stands beside an equal local one. -/
theorem answerAt_eq_nil {b : BindingId} {d : Declaration} {i : Import} {n : Spot}
    (hd : (ofSources sources).modules.declaration? b = some d) (hi : d.origin = some i)
    (hn : i.nameSpot = some n) (halias : d.isAlias = false) (hne : n ≠ d.spot) :
    (ofSources sources).answerAt { file := b.file, spot := n } = [] := by
  obtain ⟨s, hs, hsc, hbinding⟩ := exists_source_of_declaration? hd
  have hidentifier := Scopes.identifier_of_nameSpot (hw s hs) hbinding hi hn
  have hplace : (ofSources sources).Holds { file := b.file, spot := n } :=
    holds_of_scopes? hsc hidentifier
  have hnone : (ofSources sources).bindingAt? b.file n = none := by
    rw [Option.eq_none_iff_forall_ne_some]
    intro c hc
    have hat := at?_eq_none_of_ne_local hw hs hbinding hi hn hne
    rcases (bindingAt?_eq_some_iff hw hl hplace).1 hc with hspot | hstands
    · obtain ⟨s', hs', hsc', hfile, hspot⟩ := exists_source_of_mem_spotsOf hspot
      rw [← show b.file = c.file from hfile, hsc] at hsc'
      rw [Option.some.inj hsc', Scopes.at?_of_mem_spotsOf (hw s' hs') hspot] at hat
      cases hat
    · obtain ⟨place, hstands, heq⟩ : ∃ place, (ofSources sources).Stands place c ∧
          place = { file := b.file, spot := n } := ⟨_, hstands, rfl⟩
      cases hstands with
      | imported hmem hd' hi' hn' halias' =>
          rw [Place.mk.injEq] at heq
          obtain ⟨hfile, rfl⟩ := heq
          obtain rfl := eq_of_nameSpot_eq hfile hd' hi' hn' hd hi hn
          obtain rfl := Option.some.inj (hd.symm.trans hd')
          rw [halias] at halias'
          cases halias'
      | noted hmem =>
          obtain ⟨spec, hkind, hchild⟩ := mem_children_of_nameSpot hd hi hn
          refine not_shows_of_import (shows_of_mem_nodes hmem) hkind ?_
          rw [heq]
          exact hchild
  have hsource : (ofSources sources).source? b.file = some s := by
    rw [source?, hsc]
    rfl
  have hpath := (exists_source_of_source? hsource).2
  obtain ⟨spec, hkind, hname, -, -⟩ := Scope.exists_of_nameSpot
    (Scope.mem_declarations.1 (Scopes.mem_declarations_of_binding? hbinding)) hi hn
  have hproperty := (hl s hs).imported spec
    (Spot.under_of_child hidentifier.under (Spot.mem_children_of_child? hname)) hkind n hname
  rw [answerAt, hsource]
  dsimp only
  rw [targetOf?, hpath, hnone, hproperty]
  rfl

/-- Where references do not depend on where one asks, imports are straight. -/
theorem straight_of_consistent
    (hconsistent : ∀ place b, (ofSources sources).Holds place →
      (ofSources sources).bindingAt? place.file place.spot = some b →
      (ofSources sources).rootOf b = r → (ofSources sources).Consistent place b)
    {b t : BindingId} (hmem : (b, t) ∈ (ofSources sources).links.targets)
    (htr : (ofSources sources).rootOf t = r) : (ofSources sources).Straight b t := by
  intro d i hd hi hshown
  cases halias : d.isAlias with
  | true =>
      obtain ⟨n, hn⟩ := Option.isSome_iff_exists.1 (hshown halias)
      have hstands : (ofSources sources).Stands { file := b.file, spot := n } t :=
        .imported hmem hd hi hn halias
      have hplace := holds_of_stands hw hstands
      have hfound := (bindingAt?_eq_some_iff hw hl hplace).2 (Or.inr hstands)
      obtain ⟨hroot, hname⟩ := straight_of_mem_of_imported hw hl hmem hd hi hn halias
        (hconsistent _ _ hplace hfound htr).1
      exact ⟨hroot, hname, fun hfalse => by cases hfalse⟩
  | false =>
      have hown := declared_mem_spotsOf hd
      have hplace := holds_of_mem_spotsOf hw hown
      have hfound := (bindingAt?_eq_some_iff hw hl hplace).2 (Or.inl hown)
      have hbt := rootOf_of_tie hmem hd halias
      obtain ⟨hlisted, hsame⟩ := hconsistent _ _ hplace hfound (hbt.trans htr)
      obtain ⟨hroot, hname⟩ := straight_of_mem_of_declared hw hl hmem hd hi halias
        (bindingPlaces_congr hbt ▸ hlisted)
      refine ⟨hroot, hname, fun _ n hn => ?_⟩
      by_contra hne
      have hlisted' : { file := b.file, spot := n } ∈ (ofSources sources).bindingPlaces b := by
        rw [mem_bindingPlaces_iff hw, hbt, hroot]
        exact Or.inr (Or.inr ⟨b, hmem, (mem_importerPlaces_iff hd hi).2
          ⟨hname, Or.inl ⟨n, hn, rfl⟩⟩⟩)
      obtain ⟨s, hs, -⟩ := hplace
      have hrefs := referenceAt_mem_references (t := .binding b) hlisted hs
      rw [← hsame _ hlisted', answerAt_eq_nil hw hl hd hi hn halias hne] at hrefs
      cases hrefs

/-- References do not depend on where one asks, for all that leads to a root, exactly when all
imports tied to what leads there are straight. -/
theorem consistent_iff_straight (r : BindingId) :
    (∀ place b, (ofSources sources).Holds place →
      (ofSources sources).bindingAt? place.file place.spot = some b →
      (ofSources sources).rootOf b = r → (ofSources sources).Consistent place b) ↔
    ∀ b t, (b, t) ∈ (ofSources sources).links.targets → (ofSources sources).rootOf t = r →
      (ofSources sources).Straight b t :=
  ⟨fun h _ _ hmem htr => straight_of_consistent hw hl h hmem htr,
    fun h _ _ hplace hb hbr => consistent_of_straight hw hl h hplace hb hbr⟩

end

end Index

end Redline
