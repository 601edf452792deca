import Redline.Proofs.Symbol.Places

/-!
# What a name stands for

The names that belong to no binding of their own file and `Stand` for one of another module: the
names of what is imported under another name, the names that are passed on, and the members of
namespaces. Such a name stands for one binding only, and that is what is found at it. Every binding
that is found at an identifier is one that the identifier belongs to or stands for.
-/

namespace Redline

namespace Index

variable {sources : List Source}

/-- A name stands for a binding of another module. -/
inductive Stands (x : Index) : Place → BindingId → Prop where
  | imported {b t : BindingId} {d : Declaration} {i : Import} {n : Spot}
      (hmem : (b, t) ∈ x.links.targets) (hd : x.modules.declaration? b = some d)
      (hi : d.origin = some i) (hn : i.nameSpot = some n) (halias : d.isAlias = true) :
      Stands x { file := b.file, spot := n } t
  | noted {t : BindingId} {place : Place} (hmem : (t, place) ∈ x.links.nodes) : Stands x place t

/-- The links of the imports of an index. -/
def importLinks (x : Index) : Links :=
  x.modules.imports.foldl (Links.linkImport x.modules) Links.none

theorem coherent_importLinks (x : Index) : x.importLinks.Coherent x.modules :=
  (Links.coherent_imports x.modules).1

theorem targets_links (sources : List Source) :
    (ofSources sources).links.targets = (ofSources sources).importLinks.targets :=
  (noted_links sources).targets

theorem chained_links (sources : List Source) :
    Links.Chained (ofSources sources).modules (ofSources sources).links.targets := by
  rw [targets_links]
  exact (coherent_importLinks _).chained

theorem mem_importers_iff {b t : BindingId} :
    (t, b) ∈ (ofSources sources).links.importers ↔ (b, t) ∈ (ofSources sources).links.targets := by
  rw [(noted_links sources).importers, targets_links]
  exact (coherent_importLinks _).importers b t

theorem exists_of_mem_targets {b t : BindingId} (h : (b, t) ∈ (ofSources sources).links.targets) :
    ∃ d i, (ofSources sources).modules.declaration? b = some d ∧ d.origin = some i := by
  rw [targets_links] at h
  exact (coherent_importLinks _).imports b t h

theorem shows_of_mem_nodes {t : BindingId} {place : Place}
    (h : (t, place) ∈ (ofSources sources).links.nodes) :
    Links.Shows (ofSources sources).modules (ofSources sources).importLinks place t :=
  (noted_links sources).nodes t place h

/-- What is noted at an octet is what the names there stand for. -/
theorem mem_named_iff {key : String × Nat} {t : BindingId} :
    (key, t) ∈ (ofSources sources).links.named ↔
      ∃ place, (ofSources sources).Stands place t ∧ key = (place.file, place.spot.start) := by
  rw [(noted_links sources).named, ← importLinks, (coherent_importLinks _).named]
  constructor
  · rintro (⟨b, d, i, n, hmem, hd, hi, hn, halias, rfl⟩ | ⟨place, hmem, rfl⟩)
    · rw [← targets_links] at hmem
      exact ⟨_, .imported hmem hd hi hn halias, rfl⟩
    · exact ⟨place, .noted hmem, rfl⟩
  · rintro ⟨place, hstands, rfl⟩
    cases hstands with
    | imported hmem hd hi hn halias =>
        rw [targets_links] at hmem
        exact Or.inl ⟨_, _, _, _, hmem, hd, hi, hn, halias, rfl⟩
    | noted hmem => exact Or.inr ⟨place, hmem, rfl⟩

/-! ### Declarations and their files -/

theorem exists_source_of_declaration? {b : BindingId} {d : Declaration}
    (h : (ofSources sources).modules.declaration? b = some d) :
    ∃ s ∈ sources, (ofSources sources).modules.scopes? b.file = some (Scopes.ofSource s) ∧
      (Scopes.ofSource s).binding? b.number = some d := by
  obtain ⟨sc, hsc, hd⟩ := Option.bind_eq_some_iff.1 h
  obtain ⟨s, hs, -, rfl⟩ := exists_source_of_scopes? hsc
  exact ⟨s, hs, hsc, hd⟩

/-- Bindings of one file with one name of what they import are one. -/
theorem eq_of_nameSpot_eq {b b' : BindingId} {d d' : Declaration} {i i' : Import} {n : Spot}
    (hfile : b.file = b'.file)
    (hd : (ofSources sources).modules.declaration? b = some d) (hi : d.origin = some i)
    (hn : i.nameSpot = some n) (hd' : (ofSources sources).modules.declaration? b' = some d')
    (hi' : d'.origin = some i') (hn' : i'.nameSpot = some n) : b = b' := by
  obtain ⟨s, hs, hsc, hbinding⟩ := exists_source_of_declaration? hd
  obtain ⟨s', hs', hsc', hbinding'⟩ := exists_source_of_declaration? hd'
  rw [← hfile, hsc] at hsc'
  rw [← Option.some.inj hsc'] at hbinding'
  have hmem := Scope.mem_declarations.1 (Scopes.mem_declarations_of_binding? hbinding)
  have hmem' := Scope.mem_declarations.1 (Scopes.mem_declarations_of_binding? hbinding')
  obtain ⟨spec, hkind, hname, hlocal, -⟩ := Scope.exists_of_nameSpot hmem hi hn
  obtain ⟨spec', hkind', hname', hlocal', -⟩ := Scope.exists_of_nameSpot hmem' hi' hn'
  obtain rfl := Scope.eq_of_mem_children (Spot.mem_children_of_child? hname)
    (Spot.mem_children_of_child? hname')
  have hspot : d.spot = d'.spot := hlocal.trans hlocal'.symm
  have hnumber := Scope.eq_of_bindings hbinding hbinding'
    (Scope.scope_eq_of_spot_eq hmem hmem' hspot) (by
      rw [Scope.name_of_declares_mem_events hmem, Scope.name_of_declares_mem_events hmem', hspot])
  obtain ⟨file, number⟩ := b
  obtain ⟨file', number'⟩ := b'
  cases hfile
  cases hnumber
  rfl

/-! ### One binding for a name -/

/-- Identifiers at one octet of a file are one place. -/
theorem eq_of_start_eq (hw : ∀ s ∈ sources, s.WellFormed) {place place' : Place}
    (h : (ofSources sources).Holds place) (h' : (ofSources sources).Holds place')
    (hfile : place.file = place'.file) (hstart : place.spot.start = place'.spot.start) :
    place = place' := by
  obtain ⟨s, hs, hn⟩ := h
  obtain ⟨s', hs', hn'⟩ := h'
  rw [← hfile, hs] at hs'
  obtain rfl := Option.some.inj hs'
  obtain ⟨file, n⟩ := place
  obtain ⟨file', n'⟩ := place'
  cases hfile
  cases (hw s (exists_source_of_source? hs).1).eq_of_start_eq hn hn' hstart
  rfl

/-- What is noted at a name that is passed on is what the other module exports under that name. -/
theorem exported?_of_shows_passed {l : Links} {place : Place} {t : BindingId}
    (h : Links.Shows (ofSources sources).modules l place t) {s : Source}
    (hsc : (ofSources sources).modules.scopes? place.file = some (Scopes.ofSource s))
    {from_ imported module_ : String} (hp : Scope.Exports.Passed s from_ imported place.spot)
    (hmodule : (ofSources sources).modules.resolve? place.file from_ = some module_) :
    l.exported? (ofSources sources).modules module_ imported = some t := by
  obtain ⟨⟨_, clause, spec, -, hclause, hspec, hkind, hname, hfrom⟩, htext⟩ := hp
  cases h with
  | passed hsc' he' hmodule' hb' =>
      rw [hsc] at hsc'
      rw [← Option.some.inj hsc'] at he'
      obtain ⟨⟨_, clause', spec', -, hclause', hspec', -, hname', hfrom'⟩, htext'⟩ :=
        Scopes.sound_exports s _ _ _ _ he'
      obtain rfl := Scope.eq_of_mem_children (Spot.mem_children_of_child? hname)
        (Spot.mem_children_of_child? hname')
      obtain rfl := Scope.eq_of_mem_children hspec hspec'
      obtain rfl := Scope.eq_of_mem_children hclause hclause'
      rw [hfrom] at hfrom'
      rw [← Option.some.inj hfrom', hmodule] at hmodule'
      rw [htext'] at hb'
      rw [htext, Option.some.inj hmodule']
      exact hb'
  | member hsc' huse' hspace' hp' haddress' hkind' hobject' hstart' hmember' hb' =>
      rw [Scope.eq_of_mem_children (Spot.mem_children_of_child? hname)
        (Spot.mem_children_of_child? hmember'), hkind'] at hkind
      exact absurd hkind (by decide)

/-- What is noted at a member of a namespace is what the module exports under the name of the
member. -/
theorem exported?_of_shows_member {l : Links} {place : Place} {t : BindingId}
    (h : Links.Shows (ofSources sources).modules l place t) {s : Source} (hw : s.WellFormed)
    (hsc : (ofSources sources).modules.scopes? place.file = some (Scopes.ofSource s))
    {p object use : Spot} {number : Nat} {module_ : String}
    (hkind : p.kind = "member_expression") (hmember : p.child? "property" = some place.spot)
    (hobject : p.child? "object" = some object) (hstart : object.start = use.start)
    (huse : use ∈ (Scopes.ofSource s).spotsOf number)
    (hspace : l.namespaces.lookup { file := place.file, number } = some module_) :
    l.exported? (ofSources sources).modules module_ (s.textOf place.spot.tree) = some t := by
  cases h with
  | passed hsc' he' hmodule' hb' =>
      rw [hsc] at hsc'
      rw [← Option.some.inj hsc'] at he'
      obtain ⟨⟨_, _, spec', -, -, -, hkind', hname', -⟩, -⟩ := Scopes.sound_exports s _ _ _ _ he'
      rw [Scope.eq_of_mem_children (Spot.mem_children_of_child? hmember)
        (Spot.mem_children_of_child? hname'), hkind'] at hkind
      exact absurd hkind (by decide)
  | member hsc' huse' hspace' hp' haddress' hkind' hobject' hstart' hmember' hb' =>
      rw [hsc] at hsc'
      obtain rfl := Option.some.inj hsc'
      obtain rfl := Scope.eq_of_mem_children (Spot.mem_children_of_child? hmember)
        (Spot.mem_children_of_child? hmember')
      rw [hobject] at hobject'
      rw [← Option.some.inj hobject', hstart] at hstart'
      -- The object is a use of one binding, so both accesses are to the same namespace.
      have hnumber := Scopes.at?_of_mem_spotsOf hw huse
      rw [hstart', Scopes.at?_of_mem_spotsOf hw huse'] at hnumber
      rw [Option.some.inj hnumber, hspace] at hspace'
      rw [Option.some.inj hspace']
      exact hb'

/-- A name is noted for one binding. -/
theorem shows_unique (hw : ∀ s ∈ sources, s.WellFormed) {l : Links} {place : Place}
    {t t' : BindingId} (h : Links.Shows (ofSources sources).modules l place t)
    (h' : Links.Shows (ofSources sources).modules l place t') : t = t' := by
  cases h with
  | passed hsc he hmodule hb =>
      obtain ⟨s, -, -, rfl⟩ := exists_source_of_scopes? hsc
      have hb' := exported?_of_shows_passed h' hsc (Scopes.sound_exports s _ _ _ _ he) hmodule
      exact Option.some.inj (hb.symm.trans hb')
  | member hsc huse hspace hp haddress hkind hobject hstart hmember hb =>
      obtain ⟨s, hs, -, rfl⟩ := exists_source_of_scopes? hsc
      have hb' :=
        exported?_of_shows_member h' (hw s hs) hsc hkind hmember hobject hstart huse hspace
      exact Option.some.inj (hb.symm.trans hb')

/-- What is noted for a binding stands in an export or as a member of an access. -/
theorem exists_parent_of_shows {l : Links} {place : Place} {t : BindingId}
    (h : Links.Shows (ofSources sources).modules l place t) :
    ∃ p : Spot, place.spot ∈ p.children ∧
      (p.kind = "export_specifier" ∨ p.kind = "member_expression") := by
  cases h with
  | passed hsc he hmodule hb =>
      obtain ⟨s, hs, -, rfl⟩ := exists_source_of_scopes? hsc
      obtain ⟨⟨_, _, spec, -, -, -, hkind, hname, -⟩, -⟩ := Scopes.sound_exports s _ _ _ _ he
      exact ⟨spec, Spot.mem_children_of_child? hname, Or.inl hkind⟩
  | member hsc huse hspace hp haddress hkind hobject hstart hmember hb =>
      exact ⟨_, Spot.mem_children_of_child? hmember, Or.inr hkind⟩

/-- The name of what is imported is not noted for another binding. -/
theorem not_shows_of_import {l : Links} {place : Place} {t : BindingId} {spec : Spot}
    (h : Links.Shows (ofSources sources).modules l place t)
    (hkind : spec.kind = "import_specifier") : place.spot ∉ spec.children := by
  intro hmem
  obtain ⟨p, hp, hpkind⟩ := exists_parent_of_shows h
  rw [← Scope.eq_of_mem_children hmem hp, hkind] at hpkind
  exact absurd hpkind (by decide)

theorem mem_children_of_nameSpot {b : BindingId} {d : Declaration} {i : Import} {n : Spot}
    (hd : (ofSources sources).modules.declaration? b = some d) (hi : d.origin = some i)
    (hn : i.nameSpot = some n) :
    ∃ spec : Spot, spec.kind = "import_specifier" ∧ n ∈ spec.children := by
  obtain ⟨s, -, -, hbinding⟩ := exists_source_of_declaration? hd
  obtain ⟨spec, hkind, hname, -, -⟩ := Scope.exists_of_nameSpot
    (Scope.mem_declarations.1 (Scopes.mem_declarations_of_binding? hbinding)) hi hn
  exact ⟨spec, hkind, Spot.mem_children_of_child? hname⟩

/-- A name that stands for a binding is a part of an import or an export, or a member of an
access. -/
theorem exists_parent_of_stands {place : Place} {t : BindingId}
    (h : (ofSources sources).Stands place t) :
    ∃ p : Spot, place.spot ∈ p.children ∧
      (p.kind = "import_specifier" ∨ p.kind = "export_specifier" ∨
        p.kind = "member_expression") := by
  cases h with
  | imported hmem hd hi hn halias =>
      obtain ⟨spec, hkind, hchild⟩ := mem_children_of_nameSpot hd hi hn
      exact ⟨spec, hchild, Or.inl hkind⟩
  | noted hmem =>
      obtain ⟨p, hp, hkind⟩ := exists_parent_of_shows (shows_of_mem_nodes hmem)
      exact ⟨p, hp, Or.inr hkind⟩

theorem holds_of_stands (hw : ∀ s ∈ sources, s.WellFormed) {place : Place} {t : BindingId}
    (h : (ofSources sources).Stands place t) : (ofSources sources).Holds place := by
  cases h with
  | imported hmem hd hi hn halias =>
      obtain ⟨s, hs, hsc, hbinding⟩ := exists_source_of_declaration? hd
      exact holds_of_scopes? hsc (Scopes.identifier_of_nameSpot (hw s hs) hbinding hi hn)
  | noted hmem => exact holds_of_shows hw (shows_of_mem_nodes hmem)

/-- A name stands for one binding. -/
theorem stands_unique (hw : ∀ s ∈ sources, s.WellFormed) {place place' : Place}
    {t t' : BindingId} (h : (ofSources sources).Stands place t)
    (h' : (ofSources sources).Stands place' t') (heq : place = place') : t = t' := by
  cases h with
  | imported hmem hd hi hn halias =>
      obtain ⟨spec, hkind, hchild⟩ := mem_children_of_nameSpot hd hi hn
      cases h' with
      | imported hmem' hd' hi' hn' halias' =>
          simp only [Place.mk.injEq] at heq
          obtain ⟨hfile, rfl⟩ := heq
          obtain rfl := eq_of_nameSpot_eq hfile hd hi hn hd' hi' hn'
          exact (chained_links sources).eq_of_mem hmem hmem'
      | noted hmem' =>
          subst heq
          exact absurd hchild (not_shows_of_import (shows_of_mem_nodes hmem') hkind)
  | noted hmem =>
      cases h' with
      | imported hmem' hd' hi' hn' halias' =>
          obtain ⟨spec, hkind, hchild⟩ := mem_children_of_nameSpot hd' hi' hn'
          subst heq
          exact absurd hchild (not_shows_of_import (shows_of_mem_nodes hmem) hkind)
      | noted hmem' =>
          subst heq
          exact shows_unique hw (shows_of_mem_nodes hmem) (shows_of_mem_nodes hmem')

/-! ### What is found at a name -/

theorem mem_spotsOf_iff {b : BindingId} {place : Place} {s : Source}
    (hsc : (ofSources sources).modules.scopes? b.file = some (Scopes.ofSource s)) :
    place ∈ (ofSources sources).spotsOf b ↔
      place.file = b.file ∧ place.spot ∈ (Scopes.ofSource s).spotsOf b.number := by
  rw [spotsOf, hsc]
  dsimp only
  constructor
  · intro h
    obtain ⟨n, hn, rfl⟩ := List.mem_map.1 h
    exact ⟨rfl, hn⟩
  · rintro ⟨hfile, hn⟩
    obtain ⟨file, n⟩ := place
    cases hfile
    exact List.mem_map.2 ⟨n, hn, rfl⟩

theorem exists_source_of_mem_spotsOf {b : BindingId} {place : Place}
    (h : place ∈ (ofSources sources).spotsOf b) :
    ∃ s ∈ sources, (ofSources sources).modules.scopes? b.file = some (Scopes.ofSource s) ∧
      place.file = b.file ∧ place.spot ∈ (Scopes.ofSource s).spotsOf b.number := by
  have h' := h
  rw [spotsOf] at h
  cases hsc : (ofSources sources).modules.scopes? b.file with
  | none =>
      rw [hsc] at h
      cases h
  | some sc =>
      obtain ⟨s, hs, -, rfl⟩ := exists_source_of_scopes? hsc
      exact ⟨s, hs, rfl, (mem_spotsOf_iff hsc).1 h'⟩

theorem unquoted_eq_self {text : String}
    (h : ∀ c ∈ text.toList, c ∉ [':', '\x27', '"', '\x60']) : Scope.unquoted text = text := by
  rw [Scope.unquoted]
  split
  · rename_i c d rest heq
    have hc := h c (by rw [heq]; simp)
    rw [if_neg]
    intro hmem
    refine hc (List.mem_cons_of_mem _ ?_)
    simpa using hmem
  · rfl

/-- A name of an import under another name stands beside the local name. -/
theorem nameSpot_ne_local (hl : ∀ s ∈ sources, s.Lexical) (hw : ∀ s ∈ sources, s.WellFormed)
    {s : Source} (hs : s ∈ sources) {number : Nat} {d : Declaration}
    (hd : (Scopes.ofSource s).binding? number = some d) {i : Import} (hi : d.origin = some i)
    {n : Spot} (hn : i.nameSpot = some n) (halias : d.isAlias = true) : n ≠ d.spot := by
  have hmem := Scope.mem_declarations.1 (Scopes.mem_declarations_of_binding? hd)
  obtain ⟨-, -, -, -, himported⟩ := Scope.exists_of_nameSpot hmem hi hn
  rintro rfl
  rw [unquoted_eq_self ((hl s hs).text _ (Scopes.identifier_of_nameSpot (hw s hs) hd hi hn)),
    ← Scope.name_of_declares_mem_events hmem] at himported
  simp [Declaration.isAlias, hi, himported] at halias

/-- A name that stands beside a local one belongs to no binding of its file. -/
theorem at?_eq_none_of_ne_local (hw : ∀ s ∈ sources, s.WellFormed) {s : Source} (hs : s ∈ sources)
    {number : Nat} {d : Declaration} (hd : (Scopes.ofSource s).binding? number = some d)
    {i : Import} (hi : d.origin = some i) {n : Spot} (hn : i.nameSpot = some n)
    (hne : n ≠ d.spot) : (Scopes.ofSource s).at? n.start = none := by
  obtain ⟨spec, hkind, hname, hlocal, -⟩ := Scope.exists_of_nameSpot
    (Scope.mem_declarations.1 (Scopes.mem_declarations_of_binding? hd)) hi hn
  exact Scopes.at?_nameSpot_eq_none (hw s hs) (Scopes.identifier_of_nameSpot (hw s hs) hd hi hn)
    hkind hname (hlocal ▸ hne)

/-- A name that stands for a binding of another module belongs to none of its own file. -/
theorem at?_eq_none_of_stands (hw : ∀ s ∈ sources, s.WellFormed) (hl : ∀ s ∈ sources, s.Lexical)
    {place : Place} {t : BindingId} (h : (ofSources sources).Stands place t) :
    ∃ sc, (ofSources sources).modules.scopes? place.file = some sc ∧
      sc.at? place.spot.start = none := by
  have hholds := holds_of_stands hw h
  cases h with
  | imported hmem hd hi hn halias =>
      obtain ⟨s, hs, hsc, hbinding⟩ := exists_source_of_declaration? hd
      exact ⟨_, hsc, at?_eq_none_of_ne_local hw hs hbinding hi hn
        (nameSpot_ne_local hl hw hs hbinding hi hn halias)⟩
  | noted hmem =>
      cases shows_of_mem_nodes hmem with
      | passed hsc he hmodule hb =>
          obtain ⟨s, hs, -, rfl⟩ := exists_source_of_scopes? hsc
          have hn := (Scopes.sound_exports s _ _ _ _ he).identifier (hw s hs)
          obtain ⟨⟨s₁, clause, spec, -, hclause, hspec, hkind, hname, hfrom⟩, -⟩ :=
            Scopes.sound_exports s _ _ _ _ he
          have hsource : (s₁.child? "source").isSome := by
            obtain ⟨c, hc, -⟩ := Option.map_eq_some_iff.1 hfrom
            rw [hc]
            rfl
          exact ⟨_, hsc, Scopes.at?_exported_eq_none (hw s hs) hn hsource hclause hspec hkind hname⟩
      | member hsc huse hspace hp haddress hkind hobject hstart hmember hb =>
          obtain ⟨s, hs, -, rfl⟩ := exists_source_of_scopes? hsc
          obtain ⟨hunder, -⟩ := Spot.under_parent
            (Scopes.identifier_of_mem_spotsOf (hw s hs) huse).under hp haddress
          have hn := (hw s hs).identifier_of_child? hunder (by rw [hkind]; decide) hmember
          exact ⟨_, hsc, Scopes.at?_child_eq_none (hw s hs) hn (Spot.mem_children_of_child? hmember)
            (by rw [hkind]; decide) ((hl s hs).member _ hunder hkind _ hmember)⟩

theorem not_stands_of_mem_spotsOf (hw : ∀ s ∈ sources, s.WellFormed)
    (hl : ∀ s ∈ sources, s.Lexical) {place : Place} {b t : BindingId}
    (h : place ∈ (ofSources sources).spotsOf b) : ¬(ofSources sources).Stands place t := by
  intro hstands
  obtain ⟨s, hs, hsc, hfile, hspot⟩ := exists_source_of_mem_spotsOf h
  obtain ⟨sc, hsc', hnone⟩ := at?_eq_none_of_stands hw hl hstands
  rw [hfile, hsc] at hsc'
  rw [← Option.some.inj hsc', Scopes.at?_of_mem_spotsOf (hw s hs) hspot] at hnone
  cases hnone

/-- What is found at an identifier is what it belongs to or stands for. -/
theorem bindingAt?_eq_some_iff (hw : ∀ s ∈ sources, s.WellFormed) (hl : ∀ s ∈ sources, s.Lexical)
    {place : Place} (hplace : (ofSources sources).Holds place) {b : BindingId} :
    (ofSources sources).bindingAt? place.file place.spot = some b ↔
      place ∈ (ofSources sources).spotsOf b ∨ (ofSources sources).Stands place b := by
  obtain ⟨s, hsource, hn⟩ := hplace
  obtain ⟨sc, hsc, hs⟩ := Option.map_eq_some_iff.1 hsource
  obtain ⟨s', hs', -, rfl⟩ := exists_source_of_scopes? hsc
  obtain rfl : s' = s := hs
  rw [bindingAt?, hsc]
  dsimp only
  constructor
  · intro h
    cases hat : (Scopes.ofSource s').at? place.spot.start with
    | some number =>
        rw [hat] at h
        cases h
        obtain ⟨n, hmem, hstart⟩ := Scopes.exists_of_at? hat
        have hspot := (hw s' hs').eq_of_start_eq
          (Scopes.identifier_of_mem_spotsOf (hw s' hs') hmem) hn hstart
        exact Or.inl ((mem_spotsOf_iff hsc).2 ⟨rfl, hspot ▸ hmem⟩)
    | none =>
        rw [hat] at h
        obtain ⟨place', hstands, hkey⟩ := mem_named_iff.1 (Assoc.mem_of_lookup h)
        rw [Prod.mk.injEq] at hkey
        have heq := eq_of_start_eq hw ⟨s', hsource, hn⟩ (holds_of_stands hw hstands) hkey.1 hkey.2
        exact Or.inr (heq ▸ hstands)
  · rintro (hmem | hstands)
    · obtain ⟨s₁, hs₁, hsc₁, hfile, hspot⟩ := exists_source_of_mem_spotsOf hmem
      rw [← hfile, hsc] at hsc₁
      rw [Option.some.inj hsc₁, Scopes.at?_of_mem_spotsOf (hw s₁ hs₁) hspot, hfile]
    · obtain ⟨sc, hsc', hnone⟩ := at?_eq_none_of_stands hw hl hstands
      rw [hsc] at hsc'
      rw [Option.some.inj hsc', hnone]
      dsimp only
      have hmem : ((place.file, place.spot.start), b) ∈ (ofSources sources).links.named :=
        mem_named_iff.2 ⟨place, hstands, rfl⟩
      cases hlookup : (ofSources sources).links.named.lookup (place.file, place.spot.start) with
      | none => simpa using List.lookup_eq_none_iff.1 hlookup _ hmem
      | some t =>
          obtain ⟨place', hstands', hkey⟩ := mem_named_iff.1 (Assoc.mem_of_lookup hlookup)
          rw [Prod.mk.injEq] at hkey
          have heq := eq_of_start_eq hw (holds_of_stands hw hstands) (holds_of_stands hw hstands')
            hkey.1 hkey.2
          rw [stands_unique hw hstands hstands' heq]

end Index

end Redline
