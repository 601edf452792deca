import Redline.Proofs.Distinct
import Redline.Proofs.Link.Names
import Redline.Symbol.Index

/-!
# The places of a name are identifiers

The index of some well-formed sources has each of them under its path, and every place that it
lists, for a binding or for a property, is an identifier of one of them.
-/

namespace Redline

namespace Spot

/-- The node above a spot is under what the spot is under, and the spot is its child. -/
theorem under_parent {t : Tree} {p s : Spot} (hs : (root t).Under s)
    (habove : s.above = p.tree :: p.above) (haddress : s.address.tail = p.address) :
    (root t).Under p ∧ s ∈ p.children := by
  cases hs with
  | self => cases habove
  | @step q number child hm hc =>
      obtain ⟨tree, above, address⟩ := p
      cases habove
      cases haddress
      exact ⟨hm, mem_children.2 ⟨number, child, hc, rfl⟩⟩

theorem under_of_child {t : Tree} {p c : Spot} (hc : (root t).Under c) (h : c ∈ p.children) :
    (root t).Under p := by
  obtain ⟨number, child, -, rfl⟩ := mem_children.1 h
  exact (under_parent hc rfl rfl).1

end Spot

namespace Index

variable {sources : List Source}

/-- The files of an index are its sources, each under its path. -/
theorem mem_files_foldl {files : List (String × Scopes)}
    (hfiles : ∀ f ∈ files, ∃ s ∈ sources, s.path = f.1 ∧ f.2 = Scopes.ofSource s)
    (hkeys : (files.map Prod.fst).Nodup) (rest : List Source) (hrest : ∀ s ∈ rest, s ∈ sources) :
    (∀ f ∈ rest.foldl (fun files s => Assoc.put files s.path (Scopes.ofSource s)) files,
      ∃ s ∈ sources, s.path = f.1 ∧ f.2 = Scopes.ofSource s) ∧
    ((rest.foldl (fun files s => Assoc.put files s.path (Scopes.ofSource s)) files).map
      Prod.fst).Nodup := by
  induction rest generalizing files with
  | nil => exact ⟨hfiles, hkeys⟩
  | cons s rest ih =>
      refine ih ?_ (Assoc.nodup_keys_put hkeys _ _)
        fun s' hs' => hrest s' (List.mem_cons_of_mem _ hs')
      intro f hf
      rcases Assoc.mem_of_mem_put hf with hf | rfl
      · exact hfiles f hf
      · exact ⟨s, hrest s List.mem_cons_self, rfl, rfl⟩

theorem exists_source_of_mem_files {f : String × Scopes}
    (hf : f ∈ (ofSources sources).modules.files) :
    ∃ s ∈ sources, s.path = f.1 ∧ f.2 = Scopes.ofSource s :=
  (mem_files_foldl (by simp) (by simp) sources fun _ hs => hs).1 f hf

theorem nodup_files (sources : List Source) :
    ((ofSources sources).modules.files.map Prod.fst).Nodup :=
  (mem_files_foldl (by simp) (by simp) sources fun s hs => (hs : s ∈ sources)).2

theorem scopes?_of_mem_files {f : String × Scopes}
    (hf : f ∈ (ofSources sources).modules.files) :
    (ofSources sources).modules.scopes? f.1 = some f.2 :=
  Assoc.lookup_of_mem (nodup_files sources) hf

theorem exists_source_of_scopes? {file : String} {sc : Scopes}
    (h : (ofSources sources).modules.scopes? file = some sc) :
    ∃ s ∈ sources, s.path = file ∧ sc = Scopes.ofSource s :=
  exists_source_of_mem_files (Assoc.mem_of_lookup h)

theorem exists_source_of_source? {file : String} {s : Source}
    (h : (ofSources sources).source? file = some s) : s ∈ sources ∧ s.path = file := by
  obtain ⟨sc, hsc, rfl⟩ := Option.map_eq_some_iff.1 h
  obtain ⟨s, hs, hpath, rfl⟩ := exists_source_of_scopes? hsc
  exact ⟨hs, hpath⟩

/-- There is a source under the path of every source. -/
theorem exists_source?_of_mem {s : Source} (h : s ∈ sources) :
    ∃ s', (ofSources sources).source? s.path = some s' := by
  have hkeys : ∀ (rest : List Source) (files : List (String × Scopes)),
      (s ∈ rest ∨ s.path ∈ files.map Prod.fst) → s.path ∈
        (rest.foldl (fun files s => Assoc.put files s.path (Scopes.ofSource s)) files).map
          Prod.fst := by
    intro rest
    induction rest with
    | nil => exact fun files hfiles => hfiles.resolve_left List.not_mem_nil
    | cons s' rest ih =>
        intro files hfiles
        refine ih _ ?_
        rw [List.mem_cons] at hfiles
        rw [Assoc.keys_put]
        rcases hfiles with (rfl | hrest) | hkey
        · right
          split_ifs with hmem
          · exact hmem
          · simp
        · exact Or.inl hrest
        · right
          split_ifs
          · exact hkey
          · exact List.mem_append_left _ hkey
  obtain ⟨⟨file, sc⟩, hmem, hpath⟩ := List.mem_map.1 (hkeys sources [] (Or.inl h))
  have hsc := scopes?_of_mem_files hmem
  refine ⟨sc.source, ?_⟩
  rw [source?, ← show file = s.path from hpath, hsc]
  rfl

/-- A place is an identifier of a source of the index. -/
def Holds (x : Index) (place : Place) : Prop :=
  ∃ s, x.source? place.file = some s ∧ s.Identifier place.spot

end Index

namespace Index

variable {sources : List Source}

theorem noted_links (sources : List Source) :
    Links.Noted (ofSources sources).modules
      ((ofSources sources).modules.imports.foldl (Links.linkImport (ofSources sources).modules)
        Links.none) (ofSources sources).links :=
  Links.noted_ofModules fun _ hf => scopes?_of_mem_files hf

theorem holds_of_scopes? {file : String} {sc : Scopes} {n : Spot}
    (hsc : (ofSources sources).modules.scopes? file = some sc) (hn : sc.source.Identifier n) :
    (ofSources sources).Holds { file, spot := n } :=
  ⟨sc.source, by rw [source?, hsc]; rfl, hn⟩

theorem holds_of_mem_spotsOf (hw : ∀ s ∈ sources, s.WellFormed) {b : BindingId} {place : Place}
    (h : place ∈ (ofSources sources).spotsOf b) : (ofSources sources).Holds place := by
  rw [spotsOf] at h
  cases hsc : (ofSources sources).modules.scopes? b.file with
  | none =>
      rw [hsc] at h
      cases h
  | some sc =>
      rw [hsc] at h
      obtain ⟨n, hn, rfl⟩ := List.mem_map.1 h
      obtain ⟨s, hs, -, rfl⟩ := exists_source_of_scopes? hsc
      exact holds_of_scopes? hsc (Scopes.identifier_of_mem_spotsOf (hw s hs) hn)

/-- A name that stands for a binding of another module is an identifier. -/
theorem holds_of_shows (hw : ∀ s ∈ sources, s.WellFormed) {l : Links} {place : Place}
    {b : BindingId} (h : Links.Shows (ofSources sources).modules l place b) :
    (ofSources sources).Holds place := by
  cases h with
  | passed hsc he hmodule hb =>
      obtain ⟨s, hs, -, rfl⟩ := exists_source_of_scopes? hsc
      exact holds_of_scopes? hsc ((Scopes.sound_exports s _ _ _ _ he).identifier (hw s hs))
  | member hsc huse hspace hp haddress hkind hobject hstart hmember hb =>
      obtain ⟨s, hs, -, rfl⟩ := exists_source_of_scopes? hsc
      have huse := Scopes.identifier_of_mem_spotsOf (hw s hs) huse
      obtain ⟨hunder, -⟩ := Spot.under_parent huse.under hp haddress
      exact holds_of_scopes? hsc
        ((hw s hs).identifier_of_child? hunder (by rw [hkind]; decide) hmember)

theorem holds_of_mem_nodesOf (hw : ∀ s ∈ sources, s.WellFormed) {b : BindingId} {place : Place}
    (h : place ∈ (ofSources sources).nodesOf b) : (ofSources sources).Holds place := by
  obtain ⟨⟨b', place⟩, he, rfl⟩ := List.mem_map.1 h
  exact holds_of_shows hw ((noted_links sources).nodes _ _ (List.mem_filter.1 he).1)

theorem holds_of_mem_importerPlaces (hw : ∀ s ∈ sources, s.WellFormed) {name : String}
    {b : BindingId} {place : Place} (h : place ∈ (ofSources sources).importerPlaces name b) :
    (ofSources sources).Holds place := by
  rw [importerPlaces] at h
  cases hd : (ofSources sources).modules.declaration? b with
  | none =>
      rw [hd] at h
      cases h
  | some d =>
      rw [hd] at h
      dsimp only at h
      obtain ⟨sc, hsc, hbinding⟩ := Option.bind_eq_some_iff.1 hd
      obtain ⟨s, hs, -, rfl⟩ := exists_source_of_scopes? hsc
      cases hi : d.origin with
      | none =>
          rw [hi] at h
          cases h
      | some i =>
          rw [hi] at h
          dsimp only at h
          split at h
          · cases h
          · rcases List.mem_append.1 h with h | h
            · obtain ⟨n, hn, rfl⟩ := List.mem_map.1 h
              exact holds_of_scopes? hsc
                (Scopes.identifier_of_nameSpot (hw s hs) hbinding hi (Option.mem_toList.1 hn))
            · split at h
              · cases h
              · rcases List.mem_append.1 h with h | h
                · exact holds_of_mem_spotsOf hw h
                · exact holds_of_mem_nodesOf hw h

theorem holds_of_mem_bindingPlaces (hw : ∀ s ∈ sources, s.WellFormed) {b : BindingId}
    {place : Place} (h : place ∈ (ofSources sources).bindingPlaces b) :
    (ofSources sources).Holds place := by
  rw [bindingPlaces] at h
  have h := mem_of_mem_distinctBy _ (List.mem_mergeSort.1 h)
  rcases List.mem_append.1 h with h | h
  · rcases List.mem_append.1 h with h | h
    · exact holds_of_mem_spotsOf hw h
    · exact holds_of_mem_nodesOf hw h
  · obtain ⟨b', -, h⟩ := List.mem_flatMap.1 h
    exact holds_of_mem_importerPlaces hw h

theorem holds_of_mem_propertyPlaces (hw : ∀ s ∈ sources, s.WellFormed) {name : String}
    {place : Place} (h : place ∈ (ofSources sources).propertyPlaces name) :
    (ofSources sources).Holds place := by
  obtain ⟨f, hf, h⟩ := List.mem_flatMap.1 h
  obtain ⟨e, he, rfl⟩ := List.mem_map.1 h
  have hf := List.mem_mergeSort.1 hf
  have hsc := scopes?_of_mem_files hf
  obtain ⟨s, hs, -, hof⟩ := exists_source_of_mem_files hf
  have hmem := (List.mem_filter.1 he).1
  rw [hof] at hmem hsc
  exact holds_of_scopes? hsc (Scopes.identifier_of_mem_properties (hw s hs) hmem)

/-- Every place that changes with a name is an identifier of a source. -/
theorem holds_of_mem_places (hw : ∀ s ∈ sources, s.WellFormed) {t : Target} {place : Place}
    (h : place ∈ (ofSources sources).places t) : (ofSources sources).Holds place := by
  cases t with
  | binding b => exact holds_of_mem_bindingPlaces hw h
  | property name => exact holds_of_mem_propertyPlaces hw h

theorem file_referenceAt (s : Source) (n : Spot) : (referenceAt s n).file = s.path := rfl

theorem range_referenceAt (s : Source) (n : Spot) :
    (referenceAt s n).range = s.rangeOf n.tree := rfl

/-- A reference shows an identifier of a source. -/
theorem exists_of_mem_references (hw : ∀ s ∈ sources, s.WellFormed) {t : Target} {r : Reference}
    (h : r ∈ (ofSources sources).references t) :
    ∃ s n, (ofSources sources).source? r.file = some s ∧ s.path = r.file ∧ s.Identifier n ∧
      r = referenceAt s n := by
  obtain ⟨place, hplace, hr⟩ := List.mem_filterMap.1 h
  obtain ⟨s, hs, hn⟩ := holds_of_mem_places hw hplace
  obtain ⟨s', hs', rfl⟩ := Option.map_eq_some_iff.1 hr
  obtain rfl : s = s' := Option.some.inj (hs.symm.trans hs')
  have hpath := (exists_source_of_source? hs).2
  refine ⟨s, place.spot, ?_, rfl, hn, rfl⟩
  rw [file_referenceAt, hpath]
  exact hs

end Index

end Redline
