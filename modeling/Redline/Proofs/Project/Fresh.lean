import Redline.Proofs.Disk.Walk
import Redline.Proofs.Link.Declared
import Redline.Proofs.Project.Renaming
import Redline.Proofs.Scope.Edited
import Redline.Proofs.Symbol.Partition

/-!
# A rename to a fresh name captures nothing

A binding that is found at an identifier has places, so its rename has references; the edits made of
them rename just the places with the old name. Among these are all nodes of a binding of a file or
none, since a list that has one node of a binding has them all. If the files are parsed again to
their trees, with the octets moved by the edits, every identifier leads to the declaration that it
led to before, or to none as before.
-/

namespace Redline

namespace Index

variable {sources : List Source}

theorem exportsOwn (sources : List Source) : (ofSources sources).modules.ExportsOwn := by
  intro file sc hsc
  obtain ⟨s, -, -, rfl⟩ := exists_source_of_scopes? hsc
  exact Scope.Exports.within_exports s

theorem declares_of_mem_targets {b t : BindingId}
    (h : (b, t) ∈ (ofSources sources).links.targets) : (ofSources sources).modules.Declares t := by
  rw [targets_links] at h
  exact Links.declares_of_mem_targets (exportsOwn sources) h

/-- A declared binding has places. -/
theorem bindingPlaces_ne_nil_of_declares (hw : ∀ s ∈ sources, s.WellFormed) {b : BindingId}
    (hb : (ofSources sources).modules.Declares b) : (ofSources sources).bindingPlaces b ≠ [] := by
  obtain ⟨d, hd⟩ : (ofSources sources).modules.Declares ((ofSources sources).rootOf b) :=
    Links.declares_canonical (fun _ _ => declares_of_mem_targets) hb
  exact List.ne_nil_of_mem ((mem_bindingPlaces_iff hw).2 (Or.inl (declared_mem_spotsOf hd)))

/-- A binding that is found at an identifier has places. -/
theorem bindingPlaces_ne_nil (hw : ∀ s ∈ sources, s.WellFormed) (hl : ∀ s ∈ sources, s.Lexical)
    {place : Place} (hplace : (ofSources sources).Holds place) {b : BindingId}
    (h : (ofSources sources).bindingAt? place.file place.spot = some b) :
    (ofSources sources).bindingPlaces b ≠ [] := by
  rcases (bindingAt?_eq_some_iff hw hl hplace).1 h with hspot | hstands
  · obtain ⟨s, -, hsc, -, hspot⟩ := exists_source_of_mem_spotsOf hspot
    obtain ⟨d, hd, -⟩ := Scopes.exists_binding?_of_mem_mentions (Scopes.mem_spotsOf.1 hspot)
    exact bindingPlaces_ne_nil_of_declares hw ⟨d, by rw [Modules.declaration?, hsc]; exact hd⟩
  · cases hstands with
    | imported hmem => exact bindingPlaces_ne_nil_of_declares hw (declares_of_mem_targets hmem)
    | noted hmem =>
        have hroot := rootOf_of_final (final_of_mem_nodes hmem)
        exact List.ne_nil_of_mem
          ((mem_bindingPlaces_iff hw).2 (Or.inr (Or.inl (by rwa [hroot]))))

end Index

namespace Editset

/-- Edits are made in files that are there. -/
theorem outline_progress (e : Editset) (a : Application) (d : Disk) (done : List String) :
    (e.progress a d done).1.outline = d.outline := by
  induction done using List.reverseRecOn with
  | nil => rfl
  | append_singleton done file ih =>
      rw [progress_append_singleton]
      by_cases h : ∃ text, e.Writes a (e.progress a d done).1 file text
      · obtain ⟨text, h⟩ := h
        obtain ⟨place, c, -, hentry, hdisk, -⟩ :=
          applyStep_of_writes (r := (e.progress a d done).2) h
        rw [hdisk, Disk.outline_put hentry, ih]
      · obtain ⟨hdisk, -⟩ :=
          applyStep_of_not_writes (r := (e.progress a d done).2) (not_exists.1 h)
        rw [hdisk, ih]

end Editset

namespace Project

variable {p : Project} {d : Disk}

/-! ### The edits of a file -/

/-- The identifiers of a file that a rename of a binding changes. -/
def Changes (p : Project) (d : Disk) (b : BindingId) (old : String) (s : Source) (n : Spot) :
    Prop :=
  { file := s.path, spot := n } ∈ (p.indexOn d).bindingPlaces b ∧ s.textOf n.tree = old

section

variable (hread : p.Readable d) (hwell : ∀ s ∈ p.sourcesOn d, s.WellFormed) {b : BindingId}
  {old new : String} {s : Source}

include hread hwell

/-- An edit made for a binding changes an identifier. -/
theorem exists_changes_of_mem_editsFor (hs : s ∈ p.sourcesOn d) {e : Edit}
    (h : e ∈ editsFor (p.indexOn d) ((p.indexOn d).references (.binding b)) old new)
    (hfile : e.file = s.path) : ∃ n, p.Changes d b old s n ∧ e.Renames s n old new := by
  obtain ⟨r, hr, hedit⟩ := exists_of_mem_editsFor h
  obtain ⟨place, hplace, hr⟩ := List.mem_filterMap.1 hr
  obtain ⟨s', hs', hn⟩ := Index.holds_of_mem_bindingPlaces hwell hplace
  obtain ⟨s'', hs'', rfl⟩ := Option.map_eq_some_iff.1 hr
  obtain rfl : s' = s'' := Option.some.inj (hs'.symm.trans hs'')
  obtain ⟨hmem, hpath⟩ := Index.exists_source_of_source? hs'
  have hutf8 := (exists_of_mem_sourcesOn hread hmem).2.2.1
  rw [← hpath] at hs'
  have hrenames := renames_of_editAt hs' hutf8 (hwell s' hmem) hn hedit
  obtain rfl := eq_of_path_eq hread hmem hs (hrenames.file.symm.trans hfile)
  refine ⟨place.spot, ⟨?_, hrenames.text⟩, hrenames⟩
  rw [hpath]
  exact hplace

/-- Every identifier that changes has an edit. -/
theorem exists_mem_editsFor_of_changes (hs : s ∈ p.sourcesOn d) (new : String) {n : Spot}
    (hn : s.Identifier n) (h : p.Changes d b old s n) :
    ∃ e ∈ editsFor (p.indexOn d) ((p.indexOn d).references (.binding b)) old new,
      e.Renames s n old new := by
  obtain ⟨-, -, hutf8, -⟩ := exists_of_mem_sourcesOn hread hs
  have hsource := source?_of_mem_sourcesOn hread hs
  obtain ⟨e, he⟩ := exists_editAt new hsource hutf8 (hwell s hs) hn h.2
  have hrenames := renames_of_editAt hsource hutf8 (hwell s hs) hn he
  have hshown := Index.referenceAt_mem_references (t := .binding b) h.1 hsource
  have hmem := List.mem_filterMap.2 ⟨_, hshown, he⟩
  obtain ⟨e', he', hplace⟩ := exists_mem_distinctBy editPlace hmem
  obtain ⟨hfile, hoffset⟩ : e'.file = s.path ∧ e'.offset = e.offset := by
    rw [editPlace, editPlace, Prod.mk.injEq, Prod.mk.injEq] at hplace
    exact ⟨hplace.1.trans hrenames.file, hplace.2.1⟩
  obtain ⟨n', -, hrenames'⟩ := exists_changes_of_mem_editsFor hread hwell hs he' hfile
  obtain rfl := hrenames'.eq_of_offset_eq (hwell s hs) hrenames hoffset
  exact ⟨e', he', hrenames'⟩

/-- The edits made for a binding change its identifiers, file by file. -/
theorem rename_editsOf {e : Editset} {named : String → String → Prop} (h : p.Proposes d named e)
    (hedits : e.edits =
      sortEdits (editsFor (p.indexOn d) ((p.indexOn d).references (.binding b)) old new))
    (hs : s ∈ p.sourcesOn d) :
    s.Rename (p.Changes d b old s) old new (e.editsOf s.path) := by
  have hmem : ∀ {edit}, edit ∈ e.edits ↔
      edit ∈ editsFor (p.indexOn d) ((p.indexOn d).references (.binding b)) old new := by
    intro edit
    rw [hedits]
    exact (sortEdits_perm _).mem_iff
  constructor
  · intro edit hedit
    obtain ⟨hedit, hfile⟩ := List.mem_filter.1 hedit
    exact exists_changes_of_mem_editsFor hread hwell hs (hmem.1 hedit) (beq_iff_eq.1 hfile)
  · intro n hn hchanges
    obtain ⟨edit, hedit, hrenames⟩ := exists_mem_editsFor_of_changes hread hwell hs new hn hchanges
    exact ⟨edit, List.mem_filter.2 ⟨hmem.2 hedit, beq_iff_eq.2 hrenames.file⟩, hrenames⟩
  · exact h.apart hwell s.path

/-- With one node of a binding of the file all of them change. -/
theorem Changes.of_binding_eq (hlexical : ∀ s ∈ p.sourcesOn d, s.Lexical)
    (hs : s ∈ p.sourcesOn d) {m m' : Mention} (hm : m ∈ (Scopes.ofSource s).mentions)
    (hm' : m' ∈ (Scopes.ofSource s).mentions) (heq : m.binding = m'.binding)
    (h : p.Changes d b old s m.spot) : p.Changes d b old s m'.spot := by
  have hspot : ∀ {m₁ : Mention}, m₁ ∈ (Scopes.ofSource s).mentions → m₁.binding = m.binding →
      { file := s.path, spot := m₁.spot } ∈
        (p.indexOn d).spotsOf { file := s.path, number := m.binding } := by
    rintro ⟨n, _⟩ hn rfl
    exact (Index.mem_spotsOf_iff (b := { file := s.path, number := m.binding })
      (scopes?_of_mem_sourcesOn hread hs)).2 ⟨rfl, Scopes.mem_spotsOf.2 hn⟩
  obtain ⟨f, hf, hname⟩ := Scopes.exists_binding?_of_mem_mentions hm
  obtain ⟨f', hf', hname'⟩ := Scopes.exists_binding?_of_mem_mentions hm'
  obtain rfl : f = f' := by
    rw [heq, hf'] at hf
    exact (Option.some.inj hf).symm
  exact ⟨Index.spotsOf_subset_bindingPlaces hwell hlexical h.1 (hspot hm rfl)
    (hspot hm' heq.symm), hname'.trans (hname.symm.trans h.2)⟩

end

/-! ### The files with the edits made -/

theorem discover_apply (p : Project) (e : Editset) (a : Editset.Application) (d : Disk) :
    p.discover (e.apply a d).1 = p.discover d := by
  rw [discover, discover, Editset.apply_eq_progress,
    Disk.walk_congr (Editset.outline_progress e a d e.editFiles)]

/-- The edited files are parsed to the trees that they had, with the octets moved by the edits. -/
def Reparses (p : Project) (d : Disk) (e : Editset) : Prop :=
  ∀ s ∈ p.sourcesOn d, ∀ s', p.parseFile (e.apply p.application d).1 s.path = .ok s' →
    s'.tree = s.tree.moved (s.shift (e.editsOf s.path))

/-- The files of a project before and after a change, one by one. -/
theorem forall₂_sourcesOn {d' : Disk} {R : Source → Source → Prop}
    (hread : p.Readable d) (hdiscover : p.discover d' = p.discover d)
    (h : ∀ s ∈ p.sourcesOn d, ∃ s', p.parseFile d' s.path = .ok s' ∧ R s s') :
    List.Forall₂ R (p.sourcesOn d) (p.sourcesOn d') := by
  rw [sourcesOn, sourcesOn, hdiscover]
  refine List.rel_filterMap (R := fun name name' => name ∈ p.discover d ∧ name = name') ?_
    (List.forall₂_same.2 fun name hname => ⟨hname, rfl⟩)
  rintro name _ ⟨hname, rfl⟩
  by_cases hmem : tidy name ∈ p.discover d
  · obtain ⟨s, hs, hparse⟩ := sourceOn_of_mem hread hmem
    obtain ⟨s', hparse', hR⟩ := h s (List.mem_filterMap.2 ⟨name, hname, hs⟩)
    have hpath : s.path = tidy name := by
      obtain ⟨s₁, -, hparse₁, hpath, -⟩ := exists_parseFile hread hmem
      rwa [Except.ok.inj (hparse.symm.trans hparse₁)]
    have hs' : p.sourceOn d' name = some s' := by
      rw [sourceOn, hdiscover, if_pos (by simpa using hmem), ← hpath, hparse']
      rfl
    rw [hs, hs']
    exact .some hR
  · have hnone : p.sourceOn d' name = none := by
      rw [sourceOn, hdiscover, if_neg (by simpa using hmem)]
    rw [sourceOn_of_notMem hmem, hnone]
    exact .none

/-- A file with the edits of a rename to a fresh name made keeps its declarations. -/
theorem retains_of_proposes (hrooted : p.Rooted) (hread : p.Readable d)
    (hwell : ∀ s ∈ p.sourcesOn d, s.WellFormed) (hlexical : ∀ s ∈ p.sourcesOn d, s.Lexical)
    (hframed : ∀ s ∈ p.sourcesOn d, s.Framed) {named : String → String → Prop} {e : Editset}
    (h : p.Proposes d named e) {b : BindingId} {old new : String}
    (hspaced : new = "" → ∀ s ∈ p.sourcesOn d, s.Spaced old)
    (hfresh : ∀ s ∈ p.sourcesOn d, ∀ n, s.Identifier n → s.textOf n.tree ≠ new)
    (hedits : e.edits =
      sortEdits (editsFor (p.indexOn d) ((p.indexOn d).references (.binding b)) old new))
    (hreparses : p.Reparses d e) {s : Source} (hs : s ∈ p.sourcesOn d) :
    ∃ s', p.parseFile (e.apply p.application d).1 s.path = .ok s' ∧
      s.Retains (e.editsOf s.path) s' := by
  have htexts := ((h.renames hrooted hread hwell).texts s hs).2
  obtain ⟨s', hparse, hpath, hdecode⟩ := exists_parseFile_of_readText htexts
  have htree := hreparses s hs s' hparse
  have htext : s'.text = onePass (e.editsOf s.path) 0 s.text := by
    rw [Source.text_of_decode hdecode, String.toList_ofList]
  refine ⟨s', hparse, ?_⟩
  exact (rename_editsOf hread hwell h hedits hs).retains (hwell s hs)
    (exists_of_mem_sourcesOn hread hs).2.2.1 (hframed s hs) (fun hnew => hspaced hnew s hs)
    (Source.isUtf8_of_decode hdecode) htext htree (hfresh s hs)
    (fun m hm m' hm' => Changes.of_binding_eq hread hwell hlexical hs hm hm') hpath

/-! ### The proposal -/

/-- What is found at a position is an identifier of a source. -/
theorem holds_of_resolveOn (hrooted : p.Rooted) (hread : p.Readable d) {file : String}
    {line column : Int} {s : Source} {n : Spot} {t : Target}
    (h : p.resolveOn d file line column = some (s, n, t)) :
    (p.indexOn d).Holds { file := s.path, spot := n } ∧ (p.indexOn d).targetOf? s n = some t := by
  rw [resolveOn] at h
  split at h
  · cases h
  · rename_i source hsource
    split at h
    · cases h
    · rename_i spot hspot
      obtain ⟨t', ht, heq⟩ := Option.map_eq_some_iff.1 h
      cases heq
      refine ⟨⟨s, ?_, Source.identifier_of_spotAt? hspot⟩, ht⟩
      by_cases hmem : tidy file ∈ p.discover d
      · refine source?_of_mem_sourcesOn hread (List.mem_filterMap.2 ⟨tidy file, hmem, ?_⟩)
        rw [sourceOn, tidy_tidy hrooted hmem, ← sourceOn, hsource]
      · rw [sourceOn_of_notMem hmem] at hsource
        cases hsource

theorem bindingAt?_of_targetOf? {x : Index} {s : Source} {n : Spot} {b : BindingId}
    (h : x.targetOf? s n = some (.binding b)) : x.bindingAt? s.path n = some b := by
  rw [Index.targetOf?] at h
  split at h
  · rename_i b' hb
    cases h
    exact hb
  · split_ifs at h
    cases h

/-- There is a proposal to rename the symbol with a key that leads to a binding. -/
theorem exists_renameOn (hrooted : p.Rooted) (hread : p.Readable d)
    (hwell : ∀ s ∈ p.sourcesOn d, s.WellFormed) (hlexical : ∀ s ∈ p.sourcesOn d, s.Lexical)
    (now : Moment) {key : String} (new : String) {k : SymbolKey} {s : Source} {n : Spot}
    {b : BindingId} (hkey : SymbolKey.ofText key = .ok k)
    (hresolve : p.resolveOn d k.file k.line k.column = some (s, n, .binding b))
    (hname : s.textOf n.tree = k.name) :
    ∃ e, p.renameOn d now key new = .ok e ∧ e.edits =
      sortEdits (editsFor (p.indexOn d) ((p.indexOn d).references (.binding b)) k.name new) := by
  obtain ⟨hholds, htarget⟩ := holds_of_resolveOn hrooted hread hresolve
  have hrefs : p.referencesOn d key = (p.indexOn d).references (.binding b) := by
    rw [referencesOn, hkey]
    dsimp only
    rw [hresolve]
    dsimp only
    rw [if_neg (by simp [hname])]
  have hne : (p.indexOn d).references (.binding b) ≠ [] := by
    obtain ⟨place, hplace⟩ := List.exists_mem_of_ne_nil _
      (Index.bindingPlaces_ne_nil hwell hlexical hholds (bindingAt?_of_targetOf? htarget))
    obtain ⟨s', hs', -⟩ := Index.holds_of_mem_bindingPlaces hwell hplace
    exact List.ne_nil_of_mem (Index.referenceAt_mem_references hplace hs')
  rw [renameOn, hrefs, hkey]
  generalize (p.indexOn d).references (.binding b) = refs at hne
  cases refs with
  | nil => exact absurd rfl hne
  | cons r refs => exact ⟨_, rfl, rfl⟩

/-- A rename to a fresh name captures nothing and loses nothing. In a project of well-formed UTF-8
files, renaming a binding to a name that no identifier shows gives a proposal; if the files with its
edits made are parsed to their trees, with the octets moved by the edits, then file by file every
identifier leads to the declaration that it led to before, and to none if it led to none. A name
that vanishes must not leave another at its octet: the empty name needs text after the old one. -/
theorem rename_captures_nothing (p : Project) (d : Disk) (hrooted : p.Rooted) (hkept : p.Agrees d)
    (hread : p.Readable d) (hwell : ∀ s ∈ p.sourcesOn d, s.WellFormed)
    (hlexical : ∀ s ∈ p.sourcesOn d, s.Lexical) (hframed : ∀ s ∈ p.sourcesOn d, s.Framed)
    (now : Moment) (key new : String) {k : SymbolKey} {source : Source} {spot : Spot}
    {b : BindingId} (hkey : SymbolKey.ofText key = .ok k)
    (hresolve : p.resolveOn d k.file k.line k.column = some (source, spot, .binding b))
    (hname : source.textOf spot.tree = k.name)
    (hfresh : ∀ s ∈ p.sourcesOn d, ∀ n, s.Identifier n → s.textOf n.tree ≠ new)
    (hspaced : new = "" → ∀ s ∈ p.sourcesOn d, s.Spaced k.name)
    (hreparses : ∀ e, ((rename now key new).runOn d p).1 = .ok e → p.Reparses d e) :
    ∃ e, ((rename now key new).runOn d p).1 = .ok e ∧
      List.Forall₂ (fun s s' => s.Retains (e.editsOf s.path) s') (p.sourcesOn d)
        (p.sourcesOn (e.apply p.application d).1) := by
  obtain ⟨e, he, hedits⟩ :=
    exists_renameOn hrooted hread hwell hlexical now new hkey hresolve hname
  obtain ⟨p₂, -, -, hrun⟩ := answers_rename hread now key new p rfl hkept
  have hanswer : ((rename now key new).runOn d p).1 = .ok e := by rw [hrun, he]
  obtain ⟨_, -, hproposes⟩ := proposes_rename hread hwell he
  refine ⟨e, hanswer, forall₂_sourcesOn hread (discover_apply p e _ d) fun s hs => ?_⟩
  exact retains_of_proposes hrooted hread hwell hlexical hframed hproposes hspaced hfresh hedits
    (hreparses e hanswer) hs

/-! ### A name that gets longer -/

/-- How the files with a name of two octets are parsed, and how if there are three octets. -/
def longerParser : Parser := fun _ bytes =>
  if bytes.length = 21 then exportTree
  else if bytes.length = 22 then exportTree.moved fun n => if n < 15 then n else n + 1
  else if bytes.length = 30 then importTree
  else importTree.moved fun n => if n < 11 then n else if n < 28 then n + 1 else n + 2

/-- The project of these files. -/
def longer : Project :=
  pair "export const é = 1;\n" "import \x7b é \x7d from './a';\né;\n" longerParser

theorem script_longer :
    script longerParser "a.ts" "export const é = 1;\n" = exporting ∧
      script longerParser "b.ts" "import \x7b é \x7d from './a';\né;\n" = importing := by
  have hexport : longerParser .typescript (Text.Utf8.encode "export const é = 1;\n") =
      exportTree := by
    rw [longerParser, if_pos (by decide +kernel)]
  have himport : longerParser .typescript
      (Text.Utf8.encode "import \x7b é \x7d from './a';\né;\n") = importTree := by
    rw [longerParser, if_neg (by decide +kernel), if_neg (by decide +kernel),
      if_pos (by decide +kernel)]
  rw [script, script, hexport, himport]
  exact ⟨rfl, rfl⟩

theorem sourcesOn_longer : longer.sourcesOn accentedDisk = [exporting, importing] := by
  rw [← script_longer.1, ← script_longer.2]
  exact sourcesOn_pair _ _ _

theorem sourceOn_longer : longer.sourceOn accentedDisk "a.ts" = some exporting := by
  rw [← script_longer.1]
  exact (sourceOn_pair _ _ _).1

/-- The edits that make the name longer where it is declared, and where it is used and imported. -/
def longerEdits : List Edit :=
  [{ file := "a.ts", offset := 13, length := 1, replacement := "xyz" },
    { file := "b.ts", offset := 25, length := 1, replacement := "xyz" },
    { file := "b.ts", offset := 9, length := 1, replacement := "xyz" }]

theorem sortEdits_eq_swap {a b c : Edit} (hab : a.before b = true) (hac : a.before c = true)
    (hbc : b.before c = false) : sortEdits [a, b, c] = [a, c, b] := by
  simp [sortEdits, List.mergeSort, hab, hac, hbc]

theorem editsFor_longer : sortEdits (editsFor (longer.indexOn accentedDisk)
    ((longer.indexOn accentedDisk).references (.binding ⟨"a.ts", 0⟩)) "é" "xyz") = longerEdits := by
  obtain ⟨places, hplaces, hedits⟩ : ∃ places,
      (Index.ofSources [exporting, importing]).bindingPlaces ⟨"a.ts", 0⟩ = places ∧
      editsFor (Index.ofSources [exporting, importing]) (places.filterMap fun q =>
        ((Index.ofSources [exporting, importing]).source? q.file).map fun s =>
          Index.referenceAt s q.spot) "é" "xyz" =
        [{ file := "a.ts", offset := 13, length := 1, replacement := "xyz" },
          { file := "b.ts", offset := 9, length := 1, replacement := "xyz" },
          { file := "b.ts", offset := 25, length := 1, replacement := "xyz" }] := by
    rw [Index.bindingPlaces, List.mergeSort_of_pairwise]
    · exact ⟨_, rfl, by decide +kernel⟩
    · decide +kernel
  rw [indexOn, sourcesOn_longer, Index.references, Index.places, hplaces, hedits]
  exact sortEdits_eq_swap (by decide +kernel) (by decide +kernel) (by decide +kernel)

theorem exists_grammar_of_parseFile {p : Project} {d : Disk} {file : String} {s : Source}
    (h : p.parseFile d file = .ok s) : ∃ g, s.tree = p.parse g s.bytes := by
  rw [parseFile] at h
  cases hread : d.read (p.root.join file) with
  | error t =>
      rw [hread] at h
      cases h
  | ok content =>
      rw [hread] at h
      cases h
      exact ⟨_, rfl⟩

/-- The longer files are parsed to the trees with the octets moved. -/
theorem reparses_longer {named : String → String → Prop} {e : Editset}
    (h : longer.Renames accentedDisk named e) (hedits : e.edits = longerEdits) :
    longer.Reparses accentedDisk e := by
  intro s hs s' hparse
  obtain ⟨s₁, hparse₁, -, hdecode⟩ := exists_parseFile_of_readText (h.texts s hs).2
  obtain rfl := Except.ok.inj (hparse.symm.trans hparse₁)
  obtain ⟨g, htree⟩ := exists_grammar_of_parseFile hparse
  rw [htree, Text.Utf8.decode_eq_ok_iff.1 hdecode, Editset.editsOf, hedits]
  rw [sourcesOn_longer, List.mem_cons, List.mem_singleton] at hs
  show longerParser g _ = _
  rcases hs with rfl | rfl
  · rw [longerParser, if_neg (by decide +kernel), if_pos (by decide +kernel)]
    refine Tree.moved_congr ?_
    simp only [← Tree.mem_spots]
    decide +kernel
  · rw [longerParser, if_neg (by decide +kernel), if_neg (by decide +kernel),
      if_neg (by decide +kernel)]
    refine Tree.moved_congr ?_
    simp only [← Tree.mem_spots]
    decide +kernel

/-- The name gets longer in both files, and leads in each to the declaration that it led to. -/
theorem captures_nothing_longer :
    longer.Rooted ∧ longer.Agrees accentedDisk ∧ longer.Readable accentedDisk ∧
    (∀ s ∈ longer.sourcesOn accentedDisk, s.WellFormed) ∧
    (∀ s ∈ longer.sourcesOn accentedDisk, s.Lexical) ∧
    (∀ s ∈ longer.sourcesOn accentedDisk, s.Framed) ∧
    (∀ s ∈ longer.sourcesOn accentedDisk, ∀ n, s.Identifier n → s.textOf n.tree ≠ "xyz") ∧
    (∀ e, ((rename default "a.ts:1:14:é" "xyz").runOn accentedDisk longer).1 = .ok e →
      longer.Reparses accentedDisk e) ∧
    ∃ e, ((rename default "a.ts:1:14:é" "xyz").runOn accentedDisk longer).1 = .ok e ∧
      e.edits = longerEdits ∧
      List.Forall₂ (fun s s' => s.Retains (e.editsOf s.path) s')
        (longer.sourcesOn accentedDisk)
        (longer.sourcesOn (e.apply longer.application accentedDisk).1) := by
  have hrooted : longer.Rooted := rooted_pair _ _ _
  have hkept : longer.Agrees accentedDisk := agrees_load _ _ _ _ _
  have hread : longer.Readable accentedDisk := readable_pair _ _ _
  have hwell : ∀ s ∈ longer.sourcesOn accentedDisk, s.WellFormed := by
    rw [sourcesOn_longer]
    decide +kernel
  have hlexical : ∀ s ∈ longer.sourcesOn accentedDisk, s.Lexical := by
    rw [sourcesOn_longer]
    decide +kernel
  have hframed : ∀ s ∈ longer.sourcesOn accentedDisk, s.Framed := by
    rw [sourcesOn_longer]
    simp only [Source.Framed, ← Tree.mem_spots]
    decide +kernel
  have hfresh : ∀ s ∈ longer.sourcesOn accentedDisk, ∀ n, s.Identifier n →
      s.textOf n.tree ≠ "xyz" := by
    rw [sourcesOn_longer]
    simp only [← Source.mem_identifiers]
    decide +kernel
  obtain ⟨spot, hresolve, htext⟩ := exists_resolveOn_exporting sourcesOn_longer sourceOn_longer
  obtain ⟨e₀, he₀, hedits⟩ := exists_renameOn hrooted hread hwell hlexical default "xyz"
    ofText_exporting hresolve htext
  obtain ⟨_, -, hproposes⟩ := proposes_rename hread hwell he₀
  obtain ⟨p₂, -, -, hrun⟩ :=
    answers_rename hread default "a.ts:1:14:é" "xyz" longer rfl hkept
  have honly : ∀ e, ((rename default "a.ts:1:14:é" "xyz").runOn accentedDisk longer).1 = .ok e →
      e = e₀ := by
    intro e he
    rw [hrun, he₀] at he
    exact (Except.ok.inj he).symm
  have hreparses : ∀ e,
      ((rename default "a.ts:1:14:é" "xyz").runOn accentedDisk longer).1 = .ok e →
        longer.Reparses accentedDisk e := by
    intro e he
    rw [honly e he]
    exact reparses_longer (hproposes.renames hrooted hread hwell) (hedits.trans editsFor_longer)
  obtain ⟨e, he, hretains⟩ := rename_captures_nothing longer accentedDisk hrooted hkept hread hwell
    hlexical hframed default "a.ts:1:14:é" "xyz" ofText_exporting hresolve htext hfresh
    (fun hnew => absurd hnew (by decide)) hreparses
  refine ⟨hrooted, hkept, hread, hwell, hlexical, hframed, hfresh, hreparses, e, he, ?_, hretains⟩
  rw [honly e he]
  exact hedits.trans editsFor_longer

end Project

end Redline
