import Redline.Proofs.Project.Renaming
import Redline.Proofs.Symbol.Consistency
import Redline.Proofs.Symbol.Keys
import Redline.Proofs.Tree.WellFormed

/-!
# References, asked for by their own keys

The key of an identifier leads back to it, so what a project answers to the key is what its index
has at the identifier. References are `Consistent` at a key when they show the place of the key and
the key of each of them, with the text that it shows, gives the same references.
-/

namespace Redline

namespace Project

variable {p : Project} {d : Disk}

/-- The key of an identifier. -/
def keyAt (s : Source) (n : Spot) : SymbolKey :=
  { file := s.path
    line := (s.rangeOf n.tree).startLine
    column := (s.rangeOf n.tree).startColumn
    name := s.textOf n.tree }

/-- The key of a reference in a file, with the text that the reference shows. -/
def keyOf (s : Source) (r : Reference) : SymbolKey :=
  { file := r.file
    line := r.range.startLine
    column := r.range.startColumn
    name := s.textIn r.range }

/-- The references of a key show its place, and all their keys give the same references. -/
def Consistent (p : Project) (d : Disk) (k : SymbolKey) : Prop :=
  ∃ refs, p.Answers d (references k.text) (.ok refs) ∧
    (∃ r ∈ refs, r.file = k.file ∧ r.range.startLine = k.line ∧ r.range.startColumn = k.column) ∧
    ∀ r ∈ refs, ∃ s, p.sourceOn d r.file = some s ∧
      p.Answers d (references (keyOf s r).text) (.ok refs)

/-- The key of a reference to an identifier is the key of the identifier. -/
theorem keyOf_referenceAt (hread : p.Readable d) (hwell : ∀ s ∈ p.sourcesOn d, s.WellFormed)
    {s : Source} (hs : s ∈ p.sourcesOn d) {n : Spot} (hn : s.Identifier n) :
    keyOf s (Index.referenceAt s n) = keyAt s n := by
  have hutf8 := (exists_of_mem_sourcesOn hread hs).2.2.1
  rw [keyOf, keyAt, Index.range_referenceAt, (hwell s hs).textIn_rangeOf hutf8 hn]
  rfl

/-- The position of an identifier leads back to it. -/
theorem resolveOn_keyAt (hrooted : p.Rooted) (hread : p.Readable d)
    (hwell : ∀ s ∈ p.sourcesOn d, s.WellFormed) {s : Source} (hs : s ∈ p.sourcesOn d) {n : Spot}
    (hn : s.Identifier n) :
    p.resolveOn d (keyAt s n).file (keyAt s n).line (keyAt s n).column =
      ((p.indexOn d).targetOf? s n).map fun t => (s, n, t) := by
  have hutf8 := (exists_of_mem_sourcesOn hread hs).2.2.1
  rw [resolveOn, show (keyAt s n).file = s.path from rfl, sourceOn_path hrooted hread hs]
  dsimp only
  rw [show (keyAt s n).line = (s.rangeOf n.tree).startLine from rfl,
    show (keyAt s n).column = (s.rangeOf n.tree).startColumn from rfl,
    (hwell s hs).spotAt?_rangeOf hutf8 hn]

/-- The references of the key of an identifier without colons are those that the index has there. -/
theorem referencesOn_keyAt_of_plain (hrooted : p.Rooted) (hread : p.Readable d)
    (hwell : ∀ s ∈ p.sourcesOn d, s.WellFormed) {s : Source} (hs : s ∈ p.sourcesOn d) {n : Spot}
    (hn : s.Identifier n) (hcolon : ':' ∉ (s.textOf n.tree).toList) :
    p.referencesOn d (keyAt s n).text = (p.indexOn d).answerAt { file := s.path, spot := n } := by
  rw [referencesOn, SymbolKey.ofText_text _ hcolon]
  dsimp only
  rw [resolveOn_keyAt hrooted hread hwell hs hn, Index.answerAt, source?_of_mem_sourcesOn hread hs]
  dsimp only
  cases (p.indexOn d).targetOf? s n with
  | none => rfl
  | some t =>
      dsimp only [Option.map_some]
      rw [if_neg (by simp [keyAt])]

section

variable (hrooted : p.Rooted) (hread : p.Readable d)
  (hwell : ∀ s ∈ p.sourcesOn d, s.WellFormed) (hlexical : ∀ s ∈ p.sourcesOn d, s.Lexical)

include hrooted hread hwell hlexical

/-- The references of the key of an identifier are those that the index has there. -/
theorem referencesOn_keyAt {s : Source} (hs : s ∈ p.sourcesOn d) {n : Spot}
    (hn : s.Identifier n) :
    p.referencesOn d (keyAt s n).text = (p.indexOn d).answerAt { file := s.path, spot := n } :=
  referencesOn_keyAt_of_plain hrooted hread hwell hs hn fun hmem =>
    (hlexical s hs).text n hn ':' hmem (by simp)

/-- A project answers consistently to the key of an identifier when its index does there. -/
theorem consistent_keyAt_iff {s : Source} (hs : s ∈ p.sourcesOn d) {n : Spot}
    (hn : s.Identifier n) {b : BindingId} (hb : (p.indexOn d).bindingAt? s.path n = some b) :
    p.Consistent d (keyAt s n) ↔ (p.indexOn d).Consistent { file := s.path, spot := n } b := by
  have hsource := source?_of_mem_sourcesOn hread hs
  have hplace : (p.indexOn d).Holds { file := s.path, spot := n } := ⟨s, hsource, hn⟩
  have hanswer := Index.answerAt_of_bindingAt? hplace hb
  have hanswers := answers_references hread (keyAt s n).text
  rw [referencesOn_keyAt hrooted hread hwell hlexical hs hn] at hanswers
  rw [show (p.indexOn d).answerAt { file := s.path, spot := n } = _ from hanswer] at hanswers
  have hlisted : ∀ {place : Place}, place ∈ (p.indexOn d).bindingPlaces b →
      ∃ s', s' ∈ p.sourcesOn d ∧ s'.path = place.file ∧ s'.Identifier place.spot ∧
        Index.referenceAt s' place.spot ∈ (p.indexOn d).references (.binding b) := by
    intro place hmem
    obtain ⟨s', hs', hn'⟩ := Index.holds_of_mem_bindingPlaces hwell hmem
    obtain ⟨hmem', hpath⟩ := Index.exists_source_of_source? hs'
    exact ⟨s', hmem', hpath, hn', Index.referenceAt_mem_references hmem hs'⟩
  constructor
  · rintro ⟨refs, hrefs, ⟨r, hr, hfile, hline, hcolumn⟩, hall⟩
    obtain rfl := Except.ok.inj (hrefs.unique hanswers)
    refine ⟨?_, fun place hmem => ?_⟩
    · obtain ⟨place, hmem, hr⟩ := List.mem_filterMap.1 hr
      obtain ⟨s', hs', hn'⟩ := Index.holds_of_mem_bindingPlaces hwell hmem
      rw [hs'] at hr
      obtain rfl := Option.some.inj hr
      have hpath := (Index.exists_source_of_source? hs').2
      obtain rfl := eq_of_path_eq hread (Index.exists_source_of_source? hs').1 hs hfile
      have hutf8 := (exists_of_mem_sourcesOn hread hs).2.2.1
      obtain rfl := (hwell s' hs).eq_of_rangeOf hutf8 hn' hn hline hcolumn
      obtain ⟨file, spot⟩ := place
      obtain rfl : s'.path = file := hpath
      exact hmem
    · obtain ⟨s', hs', hpath, hn', hr'⟩ := hlisted hmem
      obtain ⟨s'', hs'', hrefs'⟩ := hall _ hr'
      rw [Index.file_referenceAt, sourceOn_path hrooted hread hs'] at hs''
      obtain rfl := Option.some.inj hs''
      rw [keyOf_referenceAt hread hwell hs' hn'] at hrefs'
      have hanswers' := answers_references hread (keyAt s' place.spot).text
      rw [referencesOn_keyAt hrooted hread hwell hlexical hs' hn', hpath] at hanswers'
      exact (Except.ok.inj (hrefs'.unique hanswers')).symm
  · rintro ⟨hmem, hsame⟩
    refine ⟨_, hanswers, ⟨_, Index.referenceAt_mem_references hmem hsource, rfl, rfl, rfl⟩,
      fun r hr => ?_⟩
    obtain ⟨place, hmem', hr⟩ := List.mem_filterMap.1 hr
    obtain ⟨s', hs', hpath, hn', -⟩ := hlisted hmem'
    have hsource' := source?_of_mem_sourcesOn hread hs'
    rw [hpath] at hsource'
    rw [show (Index.ofSources (p.sourcesOn d)).source? place.file = some s' from hsource'] at hr
    obtain rfl := Option.some.inj hr
    refine ⟨s', sourceOn_path hrooted hread hs', ?_⟩
    have hanswers' := answers_references hread (keyAt s' place.spot).text
    rw [referencesOn_keyAt hrooted hread hwell hlexical hs' hn', hpath] at hanswers'
    rw [keyOf_referenceAt hread hwell hs' hn']
    rwa [show (p.indexOn d).answerAt { file := place.file, spot := place.spot } = _ from
      hsame place hmem'] at hanswers'

end

/-- References do not depend on where one asks, at all identifiers that lead to a binding, exactly
when the imports tied to what leads there are straight. -/
theorem references_consistent_iff (hrooted : p.Rooted) (hread : p.Readable d)
    (hwell : ∀ s ∈ p.sourcesOn d, s.WellFormed) (hlexical : ∀ s ∈ p.sourcesOn d, s.Lexical)
    (r : BindingId) :
    (∀ s ∈ p.sourcesOn d, ∀ n b, s.Identifier n → (p.indexOn d).bindingAt? s.path n = some b →
      (p.indexOn d).rootOf b = r → p.Consistent d (keyAt s n)) ↔
    ∀ b t, (b, t) ∈ (p.indexOn d).links.targets → (p.indexOn d).rootOf t = r →
      (p.indexOn d).Straight b t := by
  have hindex := Index.consistent_iff_straight hwell hlexical r
  refine Iff.trans ⟨fun h place b hplace hb hbr => ?_, fun h s hs n b hn hb hbr => ?_⟩ hindex
  · obtain ⟨s, hs, hn⟩ := hplace
    obtain ⟨hmem, hpath⟩ := Index.exists_source_of_source? hs
    obtain ⟨file, n⟩ := place
    obtain rfl : s.path = file := hpath
    exact (consistent_keyAt_iff hrooted hread hwell hlexical hmem hn hb).1 (h s hmem n b hn hb hbr)
  · refine (consistent_keyAt_iff hrooted hread hwell hlexical hs hn hb).2 (h _ b ?_ hb hbr)
    exact ⟨s, source?_of_mem_sourcesOn hread hs, hn⟩

/-! ### An import by its name -/

theorem lexical_accented : ∀ s ∈ accented.sourcesOn accentedDisk, s.Lexical := by
  rw [sourcesOn_accented]
  decide +kernel

theorem targets_accented :
    (accented.indexOn accentedDisk).links.targets = [(⟨"b.ts", 0⟩, ⟨"a.ts", 0⟩)] := by
  rw [indexOn, sourcesOn_accented]
  decide +kernel

theorem straight_accented :
    (accented.indexOn accentedDisk).Straight ⟨"b.ts", 0⟩ ⟨"a.ts", 0⟩ := by
  rw [indexOn, sourcesOn_accented]
  intro d i hd hi _
  obtain ⟨himported, hname, hroot⟩ :
      (((Index.ofSources [exporting, importing]).modules.declaration? ⟨"b.ts", 0⟩).bind
        Declaration.origin).map Import.imported = some "é" ∧
      (Index.ofSources [exporting, importing]).nameOf ⟨"a.ts", 0⟩ = "é" ∧
      (Index.ofSources [exporting, importing]).rootOf ⟨"a.ts", 0⟩ = ⟨"a.ts", 0⟩ := by
    decide +kernel
  obtain ⟨d', hd', hspot⟩ : ∃ d', (Index.ofSources [exporting, importing]).modules.declaration?
      ⟨"b.ts", 0⟩ = some d' ∧ d'.origin.bind Import.nameSpot = some d'.spot := ⟨_, rfl, rfl⟩
  obtain rfl := Option.some.inj (hd.symm.trans hd')
  rw [hd, Option.bind_some, hi] at himported
  rw [hi, Option.bind_some] at hspot
  refine ⟨hroot, (Option.some.inj himported).trans hname.symm, fun _ n hn => ?_⟩
  rw [hn] at hspot
  exact Option.some.inj hspot

/-- The references of `é` are the same wherever one asks. -/
theorem consistent_accented :
    accented.Rooted ∧ accented.Readable accentedDisk ∧
    (∀ s ∈ accented.sourcesOn accentedDisk, s.WellFormed) ∧
    (∀ s ∈ accented.sourcesOn accentedDisk, s.Lexical) ∧
    ∀ s ∈ accented.sourcesOn accentedDisk, ∀ n b, s.Identifier n →
      (accented.indexOn accentedDisk).bindingAt? s.path n = some b →
      accented.Consistent accentedDisk (keyAt s n) := by
  have hrooted : accented.Rooted := rooted_pair _ _ _
  refine ⟨hrooted, readable_accented, wellFormed_accented, lexical_accented, ?_⟩
  intro s hs n b hn hb
  refine (references_consistent_iff hrooted readable_accented wellFormed_accented lexical_accented
    ((accented.indexOn accentedDisk).rootOf b)).2 (fun c t hmem _ => ?_) s hs n b hn hb rfl
  rw [targets_accented, List.mem_singleton] at hmem
  cases hmem
  exact straight_accented

/-! ### An export under another name -/

/-- The tree of a declaration of `v` and an export of it as `r`. -/
def renamedTree : Tree :=
  .ofKind "program" 0 32 [.ofKind "lexical_declaration" 0 12 [.token "const" 0 5 (some "kind"),
      .ofKind "variable_declarator" 6 11 [.inField "name" "identifier" 6 7 [],
        .token "=" 8 9 none, .inField "value" "number" 10 11 []],
      .token ";" 11 12 none],
    .ofKind "export_statement" 13 31 [.token "export" 13 19 none,
      .ofKind "export_clause" 20 30 [.token "\x7b" 20 21 none,
        .ofKind "export_specifier" 22 28 [.inField "name" "identifier" 22 23 [],
          .token "as" 24 26 none, .inField "alias" "identifier" 27 28 []],
        .token "\x7d" 29 30 none],
      .token ";" 30 31 none]]

/-- The tree of an import of `r` from `./a` and a use of it. -/
def usingTree : Tree :=
  .ofKind "program" 0 28 [.ofKind "import_statement" 0 24 [.token "import" 0 6 none,
      .ofKind "import_clause" 7 12 [.ofKind "named_imports" 7 12 [.token "\x7b" 7 8 none,
        .ofKind "import_specifier" 9 10 [.inField "name" "identifier" 9 10 []],
        .token "\x7d" 11 12 none]],
      .token "from" 13 17 none,
      .inField "source" "string" 18 23 [.token "\x27" 18 19 none,
        .ofKind "string_fragment" 19 22 [], .token "\x27" 22 23 none],
      .token ";" 23 24 none],
    .ofKind "expression_statement" 25 27 [.ofKind "identifier" 25 26 [], .token ";" 26 27 none]]

/-- How these files are parsed. -/
def renamedParser : Parser :=
  fun _ bytes => if bytes.length = 32 then renamedTree else usingTree

/-- A disk with a file that exports a name as another and one that imports and uses that. -/
def renamedDisk : Disk :=
  pairDisk "const v = 1;\nexport \x7b v as r \x7d;\n" "import \x7b r \x7d from './a';\nr;\n"

/-- The project of this disk. -/
def renamed : Project :=
  pair "const v = 1;\nexport \x7b v as r \x7d;\n" "import \x7b r \x7d from './a';\nr;\n"
    renamedParser

/-- The file that declares and exports the name. -/
def declaring : Source :=
  script renamedParser "a.ts" "const v = 1;\nexport \x7b v as r \x7d;\n"

/-- The file that uses what is exported. -/
def using_ : Source :=
  script renamedParser "b.ts" "import \x7b r \x7d from './a';\nr;\n"

theorem sourcesOn_renamed : renamed.sourcesOn renamedDisk = [declaring, using_] :=
  sourcesOn_pair _ _ _

/-- Asked for at a use of `r`, the references are those of `v` and leave the use out. -/
theorem not_consistent_renamed :
    renamed.Rooted ∧ renamed.Readable renamedDisk ∧
    (∀ s ∈ renamed.sourcesOn renamedDisk, s.WellFormed) ∧
    (∀ s ∈ renamed.sourcesOn renamedDisk, s.Lexical) ∧
    ∃ s ∈ renamed.sourcesOn renamedDisk, ∃ n b, s.Identifier n ∧
      (renamed.indexOn renamedDisk).bindingAt? s.path n = some b ∧
      keyAt s n = { file := "b.ts", line := 2, column := 1, name := "r" } ∧
      ¬renamed.Consistent renamedDisk (keyAt s n) := by
  have hrooted : renamed.Rooted := rooted_pair _ _ _
  have hread : renamed.Readable renamedDisk := readable_pair _ _ _
  have hwell : ∀ s ∈ renamed.sourcesOn renamedDisk, s.WellFormed := by
    rw [sourcesOn_renamed]
    decide +kernel
  have hlexical : ∀ s ∈ renamed.sourcesOn renamedDisk, s.Lexical := by
    rw [sourcesOn_renamed]
    decide +kernel
  have hs : using_ ∈ renamed.sourcesOn renamedDisk := by
    rw [sourcesOn_renamed]
    simp
  obtain ⟨n, hn, hkey, hb⟩ : ∃ n ∈ using_.identifiers,
      keyAt using_ n = { file := "b.ts", line := 2, column := 1, name := "r" } ∧
      (Index.ofSources [declaring, using_]).bindingAt? "b.ts" n = some ⟨"b.ts", 0⟩ := by
    decide +kernel
  have hn := Source.mem_identifiers.1 hn
  rw [← sourcesOn_renamed] at hb
  refine ⟨hrooted, hread, hwell, hlexical, using_, hs, n, _, hn, hb, hkey, fun h => ?_⟩
  obtain ⟨hmem, -⟩ := (consistent_keyAt_iff hrooted hread hwell hlexical hs hn hb).1 h
  have hfound : ∀ q ∈ (Index.ofSources [declaring, using_]).spotsOf ⟨"a.ts", 0⟩
      ++ (Index.ofSources [declaring, using_]).nodesOf ⟨"a.ts", 0⟩
      ++ (((Index.ofSources [declaring, using_]).links.importers.filter
          (·.1 == ⟨"a.ts", 0⟩)).map Prod.snd).flatMap
        ((Index.ofSources [declaring, using_]).importerPlaces "v"), q.file = "a.ts" := by
    decide +kernel
  have hroot : (Index.ofSources [declaring, using_]).rootOf ⟨"b.ts", 0⟩ = ⟨"a.ts", 0⟩ ∧
      (Index.ofSources [declaring, using_]).nameOf ⟨"a.ts", 0⟩ = "v" := by
    decide +kernel
  rw [indexOn, sourcesOn_renamed, Index.bindingPlaces] at hmem
  have hmem := mem_of_mem_distinctBy _ (List.mem_mergeSort.1 hmem)
  rw [← Index.rootOf, hroot.1, ← Index.nameOf, hroot.2] at hmem
  have hpath : using_.path = "a.ts" := hfound _ hmem
  exact absurd hpath (by decide)

end Project

end Redline
