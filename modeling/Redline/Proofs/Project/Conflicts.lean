import Redline.Project.Conflicts
import Redline.Proofs.Project.Batch
import Redline.Proofs.Project.Consistency
import Redline.Proofs.Symbol.Found
import Redline.Proofs.Symbol.Keys

/-!
# What a report without conflicts says about a batch

The check looks for the new name of a symbol among the symbols of its file that can be searched for.
So without conflicts no symbol gets the name of another one. A name that no search lists, such as
that of an import, is not looked at, and neither is a new name that two symbols get: by these two
names of a file become one.
-/

namespace Redline

namespace Project

variable {p : Project} {d : Disk} {x : Index} {pattern : Pattern} {replacement : String}
  {m : SymbolMatch} {found : List SymbolMatch}

/-- A symbol of a file that can be searched for has the name. -/
def Searched (x : Index) (file name : String) : Prop :=
  ∃ s n t, (s, n, t, name) ∈ x.symbols ∧ s.path = file

/-- The check finds no conflict for the rename of a symbol. -/
def Clears (x : Index) (found : List SymbolMatch) (pattern : Pattern) (replacement : String)
    (m : SymbolMatch) : Prop :=
  Naming.newName m.symbol.name pattern replacement ≠ m.symbol.name →
    ∀ existing, declared? x found m.symbol.file
      (Naming.newName m.symbol.name pattern replacement) = some existing →
    existing.key.text = m.symbol.key.text

theorem conflicts_checkMatch_eq_nil_iff {r : ConflictReport} :
    (checkMatch x found pattern replacement r m).conflicts = [] ↔
      r.conflicts = [] ∧ Clears x found pattern replacement m := by
  rw [checkMatch, Clears]
  split_ifs with hsame
  · exact ⟨fun h => ⟨h, fun hne => absurd hsame hne⟩, fun h => h.1⟩
  · cases declared? x found m.symbol.file
        (Naming.newName m.symbol.name pattern replacement) with
    | none => simp
    | some existing =>
        dsimp only
        split_ifs with hkey
        · simp [hkey]
        · simp [hkey, hsame]

/-- No conflicts are reported when the check finds none for any symbol. -/
theorem conflicts_foldl_eq_nil_iff {ms : List SymbolMatch} {r : ConflictReport} :
    (ms.foldl (checkMatch x found pattern replacement) r).conflicts = [] ↔
      r.conflicts = [] ∧ ∀ m ∈ ms, Clears x found pattern replacement m := by
  induction ms generalizing r with
  | nil => simp
  | cons m ms ih =>
      rw [List.foldl_cons, ih, conflicts_checkMatch_eq_nil_iff, List.forall_mem_cons, and_assoc]

/-- The report for a pattern, as the disk has it. -/
def reportOn (p : Project) (d : Disk) (pattern : Pattern) (replacement : String) :
    ConflictReport :=
  let found := matchesIn (p.indexOn d) pattern
  found.foldl (checkMatch (p.indexOn d) found pattern replacement) { conflicts := [], safe := [] }

theorem answers_checkConflicts (h : p.Readable d) (text replacement : String) :
    p.Answers d (checkConflicts text replacement)
      ((Pattern.compile text true).map fun pattern => p.reportOn d pattern replacement) := by
  rw [checkConflicts]
  cases Pattern.compile text true with
  | error t => exact (Answers.lift _).bind_error
  | ok pattern => exact (Answers.lift _).bind ((answers_theIndex h).bind (Answers.pure _))

theorem mem_matchesIn :
    m ∈ matchesIn x pattern ↔ ∃ s n t name, (s, n, t, name) ∈ x.symbols ∧
      pattern.occursIn name = true ∧
      m = { symbol := x.symbolAt s n t, count := (x.references t).length } := by
  rw [matchesIn, List.mem_mergeSort, List.mem_map]
  constructor
  · rintro ⟨⟨s, n, t, name⟩, h, rfl⟩
    obtain ⟨h, hoccurs⟩ := List.mem_filter.1 h
    exact ⟨s, n, t, name, h, hoccurs, rfl⟩
  · rintro ⟨s, n, t, name, h, hoccurs, rfl⟩
    exact ⟨(s, n, t, name), List.mem_filter.2 ⟨h, hoccurs⟩, rfl⟩

/-- A name that can be searched for in a file is found there. -/
theorem exists_declared? (found : List SymbolMatch) {file name : String}
    (h : Searched x file name) : ∃ existing, declared? x found file name = some existing := by
  rw [declared?]
  cases (found.map SymbolMatch.symbol).find? fun s => s.file == file && s.name == name with
  | some existing => exact ⟨existing, rfl⟩
  | none =>
      obtain ⟨s, n, t, hmem, rfl⟩ := h
      refine Option.isSome_iff_exists.1 ?_
      rw [Option.isSome_map, List.find?_isSome]
      exact ⟨_, hmem, by simp⟩

/-- What is found under a name in a file is a symbol with this name there. -/
theorem of_declared? {sources : List Source} {file name : String} {existing : Symbol}
    (h : declared? (Index.ofSources sources) (matchesIn (Index.ofSources sources) pattern) file
      name = some existing) :
    existing.file = file ∧ existing.name = name ∧
      Searched (Index.ofSources sources) file name := by
  rw [declared?] at h
  cases hfound : ((matchesIn (Index.ofSources sources) pattern).map SymbolMatch.symbol).find?
      fun s => s.file == file && s.name == name with
  | some s =>
      rw [hfound] at h
      cases h
      obtain ⟨m, hm, rfl⟩ := List.mem_map.1 (List.mem_of_find?_eq_some hfound)
      obtain ⟨s, n, t, name', hmem, -, rfl⟩ := mem_matchesIn.1 hm
      have hsame := List.find?_some hfound
      simp only [Bool.and_eq_true, beq_iff_eq] at hsame
      refine ⟨hsame.1, hsame.2, s, n, t, ?_, hsame.1⟩
      rwa [← hsame.2, show ((Index.ofSources sources).symbolAt s n t).name = name' from
        (Index.text_of_mem_symbols hmem).2.symm]
  | none =>
      rw [hfound] at h
      obtain ⟨⟨s, n, t, name'⟩, hsymbol, rfl⟩ := Option.map_eq_some_iff.1 h
      have hmem := List.mem_of_find?_eq_some hsymbol
      have hsame := List.find?_some hsymbol
      simp only [Bool.and_eq_true, beq_iff_eq] at hsame
      obtain ⟨rfl, rfl⟩ := hsame
      exact ⟨rfl, (Index.text_of_mem_symbols hmem).2.symm, s, n, t, hmem, rfl⟩

/-- No conflict is reported just when no symbol that the pattern renames gets the name of a symbol
of its file that can be searched for. -/
theorem conflicts_reportOn_eq_nil_iff :
    (p.reportOn d pattern replacement).conflicts = [] ↔
      ∀ file old, Searched (p.indexOn d) file old → pattern.occursIn old = true →
        Naming.newName old pattern replacement ≠ old →
        ¬Searched (p.indexOn d) file (Naming.newName old pattern replacement) := by
  rw [reportOn, conflicts_foldl_eq_nil_iff]
  constructor
  · rintro ⟨-, hclean⟩ file old ⟨s, n, t, hmem, rfl⟩ hoccurs hne hnew
    have htext := (Index.text_of_mem_symbols hmem).2
    have hclears := hclean _ (mem_matchesIn.2 ⟨s, n, t, old, hmem, hoccurs, rfl⟩)
    obtain ⟨existing, hexisting⟩ :=
      exists_declared? (matchesIn (p.indexOn d) pattern) hnew
    obtain ⟨hfile, hname, -⟩ := of_declared? hexisting
    have hkey := hclears (by simpa [Index.symbolAt, ← htext] using hne) existing
      (by simpa [Index.symbolAt, ← htext] using hexisting)
    have hsame : existing.key.name = ((p.indexOn d).symbolAt s n t).key.name :=
      SymbolKey.name_eq_of_text_eq hfile hkey
    exact hne (hname.symm.trans (hsame.trans htext.symm))
  · intro hfree
    refine ⟨rfl, fun m hm hne existing hexisting => ?_⟩
    obtain ⟨s, n, t, name, hmem, hoccurs, rfl⟩ := mem_matchesIn.1 hm
    have htext : name = ((p.indexOn d).symbolAt s n t).name := (Index.text_of_mem_symbols hmem).2
    rw [← htext] at hne hexisting
    exact absurd (of_declared? hexisting).2.2 (hfree s.path name ⟨s, n, t, hmem, rfl⟩ hoccurs hne)

/-! ### The names of a file after a batch -/

/-- The batch gives the name at a node the name at another node, which it leaves alone, and not both
are names of symbols of the file that can be searched for. -/
structure Takes (p : Project) (d : Disk) (pattern : Pattern) (replacement : String)
    (skip : List String) (s : Source) (n m : Spot) : Prop where
  batched : p.Batched d pattern replacement skip s n
  kept : ¬p.Batched d pattern replacement skip s m
  name : Naming.newName (s.textOf n.tree) pattern replacement = s.textOf m.tree
  unseen : ¬(Searched (p.indexOn d) s.path (s.textOf n.tree) ∧
    Searched (p.indexOn d) s.path (s.textOf m.tree))

/-- The batch makes the names at two nodes one: both become the same, or one becomes the other. -/
def Merges (p : Project) (d : Disk) (pattern : Pattern) (replacement : String)
    (skip : List String) (s : Source) (n m : Spot) : Prop :=
  (p.Batched d pattern replacement skip s n ∧ p.Batched d pattern replacement skip s m ∧
    Naming.newName (s.textOf n.tree) pattern replacement =
      Naming.newName (s.textOf m.tree) pattern replacement) ∨
  p.Takes d pattern replacement skip s n m ∨ p.Takes d pattern replacement skip s m n

theorem Batched.occursIn {skip : List String} {s : Source} {n : Spot}
    (h : p.Batched d pattern replacement skip s n) :
    pattern.occursIn (s.textOf n.tree) = true := by
  obtain ⟨m, hm, hname, -⟩ := h.found
  obtain ⟨s', n', t, name, hmem, hoccurs, rfl⟩ := mem_matchesIn.1 hm
  rw [(Index.text_of_mem_symbols hmem).2] at hoccurs
  exact hname ▸ hoccurs

/-- A binding is declared at an identifier of its file that shows its name. -/
theorem identifier_of_binding? {s : Source} (hwell : s.WellFormed) {k : Nat} {c : Declaration}
    (h : (Scopes.ofSource s).binding? k = some c) :
    s.Identifier c.spot ∧ c.name = s.textOf c.spot.tree := by
  have hdeclares := Scope.mem_declarations.1 (Scopes.mem_declarations_of_binding? h)
  exact ⟨Scope.identifier_of_mem_events hwell hdeclares _ List.mem_cons_self,
    Scope.name_of_declares_mem_events hdeclares⟩

/-- A symbol that is no import is renamed where it is declared, if the pattern renames it. -/
theorem batched_of_mem_listed (hrooted : p.Rooted) (hread : p.Readable d)
    (hwell : ∀ s ∈ p.sourcesOn d, s.WellFormed) (hlexical : ∀ s ∈ p.sourcesOn d, s.Lexical)
    {skip : List String} {s : Source} (hs : s ∈ p.sourcesOn d) {k : Nat} {c : Declaration}
    (hc : (Scopes.ofSource s).binding? k = some c) (hplain : c.origin = none)
    (hlisted : .binding k ∈ (Scopes.ofSource s).listed)
    (hoccurs : pattern.occursIn c.name = true)
    (hne : Naming.newName c.name pattern replacement ≠ c.name) (hskip : c.name ∉ skip) :
    p.Batched d pattern replacement skip s c.spot := by
  obtain ⟨hn, hname⟩ := identifier_of_binding? (hwell s hs) hc
  have hsource := source?_of_mem_sourcesOn hread hs
  have hsc := scopes?_of_mem_sourcesOn hread hs
  have hmem := Index.mem_symbols_of_mem_listed hsc hlisted hc
  have hpresents : s.Presents c.spot (.binding ⟨s.path, k⟩) := .declared hc hplain
  have href : Index.referenceAt s c.spot ∈ p.referencesOn d (keyAt s c.spot).text := by
    rw [referencesOn_keyAt hrooted hread hwell hlexical hs hn]
    rw [indexOn] at hsource hsc ⊢
    have hplace := Index.mem_places_of_presents hwell hsc hn hpresents
    have hshown := Index.referenceAt_mem_references hplace hsource
    rw [Index.answerAt, hsource]
    dsimp only
    rwa [Index.targetOf?_of_presents hwell hsc hn hpresents]
  rw [hname] at hmem hoccurs hne hskip
  have hfound := mem_matchesIn.2 ⟨s, c.spot, _, _, hmem, hoccurs, rfl⟩
  exact ⟨⟨_, hfound, rfl, href⟩, hne, hskip⟩

/-- Without conflicts, a renamed name that becomes a kept one does so unseen. -/
theorem takes_iff_of_clean {skip : List String} {s : Source} {n m : Spot}
    (hclean : (p.reportOn d pattern replacement).conflicts = []) :
    p.Takes d pattern replacement skip s n m ↔
      p.Batched d pattern replacement skip s n ∧ ¬p.Batched d pattern replacement skip s m ∧
        Naming.newName (s.textOf n.tree) pattern replacement = s.textOf m.tree := by
  refine ⟨fun h => ⟨h.batched, h.kept, h.name⟩, fun ⟨hn, hm, hname⟩ => ?_⟩
  refine ⟨hn, hm, hname, fun ⟨hold, hnew⟩ => ?_⟩
  exact conflicts_reportOn_eq_nil_iff.1 hclean _ _ hold hn.occursIn hn.changed (hname ▸ hnew)

/-- Which names merge under a report without conflicts. In a project of well-formed UTF-8 files, if
the check of a pattern reports no conflict, the batch is made and leaves every file with its edits;
two bindings of a file with different names then have one text at their declarations just when the
batch gives both one new name, or gives one the name that the other keeps, where not both are names
of symbols of the file that can be searched for. -/
theorem clean_report_merges_iff (p : Project) (d : Disk) (hrooted : p.Rooted)
    (hread : p.Readable d) (hwell : ∀ s ∈ p.sourcesOn d, s.WellFormed)
    (hfree : CollisionFree (p.sourcesOn d)) (now : Moment) (text replacement : String)
    (skip : List String) {pattern : Pattern} (hpattern : Pattern.compile text true = .ok pattern)
    {r : ConflictReport} (hreport : p.Answers d (checkConflicts text replacement) (.ok r))
    (hclean : r.conflicts = []) :
    ∃ e, p.Answers d (renameBatch now text replacement skip) (.ok e) ∧
      ∀ s ∈ p.sourcesOn d,
        (e.apply p.application d).1.readText (p.root.join s.path) =
          .ok (String.ofList (s.edited (e.editsOf s.path)).text) ∧
        ∀ j k a b, (Scopes.ofSource s).binding? j = some a →
          (Scopes.ofSource s).binding? k = some b → a.name ≠ b.name →
          (s.textAfter (e.editsOf s.path) a.spot = s.textAfter (e.editsOf s.path) b.spot ↔
            p.Merges d pattern replacement skip s a.spot b.spot) := by
  have hanswer := answers_renameBatch hread now text replacement skip
  rw [hpattern] at hanswer
  have hreports := answers_checkConflicts hread text replacement
  rw [hpattern] at hreports
  obtain rfl := Except.ok.inj (hreport.unique hreports)
  refine ⟨_, hanswer, fun s hs => ⟨?_, fun j k a b ha hb hne => ?_⟩⟩
  · have hrenames := (proposes_renameBatch hread hwell hfree now text pattern replacement
      skip).renames hrooted hread hwell
    rw [(hrenames.texts s hs).2, Source.text_edited]
  · obtain ⟨han, haname⟩ := identifier_of_binding? (hwell s hs) ha
    obtain ⟨hbn, hbname⟩ := identifier_of_binding? (hwell s hs) hb
    rw [haname, hbname] at hne
    have hrewords : s.Rewords (p.Batched d pattern replacement skip s)
        (fun n => Naming.newName (s.textOf n.tree) pattern replacement)
        ((p.renameBatchOn d now text pattern replacement skip).editsOf s.path) :=
      rewords_renameBatchOn hread hwell hs now text hfree
    have hutf8 := (exists_of_mem_sourcesOn hread hs).2.2.1
    rw [Merges, takes_iff_of_clean hclean, takes_iff_of_clean hclean]
    exact hrewords.textAfter_eq_iff (hwell s hs) hutf8 han hbn hne

/-! ### A name that an import has taken -/

/-- The tree of an import of `b` from `./b` and a declaration of `a`. -/
def takenTree : Tree :=
  .ofKind "program" 0 38 [.ofKind "import_statement" 0 24 [.token "import" 0 6 none,
      .ofKind "import_clause" 7 12 [.ofKind "named_imports" 7 12 [.token "\x7b" 7 8 none,
        .ofKind "import_specifier" 9 10 [.inField "name" "identifier" 9 10 []],
        .token "\x7d" 11 12 none]],
      .token "from" 13 17 none,
      .inField "source" "string" 18 23 [.token "\x27" 18 19 none,
        .ofKind "string_fragment" 19 22 [], .token "\x27" 22 23 none],
      .token ";" 23 24 none],
    .ofKind "lexical_declaration" 25 37 [.token "const" 25 30 (some "kind"),
      .ofKind "variable_declarator" 31 36 [.inField "name" "identifier" 31 32 [],
        .token "=" 33 34 none, .inField "value" "number" 35 36 []],
      .token ";" 36 37 none]]

/-- The tree of `export const b = 2;` on a line. -/
def givenTree : Tree :=
  .ofKind "program" 0 20 [.ofKind "export_statement" 0 19 [.token "export" 0 6 none,
    .inField "declaration" "lexical_declaration" 7 19 [.token "const" 7 12 (some "kind"),
      .ofKind "variable_declarator" 13 18 [.inField "name" "identifier" 13 14 [],
        .token "=" 15 16 none, .inField "value" "number" 17 18 []],
      .token ";" 18 19 none]]]

/-- How these files are parsed. -/
def takenParser : Parser :=
  fun _ bytes => if bytes.length = 38 then takenTree else givenTree

/-- A disk with a file that imports `b` and declares `a`, and one that exports `b`. -/
def takenDisk : Disk :=
  pairDisk "import \x7b b \x7d from './b';\nconst a = 1;\n" "export const b = 2;\n"

/-- The project of this disk. -/
def taken : Project :=
  pair "import \x7b b \x7d from './b';\nconst a = 1;\n" "export const b = 2;\n" takenParser

/-- The file that imports `b` and declares `a`. -/
def taking : Source :=
  script takenParser "a.ts" "import \x7b b \x7d from './b';\nconst a = 1;\n"

/-- The file that exports `b`. -/
def giving : Source :=
  script takenParser "b.ts" "export const b = 2;\n"

theorem sourcesOn_taken : taken.sourcesOn takenDisk = [taking, giving] :=
  sourcesOn_pair _ _ _

theorem taking_mem : taking ∈ taken.sourcesOn takenDisk := by
  rw [sourcesOn_taken]
  exact List.mem_cons_self

/-- The project is one of well-formed UTF-8 files, with names as the language has them. -/
theorem wellFormed_taken : taken.Rooted ∧ taken.Readable takenDisk ∧
    (∀ s ∈ taken.sourcesOn takenDisk, s.WellFormed) ∧
    (∀ s ∈ taken.sourcesOn takenDisk, s.Lexical) ∧ CollisionFree (taken.sourcesOn takenDisk) := by
  have hfree : ∀ s ∈ [taking, giving], ∀ s' ∈ [taking, giving], ∀ n ∈ s.identifiers,
      ∀ n' ∈ s'.identifiers,
      (s.rangeOf n.tree).refId s.path = (s'.rangeOf n'.tree).refId s'.path →
      s.path = s'.path ∧ s.rangeOf n.tree = s'.rangeOf n'.tree := by
    decide +kernel
  rw [sourcesOn_taken]
  refine ⟨rooted_pair _ _ _, readable_pair _ _ _, by decide +kernel, by decide +kernel, ?_⟩
  exact fun s hs s' hs' n n' hn hn' => hfree s hs s' hs' n (Source.mem_identifiers.2 hn) n'
    (Source.mem_identifiers.2 hn')

/-- A search lists the two constants of these files, and not the import. -/
theorem searched_taken {file name : String} (h : Searched (taken.indexOn takenDisk) file name) :
    (file = "a.ts" ∧ name = "a") ∨ (file = "b.ts" ∧ name = "b") := by
  obtain ⟨s, n, t, hmem, rfl⟩ := h
  rw [indexOn, sourcesOn_taken] at hmem
  have hall : ∀ q ∈ (Index.ofSources [taking, giving]).modules.files.flatMap Index.listed,
      (q.1.path = "a.ts" ∧ q.2.2.2 = "a") ∨ (q.1.path = "b.ts" ∧ q.2.2.2 = "b") := by
    decide +kernel
  exact hall _ (Index.mem_listed_of_mem_symbols hmem)

/-- The constant `a` and the import of `b` are the two bindings of the first file. -/
theorem exists_bindings_taking : ∃ a b, (Scopes.ofSource taking).binding? 1 = some a ∧
    (Scopes.ofSource taking).binding? 0 = some b ∧ a.name = "a" ∧ b.name = "b" ∧
    a.origin = none ∧ .binding 1 ∈ (Scopes.ofSource taking).listed := by
  have hnames : ((Scopes.ofSource taking).binding? 1).map (fun c => (c.name, c.origin.isNone)) =
        some ("a", true) ∧
      ((Scopes.ofSource taking).binding? 0).map Declaration.name = some "b" ∧
      (Scopes.ofSource taking).lists 1 = true := by
    decide +kernel
  obtain ⟨a, ha, hafields⟩ := Option.map_eq_some_iff.1 hnames.1
  obtain ⟨b, hb, hbname⟩ := Option.map_eq_some_iff.1 hnames.2.1
  obtain ⟨haname, haplain⟩ := Prod.mk.inj hafields
  exact ⟨a, b, ha, hb, haname, hbname, Option.isNone_iff_eq_none.1 haplain,
    Scopes.mem_listed_of_lists hnames.2.2⟩

/-- The pattern finds `a` only, and no symbol of its file is listed under `b`; the import is not
looked at. -/
theorem takes_taken : ∃ pattern, Pattern.compile "a" true = .ok pattern ∧
    (taken.reportOn takenDisk pattern "b").conflicts = [] ∧
    ∃ a b, (Scopes.ofSource taking).binding? 1 = some a ∧
      (Scopes.ofSource taking).binding? 0 = some b ∧ a.name = "a" ∧ b.name = "b" ∧
      Naming.newName "a" pattern "b" = "b" ∧
      taken.Takes takenDisk pattern "b" [] taking a.spot b.spot := by
  obtain ⟨pattern, hpattern, hfacts⟩ : ∃ pattern, Pattern.compile "a" true = .ok pattern ∧
      pattern.occursIn "a" = true ∧ pattern.occursIn "b" = false ∧
      Naming.newName "a" pattern "b" = "b" := ⟨_, rfl, by decide +kernel⟩
  obtain ⟨hoccurs, hno, hnew⟩ := hfacts
  obtain ⟨hrooted, hread, hwell, hlexical, -⟩ := wellFormed_taken
  have hfree : ¬Searched (taken.indexOn takenDisk) "a.ts" "b" := fun h => by
    rcases searched_taken h with ⟨-, hname⟩ | ⟨hfile, -⟩
    · exact absurd hname (by decide)
    · exact absurd hfile (by decide)
  obtain ⟨a, b, ha, hb, haname, hbname, hplain, hlisted⟩ := exists_bindings_taking
  have htext : ∀ {k : Nat} {c : Declaration}, (Scopes.ofSource taking).binding? k = some c →
      taking.textOf c.spot.tree = c.name := fun hc =>
    (identifier_of_binding? (hwell taking taking_mem) hc).2.symm
  have hbatched : taken.Batched takenDisk pattern "b" [] taking a.spot := by
    refine batched_of_mem_listed hrooted hread hwell hlexical taking_mem ha hplain hlisted ?_ ?_
      List.not_mem_nil
    · rwa [haname]
    · rw [haname, hnew]
      decide
  refine ⟨pattern, hpattern, conflicts_reportOn_eq_nil_iff.2 ?_, a, b, ha, hb, haname, hbname,
    hnew, hbatched, fun h => ?_, ?_, fun h => ?_⟩
  · intro file old hold hoccurs' hne
    rcases searched_taken hold with ⟨rfl, rfl⟩ | ⟨rfl, rfl⟩
    · rwa [hnew]
    · rw [hno] at hoccurs'
      cases hoccurs'
  · have hoccurs' := h.occursIn
    rw [htext hb, hbname, hno] at hoccurs'
    cases hoccurs'
  · rw [htext ha, htext hb, haname, hbname, hnew]
  · rw [htext hb, hbname] at h
    exact hfree h.2

/-- What the check and the batch answer in this project. -/
theorem answers_taken (now : Moment) {pattern : Pattern}
    (hpattern : Pattern.compile "a" true = .ok pattern) :
    taken.Answers takenDisk (checkConflicts "a" "b") (.ok (taken.reportOn takenDisk pattern "b")) ∧
    taken.Answers takenDisk (renameBatch now "a" "b" [])
      (.ok (taken.renameBatchOn takenDisk now "a" pattern "b" [])) := by
  have hread := wellFormed_taken.2.1
  have hreport := answers_checkConflicts hread "a" "b"
  have hbatch := answers_renameBatch hread now "a" "b" []
  rw [hpattern] at hreport hbatch
  exact ⟨hreport, hbatch⟩

/-- No conflict is reported, and after the batch the file imports one `b` and declares another. -/
theorem clean_report_misses_import :
    ∃ r e, taken.Answers takenDisk (checkConflicts "a" "b") (.ok r) ∧ r.conflicts = [] ∧
      taken.Answers takenDisk (renameBatch default "a" "b" []) (.ok e) ∧
      ∃ s ∈ taken.sourcesOn takenDisk, ∃ j k a b, (Scopes.ofSource s).binding? j = some a ∧
        (Scopes.ofSource s).binding? k = some b ∧ a.name ≠ b.name ∧
        s.textAfter (e.editsOf s.path) a.spot = "b" ∧
        s.textAfter (e.editsOf s.path) b.spot = "b" := by
  obtain ⟨pattern, hpattern, hclean, a, b, ha, hb, haname, hbname, hnew, htakes⟩ := takes_taken
  obtain ⟨-, hread, hwell, -, hfree⟩ := wellFormed_taken
  obtain ⟨hreport, hbatch⟩ := answers_taken default hpattern
  have hwell' := hwell taking taking_mem
  have hutf8 := (exists_of_mem_sourcesOn hread taking_mem).2.2.1
  obtain ⟨han, hatext⟩ := identifier_of_binding? hwell' ha
  obtain ⟨hbn, hbtext⟩ := identifier_of_binding? hwell' hb
  have hrewords : taking.Rewords (taken.Batched takenDisk pattern "b" [] taking)
      (fun n => Naming.newName (taking.textOf n.tree) pattern "b")
      ((taken.renameBatchOn takenDisk default "a" pattern "b" []).editsOf taking.path) :=
    rewords_renameBatchOn hread hwell taking_mem default "a" hfree
  refine ⟨_, _, hreport, hclean, hbatch, taking, taking_mem, 1, 0, a, b, ha, hb, ?_, ?_, ?_⟩
  · rw [haname, hbname]
    decide
  · rw [hrewords.textAfter_renamed hwell' hutf8 han htakes.batched, ← hatext, haname, hnew]
  · rw [hrewords.textAfter_kept hwell' hutf8 hbn htakes.kept, ← hbtext, hbname]

/-- The report of this project is clean, and the two names merge. -/
theorem clean_report_merges_iff_taken :
    taken.Rooted ∧ taken.Readable takenDisk ∧ (∀ s ∈ taken.sourcesOn takenDisk, s.WellFormed) ∧
    CollisionFree (taken.sourcesOn takenDisk) ∧
    ∃ pattern r e, Pattern.compile "a" true = .ok pattern ∧
      taken.Answers takenDisk (checkConflicts "a" "b") (.ok r) ∧ r.conflicts = [] ∧
      taken.Answers takenDisk (renameBatch default "a" "b" []) (.ok e) ∧
      ∃ a b, (Scopes.ofSource taking).binding? 1 = some a ∧
        (Scopes.ofSource taking).binding? 0 = some b ∧ a.name ≠ b.name ∧
        taking.textAfter (e.editsOf "a.ts") a.spot =
          taking.textAfter (e.editsOf "a.ts") b.spot := by
  obtain ⟨pattern, hpattern, hclean, a, b, ha, hb, haname, hbname, -, htakes⟩ := takes_taken
  obtain ⟨hrooted, hread, hwell, -, hfree⟩ := wellFormed_taken
  have hreport := (answers_taken default hpattern).1
  have hne : a.name ≠ b.name := by
    rw [haname, hbname]
    decide
  obtain ⟨e, he, hfiles⟩ := clean_report_merges_iff taken takenDisk hrooted hread hwell hfree
    default "a" "b" [] hpattern hreport hclean
  refine ⟨hrooted, hread, hwell, hfree, pattern, _, e, hpattern, hreport, hclean, he, a, b, ha, hb,
    hne, ?_⟩
  exact ((hfiles taking taking_mem).2 1 0 a b ha hb hne).2 (Or.inr (Or.inl htakes))

end Project

end Redline
