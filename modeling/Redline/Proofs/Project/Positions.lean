import Redline.Proofs.Project.Discovery
import Redline.Proofs.Tree.Columns

/-!
# Symbols at positions

The symbol at a position is around that position exactly when the line of the position has its
column. A column that the line does not have leads into another line, and the symbol that stands
there is the one whose references are given and which is renamed.
-/

namespace Redline

/-- The position is inside of the name of the symbol. -/
def Symbol.Spans (m : Symbol) (line column : Int) : Prop :=
  m.line = line ∧ m.column ≤ column ∧ column < m.column + m.name.length

namespace Project

variable {p : Project} {d : Disk} {file : String} {line column : Int} {s : Source} {m : Symbol}

theorem mem_sourcesOn_of_sourceOn (hrooted : p.Rooted) (h : p.sourceOn d file = some s) :
    s ∈ p.sourcesOn d := by
  by_cases hmem : tidy file ∈ p.discover d
  · refine List.mem_filterMap.2 ⟨tidy file, hmem, ?_⟩
    rwa [sourceOn, tidy_tidy hrooted hmem]
  · rw [sourceOn_of_notMem hmem] at h
    cases h

theorem exists_of_resolveOn {found : Source × Spot × Target}
    (h : p.resolveOn d file line column = some found) :
    p.sourceOn d file = some found.1 ∧
      found.1.spotAt? NodeKind.isIdentifier line column = some found.2.1 := by
  rw [resolveOn] at h
  split at h
  · cases h
  · rename_i s hs
    split at h
    · cases h
    · rename_i spot hspot
      obtain ⟨t, -, rfl⟩ := Option.map_eq_some_iff.1 h
      exact ⟨hs, hspot⟩

/-- A key with references has its symbol at its position. -/
theorem exists_symbolOn_of_references {key : String} (h : p.referencesOn d key ≠ []) :
    ∃ k m, SymbolKey.ofText key = .ok k ∧ p.symbolOn d k.file k.line k.column = some m ∧
      m.name = k.name := by
  rw [referencesOn] at h
  split at h
  · exact absurd rfl h
  · rename_i k hk
    split at h
    · exact absurd rfl h
    · rename_i s spot t hresolve
      split_ifs at h with hname
      · exact absurd rfl h
      · refine ⟨k, (p.indexOn d).symbolAt s spot t, hk, ?_, ?_⟩
        · rw [symbolOn, hresolve]
          rfl
        · show s.textOf spot.tree = k.name
          simpa using hname

/-- What is renamed has references. -/
theorem referencesOn_ne_nil_of_renameOn {now : Moment} {key new : String} {e : Editset}
    (h : p.renameOn d now key new = .ok e) : p.referencesOn d key ≠ [] := by
  intro hnil
  rw [renameOn, hnil] at h
  cases h

section

variable (hrooted : p.Rooted) (hread : p.Readable d)
  (hwell : ∀ s ∈ p.sourcesOn d, s.WellFormed) (hlined : ∀ s ∈ p.sourcesOn d, s.Lined)

include hrooted hread hwell hlined

theorem spans_symbolOn_iff (h : p.symbolOn d file line column = some m) :
    ∃ s, p.sourceOn d file = some s ∧ (m.Spans line column ↔ s.HasColumn line column) := by
  obtain ⟨⟨s, n, t⟩, hresolve, rfl⟩ := Option.map_eq_some_iff.1 h
  obtain ⟨hs, hspot⟩ := exists_of_resolveOn hresolve
  have hmem := mem_sourcesOn_of_sourceOn hrooted hs
  have hutf8 := (exists_of_mem_sourcesOn hread hmem).2.2.1
  refine ⟨s, hs, ?_, ?_⟩
  · exact Source.hasColumn_of_spans (hwell s hmem) hutf8 (hlined s hmem)
      (Source.identifier_of_spotAt? hspot)
  · exact Source.spans_of_hasColumn (hwell s hmem) hutf8 (hlined s hmem) hspot

end

/-- The symbol at a position is around it exactly when the line has the column, in any project of
well-formed UTF-8 files whose identifiers end in their lines. A key whose symbol has references or
is renamed has this symbol at its position. -/
theorem symbolAt_spans_iff (p : Project) (d : Disk) (hrooted : p.Rooted) (hread : p.Readable d)
    (hwell : ∀ s ∈ p.sourcesOn d, s.WellFormed) (hlined : ∀ s ∈ p.sourcesOn d, s.Lined) :
    (∀ file line column, ∃ answer, p.Answers d (symbolAt file line column) (.ok answer) ∧
      ∀ m, answer = some m → ∃ s, p.sourceOn d file = some s ∧
        (m.Spans line column ↔ s.HasColumn line column)) ∧
    ∀ key, ∃ refs, p.Answers d (references key) (.ok refs) ∧
      ((refs ≠ [] ∨ ∃ now new e, p.Answers d (rename now key new) (.ok e)) →
        ∃ k m s, SymbolKey.ofText key = .ok k ∧ m.name = k.name ∧
          p.Answers d (symbolAt k.file k.line k.column) (.ok (some m)) ∧
          p.sourceOn d k.file = some s ∧
          (m.Spans k.line k.column ↔ s.HasColumn k.line k.column)) := by
  refine ⟨fun file line column => ?_, fun key => ?_⟩
  · exact ⟨_, answers_symbolAt hread file line column, fun m hm =>
      spans_symbolOn_iff hrooted hread hwell hlined hm⟩
  · refine ⟨_, answers_references hread key, fun h => ?_⟩
    have hrefs : p.referencesOn d key ≠ [] := by
      rcases h with hrefs | ⟨now, new, e, he⟩
      · exact hrefs
      · exact referencesOn_ne_nil_of_renameOn ((answers_rename hread now key new).unique he)
    obtain ⟨k, m, hk, hm, hname⟩ := exists_symbolOn_of_references hrefs
    obtain ⟨s, hs, hiff⟩ := spans_symbolOn_iff hrooted hread hwell hlined hm
    have hanswer := answers_symbolAt hread k.file k.line k.column
    rw [hm] at hanswer
    exact ⟨k, m, s, hk, hname, hanswer, hs, hiff⟩

theorem lined_accented : ∀ s ∈ accented.sourcesOn accentedDisk, s.Lined := by
  have h : ∀ s ∈ [exporting, importing], NodeKind.isIdentifier s.tree.kind = false ∧
      ∀ n ∈ s.identifiers, '\n' ∉ (s.textOf n.tree).toList := by
    decide +kernel
  rw [sourcesOn_accented]
  exact fun s hs => ⟨(h s hs).1, fun n hn => (h s hs).2 n (Source.mem_identifiers.2 hn)⟩

/-- Where the name is declared its symbol is around the position. -/
theorem symbolAt_spans_iff_accented :
    accented.Rooted ∧ accented.Readable accentedDisk ∧
    (∀ s ∈ accented.sourcesOn accentedDisk, s.WellFormed) ∧
    (∀ s ∈ accented.sourcesOn accentedDisk, s.Lined) ∧
    ∃ m, accented.Answers accentedDisk (symbolAt "a.ts" 1 14) (.ok (some m)) ∧
      m.name = "é" ∧ m.Spans 1 14 := by
  have hrooted : accented.Rooted := rooted_pair _ _ _
  have hsource : accented.sourceOn accentedDisk "a.ts" = some exporting := (sourceOn_pair _ _ _).1
  obtain ⟨spot, hresolve, hname⟩ := exists_resolveOn_exporting sourcesOn_accented hsource
  have hsymbol : accented.symbolOn accentedDisk "a.ts" 1 14 =
      some ((accented.indexOn accentedDisk).symbolAt exporting spot (.binding ⟨"a.ts", 0⟩)) := by
    rw [symbolOn, hresolve]
    rfl
  have hanswer := answers_symbolAt readable_accented "a.ts" 1 14
  obtain ⟨answer, hanswer', hall⟩ := (symbolAt_spans_iff accented accentedDisk hrooted
    readable_accented wellFormed_accented lined_accented).1 "a.ts" 1 14
  obtain ⟨s, hs, hiff⟩ := hall _ ((Except.ok.inj (hanswer'.unique hanswer)).trans hsymbol)
  rw [hsource] at hs
  obtain rfl := Option.some.inj hs
  have hcolumn : exporting.HasColumn 1 14 :=
    ⟨by decide, "export const é = 1;", by decide +kernel, by decide +kernel⟩
  rw [hsymbol] at hanswer
  exact ⟨hrooted, readable_accented, wellFormed_accented, lined_accented, _, hanswer, hname,
    hiff.2 hcolumn⟩

/-- The first line of the file that imports the name has 24 characters; two columns behind its end
the symbol of the second line is found. -/
theorem symbolAt_behind_line :
    accented.Rooted ∧ accented.Readable accentedDisk ∧
    (∀ s ∈ accented.sourcesOn accentedDisk, s.WellFormed) ∧
    (∀ s ∈ accented.sourcesOn accentedDisk, s.Lined) ∧
    ∃ m, accented.Answers accentedDisk (symbolAt "b.ts" 1 26) (.ok (some m)) ∧
      m.line = 2 ∧ m.column = 1 ∧ ¬m.Spans 1 26 := by
  have hspot : (importing.spotAt? NodeKind.isIdentifier 1 26).map (fun spot =>
      (((Index.ofSources [exporting, importing]).targetOf? importing spot).isSome,
        (importing.rangeOf spot.tree).startLine, (importing.rangeOf spot.tree).startColumn)) =
      some (true, 2, 1) := by
    decide +kernel
  obtain ⟨spot, hspot, hfacts⟩ := Option.map_eq_some_iff.1 hspot
  obtain ⟨htarget, hplace⟩ := Prod.mk.inj hfacts
  obtain ⟨hline, hcolumn⟩ := Prod.mk.inj hplace
  obtain ⟨t, htarget⟩ := Option.isSome_iff_exists.1 htarget
  have hsource : accented.sourceOn accentedDisk "b.ts" = some importing := (sourceOn_pair _ _ _).2
  have hsymbol : accented.symbolOn accentedDisk "b.ts" 1 26 =
      some ((accented.indexOn accentedDisk).symbolAt importing spot t) := by
    rw [symbolOn, resolveOn, hsource, indexOn, sourcesOn_accented]
    dsimp only
    rw [hspot]
    dsimp only
    rw [htarget]
    rfl
  have hanswer := answers_symbolAt readable_accented "b.ts" 1 26
  rw [hsymbol] at hanswer
  refine ⟨rooted_pair _ _ _, readable_accented, wellFormed_accented, lined_accented, _, hanswer,
    hline, hcolumn, fun hspans => ?_⟩
  have hfirst := hspans.1
  rw [show (((accented.indexOn accentedDisk).symbolAt importing spot t).line) = 2 from hline]
    at hfirst
  cases hfirst

end Project

end Redline
