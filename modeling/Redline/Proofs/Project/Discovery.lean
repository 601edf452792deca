import Redline.Proofs.Project.Conflicts

/-!
# What is found can be asked for

A search gives symbols with their keys and their numbers of references. Each of them is `Located` at
an identifier: the position of the symbol leads back to that identifier, and there to what the
search counted the references of. So the questions about a symbol that was found, which start from
its position or from its key, all have an answer, and it is the one that the search has seen.
-/

namespace Redline

namespace Project

variable {p : Project} {d : Disk} {pattern : Pattern} {m : SymbolMatch} {s : Source} {n : Spot}
  {t : Target}

theorem answers_find (h : p.Readable d) (pattern : Pattern) :
    p.Answers d (find pattern) (.ok (matchesIn (p.indexOn d) pattern)) :=
  (answers_theIndex h).bind (Answers.pure _)

/-- The symbol at a position, as the disk has it. -/
def symbolOn (p : Project) (d : Disk) (file : String) (line column : Int) : Option Symbol :=
  (p.resolveOn d file line column).map fun (source, spot, t) =>
    (p.indexOn d).symbolAt source spot t

theorem answers_symbolAt (h : p.Readable d) (file : String) (line column : Int) :
    p.Answers d (symbolAt file line column) (.ok (p.symbolOn d file line column)) := by
  rw [symbolAt, symbolOn]
  refine (answers_resolve h file line column).bind ?_
  cases p.resolveOn d file line column with
  | none => exact Answers.pure none
  | some found => exact (answers_theIndex h).bind (Answers.pure _)

/-- A symbol that was found is the one at an identifier of a source, and its references are those of
what stands there. -/
structure Located (p : Project) (d : Disk) (m : SymbolMatch) (s : Source) (n : Spot) (t : Target) :
    Prop where
  mem : s ∈ p.sourcesOn d
  identifier : s.Identifier n
  plain : ':' ∉ (s.textOf n.tree).toList
  symbol : m.symbol = (p.indexOn d).symbolAt s n t
  count : m.count = ((p.indexOn d).references t).length
  target : (p.indexOn d).targetOf? s n = some t
  shown : Index.referenceAt s n ∈ (p.indexOn d).references t

/-- Every symbol that a search gives is located. -/
theorem exists_located_of_mem (hwell : ∀ s ∈ p.sourcesOn d, s.WellFormed)
    (hplain : ∀ s ∈ p.sourcesOn d, s.PlainNames)
    (h : m ∈ matchesIn (p.indexOn d) pattern) : ∃ s n t, p.Located d m s n t := by
  obtain ⟨s, n, t, name, hmem, -, rfl⟩ := mem_matchesIn.1 h
  obtain ⟨hs, rfl⟩ := Index.text_of_mem_symbols hmem
  obtain ⟨hsc, hpresents, hid, hname⟩ := Index.presents_of_mem_symbols hwell hmem
  have hsource : (p.indexOn d).source? s.path = some s := by
    rw [indexOn, Index.source?, hsc]
    rfl
  have htarget := Index.targetOf?_of_presents hwell hsc hid hpresents
  have hplace := Index.mem_places_of_presents hwell hsc hid hpresents
  have hshown := Index.referenceAt_mem_references hplace hsource
  exact ⟨s, n, t, hs, hid, hplain s hs _ hname, rfl, rfl, htarget, hshown⟩

namespace Located

variable (h : p.Located d m s n t) (hrooted : p.Rooted) (hread : p.Readable d)
  (hwell : ∀ s ∈ p.sourcesOn d, s.WellFormed)

include h

theorem key_eq : m.symbol.key = keyAt s n := by
  rw [h.symbol]
  rfl

theorem count_pos : 1 ≤ m.count := by
  rw [h.count]
  exact List.length_pos_of_mem h.shown

theorem ofText_key : SymbolKey.ofText m.symbol.key.text = .ok m.symbol.key := by
  refine SymbolKey.ofText_text _ ?_
  rw [h.key_eq]
  exact h.plain

include hrooted hread hwell

/-- The position of a symbol that was found leads to it. -/
theorem symbolOn_eq :
    p.symbolOn d m.symbol.file m.symbol.line m.symbol.column = some m.symbol := by
  have hresolve := resolveOn_keyAt hrooted hread hwell h.mem h.identifier
  rw [h.target, ← h.key_eq] at hresolve
  rw [symbolOn, show p.resolveOn d m.symbol.file m.symbol.line m.symbol.column = _ from hresolve,
    h.symbol]
  rfl

/-- The key of a symbol that was found gives the references that the search counted. -/
theorem referencesOn_eq : p.referencesOn d m.symbol.key.text = (p.indexOn d).references t := by
  rw [h.key_eq, referencesOn_keyAt_of_plain hrooted hread hwell h.mem h.identifier h.plain,
    Index.answerAt, source?_of_mem_sourcesOn hread h.mem]
  dsimp only
  rw [h.target]

/-- A symbol that was found can be renamed. -/
theorem renameOn_eq (now : Moment) (new : String) :
    p.renameOn d now m.symbol.key.text new =
      .ok (Editset.make ("rename-" ++ m.symbol.name ++ "-to-" ++ new) "rename" m.symbol.name new
        ((p.indexOn d).references t)
        (editsFor (p.indexOn d) ((p.indexOn d).references t) m.symbol.name new)
        (some m.symbol.key.text) none now) := by
  rw [renameOn, h.referencesOn_eq hrooted hread hwell, h.ofText_key]
  have hne := List.ne_nil_of_mem h.shown
  generalize (p.indexOn d).references t = refs at hne
  cases refs with
  | nil => exact absurd rfl hne
  | cons r refs => rfl

end Located

/-- A search and the look-up of what it gave agree. In a project of well-formed UTF-8 files whose
declared names have no colon, the symbol at the position of every match is the symbol of the match,
the references of its key are as many as the match says, one of them at its own position, and it can
be renamed by its key to any name. -/
theorem find_agrees_with_lookup (p : Project) (d : Disk) (hrooted : p.Rooted)
    (hread : p.Readable d) (hwell : ∀ s ∈ p.sourcesOn d, s.WellFormed)
    (hplain : ∀ s ∈ p.sourcesOn d, s.PlainNames) (pattern : Pattern) :
    ∃ ms, p.Answers d (find pattern) (.ok ms) ∧ ∀ m ∈ ms,
      p.Answers d (symbolAt m.symbol.file m.symbol.line m.symbol.column) (.ok (some m.symbol)) ∧
      (∃ refs, p.Answers d (references m.symbol.key.text) (.ok refs) ∧
        refs.length = m.count ∧ 1 ≤ m.count ∧
        ∃ r ∈ refs, r.file = m.symbol.file ∧ r.range.startLine = m.symbol.line ∧
          r.range.startColumn = m.symbol.column) ∧
      ∀ now new, ∃ e, p.Answers d (rename now m.symbol.key.text new) (.ok e) := by
  refine ⟨_, answers_find hread pattern, fun m hm => ?_⟩
  obtain ⟨s, n, t, h⟩ := exists_located_of_mem hwell hplain hm
  refine ⟨?_, ⟨(p.indexOn d).references t, ?_, h.count.symm, h.count_pos,
    Index.referenceAt s n, h.shown, ?_⟩, fun now new => ?_⟩
  · have hsymbol := answers_symbolAt hread m.symbol.file m.symbol.line m.symbol.column
    rwa [h.symbolOn_eq hrooted hread hwell] at hsymbol
  · have hrefs := answers_references hread m.symbol.key.text
    rwa [h.referencesOn_eq hrooted hread hwell] at hrefs
  · rw [h.symbol]
    exact ⟨rfl, rfl, rfl⟩
  · have hrename := answers_rename hread now m.symbol.key.text new
    rw [h.renameOn_eq hrooted hread hwell] at hrename
    exact ⟨_, hrename⟩

/-- The declared names of the project with a name that is not ASCII have no colon. -/
theorem plainNames_accented : ∀ s ∈ accented.sourcesOn accentedDisk, s.PlainNames := by
  rw [sourcesOn_accented]
  decide +kernel

/-- The constant of this project is found by its name. -/
theorem exists_match_accented : ∃ pattern, Pattern.compile "é" true = .ok pattern ∧
    ∃ m ∈ matchesIn (accented.indexOn accentedDisk) pattern, m.symbol.name = "é" := by
  obtain ⟨pattern, hpattern, hoccurs⟩ : ∃ pattern, Pattern.compile "é" true = .ok pattern ∧
      pattern.occursIn "é" = true := ⟨_, rfl, by decide +kernel⟩
  have hexporting : exporting ∈ accented.sourcesOn accentedDisk := by
    rw [sourcesOn_accented]
    exact List.mem_cons_self
  have hfacts : ((Scopes.ofSource exporting).binding? 0).map Declaration.name = some "é" ∧
      (Scopes.ofSource exporting).lists 0 = true := by
    decide +kernel
  obtain ⟨c, hc, hname⟩ := Option.map_eq_some_iff.1 hfacts.1
  have hmem := Index.mem_symbols_of_mem_listed
    (scopes?_of_mem_sourcesOn readable_accented hexporting)
    (Scopes.mem_listed_of_lists hfacts.2) hc
  refine ⟨pattern, hpattern, _, mem_matchesIn.2 ⟨_, _, _, _, hmem, hname ▸ hoccurs, rfl⟩, ?_⟩
  exact (Index.text_of_mem_symbols hmem).2.symm.trans hname

theorem find_agrees_with_lookup_accented :
    accented.Rooted ∧ accented.Readable accentedDisk ∧
    (∀ s ∈ accented.sourcesOn accentedDisk, s.WellFormed) ∧
    (∀ s ∈ accented.sourcesOn accentedDisk, s.PlainNames) ∧
    ∃ pattern ms, accented.Answers accentedDisk (find pattern) (.ok ms) ∧
      ∃ m ∈ ms, m.symbol.name = "é" ∧
        accented.Answers accentedDisk
          (symbolAt m.symbol.file m.symbol.line m.symbol.column) (.ok (some m.symbol)) := by
  have hrooted : accented.Rooted := rooted_pair _ _ _
  obtain ⟨pattern, -, m, hm, hname⟩ := exists_match_accented
  obtain ⟨ms, hfind, hall⟩ := find_agrees_with_lookup accented accentedDisk hrooted
    readable_accented wellFormed_accented plainNames_accented pattern
  have hms := Except.ok.inj (hfind.unique (answers_find readable_accented pattern))
  rw [← hms] at hm
  exact ⟨hrooted, readable_accented, wellFormed_accented, plainNames_accented, pattern, ms, hfind,
    m, hm, hname, (hall m hm).1⟩

end Project

end Redline
