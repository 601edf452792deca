import Redline.Proofs.Project.Discovery

/-!
# A batch is the union of its single renames

For each symbol that it `Picks`, a batch lists the edits and references that the single rename of
the symbol has. Symbols may share a place, and then the batch keeps the first edit for it: but an
edit renames the identifier at its place, whose text is the name of every symbol that has the place,
and a batch makes one new name of one name. So the edits for a place are the same, and none is lost.
-/

namespace Redline

namespace Project

variable {p : Project} {d : Disk} {pattern : Pattern} {replacement : String} {skip : List String}
  {m m' : SymbolMatch}

/-- A batch renames a symbol that was found: its name is not skipped and becomes another. -/
def Picks (pattern : Pattern) (replacement : String) (skip : List String) (m : SymbolMatch) :
    Prop :=
  m.symbol.name ∉ skip ∧ Naming.newName m.symbol.name pattern replacement ≠ m.symbol.name

/-- The rename of one symbol to the name that a batch gives it, as the disk has it. -/
def singleOn (p : Project) (d : Disk) (now : Moment) (pattern : Pattern) (replacement : String)
    (m : SymbolMatch) : Editset :=
  let new := Naming.newName m.symbol.name pattern replacement
  let refs := p.referencesOn d m.symbol.key.text
  Editset.make ("rename-" ++ m.symbol.name ++ "-to-" ++ new) "rename" m.symbol.name new refs
    (editsFor (p.indexOn d) refs m.symbol.name new) (some m.symbol.key.text) none now

theorem Located.answers_single {s : Source} {n : Spot} {t : Target} (h : p.Located d m s n t)
    (hrooted : p.Rooted) (hread : p.Readable d) (hwell : ∀ s ∈ p.sourcesOn d, s.WellFormed)
    (now : Moment) (pattern : Pattern) (replacement : String) :
    p.Answers d
      (rename now m.symbol.key.text (Naming.newName m.symbol.name pattern replacement))
      (.ok (p.singleOn d now pattern replacement m)) := by
  have hrename := answers_rename hread now m.symbol.key.text
    (Naming.newName m.symbol.name pattern replacement)
  rwa [h.renameOn_eq hrooted hread hwell, ← h.referencesOn_eq hrooted hread hwell] at hrename

theorem refs_singleOn {now : Moment} :
    (p.singleOn d now pattern replacement m).refs = p.referencesOn d m.symbol.key.text := by
  rw [singleOn, Editset.make]

theorem mem_edits_singleOn {now : Moment} {edit : Edit} :
    edit ∈ (p.singleOn d now pattern replacement m).edits ↔
      edit ∈ editsFor (p.indexOn d) (p.referencesOn d m.symbol.key.text) m.symbol.name
        (Naming.newName m.symbol.name pattern replacement) :=
  (sortEdits_perm _).mem_iff

/-! ### The parts of a batch -/

theorem batchPartOn_of_picks (h : Picks pattern replacement skip m) :
    p.batchPartOn d pattern replacement skip m =
      ((p.referencesOn d m.symbol.key.text).map
          (annotate m.symbol.name (Naming.newName m.symbol.name pattern replacement)),
        editsFor (p.indexOn d) (p.referencesOn d m.symbol.key.text) m.symbol.name
          (Naming.newName m.symbol.name pattern replacement)) := by
  rw [batchPartOn]
  dsimp only
  rw [if_neg (by simp [h.1, h.2])]

theorem batchPartOn_of_not_picks (h : ¬Picks pattern replacement skip m) :
    p.batchPartOn d pattern replacement skip m = ([], []) := by
  rw [batchPartOn]
  dsimp only
  rw [if_pos]
  rw [Picks, not_and_or, not_not, not_not] at h
  simpa using h

/-- The parts of a batch have the edits of the single renames. -/
theorem mem_parts_edits {ms : List SymbolMatch} (now : Moment) {edit : Edit} :
    edit ∈ (ms.map (p.batchPartOn d pattern replacement skip)).flatMap Prod.snd ↔
      ∃ m ∈ ms, Picks pattern replacement skip m ∧
        edit ∈ (p.singleOn d now pattern replacement m).edits := by
  rw [List.flatMap_map, List.mem_flatMap]
  refine exists_congr fun m => and_congr_right fun _ => ?_
  rw [mem_edits_singleOn]
  by_cases h : Picks pattern replacement skip m
  · rw [batchPartOn_of_picks h, and_iff_right h]
  · rw [batchPartOn_of_not_picks h]
    exact iff_of_false List.not_mem_nil fun hedit => h hedit.1

/-- The parts of a batch have references to the places of the single renames. -/
theorem mem_parts_refIds {ms : List SymbolMatch} (now : Moment) {id : String} :
    id ∈ ((ms.map (p.batchPartOn d pattern replacement skip)).flatMap Prod.fst).map
        Reference.refId ↔
      ∃ m ∈ ms, Picks pattern replacement skip m ∧
        id ∈ (p.singleOn d now pattern replacement m).refs.map Reference.refId := by
  rw [List.flatMap_map, List.map_flatMap, List.mem_flatMap]
  refine exists_congr fun m => and_congr_right fun _ => ?_
  by_cases h : Picks pattern replacement skip m
  · have hids : ((p.batchPartOn d pattern replacement skip m).1).map Reference.refId =
        (p.singleOn d now pattern replacement m).refs.map Reference.refId := by
      rw [batchPartOn_of_picks h, refs_singleOn, List.map_map]
      exact List.map_congr_left fun r _ => refId_annotate _ _ r
    rw [hids, and_iff_right h]
  · rw [batchPartOn_of_not_picks h]
    exact iff_of_false List.not_mem_nil fun hid => h hid.1

theorem mem_refIds_renameBatchOn (now : Moment) (text : String) {id : String} :
    id ∈ (p.renameBatchOn d now text pattern replacement skip).refs.map Reference.refId ↔
      id ∈ (((matchesIn (p.indexOn d) pattern).map
        (p.batchPartOn d pattern replacement skip)).flatMap Prod.fst).map Reference.refId :=
  mem_map_distinctBy Reference.refId

/-- A batch has one edit for a place. -/
theorem nodup_edits_renameBatchOn (now : Moment) (text : String) :
    ((p.renameBatchOn d now text pattern replacement skip).edits.map editPlace).Nodup := by
  refine ((sortEdits_perm _).map editPlace).nodup_iff.2 ?_
  exact distinctBy_nodup editPlace _

/-! ### One edit for a place -/

/-- Edits of one place, each from a single rename, are the same. -/
theorem eq_of_editPlace_eq (hread : p.Readable d) (hwell : ∀ s ∈ p.sourcesOn d, s.WellFormed)
    {now : Moment} {edit edit' : Edit}
    (h : edit ∈ (p.singleOn d now pattern replacement m).edits)
    (h' : edit' ∈ (p.singleOn d now pattern replacement m').edits)
    (hplace : editPlace edit = editPlace edit') : edit = edit' := by
  rw [editPlace, editPlace, Prod.mk.injEq, Prod.mk.injEq] at hplace
  obtain ⟨hfile, hoffset, hlength⟩ := hplace
  obtain ⟨-, -, s, n, hs, -, hrenames⟩ :=
    renames_of_mem_editsFor hread hwell (mem_edits_singleOn.1 h)
  obtain ⟨-, -, s', n', hs', -, hrenames'⟩ :=
    renames_of_mem_editsFor hread hwell (mem_edits_singleOn.1 h')
  rw [← hfile, hs] at hs'
  obtain rfl := Option.some.inj hs'
  obtain rfl := hrenames.eq_of_offset_eq (hwell s (Index.exists_source_of_source? hs).1) hrenames'
    hoffset
  have hname : m.symbol.name = m'.symbol.name := hrenames.text.symm.trans hrenames'.text
  have hreplacement : edit.replacement = edit'.replacement := by
    rw [hrenames.replacement, hrenames'.replacement, hname]
  obtain ⟨file, offset, length, replacement⟩ := edit
  obtain ⟨file', offset', length', replacement'⟩ := edit'
  cases hfile
  cases hoffset
  cases hlength
  cases hreplacement
  rfl

/-- A batch is the union of the single renames of the symbols that it picks. In a project of
well-formed UTF-8 files whose declared names have no colon, the search for the pattern, the batch
and the single renames all have an answer. The batch has the edits that one of the renames has, and
the identities of references that one of them has, no place and no identity twice; and where two of
the renames have an edit for one place, both put the same there. -/
theorem renameBatch_eq_union (p : Project) (d : Disk) (hrooted : p.Rooted) (hread : p.Readable d)
    (hwell : ∀ s ∈ p.sourcesOn d, s.WellFormed) (hplain : ∀ s ∈ p.sourcesOn d, s.PlainNames)
    (now later : Moment) (text replacement : String) (skip : List String) {pattern : Pattern}
    (hpattern : Pattern.compile text true = .ok pattern) :
    ∃ (ms : List SymbolMatch) (batch : Editset) (single : SymbolMatch → Editset),
      p.Answers d (find pattern) (.ok ms) ∧
      p.Answers d (renameBatch now text replacement skip) (.ok batch) ∧
      (∀ m ∈ ms, Picks pattern replacement skip m → p.Answers d
        (rename later m.symbol.key.text (Naming.newName m.symbol.name pattern replacement))
        (.ok (single m))) ∧
      (∀ edit, edit ∈ batch.edits ↔
        ∃ m ∈ ms, Picks pattern replacement skip m ∧ edit ∈ (single m).edits) ∧
      (∀ id, id ∈ batch.refs.map Reference.refId ↔
        ∃ m ∈ ms, Picks pattern replacement skip m ∧
          id ∈ (single m).refs.map Reference.refId) ∧
      (batch.edits.map editPlace).Nodup ∧ (batch.refs.map Reference.refId).Nodup ∧
      ∀ m ∈ ms, ∀ m' ∈ ms, Picks pattern replacement skip m → Picks pattern replacement skip m' →
        ∀ edit ∈ (single m).edits, ∀ edit' ∈ (single m').edits,
          editPlace edit = editPlace edit' → edit.replacement = edit'.replacement := by
  have hbatch := answers_renameBatch hread now text replacement skip
  rw [hpattern] at hbatch
  refine ⟨_, _, p.singleOn d later pattern replacement, answers_find hread pattern, hbatch,
    fun m hm _ => ?_, fun edit => ?_, fun id => ?_, ?_, distinctBy_nodup _ _, ?_⟩
  · obtain ⟨s, n, t, h⟩ := exists_located_of_mem hwell hplain hm
    exact h.answers_single hrooted hread hwell later pattern replacement
  · rw [mem_edits_renameBatchOn, mem_distinctBy_iff, mem_parts_edits later]
    intro edit hedit edit' hedit' hplace
    obtain ⟨m, -, -, h⟩ := (mem_parts_edits later).1 hedit
    obtain ⟨m', -, -, h'⟩ := (mem_parts_edits later).1 hedit'
    exact eq_of_editPlace_eq hread hwell h h' hplace
  · rw [mem_refIds_renameBatchOn, mem_parts_refIds later]
  · exact nodup_edits_renameBatchOn now text
  · intro m _ m' _ _ _ edit hedit edit' hedit' hplace
    rw [eq_of_editPlace_eq hread hwell hedit hedit' hplace]

theorem renameBatch_eq_union_accented :
    accented.Rooted ∧ accented.Readable accentedDisk ∧
    (∀ s ∈ accented.sourcesOn accentedDisk, s.WellFormed) ∧
    (∀ s ∈ accented.sourcesOn accentedDisk, s.PlainNames) ∧
    ∃ pattern, Pattern.compile "é" true = .ok pattern ∧
    ∀ now later, ∃ (ms : List SymbolMatch) (batch : Editset) (single : SymbolMatch → Editset),
      accented.Answers accentedDisk (renameBatch now "é" "ö" []) (.ok batch) ∧
      ∃ m ∈ ms, m.symbol.name = "é" ∧
        accented.Answers accentedDisk (rename later m.symbol.key.text "ö") (.ok (single m)) ∧
        ∀ edit ∈ (single m).edits, edit ∈ batch.edits := by
  have hrooted : accented.Rooted := rooted_pair _ _ _
  obtain ⟨pattern, hpattern, m, hm, hname⟩ := exists_match_accented
  refine ⟨hrooted, readable_accented, wellFormed_accented, plainNames_accented, pattern, hpattern,
    fun now later => ?_⟩
  obtain ⟨ms, batch, single, hfind, hbatch, hsingle, hedits, -⟩ := renameBatch_eq_union accented
    accentedDisk hrooted readable_accented wellFormed_accented plainNames_accented now later "é"
    "ö" [] hpattern
  have hms := Except.ok.inj (hfind.unique (answers_find readable_accented pattern))
  rw [← hms] at hm
  have hnew : Naming.newName "é" pattern "ö" = "ö" := by
    obtain ⟨pattern', hpattern', hnew⟩ : ∃ pattern', Pattern.compile "é" true = .ok pattern' ∧
        Naming.newName "é" pattern' "ö" = "ö" := ⟨_, rfl, by decide +kernel⟩
    rwa [Except.ok.inj (hpattern'.symm.trans hpattern)] at hnew
  have hpicks : Picks pattern "ö" [] m := by
    rw [Picks, hname, hnew]
    exact ⟨List.not_mem_nil, by decide⟩
  have hone := hsingle m hm hpicks
  rw [hname, hnew] at hone
  exact ⟨ms, batch, single, hbatch, m, hm, hname, hone, fun edit hedit =>
    (hedits edit).2 ⟨m, hm, hpicks, hedit⟩⟩

end Project

end Redline
