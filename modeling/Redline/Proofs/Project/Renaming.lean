import Redline.Proofs.Editset.Unchanged
import Redline.Proofs.Project.Edits
import Redline.Proofs.Project.Sources
import Redline.Proofs.Tree.Check

/-!
# Renames are sound

A proposal `Renames` soundly if each of its edits spans an identifier and puts the new name there,
the edits of a file lie apart, and applying it to the disk that it was made for gives every source
its text with exactly these spans replaced, and nothing else. A proposal is sound when its edits
come from references to identifiers, one edit for each place, and no file with edits is without a
reference.
-/

namespace Redline

namespace Project

variable {p : Project} {d : Disk}

/-- How a proposal of the project is applied. -/
def application (p : Project) : Editset.Application :=
  { root := p.root, dryRun := false, blocked := [] }

/-- A sound proposal; `named old new` tells that the name `old` is to become `new`. -/
structure Renames (p : Project) (d : Disk) (named : String → String → Prop) (e : Editset) :
    Prop where
  spans : ∀ edit ∈ e.edits, ∃ s ∈ p.sourcesOn d, ∃ n old new, named old new ∧
    edit.Renames s n old new
  apart : ∀ file, (e.editsOf file).Pairwise Edit.Apart
  vouched : ∀ edit ∈ e.edits, ∃ s ∈ p.sourcesOn d, s.path = edit.file ∧
    ∃ r ∈ e.refs, r.file = edit.file ∧ r.checksum = checksum (String.ofList s.text)
  report : (e.apply p.application d).2.applied = e.edits.length ∧
    (e.apply p.application d).2.skipped = 0 ∧ (e.apply p.application d).2.errors = 0
  texts : ∀ s ∈ p.sourcesOn d,
    d.readText (p.root.join s.path) = .ok (String.ofList s.text) ∧
    (e.apply p.application d).1.readText (p.root.join s.path) =
      .ok (String.ofList (onePass (e.editsOf s.path) 0 s.text))
  others : ∀ place, (∀ s ∈ p.sourcesOn d, e.editsOf s.path ≠ [] →
      d.find (p.root.join s.path) ≠ .at place) →
    (e.apply p.application d).1.entryAt place = d.entryAt place

/-- Edits and references as they come from a rename. -/
structure Proposes (p : Project) (d : Disk) (named : String → String → Prop) (e : Editset) :
    Prop where
  edits : ∀ edit ∈ e.edits, ∃ s n old new, (p.indexOn d).source? edit.file = some s ∧
    named old new ∧ edit.Renames s n old new
  places : (e.edits.map editPlace).Nodup
  recorded : ∀ edit ∈ e.edits, ∃ r ∈ e.refs, r.file = edit.file
  refs : ∀ r ∈ e.refs, ∃ s, (p.indexOn d).source? r.file = some s ∧ r.checksum = s.checksum

section

variable {named : String → String → Prop} {e : Editset}

theorem Proposes.vouches (h : p.Proposes d named e) {edit : Edit} (hedit : edit ∈ e.edits) :
    ∃ s ∈ p.sourcesOn d, s.path = edit.file ∧ (p.indexOn d).source? edit.file = some s ∧
      e.Vouches edit.file (String.ofList s.text) := by
  obtain ⟨r, hr, hfile⟩ := h.recorded edit hedit
  obtain ⟨s, hs, -⟩ := h.refs r hr
  obtain ⟨hmem, hpath⟩ := Index.exists_source_of_source? hs
  rw [hfile] at hs hpath
  refine ⟨s, hmem, hpath, hs, ⟨r, hr, hfile⟩, fun r' hr' hfile' => ?_⟩
  obtain ⟨s', hs', hchecksum⟩ := h.refs r' hr'
  rw [hfile', hs] at hs'
  obtain rfl := Option.some.inj hs'
  rw [hchecksum, s.checksum_eq]

/-- A proposal finds the disk that it was made for unchanged. -/
theorem Proposes.unchanged (h : p.Proposes d named e) (hrooted : p.Rooted)
    (hread : p.Readable d) :
    e.Unchanged p.application d fun file =>
      (((p.indexOn d).source? file).map fun s => String.ofList s.text).getD "" := by
  have hsource : ∀ file ∈ e.editFiles, ∃ s ∈ p.sourcesOn d, s.path = file ∧
      (p.indexOn d).source? file = some s ∧ e.Vouches file (String.ofList s.text) := by
    intro file hfile
    obtain ⟨edit, hedit, rfl⟩ := List.mem_map.1 (mem_distinct.1 hfile)
    exact h.vouches hedit
  refine ⟨rfl, rfl, ?_, ?_, ?_⟩
  · intro file hfile
    obtain ⟨s, hs, rfl, hx, -⟩ := hsource file hfile
    rw [hx]
    exact (exists_of_mem_sourcesOn hread hs).2.2.2
  · intro file hfile
    obtain ⟨s, -, -, hx, hvouch⟩ := hsource file hfile
    rw [hx]
    exact hvouch
  · intro file hfile file' hfile' place hplace hplace'
    obtain ⟨s, hs, rfl, -⟩ := hsource file hfile
    obtain ⟨s', hs', rfl, -⟩ := hsource file' hfile'
    exact eq_of_find_eq hrooted (exists_of_mem_sourcesOn hread hs).1
      (exists_of_mem_sourcesOn hread hs').1 hplace hplace'

/-- A source with edits holds its text with the edits made in one pass. -/
theorem Proposes.readText_edited (h : p.Proposes d named e) (hrooted : p.Rooted)
    (hread : p.Readable d) (hapart : ∀ file, (e.editsOf file).Pairwise Edit.Apart) {s : Source}
    (hs : s ∈ p.sourcesOn d) (hmem : s.path ∈ e.editFiles) :
    (e.apply p.application d).1.readText (p.root.join s.path) =
      .ok (String.ofList (onePass (e.editsOf s.path) 0 s.text)) := by
  have hx : (p.indexOn d).source? s.path = some s := by
    obtain ⟨edit, hedit, hfile⟩ := List.mem_map.1 (mem_distinct.1 hmem)
    obtain ⟨s', hs', hpath, hx, -⟩ := h.vouches hedit
    obtain rfl := eq_of_path_eq hread hs hs' (hfile.symm.trans hpath.symm)
    rwa [hfile] at hx
  have hfits : ∀ edit ∈ e.editsOf s.path, edit.Fits (String.ofList s.text).toList.length := by
    intro edit hedit
    obtain ⟨hedit, hfile⟩ := List.mem_filter.1 hedit
    obtain ⟨s', n, old, new, hx', -, hrenames⟩ := h.edits edit hedit
    rw [beq_iff_eq.1 hfile, hx] at hx'
    obtain rfl := Option.some.inj hx'
    rw [String.toList_ofList]
    exact hrenames.fits
  have htext := Editset.readText_apply_of_unchanged (h.unchanged hrooted hread) hmem
  rwa [hx, Option.map_some, Option.getD_some, applyEdits_eq_onePass hfits (hapart s.path),
    String.toList_ofList] at htext

/-- A source without edits stays as it was. -/
theorem Proposes.readText_other (h : p.Proposes d named e) (hrooted : p.Rooted)
    (hread : p.Readable d) {s : Source} (hs : s ∈ p.sourcesOn d) (hmem : s.path ∉ e.editFiles) :
    (e.apply p.application d).1.readText (p.root.join s.path) =
      d.readText (p.root.join s.path) := by
  obtain ⟨-, -, hothers⟩ := Editset.apply_unchanged (h.unchanged hrooted hread)
  have hlisted := (exists_of_mem_sourcesOn hread hs).1
  refine Disk.readText_congr (Disk.read_congr ?_ fun place hfind => ?_)
  · rw [Editset.apply_eq_progress, Editset.find_progress]
  · refine hothers place fun file hfile hplace => hmem ?_
    obtain ⟨edit, hedit, rfl⟩ := List.mem_map.1 (mem_distinct.1 hfile)
    obtain ⟨s', hs', hpath, -⟩ := h.vouches hedit
    have hlisted' := (exists_of_mem_sourcesOn hread hs').1
    rw [hpath] at hlisted'
    rwa [eq_of_find_eq hrooted hlisted hlisted' hfind hplace]

/-- The edits of a proposal lie apart, file by file. -/
theorem Proposes.apart (h : p.Proposes d named e) (hwell : ∀ s ∈ p.sourcesOn d, s.WellFormed) :
    ∀ file, (e.editsOf file).Pairwise Edit.Apart := by
  refine pairwise_apart_of_nodup (p.indexOn d).source? h.places fun edit hedit => ?_
  obtain ⟨s, n, old, new, hs, -, hrenames⟩ := h.edits edit hedit
  exact ⟨s, n, old, new, hs, hwell s (Index.exists_source_of_source? hs).1, hrenames⟩

/-- What is proposed so is a sound rename. -/
theorem Proposes.renames (h : p.Proposes d named e) (hrooted : p.Rooted) (hread : p.Readable d)
    (hwell : ∀ s ∈ p.sourcesOn d, s.WellFormed) : p.Renames d named e := by
  have hunchanged := h.unchanged hrooted hread
  obtain ⟨hreport, hfiles, hothers⟩ := Editset.apply_unchanged hunchanged
  have hapart := h.apart hwell
  constructor
  · intro edit hedit
    obtain ⟨s, n, old, new, hs, hnamed, hrenames⟩ := h.edits edit hedit
    exact ⟨s, (Index.exists_source_of_source? hs).1, n, old, new, hnamed, hrenames⟩
  · exact hapart
  · intro edit hedit
    obtain ⟨s, hs, hpath, -, ⟨r, hr, hfile⟩, hall⟩ := h.vouches hedit
    exact ⟨s, hs, hpath, r, hr, hfile, hall r hr hfile⟩
  · rw [hreport]
    exact ⟨rfl, rfl, rfl⟩
  · intro s hs
    have htext := (exists_of_mem_sourcesOn hread hs).2.2.2
    refine ⟨htext, ?_⟩
    by_cases hmem : s.path ∈ e.editFiles
    · exact h.readText_edited hrooted hread hapart hs hmem
    · have hnone : e.editsOf s.path = [] := by
        refine List.filter_eq_nil_iff.2 fun edit hedit hfile => hmem ?_
        exact beq_iff_eq.1 hfile ▸ mem_distinct.2 (List.mem_map_of_mem hedit)
      rw [h.readText_other hrooted hread hs hmem, htext, hnone, onePass_nil]
  · intro place hplace
    refine hothers place fun file hfile => ?_
    obtain ⟨edit, hedit, rfl⟩ := List.mem_map.1 (mem_distinct.1 hfile)
    obtain ⟨s, hs, hpath, -⟩ := h.vouches hedit
    have hne : e.editsOf s.path ≠ [] :=
      List.ne_nil_of_mem (List.mem_filter.2 ⟨hedit, by simp [hpath]⟩)
    exact hpath ▸ hplace s hs hne

end

/-! ### The proposals -/

/-- References of identifiers have different identities at different places. -/
def CollisionFree (sources : List Source) : Prop :=
  ∀ s ∈ sources, ∀ s' ∈ sources, ∀ n n', s.Identifier n → s'.Identifier n' →
    (s.rangeOf n.tree).refId s.path = (s'.rangeOf n'.tree).refId s'.path →
    s.path = s'.path ∧ s.rangeOf n.tree = s'.rangeOf n'.tree

theorem exists_of_mem_referencesOn (hwell : ∀ s ∈ p.sourcesOn d, s.WellFormed) {key : String}
    {r : Reference} (h : r ∈ p.referencesOn d key) :
    ∃ s n, (p.indexOn d).source? r.file = some s ∧ s.path = r.file ∧ s.Identifier n ∧
      r = Index.referenceAt s n := by
  rw [referencesOn] at h
  split at h
  · cases h
  · split at h
    · cases h
    · split at h
      · cases h
      · exact Index.exists_of_mem_references hwell h

/-- An edit made for a reference of a key renames an identifier. -/
theorem renames_of_mem_editsFor (hread : p.Readable d)
    (hwell : ∀ s ∈ p.sourcesOn d, s.WellFormed) {key old new : String} {edit : Edit}
    (h : edit ∈ editsFor (p.indexOn d) (p.referencesOn d key) old new) :
    ∃ r ∈ p.referencesOn d key, ∃ s n, (p.indexOn d).source? edit.file = some s ∧
      r.file = edit.file ∧ edit.Renames s n old new := by
  obtain ⟨r, hr, hedit⟩ := exists_of_mem_editsFor h
  obtain ⟨s, n, hs, hpath, hn, rfl⟩ := exists_of_mem_referencesOn hwell hr
  have hmem := (Index.exists_source_of_source? hs).1
  have hutf8 := (exists_of_mem_sourcesOn hread hmem).2.2.1
  rw [← hpath] at hs
  have hrenames := renames_of_editAt hs hutf8 (hwell s hmem) hn hedit
  refine ⟨_, hr, s, n, ?_, ?_, hrenames⟩
  · rw [hrenames.file, hs]
  · rw [hrenames.file, Index.file_referenceAt]

/-- The proposal to rename the symbol with a key, as the disk has it. -/
def renameOn (p : Project) (d : Disk) (now : Moment) (key new : String) : Outcome Editset :=
  match p.referencesOn d key, SymbolKey.ofText key with
  | [], _ | _, .error _ => failWith (.symbolMissing key)
  | refs, .ok k =>
    .ok (Editset.make ("rename-" ++ k.name ++ "-to-" ++ new) "rename" k.name new refs
      (editsFor (p.indexOn d) refs k.name new) (some key) none now)

theorem answers_rename (h : p.Readable d) (now : Moment) (key new : String) :
    p.Answers d (rename now key new) (p.renameOn d now key new) := by
  rw [rename, renameOn]
  refine (answers_references h key).bind ?_
  cases p.referencesOn d key with
  | nil => exact Answers.lift _
  | cons r refs =>
      cases SymbolKey.ofText key with
      | error m => exact Answers.lift _
      | ok k => exact (answers_theIndex h).bind (Answers.pure _)

/-- The part of a batch for one symbol, as the disk has it. -/
def batchPartOn (p : Project) (d : Disk) (pattern : Pattern) (replacement : String)
    (skip : List String) (m : SymbolMatch) : List Reference × List Edit :=
  let old := m.symbol.name
  let new := Naming.newName old pattern replacement
  if skip.contains old || new == old then ([], [])
  else
    let refs := p.referencesOn d m.symbol.key.text
    (refs.map (annotate old new), editsFor (p.indexOn d) refs old new)

/-- The proposal of a batch for a pattern, as the disk has it. -/
def renameBatchOn (p : Project) (d : Disk) (now : Moment) (text : String) (pattern : Pattern)
    (replacement : String) (skip : List String) : Editset :=
  let parts := (matchesIn (p.indexOn d) pattern).map (p.batchPartOn d pattern replacement skip)
  Editset.make ("rename-batch-" ++ text ++ "-to-" ++ replacement) "rename" text replacement
    (distinctBy Reference.refId (parts.flatMap Prod.fst))
    (distinctBy editPlace (parts.flatMap Prod.snd)) none (some text) now

theorem answers_batchPart (h : p.Readable d) (pattern : Pattern) (replacement : String)
    (skip : List String) (m : SymbolMatch) :
    p.Answers d (batchPart (p.indexOn d) pattern replacement skip m)
      (.ok (p.batchPartOn d pattern replacement skip m)) := by
  rw [batchPart, batchPartOn]
  dsimp only
  split
  · exact Answers.pure _
  · exact (answers_references h _).bind (Answers.pure _)

theorem answers_renameBatch (h : p.Readable d) (now : Moment) (text replacement : String)
    (skip : List String) :
    p.Answers d (renameBatch now text replacement skip)
      ((Pattern.compile text true).map fun pattern =>
        p.renameBatchOn d now text pattern replacement skip) := by
  rw [renameBatch]
  cases hpattern : Pattern.compile text true with
  | error t => exact (Answers.lift _).bind_error
  | ok pattern =>
      refine (Answers.lift _).bind ((answers_theIndex h).bind ?_)
      exact (Answers.mapM _ fun m _ => answers_batchPart h pattern replacement skip m).bind
        (Answers.pure _)

theorem proposes_rename (hread : p.Readable d) (hwell : ∀ s ∈ p.sourcesOn d, s.WellFormed)
    {now : Moment} {key new : String} {e : Editset} (h : p.renameOn d now key new = .ok e) :
    ∃ k, SymbolKey.ofText key = .ok k ∧
      p.Proposes d (fun old new' => old = k.name ∧ new' = new) e := by
  rw [renameOn] at h
  split at h
  · cases h
  · cases h
  · rename_i refs k hk hne
    obtain rfl := Except.ok.inj h
    refine ⟨k, hk, ?_⟩
    have hedits : ∀ edit,
        edit ∈ sortEdits (editsFor (p.indexOn d) (p.referencesOn d key) k.name new) →
        edit ∈ editsFor (p.indexOn d) (p.referencesOn d key) k.name new :=
      fun edit hedit => (sortEdits_perm _).mem_iff.1 hedit
    constructor
    · intro edit hedit
      obtain ⟨r, -, s, n, hs, -, hrenames⟩ :=
        renames_of_mem_editsFor hread hwell (hedits edit hedit)
      exact ⟨s, n, k.name, new, hs, ⟨rfl, rfl⟩, hrenames⟩
    · exact ((sortEdits_perm _).map editPlace).nodup_iff.2 (distinctBy_nodup editPlace _)
    · intro edit hedit
      obtain ⟨r, hr, s, n, -, hfile, -⟩ :=
        renames_of_mem_editsFor hread hwell (hedits edit hedit)
      exact ⟨r, hr, hfile⟩
    · intro r hr
      obtain ⟨s, n, hs, -, -, rfl⟩ := exists_of_mem_referencesOn hwell hr
      exact ⟨s, hs, rfl⟩

theorem file_annotate (old new : String) (r : Reference) :
    (annotate old new r).file = r.file := by
  rw [annotate]
  split <;> rfl

theorem refId_annotate (old new : String) (r : Reference) :
    (annotate old new r).refId = r.refId := by
  rw [annotate]
  split <;> rfl

theorem checksum_annotate (old new : String) (r : Reference) :
    (annotate old new r).checksum = r.checksum := by
  rw [annotate]
  split <;> rfl

section

variable {pattern : Pattern} {replacement : String} {skip : List String} {m : SymbolMatch}

/-- A reference of a part of a batch shows an identifier of a source. -/
theorem exists_of_mem_batchPartOn_refs (hwell : ∀ s ∈ p.sourcesOn d, s.WellFormed)
    {r : Reference} (h : r ∈ (p.batchPartOn d pattern replacement skip m).1) :
    ∃ s n, (p.indexOn d).source? r.file = some s ∧ s.path = r.file ∧ s.Identifier n ∧
      r.refId = (s.rangeOf n.tree).refId s.path ∧ r.checksum = s.checksum := by
  rw [batchPartOn] at h
  dsimp only at h
  split at h
  · cases h
  · dsimp only at h
    obtain ⟨r', hr', rfl⟩ := List.mem_map.1 h
    obtain ⟨s, n, hs, hpath, hn, rfl⟩ := exists_of_mem_referencesOn hwell hr'
    rw [file_annotate, refId_annotate, checksum_annotate]
    exact ⟨s, n, hs, hpath, hn, rfl, rfl⟩

/-- An edit of a part of a batch renames an identifier, whose file has a reference in the part. -/
theorem exists_of_mem_batchPartOn_edits (hread : p.Readable d)
    (hwell : ∀ s ∈ p.sourcesOn d, s.WellFormed) {edit : Edit}
    (h : edit ∈ (p.batchPartOn d pattern replacement skip m).2) :
    ∃ r ∈ (p.batchPartOn d pattern replacement skip m).1, r.file = edit.file ∧
      ∃ s n old new, (p.indexOn d).source? edit.file = some s ∧
        (new = Naming.newName old pattern replacement ∧ new ≠ old ∧ old ∉ skip) ∧
        edit.Renames s n old new := by
  rw [batchPartOn] at h ⊢
  dsimp only at h ⊢
  split at h
  · cases h
  · rename_i hskip
    rw [Bool.or_eq_true, not_or] at hskip
    rw [if_neg (by simpa using hskip)]
    dsimp only at h ⊢
    obtain ⟨r, hr, s, n, hs, hfile, hrenames⟩ := renames_of_mem_editsFor hread hwell h
    refine ⟨_, List.mem_map_of_mem hr, ?_, s, n, _, _, hs, ⟨rfl, ?_, ?_⟩, hrenames⟩
    · rw [file_annotate, hfile]
    · simpa using hskip.2
    · simpa using hskip.1

end

theorem proposes_renameBatch (hread : p.Readable d) (hwell : ∀ s ∈ p.sourcesOn d, s.WellFormed)
    (hfree : CollisionFree (p.sourcesOn d)) (now : Moment) (text : String) (pattern : Pattern)
    (replacement : String) (skip : List String) :
    p.Proposes d (fun old new => new = Naming.newName old pattern replacement ∧ new ≠ old ∧
      old ∉ skip) (p.renameBatchOn d now text pattern replacement skip) := by
  rw [renameBatchOn]
  generalize hparts :
    (matchesIn (p.indexOn d) pattern).map (p.batchPartOn d pattern replacement skip) = parts
  have hpart : ∀ part ∈ parts, ∃ m, part = p.batchPartOn d pattern replacement skip m := by
    intro part h
    rw [← hparts] at h
    obtain ⟨m, -, rfl⟩ := List.mem_map.1 h
    exact ⟨m, rfl⟩
  have hrefs : ∀ r ∈ parts.flatMap Prod.fst, ∃ s n, (p.indexOn d).source? r.file = some s ∧
      s.path = r.file ∧ s.Identifier n ∧ r.refId = (s.rangeOf n.tree).refId s.path ∧
      r.checksum = s.checksum := by
    intro r hr
    obtain ⟨part, hmem, hr⟩ := List.mem_flatMap.1 hr
    obtain ⟨m, rfl⟩ := hpart part hmem
    exact exists_of_mem_batchPartOn_refs hwell hr
  have hedits : ∀ edit ∈ sortEdits (distinctBy editPlace (parts.flatMap Prod.snd)),
      ∃ r ∈ parts.flatMap Prod.fst, r.file = edit.file ∧
      ∃ s n old new, (p.indexOn d).source? edit.file = some s ∧
        (new = Naming.newName old pattern replacement ∧ new ≠ old ∧ old ∉ skip) ∧
        edit.Renames s n old new := by
    intro edit hedit
    have hmem := mem_of_mem_distinctBy _ ((sortEdits_perm _).mem_iff.1 hedit)
    obtain ⟨part, hmem, hedit⟩ := List.mem_flatMap.1 hmem
    obtain ⟨m, rfl⟩ := hpart part hmem
    obtain ⟨r, hr, hfile, hrenames⟩ := exists_of_mem_batchPartOn_edits hread hwell hedit
    exact ⟨r, List.mem_flatMap.2 ⟨_, hmem, hr⟩, hfile, hrenames⟩
  constructor
  · intro edit hedit
    obtain ⟨-, -, -, hrenames⟩ := hedits edit hedit
    exact hrenames
  · exact ((sortEdits_perm _).map editPlace).nodup_iff.2 (distinctBy_nodup editPlace _)
  · intro edit hedit
    obtain ⟨r, hr, hfile, -⟩ := hedits edit hedit
    obtain ⟨r', hr', hid⟩ := exists_mem_distinctBy Reference.refId hr
    obtain ⟨s, n, hs, hpath, hn, hrid, -⟩ := hrefs r hr
    obtain ⟨s', n', hs', hpath', hn', hrid', -⟩ := hrefs r' (mem_of_mem_distinctBy _ hr')
    refine ⟨r', hr', ?_⟩
    have hsame := (hfree s' (Index.exists_source_of_source? hs').1 s
      (Index.exists_source_of_source? hs).1 n' n hn' hn (hrid'.symm.trans (hid.trans hrid))).1
    rw [← hpath', hsame, hpath, hfile]
  · intro r hr
    obtain ⟨s, n, hs, -, -, -, hchecksum⟩ := hrefs r (mem_of_mem_distinctBy _ hr)
    exact ⟨s, hs, hchecksum⟩

/-- Renames are sound. In a project of well-formed UTF-8 files, in any state that agrees with the
disk, a rename either finds no symbol at its key or makes a sound proposal for the name in the key;
and a batch makes, for every pattern, a sound proposal that gives each old name that is not skipped
its new one, where that is another. -/
theorem renames_rename_and_renameBatch (p : Project) (d : Disk) (hrooted : p.Rooted)
    (hkept : p.Agrees d) (hread : p.Readable d) (hwell : ∀ s ∈ p.sourcesOn d, s.WellFormed)
    (now : Moment) :
    (∀ key new, ((rename now key new).runOn d p).1 = failWith (.symbolMissing key) ∨
      ∃ k e, SymbolKey.ofText key = .ok k ∧ ((rename now key new).runOn d p).1 = .ok e ∧
        p.Renames d (fun old new' => old = k.name ∧ new' = new) e) ∧
    (CollisionFree (p.sourcesOn d) → ∀ text replacement skip,
      (∀ t, Pattern.compile text true = .error t →
        ((renameBatch now text replacement skip).runOn d p).1 = .error t) ∧
      ∀ pattern, Pattern.compile text true = .ok pattern →
        ∃ e, ((renameBatch now text replacement skip).runOn d p).1 = .ok e ∧
          p.Renames d (fun old new => new = Naming.newName old pattern replacement ∧
            new ≠ old ∧ old ∉ skip) e) := by
  constructor
  · intro key new
    obtain ⟨p₂, -, -, hrun⟩ := answers_rename hread now key new p rfl hkept
    rw [hrun]
    cases he : p.renameOn d now key new with
    | error t =>
        left
        rw [renameOn] at he
        split at he
        · exact he.symm
        · exact he.symm
        · cases he
    | ok e =>
        right
        obtain ⟨k, hk, hproposes⟩ := proposes_rename hread hwell he
        exact ⟨k, e, hk, rfl, hproposes.renames hrooted hread hwell⟩
  · intro hfree text replacement skip
    obtain ⟨p₂, -, -, hrun⟩ := answers_renameBatch hread now text replacement skip p rfl hkept
    rw [hrun]
    refine ⟨fun t ht => by rw [ht]; rfl, fun pattern hpattern => ?_⟩
    rw [hpattern]
    exact ⟨_, rfl, (proposes_renameBatch hread hwell hfree now text pattern replacement
      skip).renames hrooted hread hwell⟩

/-! ### A project with a name that is not ASCII -/

/-- The tree of `export const é = 1;` on a line. -/
def exportTree : Tree :=
  .ofKind "program" 0 21 [.ofKind "export_statement" 0 20 [.token "export" 0 6 none,
    .inField "declaration" "lexical_declaration" 7 20 [.token "const" 7 12 (some "kind"),
      .ofKind "variable_declarator" 13 19 [.inField "name" "identifier" 13 15 [],
        .token "=" 16 17 none, .inField "value" "number" 18 19 []],
      .token ";" 19 20 none]]]

/-- The tree of an import of `é` from `./a` and a use of it, on a line each. -/
def importTree : Tree :=
  .ofKind "program" 0 30 [.ofKind "import_statement" 0 25 [.token "import" 0 6 none,
      .ofKind "import_clause" 7 13 [.ofKind "named_imports" 7 13 [.token "\x7b" 7 8 none,
        .ofKind "import_specifier" 9 11 [.inField "name" "identifier" 9 11 []],
        .token "\x7d" 12 13 none]],
      .token "from" 14 18 none,
      .inField "source" "string" 19 24 [.token "\x27" 19 20 none,
        .ofKind "string_fragment" 20 23 [], .token "\x27" 23 24 none],
      .token ";" 24 25 none],
    .ofKind "expression_statement" 26 29 [.ofKind "identifier" 26 28 [], .token ";" 28 29 none]]

/-- How these files are parsed. -/
def accentedParser : Parser :=
  fun _ bytes => if bytes.length = 21 then exportTree else importTree

/-- A disk with a file that exports a name and one that imports and uses it. -/
def accentedDisk : Disk :=
  pairDisk "export const é = 1;\n" "import \x7b é \x7d from './a';\né;\n"

/-- The project of this disk. -/
def accented : Project :=
  pair "export const é = 1;\n" "import \x7b é \x7d from './a';\né;\n" accentedParser

/-- The file that exports the name. -/
def exporting : Source :=
  script accentedParser "a.ts" "export const é = 1;\n"

/-- The file that imports the name. -/
def importing : Source :=
  script accentedParser "b.ts" "import \x7b é \x7d from './a';\né;\n"

theorem sourcesOn_accented : accented.sourcesOn accentedDisk = [exporting, importing] :=
  sourcesOn_pair _ _ _

theorem readable_accented : accented.Readable accentedDisk :=
  readable_pair _ _ _

theorem wellFormed_accented : ∀ s ∈ accented.sourcesOn accentedDisk, s.WellFormed := by
  rw [sourcesOn_accented]
  decide +kernel

theorem collisionFree_accented : CollisionFree (accented.sourcesOn accentedDisk) := by
  have h : ∀ s ∈ [exporting, importing], ∀ s' ∈ [exporting, importing], ∀ n ∈ s.identifiers,
      ∀ n' ∈ s'.identifiers,
      (s.rangeOf n.tree).refId s.path = (s'.rangeOf n'.tree).refId s'.path →
      s.path = s'.path ∧ s.rangeOf n.tree = s'.rangeOf n'.tree := by
    decide +kernel
  rw [sourcesOn_accented]
  exact fun s hs s' hs' n n' hn hn' => h s hs s' hs' n (Source.mem_identifiers.2 hn) n'
    (Source.mem_identifiers.2 hn')

/-- In a project of these files `é` is found where it is declared. -/
theorem exists_resolveOn_exporting {p : Project} {d : Disk}
    (hsources : p.sourcesOn d = [exporting, importing])
    (hsource : p.sourceOn d "a.ts" = some exporting) :
    ∃ spot, p.resolveOn d "a.ts" 1 14 = some (exporting, spot, .binding ⟨"a.ts", 0⟩) ∧
      exporting.textOf spot.tree = "é" := by
  have hspot : (exporting.spotAt? NodeKind.isIdentifier 1 14).map (fun spot =>
      ((Index.ofSources [exporting, importing]).targetOf? exporting spot,
        exporting.textOf spot.tree)) = some (some (.binding ⟨"a.ts", 0⟩), "é") := by
    decide +kernel
  obtain ⟨spot, hspot, htarget⟩ := Option.map_eq_some_iff.1 hspot
  obtain ⟨htarget, htext⟩ := Prod.mk.inj htarget
  refine ⟨spot, ?_, htext⟩
  rw [resolveOn, hsource, indexOn, hsources]
  dsimp only
  rw [hspot]
  dsimp only
  rw [htarget]
  rfl

theorem ofText_exporting : SymbolKey.ofText "a.ts:1:14:é" =
    .ok { file := "a.ts", line := 1, column := 14, name := "é" } := rfl

/-- Renaming `é` where it is declared changes three places. -/
theorem renameOn_accented (now : Moment) :
    ∃ e, accented.renameOn accentedDisk now "a.ts:1:14:é" "ö" = .ok e ∧ e.edits.length = 3 := by
  obtain ⟨places, hplaces, hlength⟩ : ∃ places,
      (Index.ofSources [exporting, importing]).bindingPlaces ⟨"a.ts", 0⟩ = places ∧
      (editsFor (Index.ofSources [exporting, importing]) (places.filterMap fun q =>
        ((Index.ofSources [exporting, importing]).source? q.file).map fun s =>
          Index.referenceAt s q.spot) "é" "ö").length = 3 := by
    rw [Index.bindingPlaces, List.mergeSort_of_pairwise]
    · exact ⟨_, rfl, by decide +kernel⟩
    · decide +kernel
  obtain ⟨spot, hresolve, htext⟩ :=
    exists_resolveOn_exporting sourcesOn_accented (sourceOn_pair _ _ _).1
  have hrefs : accented.referencesOn accentedDisk "a.ts:1:14:é" = places.filterMap fun q =>
      ((Index.ofSources [exporting, importing]).source? q.file).map fun s =>
        Index.referenceAt s q.spot := by
    rw [referencesOn, ofText_exporting]
    dsimp only
    rw [hresolve, indexOn, sourcesOn_accented]
    dsimp only
    rw [htext, if_neg (by decide), Index.references, Index.places, hplaces]
  rw [renameOn, hrefs, ofText_exporting, indexOn, sourcesOn_accented]
  generalize (places.filterMap fun q =>
    ((Index.ofSources [exporting, importing]).source? q.file).map fun s =>
      Index.referenceAt s q.spot) = refs at *
  cases refs with
  | nil => cases hlength
  | cons r refs => exact ⟨_, rfl, (sortEdits_perm _).length_eq.trans hlength⟩

/-- Both kinds of rename in the project: three places change with the name. -/
theorem renames_accented :
    accented.Rooted ∧ accented.Agrees accentedDisk ∧ accented.Readable accentedDisk ∧
    (∀ s ∈ accented.sourcesOn accentedDisk, s.WellFormed) ∧
    CollisionFree (accented.sourcesOn accentedDisk) ∧
    (∃ e, ((rename default "a.ts:1:14:é" "ö").runOn accentedDisk accented).1 = .ok e ∧
      e.edits.length = 3 ∧
      accented.Renames accentedDisk (fun old new => old = "é" ∧ new = "ö") e) ∧
    ∃ pattern e, Pattern.compile "é" true = .ok pattern ∧
      ((renameBatch default "é" "ö" []).runOn accentedDisk accented).1 = .ok e ∧
      accented.Renames accentedDisk (fun old new => new = Naming.newName old pattern "ö" ∧
        new ≠ old ∧ old ∉ ([] : List String)) e := by
  have hrooted : accented.Rooted := rooted_pair _ _ _
  have hkept : accented.Agrees accentedDisk := agrees_load _ _ _ _ _
  obtain ⟨hrename, hbatch⟩ := renames_rename_and_renameBatch accented accentedDisk hrooted hkept
    readable_accented wellFormed_accented default
  refine ⟨hrooted, hkept, readable_accented, wellFormed_accented, collisionFree_accented, ?_, ?_⟩
  · obtain ⟨e, he, hlength⟩ := renameOn_accented default
    obtain ⟨p₂, -, -, hrun⟩ := answers_rename readable_accented default "a.ts:1:14:é" "ö" accented
      rfl hkept
    rcases hrename "a.ts:1:14:é" "ö" with hmissing | ⟨k, e', hk, he', hrenames⟩
    · rw [hrun, he] at hmissing
      cases hmissing
    · rw [hrun, he] at he'
      obtain rfl := Except.ok.inj he'
      cases hk
      exact ⟨e, by rw [hrun, he], hlength, hrenames⟩
  · obtain ⟨pattern, hpattern⟩ : ∃ pattern, Pattern.compile "é" true = .ok pattern := ⟨_, rfl⟩
    obtain ⟨e, he, hrenames⟩ := (hbatch collisionFree_accented "é" "ö" []).2 pattern hpattern
    exact ⟨pattern, e, hpattern, he, hrenames⟩

end Project

end Redline
