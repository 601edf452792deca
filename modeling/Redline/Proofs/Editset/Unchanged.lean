import Redline.Proofs.Editset.Independent

/-!
# Applying an editset to a disk that did not change

When every file of an editset still has the text that its references vouch for, and the files are at
different places, each of them is made on its own and is written. So all edits are made, and nothing
but these files changes.
-/

namespace Redline

namespace Editset

/-- An editset whose files are on a disk as they were: `texts` are their texts. -/
structure Unchanged (e : Editset) (a : Application) (d : Disk) (texts : String → String) :
    Prop where
  inEarnest : a.dryRun = false
  free : a.blocked = []
  readable : ∀ file ∈ e.editFiles, d.readText (a.root.join file) = .ok (texts file)
  vouched : ∀ file ∈ e.editFiles, e.Vouches file (texts file)
  apart : ∀ file ∈ e.editFiles, ∀ file' ∈ e.editFiles, ∀ place,
    d.find (a.root.join file) = .at place → d.find (a.root.join file') = .at place → file = file'

theorem Unchanged.writes {e : Editset} {a : Application} {d : Disk} {texts : String → String}
    (h : e.Unchanged a d texts) {file : String} (hfile : file ∈ e.editFiles) :
    e.Writes a d file (texts file) :=
  ⟨h.inEarnest, h.readable file hfile, h.vouched file hfile, by simp [h.free]⟩

/-- What is known after some of the files: they hold their edited texts, all other places are as
they were, and all their edits are counted as made. -/
structure Done (e : Editset) (a : Application) (d : Disk) (texts : String → String)
    (done : List String) : Prop where
  files : ∀ file ∈ done, ∀ place, d.find (a.root.join file) = .at place →
    (e.progress a d done).1.entryAt place = some (.file (e.edited file (texts file)))
  others : ∀ place, (∀ file ∈ done, d.find (a.root.join file) ≠ .at place) →
    (e.progress a d done).1.entryAt place = d.entryAt place
  report : (e.progress a d done).2 =
    { noReport a with applied := (done.flatMap e.editsOf).length
                      written := done }

/-- The report on files that are all written. -/
theorem tally_of_written {e : Editset} {a : Application} {d : Disk} {files : List String}
    (h : ∀ file ∈ files, e.outcome a d file = .written) :
    e.tally a d files =
      { noReport a with applied := (files.flatMap e.editsOf).length
                        written := files } := by
  induction files using List.reverseRecOn with
  | nil => rfl
  | append_singleton files file ih =>
      rw [tally_append_singleton, h file (by simp), ih fun g hg => h g (List.mem_append_left _ hg),
        List.flatMap_append, List.length_append, List.flatMap_singleton]
      rfl

theorem Done.all {e : Editset} {a : Application} {d : Disk} {texts : String → String}
    (h : e.Unchanged a d texts) {done rest : List String} (hsplit : e.editFiles = done ++ rest) :
    e.Done a d texts done := by
  have hsub : ∀ file ∈ done, file ∈ e.editFiles := by
    intro file hfile
    rw [hsplit]
    exact List.mem_append_left _ hfile
  have hnodup : (done ++ rest).Nodup := hsplit ▸ nodup_distinct _
  have hsep : a.Separates d e.editFiles := h.apart
  have hmade : e.Made a d done := Made.all (hsep.mono hsub) (List.nodup_append.1 hnodup).1
  constructor
  · exact fun file hfile => hmade.files file hfile _ (h.writes (hsub file hfile))
  · exact fun place hnot => hmade.others place fun file hfile _ _ => hnot file hfile
  · rw [hmade.report]
    exact tally_of_written fun file hfile =>
      outcome_eq_written_iff.2 ⟨_, h.writes (hsub file hfile)⟩

/-! ### Counting edits by their files -/

theorem length_flatMap_filter {files : List String} (hnodup : files.Nodup) (edits : List Edit) :
    (files.flatMap fun file => edits.filter (·.file == file)).length =
      (edits.filter fun edit => files.contains edit.file).length := by
  induction files with
  | nil => simp [List.filter_eq_nil_iff.2]
  | cons file files ih =>
      obtain ⟨hfile, htail⟩ := List.nodup_cons.1 hnodup
      have hsplit : ∀ edits : List Edit,
          (edits.filter fun edit => (file :: files).contains edit.file).length =
            (edits.filter (·.file == file)).length +
              (edits.filter fun edit => files.contains edit.file).length := by
        intro edits
        induction edits with
        | nil => rfl
        | cons edit edits ih =>
            by_cases heq : edit.file = file
            · have hnot : edit.file ∉ files := heq ▸ hfile
              simp only [List.filter_cons, heq, List.contains_eq_mem, beq_self_eq_true, hfile,
                List.mem_cons, true_or, decide_true, if_true, List.length_cons] at ih ⊢
              simp only [decide_false, Bool.false_eq_true, if_false]
              omega
            · by_cases hin : edit.file ∈ files
              · simp only [List.filter_cons, List.contains_eq_mem, List.mem_cons, heq, hin,
                  beq_false_of_ne heq, or_true, decide_true, if_true, Bool.false_eq_true, if_false,
                  List.length_cons] at ih ⊢
                omega
              · simpa [List.filter_cons, heq, hin] using ih
      rw [List.flatMap_cons, List.length_append, ih htail, hsplit]

/-- Every edit is one of a file with edits. -/
theorem length_flatMap_editsOf (e : Editset) :
    (e.editFiles.flatMap e.editsOf).length = e.edits.length := by
  refine (length_flatMap_filter (nodup_distinct _) e.edits).trans ?_
  rw [List.filter_eq_self.2]
  intro edit hedit
  exact List.contains_iff_mem.2 (mem_distinct.2 (List.mem_map_of_mem hedit))

/-- On a disk that did not change all edits are made: every file gets its text with the edits made,
and every other place is as it was. -/
theorem apply_unchanged {e : Editset} {a : Application} {d : Disk} {texts : String → String}
    (h : e.Unchanged a d texts) :
    (e.apply a d).2 = { noReport a with applied := e.edits.length, written := e.editFiles } ∧
    (∀ file ∈ e.editFiles, ∀ place, d.find (a.root.join file) = .at place →
      (e.apply a d).1.entryAt place = some (.file (e.edited file (texts file)))) ∧
    (∀ place, (∀ file ∈ e.editFiles, d.find (a.root.join file) ≠ .at place) →
      (e.apply a d).1.entryAt place = d.entryAt place) := by
  have hdone : e.Done a d texts e.editFiles := Done.all h (List.append_nil _).symm
  refine ⟨?_, hdone.files, hdone.others⟩
  rw [apply_eq_progress, hdone.report, length_flatMap_editsOf]

/-- A file with edits is read with its edits made. -/
theorem readText_apply_of_unchanged {e : Editset} {a : Application} {d : Disk}
    {texts : String → String} (h : e.Unchanged a d texts) {file : String}
    (hfile : file ∈ e.editFiles) :
    (e.apply a d).1.readText (a.root.join file) =
      .ok (applyEdits (texts file) (e.editsOf file)) :=
  readText_apply_of_writes h.apart hfile (h.writes hfile)

end Editset

end Redline
