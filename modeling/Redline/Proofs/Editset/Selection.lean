import Mathlib.Data.List.Forall2
import Mathlib.Tactic.Common
import Redline.Editset.Selection
import Redline.Proofs.Editset.Twice

/-!
# Applying a selection

A filter keeps all references and, of each file with a selected reference, all edits in their order.
For such a file the filtered editset has the same edits and the same recorded checksums as the whole
one, so its outcome is the same; the other files have no edits left. Since files at different places
are made independently, the runs of the two editsets leave the same in every selected file.
-/

namespace Redline

namespace Editset

/-- The files that an editset names, in a reference or in an edit. -/
def fileNames (e : Editset) : List String :=
  e.refs.map Reference.file ++ e.edits.map Edit.file

section

variable {e : Editset} {include_ exclude : List String} {a : Application} {d : Disk} {file : String}

theorem mem_fileNames_of_mem_editFiles (h : file ∈ e.editFiles) : file ∈ e.fileNames :=
  List.mem_append_right _ (mem_distinct.1 h)

theorem mem_fileNames_of_mem_selectedFiles
    (h : file ∈ selectedFiles (e.filter include_ exclude).refs) : file ∈ e.fileNames := by
  obtain ⟨r, hr, rfl⟩ := List.mem_map.1 h
  obtain ⟨r', hr', rfl⟩ := List.mem_map.1 (List.mem_filter.1 hr).1
  exact List.mem_append_left _ (List.mem_map.2 ⟨r', hr', rfl⟩)

theorem edits_filter :
    (e.filter include_ exclude).edits =
      e.edits.filter fun edit =>
        (selectedFiles (e.filter include_ exclude).refs).contains edit.file := rfl

/-- A filter keeps what is recorded for every file. -/
theorem checksumsOf_filter :
    (e.filter include_ exclude).checksumsOf file = e.checksumsOf file := by
  simp [checksumsOf, filter, List.filter_map, Function.comp_def]

/-- A filter keeps all edits of a selected file. -/
theorem editsOf_filter (h : file ∈ selectedFiles (e.filter include_ exclude).refs) :
    (e.filter include_ exclude).editsOf file = e.editsOf file := by
  rw [editsOf, editsOf, edits_filter, List.filter_filter]
  refine List.filter_congr fun edit _ => ?_
  by_cases hedit : edit.file = file
  · have hselected : (selectedFiles (e.filter include_ exclude).refs).contains edit.file = true := by
      rw [List.contains_eq_mem, hedit, decide_eq_true h]
    rw [hselected, Bool.and_true]
  · simp [hedit]

/-- The files with edits left are the selected ones among those with edits. -/
theorem mem_editFiles_filter :
    file ∈ (e.filter include_ exclude).editFiles ↔
      file ∈ e.editFiles ∧ file ∈ selectedFiles (e.filter include_ exclude).refs := by
  rw [editFiles, mem_distinct, editFiles, mem_distinct, List.mem_map, List.mem_map]
  constructor
  · rintro ⟨edit, hedit, rfl⟩
    obtain ⟨hedit, hselected⟩ := List.mem_filter.1 hedit
    exact ⟨⟨edit, hedit, rfl⟩, List.contains_iff_mem.1 hselected⟩
  · rintro ⟨⟨edit, hedit, rfl⟩, hselected⟩
    exact ⟨edit, List.mem_filter.2 ⟨hedit, List.contains_iff_mem.2 hselected⟩, rfl⟩

/-- A selected file has the outcome that it has in the whole editset. -/
theorem outcome_filter (h : file ∈ selectedFiles (e.filter include_ exclude).refs) :
    (e.filter include_ exclude).outcome a d file = e.outcome a d file := by
  rw [outcome, outcome, checksumsOf_filter, editsOf_filter h]

theorem writes_filter_iff {text : String} :
    (e.filter include_ exclude).Writes a d file text ↔ e.Writes a d file text := by
  have hvouches : (e.filter include_ exclude).Vouches file text ↔ e.Vouches file text := by
    rw [vouches_iff, vouches_iff, checksumsOf_filter]
  exact ⟨fun ⟨ha, hread, hv, hfree⟩ => ⟨ha, hread, hvouches.1 hv, hfree⟩,
    fun ⟨ha, hread, hv, hfree⟩ => ⟨ha, hread, hvouches.2 hv, hfree⟩⟩

/-- What a run leaves in a selected file is what the run of the whole editset leaves in it. -/
theorem read_apply_filter (hsep : a.Separates d e.fileNames)
    (h : file ∈ selectedFiles (e.filter include_ exclude).refs) :
    ((e.filter include_ exclude).apply a d).1.read (a.root.join file) =
      (e.apply a d).1.read (a.root.join file) := by
  have hname := mem_fileNames_of_mem_selectedFiles h
  have hedited : ∀ g ∈ e.editFiles, g ∈ e.fileNames :=
    fun g hg => mem_fileNames_of_mem_editFiles hg
  have hedited' : ∀ g ∈ (e.filter include_ exclude).editFiles, g ∈ e.fileNames :=
    fun g hg => hedited g (mem_editFiles_filter.1 hg).1
  by_cases hw : file ∈ e.editFiles ∧ ∃ text, e.Writes a d file text
  · obtain ⟨hfile, text, hw⟩ := hw
    have hmade := (made_apply (hsep.mono hedited)).files file hfile text hw
    have hmade' := (made_apply (hsep.mono hedited')).files file (mem_editFiles_filter.2 ⟨hfile, h⟩)
      text (writes_filter_iff.2 hw)
    refine Disk.read_congr ?_ fun place hplace => ?_
    · rw [apply_eq_progress, apply_eq_progress, find_progress, find_progress]
    · rw [apply_eq_progress, find_progress] at hplace
      rw [apply_eq_progress, apply_eq_progress, hmade place hplace, hmade' place hplace, edited,
        edited, editsOf_filter h]
  · rw [read_apply_of_not_writes hsep hedited hname fun hfile text hwrites =>
        hw ⟨hfile, text, hwrites⟩,
      read_apply_of_not_writes hsep hedited' hname fun hfile text hwrites =>
        hw ⟨(mem_editFiles_filter.1 hfile).1, text, writes_filter_iff.1 hwrites⟩]

end

/-- What applying a selection does. A file with a selected reference holds what applying the whole
editset leaves in it, and every other place is as it was. All references take part in the check of a
file, the deselected ones too: where one of them recorded another checksum than that of the text,
the file is reported as drifted and left alone. -/
theorem apply_filter (e : Editset) (include_ exclude : List String) (a : Application) (d : Disk)
    (hsep : a.Separates d e.fileNames) :
    (∀ file ∈ selectedFiles (e.filter include_ exclude).refs,
      ((e.filter include_ exclude).apply a d).1.read (a.root.join file) =
        (e.apply a d).1.read (a.root.join file)) ∧
    (∀ place,
      (∀ file ∈ selectedFiles (e.filter include_ exclude).refs,
        d.find (a.root.join file) ≠ .at place) →
      ((e.filter include_ exclude).apply a d).1.entryAt place = d.entryAt place) ∧
    (∀ file ∈ (e.filter include_ exclude).editFiles, ∀ text,
      d.readText (a.root.join file) = .ok text →
      ∀ r ∈ e.refs, r.file = file → r.checksum ≠ checksum text →
        file ++ ": checksum mismatch" ++
            (", skipping " ++ toString (e.editsOf file).length ++ " edits") ∈
          ((e.filter include_ exclude).apply a d).2.drift ∧
        ((e.filter include_ exclude).apply a d).1.read (a.root.join file) =
          d.read (a.root.join file)) := by
  have hedited : ∀ g ∈ (e.filter include_ exclude).editFiles, g ∈ e.fileNames :=
    fun g hg => mem_fileNames_of_mem_editFiles (mem_editFiles_filter.1 hg).1
  have hmade := made_apply (hsep.mono hedited)
  refine ⟨fun file hfile => read_apply_filter hsep hfile, fun place hplace => ?_, ?_⟩
  · exact hmade.others place fun file hfile _ _ => hplace file (mem_editFiles_filter.1 hfile).2
  · intro file hfile text hread r hr hf hc
    have hselected := (mem_editFiles_filter.1 hfile).2
    have hout : (e.filter include_ exclude).outcome a d file = .drifted := by
      rw [outcome_filter hselected]
      exact outcome_of_drift hread hr hf hc
    constructor
    · rw [← editsOf_filter hselected, apply_eq_progress, hmade.report]
      exact mem_drift_tally hfile hout
    · refine read_apply_of_not_writes hsep hedited (hedited file hfile) fun _ text' hw => ?_
      rw [outcome_eq_written_iff.2 ⟨text', hw⟩] at hout
      cases hout

/-- With two references selected, the first file gets its edits as in a whole run. The second one is
left alone, for a reference of it that is not selected. -/
theorem apply_filter_threeFiles :
    inEarnest.Separates threeFiles editThree.fileNames ∧
    selectedFiles (editThree.filter ["first", "second"] []).refs = ["a.txt", "b.txt"] ∧
    ((editThree.filter ["first", "second"] []).apply inEarnest threeFiles).1.read
        (inEarnest.root.join "a.txt") =
      (editThree.apply inEarnest threeFiles).1.read (inEarnest.root.join "a.txt") ∧
    "b.txt: checksum mismatch, skipping 1 edits" ∈
      ((editThree.filter ["first", "second"] []).apply inEarnest threeFiles).2.drift := by
  have hsep : inEarnest.Separates threeFiles editThree.fileNames := by
    have hnames : ∀ file ∈ editThree.fileNames, file ∈ editThree.editFiles := by decide +kernel
    exact separates_threeFiles.mono hnames
  have hselected : selectedFiles (editThree.filter ["first", "second"] []).refs =
      ["a.txt", "b.txt"] := by decide +kernel
  obtain ⟨hread, -, hdrift⟩ := apply_filter editThree ["first", "second"] [] inEarnest threeFiles hsep
  refine ⟨hsep, hselected, hread "a.txt" (by simp [hselected]), ?_⟩
  have hb : threeFiles.readText (inEarnest.root.join "b.txt") = .ok "1" := by decide +kernel
  have hedited : "b.txt" ∈ (editThree.filter ["first", "second"] []).editFiles := by decide +kernel
  obtain ⟨r, hr, hfile, hsum⟩ :
      ∃ r ∈ editThree.refs, r.file = "b.txt" ∧ r.checksum ≠ "6b86b273ff34" := by
    decide +kernel
  rw [← checksum_threeFiles.2] at hsum
  exact (hdrift "b.txt" hedited "1" hb r hr hfile hsum).1

end Editset

/-!
## The algebra of filters

A filter decides anew which references are selected, and keeps the edits of the files that have a
selected one then. `reselect` does so for any decision. Where a second decision selects nothing that
the first one did not, it leaves no file selected that was not: the edits that are gone by then
would go anyway, and the two filters are one. Idempotence and the laws of exclusion are cases of it.
-/

namespace Editset

/-- References selected anew. -/
def selectBy (keep : Reference → Bool) (refs : List Reference) : List Reference :=
  refs.map fun r => { r with selected := keep r }

/-- The edits of the files with a selected reference. -/
def editsUnder (refs : List Reference) (edits : List Edit) : List Edit :=
  edits.filter fun x => (selectedFiles refs).contains x.file

/-- The editset with its references selected anew, and the edits of the files selected then. -/
def reselect (e : Editset) (keep : Reference → Bool) : Editset :=
  { e with refs := selectBy keep e.refs, edits := editsUnder (selectBy keep e.refs) e.edits }

theorem filter_eq_reselect (e : Editset) (include_ exclude : List String) :
    e.filter include_ exclude = e.reselect (selects include_ exclude) := rfl

section

variable {refs : List Reference} {file : String}

theorem mem_selectedFiles :
    file ∈ selectedFiles refs ↔ ∃ r ∈ refs, r.selected = true ∧ r.file = file := by
  simp [selectedFiles, and_assoc]

theorem mem_selectedFiles_selectBy {keep : Reference → Bool} :
    file ∈ selectedFiles (selectBy keep refs) ↔ ∃ r ∈ refs, keep r = true ∧ r.file = file := by
  simp [mem_selectedFiles, selectBy]

theorem editsUnder_eq (refs : List Reference) (edits : List Edit) :
    editsUnder refs edits =
      edits.filter fun x => decide (∃ r ∈ refs, r.selected = true ∧ r.file = x.file) := by
  refine List.filter_congr fun x _ => ?_
  rw [List.contains_eq_mem]
  exact decide_eq_decide.2 mem_selectedFiles

/-- What fewer selected files keep may be taken from what more of them keep. -/
theorem editsUnder_editsUnder {more : List Reference}
    (h : ∀ file ∈ selectedFiles refs, file ∈ selectedFiles more) (edits : List Edit) :
    editsUnder refs (editsUnder more edits) = editsUnder refs edits := by
  rw [editsUnder, editsUnder, List.filter_filter]
  refine List.filter_congr fun x _ => ?_
  simpa using h x.file

end

section

variable {keep next : Reference → Bool}

theorem selectBy_selectBy (refs : List Reference) :
    selectBy next (selectBy keep refs) =
      selectBy (fun r => next { r with selected := keep r }) refs := by
  simp [selectBy, Function.comp_def]

/-- A selection among what is selected is one selection. -/
theorem reselect_reselect (e : Editset)
    (h : ∀ r : Reference, next { r with selected := keep r } = true → keep r = true) :
    (e.reselect keep).reselect next = e.reselect fun r => next { r with selected := keep r } := by
  have hfiles : ∀ file,
      file ∈ selectedFiles (selectBy (fun r => next { r with selected := keep r }) e.refs) →
        file ∈ selectedFiles (selectBy keep e.refs) := by
    intro file hfile
    obtain ⟨r, hr, hnext, hfile⟩ := mem_selectedFiles_selectBy.1 hfile
    exact mem_selectedFiles_selectBy.2 ⟨r, hr, h r hnext, hfile⟩
  simp only [reselect, selectBy_selectBy, editsUnder_editsUnder hfiles]

end

section

variable {include_ exclude other : List String} {r : Reference}

theorem selects_eq_true_iff :
    selects include_ exclude r = true ↔
      (if include_ = [] then r.selected = true else r.refId ∈ include_) ∧ r.refId ∉ exclude := by
  by_cases h : include_ = [] <;> simp [selects, h]

/-- Two filters are one that selects, of what the first one selects, what the second one does. -/
theorem filter_filter_eq (e : Editset)
    {includeNext excludeNext includeBoth excludeBoth : List String}
    (hnext : ∀ r : Reference,
      selects includeNext excludeNext { r with selected := selects include_ exclude r } =
        selects includeBoth excludeBoth r)
    (hfewer : ∀ r : Reference,
      selects includeBoth excludeBoth r = true → selects include_ exclude r = true) :
    (e.filter include_ exclude).filter includeNext excludeNext =
      e.filter includeBoth excludeBoth := by
  rw [filter_eq_reselect, filter_eq_reselect, filter_eq_reselect, reselect_reselect]
  · congr 1
    funext r
    exact hnext r
  · intro r hr
    rw [hnext] at hr
    exact hfewer r hr

/-- Excluding more afterwards is excluding all at once. -/
theorem filter_filter_exclude (e : Editset) (include_ exclude other : List String) :
    (e.filter include_ exclude).filter [] other = e.filter include_ (exclude ++ other) := by
  refine filter_filter_eq e (fun r => ?_) fun r hr => ?_
  · rw [Bool.eq_iff_iff, selects_eq_true_iff, selects_eq_true_iff, if_pos rfl, selects_eq_true_iff,
      List.mem_append, not_or, and_assoc]
  · rw [selects_eq_true_iff, List.mem_append, not_or] at hr
    exact selects_eq_true_iff.2 ⟨hr.1, hr.2.1⟩

theorem filter_filter_self (e : Editset) (include_ exclude : List String) :
    (e.filter include_ exclude).filter include_ exclude = e.filter include_ exclude := by
  refine filter_filter_eq e (fun r => ?_) fun _ hr => hr
  rw [Bool.eq_iff_iff, selects_eq_true_iff, selects_eq_true_iff]
  by_cases h : include_ = []
  · rw [if_pos h]
    exact and_iff_left_of_imp And.right
  · rw [if_neg h, if_neg h]

theorem filter_exclude_congr (e : Editset) (include_ : List String)
    (h : ∀ refId, refId ∈ exclude ↔ refId ∈ other) :
    e.filter include_ exclude = e.filter include_ other := by
  rw [filter_eq_reselect, filter_eq_reselect]
  congr 1
  funext r
  rw [Bool.eq_iff_iff, selects_eq_true_iff, selects_eq_true_iff, h]

/-- The references of a filtered editset are those before it, one by one. -/
theorem forall₂_refs_filter (e : Editset) (include_ exclude : List String) :
    List.Forall₂ (fun r r' => r' = { r with selected := selects include_ exclude r }) e.refs
      (e.filter include_ exclude).refs := by
  rw [filter, List.forall₂_map_right_iff, List.forall₂_same]
  exact fun _ _ => rfl

end

/-- The laws of filters. A filter made again changes nothing; exclusions add up, in any order; and a
filter changes no more than which references are selected and which edits are there: those of the
files that have a selected reference afterwards, in their order. -/
theorem filter_laws (e : Editset) (include_ exclude other : List String) :
    (e.filter include_ exclude).filter include_ exclude = e.filter include_ exclude ∧
    (e.filter [] exclude).filter [] other = e.filter [] (exclude ++ other) ∧
    (e.filter [] exclude).filter [] other = (e.filter [] other).filter [] exclude ∧
    ∃ refs edits, e.filter include_ exclude = { e with refs, edits } ∧
      List.Forall₂ (fun r r' => (∃ selected, r' = { r with selected }) ∧
        (r'.selected = true ↔
          (if include_ = [] then r.selected = true else r.refId ∈ include_) ∧
            r.refId ∉ exclude)) e.refs refs ∧
      edits = e.edits.filter fun x => ∃ r ∈ refs, r.selected = true ∧ r.file = x.file := by
  refine ⟨filter_filter_self e include_ exclude, filter_filter_exclude e [] exclude other, ?_,
    (e.filter include_ exclude).refs, (e.filter include_ exclude).edits, rfl, ?_,
    editsUnder_eq _ _⟩
  · rw [filter_filter_exclude, filter_filter_exclude]
    exact filter_exclude_congr e [] fun refId => by rw [List.mem_append, List.mem_append, or_comm]
  · refine (forall₂_refs_filter e include_ exclude).imp ?_
    rintro r _ rfl
    exact ⟨⟨_, rfl⟩, selects_eq_true_iff⟩

end Editset

end Redline
