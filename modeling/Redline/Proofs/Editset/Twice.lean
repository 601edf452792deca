import Redline.Proofs.Editset.Independent
import Redline.Proofs.Editset.Unchanged

/-!
# Applying an editset twice

The first run leaves a file either as it was, and then the second run decides about it as the first
did, or with another text, whose checksum is no longer the one that its references recorded. A file
that the second run writes was therefore written by the first run as well, with edits that change
nothing. So the second run leaves the disk as it is, and adds to the report of the first only that
the files which the first run altered have drifted.
-/

namespace Redline

namespace Editset

/-- The checksum tells the text of a file from the text that its edits make of it. -/
def TellsApart (e : Editset) (a : Application) (d : Disk) : Prop :=
  ∀ file ∈ e.editFiles, ∀ text, d.readText (a.root.join file) = .ok text →
    checksum (applyEdits text (e.editsOf file)) = checksum text →
      applyEdits text (e.editsOf file) = text

/-- The files that a run leaves with another text. -/
def altered (e : Editset) (a : Application) (d : Disk) : List String :=
  e.editFiles.filter fun file =>
    (e.apply a d).1.readText (a.root.join file) ≠ d.readText (a.root.join file)

/-! ### A run that writes no new text -/

section

variable {e : Editset} {a : Application} {d : Disk} {file : String}

/-- Writing the text that is there leaves the disk as it is. -/
theorem applyStep_of_still {r : ApplyReport}
    (h : ∀ text, e.Writes a d file text → applyEdits text (e.editsOf file) = text) :
    (e.applyStep a (d, r) file).1 = d := by
  by_cases hw : ∃ text, e.Writes a d file text
  · obtain ⟨text, hw⟩ := hw
    obtain ⟨place, hfind, hfile⟩ := Disk.exists_of_readText hw.readable
    obtain ⟨place', c, hfind', -, hdisk, -⟩ := applyStep_of_writes (r := r) hw
    rw [hfind] at hfind'
    cases hfind'
    rw [hdisk, edited, h text hw]
    exact Disk.put_eq_self hfile
  · exact (applyStep_of_not_writes (not_exists.1 hw)).1

/-- A run in which no file gets a new text leaves the disk as it is, so each file has the outcome
that the disk gives it. -/
theorem progress_of_still {done : List String}
    (h : ∀ file ∈ done, ∀ text, e.Writes a d file text →
      applyEdits text (e.editsOf file) = text) :
    e.progress a d done = (d, e.tally a d done) := by
  induction done using List.reverseRecOn with
  | nil => rfl
  | append_singleton done file ih =>
      have hbefore := ih fun g hg => h g (List.mem_append_left _ hg)
      rw [progress_append_singleton, hbefore, tally_append_singleton]
      exact Prod.ext (applyStep_of_still (h file (by simp))) (applyStep_report _)

/-! ### What a report counts -/

theorem skipped_record (o : FileOutcome) (n : Nat) (r : ApplyReport) :
    (o.record file n r).skipped =
      r.skipped + if o = .unrecorded ∨ o = .drifted then n else 0 := by
  cases o <;> simp [FileOutcome.record]

/-- Files that were written on one disk and have drifted on another, while all others have one
outcome on both, are what the second report skips beyond the first. -/
theorem skipped_tally {d' : Disk} {changed : String → Bool} {files : List String}
    (hchanged : ∀ file ∈ files, changed file = true →
      e.outcome a d file = .written ∧ e.outcome a d' file = .drifted)
    (hsame : ∀ file ∈ files, changed file = false → e.outcome a d' file = e.outcome a d file) :
    (e.tally a d' files).skipped =
      (e.tally a d files).skipped + ((files.filter changed).flatMap e.editsOf).length := by
  induction files using List.reverseRecOn with
  | nil => rfl
  | append_singleton files file ih =>
      have hbefore := ih (fun g hg => hchanged g (List.mem_append_left _ hg))
        fun g hg => hsame g (List.mem_append_left _ hg)
      rw [tally_append_singleton, tally_append_singleton, skipped_record, skipped_record, hbefore,
        List.filter_append, List.flatMap_append, List.length_append]
      cases hc : changed file with
      | true =>
          obtain ⟨hwritten, hdrifted⟩ := hchanged file (by simp) hc
          simp [hwritten, hdrifted, hc, Nat.add_assoc]
      | false =>
          rw [hsame file (by simp) hc]
          simp [hc]
          omega

/-! ### The second run -/

theorem mem_altered :
    file ∈ e.altered a d ↔ file ∈ e.editFiles ∧
      (e.apply a d).1.readText (a.root.join file) ≠ d.readText (a.root.join file) := by
  simp [altered]

/-- An altered file was written with edits that change its text. -/
theorem exists_writes_of_mem_altered (hsep : a.Separates d e.editFiles)
    (h : file ∈ e.altered a d) :
    ∃ text, e.Writes a d file text ∧ applyEdits text (e.editsOf file) ≠ text ∧
      (e.apply a d).1.readText (a.root.join file) =
        .ok (applyEdits text (e.editsOf file)) := by
  obtain ⟨hfile, hne⟩ := mem_altered.1 h
  by_cases hw : ∃ text, e.Writes a d file text
  · obtain ⟨text, hw⟩ := hw
    have hread := readText_apply_of_writes hsep hfile hw
    refine ⟨text, hw, fun heq => hne ?_, hread⟩
    rw [hread, heq, hw.readable]
  · have hread := read_apply_of_not_writes hsep (fun _ h => h) hfile fun _ => not_exists.1 hw
    exact absurd (Disk.readText_congr hread) hne

/-- An altered file has drifted for the second run. -/
theorem outcome_of_mem_altered (hsep : a.Separates d e.editFiles) (htell : e.TellsApart a d)
    (h : file ∈ e.altered a d) :
    e.outcome a d file = .written ∧ e.outcome a (e.apply a d).1 file = .drifted := by
  obtain ⟨text, hw, hne, hread⟩ := exists_writes_of_mem_altered hsep h
  obtain ⟨⟨r, hr, hf⟩, hagreed⟩ := hw.vouched
  refine ⟨outcome_eq_written_iff.2 ⟨text, hw⟩, outcome_of_drift hread hr hf ?_⟩
  rw [hagreed r hr hf]
  exact fun hsum => hne (htell file (mem_altered.1 h).1 text hw.readable hsum.symm)

/-- What the second run writes is what is there. -/
theorem still_of_apply (hsep : a.Separates d e.editFiles) (htell : e.TellsApart a d)
    (hfile : file ∈ e.editFiles) {text : String} (hw : e.Writes a (e.apply a d).1 file text) :
    applyEdits text (e.editsOf file) = text := by
  by_cases h : file ∈ e.altered a d
  · have hdrifted := (outcome_of_mem_altered hsep htell h).2
    rw [outcome_eq_written_iff.2 ⟨text, hw⟩] at hdrifted
    cases hdrifted
  · have hread : (e.apply a d).1.readText (a.root.join file) = d.readText (a.root.join file) :=
      not_not.1 fun hne => h (mem_altered.2 ⟨hfile, hne⟩)
    have hmade := readText_apply_of_writes hsep hfile (hw.congr hread.symm)
    rw [hw.readable] at hmade
    exact (Except.ok.inj hmade).symm

end

/-- Applying an editset a second time leaves the disk as the first run left it. Every place that the
first run changed belongs to a file that it altered; the second run reports each of these files as
drifted, and skips their edits besides those that the first run skipped. -/
theorem apply_twice (e : Editset) (a : Application) (d : Disk)
    (hsep : a.Separates d e.editFiles) (htell : e.TellsApart a d) :
    (e.apply a (e.apply a d).1).1 = (e.apply a d).1 ∧
    (∀ place, (e.apply a d).1.entryAt place ≠ d.entryAt place →
      ∃ file ∈ e.altered a d, d.find (a.root.join file) = .at place) ∧
    (∀ file ∈ e.altered a d,
      file ++ ": checksum mismatch" ++
          (", skipping " ++ toString (e.editsOf file).length ++ " edits") ∈
        (e.apply a (e.apply a d).1).2.drift) ∧
    (e.apply a (e.apply a d).1).2.skipped =
      (e.apply a d).2.skipped +
        (e.edits.filter fun edit => (e.altered a d).contains edit.file).length := by
  have hsecond : e.apply a (e.apply a d).1 =
      ((e.apply a d).1, e.tally a (e.apply a d).1 e.editFiles) :=
    progress_of_still fun file hfile text hw => still_of_apply hsep htell hfile hw
  rw [hsecond]
  refine ⟨rfl, ?_, ?_, ?_⟩
  · intro place hne
    by_contra hnot
    refine hne ((made_apply hsep).others place fun file hfile text hw hplace => hnot ?_)
    refine ⟨file, mem_altered.2 ⟨hfile, fun hsame => hne ?_⟩, hplace⟩
    rw [readText_apply_of_writes hsep hfile hw, hw.readable, Except.ok.injEq] at hsame
    obtain ⟨place', hfind, hentry⟩ := Disk.exists_of_readText hw.readable
    rw [hplace] at hfind
    cases hfind
    rw [hentry, apply_eq_progress, (made_apply hsep).files file hfile text hw place hplace,
      edited, hsame]
  · intro file hfile
    exact mem_drift_tally (mem_altered.1 hfile).1 (outcome_of_mem_altered hsep htell hfile).2
  · have hnodup : (e.altered a d).Nodup := (nodup_distinct _).filter _
    have hcount := length_flatMap_filter hnodup e.edits
    have hreport : (e.apply a d).2 = e.tally a d e.editFiles := (made_apply hsep).report
    rw [hreport, ← hcount]
    refine skipped_tally (fun file hfile hc => ?_) fun file hfile hc => ?_
    · exact outcome_of_mem_altered hsep htell (List.mem_filter.2 ⟨hfile, hc⟩)
    · refine outcome_congr (not_not.1 fun hne => ?_)
      simp [hne] at hc

/-- A directory with three files. -/
def threeFiles : Disk :=
  { working := ["root"]
    entries := [(["root"], .folder), (["root", "a.txt"], .file [0x31, 0x32, 0x33]),
      (["root", "b.txt"], .file [0x31]), (["root", "c.txt"], .file [0x31])] }

/-- Edits of the three files: of the first two that overlap, of the second one that its references
do not agree on, and of the third one that changes nothing. -/
def editThree : Editset :=
  { id := .null, operation := .null, old := .null, new := .null
    refs := [("first", "a.txt", "a665a4592042"), ("second", "b.txt", "6b86b273ff34"),
        ("third", "b.txt", "000000000000"), ("fourth", "c.txt", "6b86b273ff34")].map
      fun (refId, file, checksum) =>
        { refId, file, range := ⟨1, 1, 1, 2⟩, preview := .null, checksum, selected := true }
    edits := [⟨"a.txt", 1, 2, "y"⟩, ⟨"a.txt", 0, 2, "x"⟩, ⟨"b.txt", 0, 1, "2"⟩,
      ⟨"c.txt", 0, 1, "1"⟩]
    createdAt := .null, symbolKey := none, pattern := none }

/-- A run in the directory. -/
def inEarnest : Application :=
  { root := ⟨true, ["root"]⟩, dryRun := false, blocked := [] }

theorem separates_threeFiles : inEarnest.Separates threeFiles editThree.editFiles := by
  have hne : ∀ file ∈ editThree.editFiles, ∀ file' ∈ editThree.editFiles,
      threeFiles.find (inEarnest.root.join file) = threeFiles.find (inEarnest.root.join file') →
        file = file' := by decide +kernel
  exact fun file hfile file' hfile' place hplace hplace' =>
    hne file hfile file' hfile' (hplace.trans hplace'.symm)

theorem checksum_threeFiles :
    checksum "123" = "a665a4592042" ∧ checksum "1" = "6b86b273ff34" := by
  decide +kernel

theorem applyEdits_overlapping : applyEdits "123" (editThree.editsOf "a.txt") = "x" := by
  rw [applyEdits, descending, List.mergeSort_of_pairwise (by decide)]
  decide +kernel

theorem tellsApart_threeFiles : editThree.TellsApart inEarnest threeFiles := by
  have hfiles : editThree.editFiles = ["a.txt", "b.txt", "c.txt"] := by decide +kernel
  have ha : threeFiles.readText (inEarnest.root.join "a.txt") = .ok "123" := by decide +kernel
  have hb : threeFiles.readText (inEarnest.root.join "b.txt") = .ok "1" := by decide +kernel
  have hc : threeFiles.readText (inEarnest.root.join "c.txt") = .ok "1" := by decide +kernel
  rw [TellsApart, hfiles, List.forall_mem_cons, List.forall_mem_cons, List.forall_mem_singleton]
  refine ⟨fun text h => ?_, fun text h => ?_, fun text h => ?_⟩
  · rw [ha] at h
    cases h
    rw [applyEdits_overlapping, checksum_threeFiles.1]
    decide +kernel
  · rw [hb] at h
    cases h
    rw [checksum_threeFiles.2]
    decide +kernel
  · rw [hc] at h
    cases h
    intro
    decide +kernel

/-- Of three files the first is altered, and reported with its two edits by the second run. -/
theorem apply_twice_threeFiles :
    inEarnest.Separates threeFiles editThree.editFiles ∧
    editThree.TellsApart inEarnest threeFiles ∧
    "a.txt" ∈ editThree.altered inEarnest threeFiles ∧
    "a.txt: checksum mismatch, skipping 2 edits" ∈
      (editThree.apply inEarnest (editThree.apply inEarnest threeFiles).1).2.drift := by
  have hw : editThree.Writes inEarnest threeFiles "a.txt" "123" := by
    refine ⟨rfl, by decide +kernel, vouches_iff.2 ?_, List.not_mem_nil⟩
    rw [checksum_threeFiles.1]
    decide
  have hfile : "a.txt" ∈ editThree.editFiles := by decide +kernel
  have haltered : "a.txt" ∈ editThree.altered inEarnest threeFiles := by
    refine mem_altered.2 ⟨hfile, ?_⟩
    rw [readText_apply_of_writes separates_threeFiles hfile hw, applyEdits_overlapping,
      hw.readable]
    decide
  exact ⟨separates_threeFiles, tellsApart_threeFiles, haltered,
    (apply_twice editThree inEarnest threeFiles separates_threeFiles tellsApart_threeFiles).2.2.1
      "a.txt" haltered⟩

end Editset

end Redline
