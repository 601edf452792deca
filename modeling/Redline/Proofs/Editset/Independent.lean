import Redline.Proofs.Editset.Application

/-!
# Files at different places are made independently

What becomes of a file, its `outcome`, depends on its text alone. When the files of a run are at
different places, the files made before one of them wrote elsewhere, so it is read as it was at the
start: its outcome is the one that the first disk gives it. `Made` says what is known of the disk
and the report after some of the files, each held against the disk at the start; one file keeps it,
so it holds after a whole run.
-/

namespace Redline

namespace Editset

/-- Two of the files are at one place only if they are the same. -/
def Application.Separates (a : Application) (d : Disk) (files : List String) : Prop :=
  ∀ file ∈ files, ∀ file' ∈ files, ∀ place,
    d.find (a.root.join file) = .at place → d.find (a.root.join file') = .at place → file = file'

theorem Application.Separates.mono {a : Application} {d : Disk} {files files' : List String}
    (h : a.Separates d files') (hsub : ∀ file ∈ files, file ∈ files') : a.Separates d files :=
  fun file hfile file' hfile' => h file (hsub file hfile) file' (hsub file' hfile')

/-- What becomes of a file on a disk. -/
def outcome (e : Editset) (a : Application) (d : Disk) (file : String) : FileOutcome :=
  (a.applyFile d file (e.checksumsOf file) (e.editsOf file)).2

/-- The report on some files, each with its outcome on one disk. -/
def tally (e : Editset) (a : Application) (d : Disk) (files : List String) : ApplyReport :=
  files.foldl (fun r file => (e.outcome a d file).record file (e.editsOf file).length r)
    (noReport a)

/-! ### One file -/

section

variable {e : Editset} {a : Application} {d d' : Disk} {file : String}

theorem tally_append_singleton (files : List String) :
    e.tally a d (files ++ [file]) =
      (e.outcome a d file).record file (e.editsOf file).length (e.tally a d files) := by
  simp [tally, List.foldl_append]

theorem applyStep_report (r : ApplyReport) :
    (e.applyStep a (d, r) file).2 =
      (e.outcome a d file).record file (e.editsOf file).length r := rfl

/-- The outcome of a file that has a text: its references are asked first, and only then whether it
is to be written and can be. -/
theorem outcome_of_readText {text : String} (h : d.readText (a.root.join file) = .ok text) :
    e.outcome a d file =
      if (e.checksumsOf file).isEmpty then .unrecorded
      else if (e.checksumsOf file).any (· != checksum text) then .drifted
      else if a.dryRun then .computed
      else if a.blocked.contains (a.root.join file) then .failed DiskFault.full.message
      else .written := by
  obtain ⟨c, hread, -⟩ := Disk.readText_eq_ok_iff.1 h
  obtain ⟨place, hfind, hfile⟩ := Disk.read_eq_ok_iff.1 hread
  have hwrite (c' : Bytes) := Disk.write_of_file hfind hfile c'
  simp only [outcome, Application.applyFile, h, Application.write, Disk.writeText, hwrite]
  split_ifs <;> rfl

/-- A file that is read alike on two disks has the same outcome on both. -/
theorem outcome_congr (h : d'.readText (a.root.join file) = d.readText (a.root.join file)) :
    e.outcome a d' file = e.outcome a d file := by
  cases hread : d.readText (a.root.join file) with
  | ok text => rw [outcome_of_readText hread, outcome_of_readText (h.trans hread)]
  | error fault =>
      have hread' := h.trans hread
      simp only [outcome, Application.applyFile, hread, hread']
      split_ifs <;> rfl

theorem outcome_eq_written_iff :
    e.outcome a d file = .written ↔ ∃ text, e.Writes a d file text := by
  constructor
  · intro hout
    by_contra hnot
    exact (applyFile_of_not_writes (not_exists.1 hnot)).2 hout
  · rintro ⟨text, h⟩
    obtain ⟨place, c, -, -, happly⟩ := applyFile_of_writes h
    rw [outcome, happly]

/-- One reference with another checksum is enough for a file to have drifted. -/
theorem outcome_of_drift {text : String} (h : d.readText (a.root.join file) = .ok text)
    {r : Reference} (hr : r ∈ e.refs) (hf : r.file = file) (hc : r.checksum ≠ checksum text) :
    e.outcome a d file = .drifted := by
  have hmem : r.checksum ∈ e.checksumsOf file := mem_checksumsOf.2 ⟨r, hr, hf, rfl⟩
  have hrecorded : (e.checksumsOf file).isEmpty = false :=
    List.isEmpty_eq_false_iff_exists_mem.2 ⟨_, hmem⟩
  have hdiffers : (e.checksumsOf file).any (· != checksum text) = true :=
    List.any_eq_true.2 ⟨_, hmem, by simpa using hc⟩
  rw [outcome_of_readText h, hrecorded, hdiffers]
  rfl

theorem drift_record (file : String) (o : FileOutcome) (n : Nat) (r : ApplyReport) :
    ∃ new, (o.record file n r).drift = r.drift ++ new ∧
      (o = .drifted →
        new = [file ++ ": checksum mismatch" ++ (", skipping " ++ toString n ++ " edits")]) := by
  cases o <;> simp [FileOutcome.record]

/-- Every file that has drifted is reported. -/
theorem mem_drift_tally {files : List String} (hfile : file ∈ files)
    (hout : e.outcome a d file = .drifted) :
    file ++ ": checksum mismatch" ++
        (", skipping " ++ toString (e.editsOf file).length ++ " edits") ∈
      (e.tally a d files).drift := by
  induction files using List.reverseRecOn with
  | nil => cases hfile
  | append_singleton files g ih =>
      rw [tally_append_singleton]
      obtain ⟨new, hdrift, hnew⟩ :=
        drift_record g (e.outcome a d g) (e.editsOf g).length (e.tally a d files)
      rw [hdrift, List.mem_append]
      rcases List.mem_append.1 hfile with hfile | hfile
      · exact Or.inl (ih hfile)
      · obtain rfl := List.mem_singleton.1 hfile
        exact Or.inr (by simp [hnew hout])

/-- A file that is read alike on two disks is written on both or on neither. -/
theorem Writes.congr {text : String} (h : e.Writes a d file text)
    (hread : d'.readText (a.root.join file) = d.readText (a.root.join file)) :
    e.Writes a d' file text :=
  ⟨h.inEarnest, hread.trans h.readable, h.vouched, h.free⟩

end

/-! ### A run -/

/-- What is known after some of the files: those that the first disk lets be written hold their
edited texts, all other places are as they were, and each file has its outcome on the first disk. -/
structure Made (e : Editset) (a : Application) (d : Disk) (done : List String) : Prop where
  files : ∀ file ∈ done, ∀ text, e.Writes a d file text → ∀ place,
    d.find (a.root.join file) = .at place →
      (e.progress a d done).1.entryAt place = some (.file (e.edited file text))
  others : ∀ place,
    (∀ file ∈ done, ∀ text, e.Writes a d file text → d.find (a.root.join file) ≠ .at place) →
      (e.progress a d done).1.entryAt place = d.entryAt place
  report : (e.progress a d done).2 = e.tally a d done

section

variable {e : Editset} {a : Application} {d : Disk} {done : List String} {file : String}

/-- A file at another place than those made is read as at the start. -/
theorem Made.read_eq (h : e.Made a d done)
    (hapart : ∀ g ∈ done, ∀ text, e.Writes a d g text → ∀ place,
      d.find (a.root.join file) = .at place → d.find (a.root.join g) ≠ .at place) :
    (e.progress a d done).1.read (a.root.join file) = d.read (a.root.join file) :=
  Disk.read_congr (find_progress e a d done _) fun place hplace =>
    h.others place fun g hg text hw => hapart g hg text hw place hplace

/-- The next file. -/
theorem Made.append (h : e.Made a d done) (hsep : a.Separates d (done ++ [file]))
    (hnew : file ∉ done) : e.Made a d (done ++ [file]) := by
  have hother : ∀ g ∈ done, ∀ place, d.find (a.root.join file) = .at place →
      d.find (a.root.join g) ≠ .at place := by
    intro g hg place hplace hgplace
    have heq := hsep g (List.mem_append_left _ hg) file (by simp) place hgplace hplace
    exact hnew (heq ▸ hg)
  have hread : (e.progress a d done).1.readText (a.root.join file) =
      d.readText (a.root.join file) :=
    Disk.readText_congr (h.read_eq fun g hg _ _ => hother g hg)
  have hreport : (e.progress a d (done ++ [file])).2 = e.tally a d (done ++ [file]) := by
    rw [progress_append_singleton, tally_append_singleton, ← h.report, ← outcome_congr hread]
    exact applyStep_report _
  by_cases hw : ∃ text, e.Writes a d file text
  · obtain ⟨text, hw⟩ := hw
    obtain ⟨place, c, hfind, hfile, hdisk, -⟩ :=
      applyStep_of_writes (r := (e.progress a d done).2) (hw.congr hread)
    rw [find_progress] at hfind
    refine ⟨?_, ?_, hreport⟩
    · intro g hg text' hw' place' hplace'
      rw [progress_append_singleton, hdisk]
      rcases List.mem_append.1 hg with hg | hg
      · have hne : place' ≠ place := fun heq => hother g hg place hfind (heq ▸ hplace')
        rw [Disk.entryAt_put_of_ne _ hne]
        exact h.files g hg text' hw' place' hplace'
      · rw [List.mem_singleton.1 hg] at hw' hplace' ⊢
        rw [hfind] at hplace'
        cases hplace'
        have hsame : Except.ok text = Except.ok text' := hw.readable.symm.trans hw'.readable
        cases hsame
        exact Disk.entryAt_put_self _ (Disk.ne_top_of_file hfile) _
    · intro place' hnot
      have hne : place' ≠ place := fun heq => hnot file (by simp) text hw (heq ▸ hfind)
      rw [progress_append_singleton, hdisk, Disk.entryAt_put_of_ne _ hne]
      exact h.others place' fun g hg => hnot g (List.mem_append_left _ hg)
  · have hdisk : (e.progress a d (done ++ [file])).1 = (e.progress a d done).1 := by
      rw [progress_append_singleton]
      exact (applyStep_of_not_writes fun text hw' => hw ⟨text, hw'.congr hread.symm⟩).1
    refine ⟨?_, ?_, hreport⟩
    · intro g hg text' hw' place' hplace'
      rw [hdisk]
      rcases List.mem_append.1 hg with hg | hg
      · exact h.files g hg text' hw' place' hplace'
      · exact absurd ⟨text', List.mem_singleton.1 hg ▸ hw'⟩ hw
    · intro place' hnot
      rw [hdisk]
      exact h.others place' fun g hg => hnot g (List.mem_append_left _ hg)

/-- Files at different places, each made once. -/
theorem Made.all (hsep : a.Separates d done) (hnodup : done.Nodup) : e.Made a d done := by
  induction done using List.reverseRecOn with
  | nil => exact ⟨by simp, fun _ _ => rfl, rfl⟩
  | append_singleton done file ih =>
      obtain ⟨hdone, -, hnew⟩ := List.nodup_append.1 hnodup
      refine Made.append (ih ?_ hdone) hsep fun hmem => hnew file hmem file (by simp) rfl
      exact hsep.mono fun g hg => List.mem_append_left _ hg

/-- A whole run of files at different places. -/
theorem made_apply (hsep : a.Separates d e.editFiles) : e.Made a d e.editFiles :=
  Made.all hsep (nodup_distinct _)

/-- A file that the first disk lets be written is read with its edits made. -/
theorem readText_apply_of_writes (hsep : a.Separates d e.editFiles) (hfile : file ∈ e.editFiles)
    {text : String} (hw : e.Writes a d file text) :
    (e.apply a d).1.readText (a.root.join file) = .ok (applyEdits text (e.editsOf file)) := by
  obtain ⟨place, c, hfind, -⟩ := applyFile_of_writes hw
  refine Disk.readText_of_file place ?_ ((made_apply hsep).files file hfile text hw place hfind)
  rw [apply_eq_progress, find_progress, hfind]

/-- A file apart from the others that has no edits, or that the first disk does not let be written,
is read as it was. -/
theorem read_apply_of_not_writes {files : List String} (hsep : a.Separates d files)
    (hedited : ∀ g ∈ e.editFiles, g ∈ files) (hfile : file ∈ files)
    (hnot : file ∈ e.editFiles → ∀ text, ¬ e.Writes a d file text) :
    (e.apply a d).1.read (a.root.join file) = d.read (a.root.join file) := by
  refine (made_apply (hsep.mono hedited)).read_eq fun g hg text hw place hplace hgplace => ?_
  obtain rfl := hsep g (hedited g hg) file hfile place hgplace hplace
  exact hnot hg text hw

end

end Editset

end Redline
