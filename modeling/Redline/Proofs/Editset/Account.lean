import Redline.Proofs.Editset.Twice

/-!
# The report of a run accounts for every edit

Every file of a run has one of three fates: its edits were made, it was skipped because it drifted,
or it failed to be read or written. `Accounts` says of a report that it is nothing but the fates of
some files: each list has an entry for every file with its fate, in order, and each number counts
the edits of these files. One more file keeps that, so it holds of a whole run.

When the files are at different places and no write fails, the disk at the start gives each file
the same fate in earnest as in a dry run, so the two reports differ in what was written only.
-/

namespace Redline

namespace Editset

/-- What happens to a file of a run. -/
inductive Fate where
  | completed
  | drifted
  | failed
  deriving DecidableEq, Repr

/-- The fate that an outcome means. -/
def FileOutcome.fate : FileOutcome → Fate
  | .unrecorded | .drifted => .drifted
  | .failed _ => .failed
  | .computed | .written => .completed

/-- The entry of a file with `count` edits in the list of its fate. -/
def FileOutcome.entry (o : FileOutcome) (file : String) (count : Nat) : String :=
  let skipping := ", skipping " ++ toString count ++ " edits"
  match o with
  | .unrecorded => file ++ ": no recorded checksum" ++ skipping
  | .drifted => file ++ ": checksum mismatch" ++ skipping
  | .failed reason => file ++ ": " ++ reason
  | .computed | .written => file

/-- The outcome of a file on the disk that the files before it left. -/
def outcomeInTurn (e : Editset) (a : Application) (d : Disk) (file : String) : FileOutcome :=
  e.outcome a (e.progress a d (e.editFiles.takeWhile (· != file))).1 file

/-- The files with a fate, given what became of each. -/
def withFate (became : String → FileOutcome) (fate : Fate) (files : List String) : List String :=
  files.filter fun file => (became file).fate = fate

/-- The number of edits of some files. -/
def countEdits (e : Editset) (files : List String) : Nat :=
  (files.flatMap e.editsOf).length

/-- The entries of some files. -/
def entries (e : Editset) (became : String → FileOutcome) (files : List String) : List String :=
  files.map fun file => (became file).entry file (e.editsOf file).length

/-- A report is that of some files, given what became of each. -/
structure Accounts (e : Editset) (a : Application) (became : String → FileOutcome)
    (files : List String) (r : ApplyReport) : Prop where
  applied : r.applied = e.countEdits (withFate became .completed files)
  skipped : r.skipped = e.countEdits (withFate became .drifted files)
  errors : r.errors = e.countEdits (withFate became .failed files)
  drift : r.drift = e.entries became (withFate became .drifted files)
  errorDetails : r.errorDetails = e.entries became (withFate became .failed files)
  written :
    r.written = if a.dryRun then [] else e.entries became (withFate became .completed files)
  dryRun : r.dryRun = a.dryRun

section

variable {e : Editset} {a : Application} {d : Disk} {became : String → FileOutcome}
  {files : List String} {file : String} {r : ApplyReport}

/-! ### One file -/

theorem outcome_ne_written (ha : a.dryRun = true) : e.outcome a d file ≠ .written := by
  rw [Ne, outcome_eq_written_iff]
  rintro ⟨text, hw⟩
  rw [hw.inEarnest] at ha
  cases ha

theorem outcome_ne_computed (ha : a.dryRun = false) : e.outcome a d file ≠ .computed := by
  cases hread : d.readText (a.root.join file) with
  | error fault =>
      simp only [outcome, Application.applyFile, hread]
      split_ifs <;> simp
  | ok text =>
      rw [outcome_of_readText hread, if_neg (by simp [ha] : ¬ a.dryRun = true)]
      split_ifs <;> simp

/-- A file adds to the number and to the list of its fate, and nothing else. -/
theorem record_eq (o : FileOutcome) (file : String) (count : Nat) (r : ApplyReport) :
    o.record file count r =
      { applied := r.applied + if o.fate = .completed then count else 0
        skipped := r.skipped + if o.fate = .drifted then count else 0
        errors := r.errors + if o.fate = .failed then count else 0
        drift := r.drift ++ if o.fate = .drifted then [o.entry file count] else []
        errorDetails := r.errorDetails ++ if o.fate = .failed then [o.entry file count] else []
        written := r.written ++ if o = .written then [file] else []
        dryRun := r.dryRun } := by
  cases o <;> simp [FileOutcome.record, FileOutcome.fate, FileOutcome.entry]

theorem withFate_append_singleton (fate : Fate) :
    withFate became fate (files ++ [file]) =
      withFate became fate files ++ if (became file).fate = fate then [file] else [] := by
  rw [withFate, withFate, List.filter_append, List.filter_cons, List.filter_nil]
  simp only [decide_eq_true_eq]

theorem countEdits_append_ite (files : List String) (p : Prop) [Decidable p] :
    e.countEdits (files ++ if p then [file] else []) =
      e.countEdits files + if p then (e.editsOf file).length else 0 := by
  split_ifs <;> simp [countEdits]

theorem entries_append_ite (files : List String) (p : Prop) [Decidable p] :
    e.entries became (files ++ if p then [file] else []) =
      e.entries became files ++
        if p then [(became file).entry file (e.editsOf file).length] else [] := by
  split_ifs <;> simp [entries]

/-- The next file. -/
theorem Accounts.append (h : e.Accounts a became files r)
    (hdry : a.dryRun = true → became file ≠ .written)
    (hearnest : a.dryRun = false → became file ≠ .computed) :
    e.Accounts a became (files ++ [file])
      ((became file).record file (e.editsOf file).length r) := by
  rw [record_eq]
  constructor
  all_goals simp only [withFate_append_singleton, countEdits_append_ite, entries_append_ite]
  · rw [h.applied]
  · rw [h.skipped]
  · rw [h.errors]
  · rw [h.drift]
  · rw [h.errorDetails]
  · rw [h.written]
    cases ha : a.dryRun with
    | true => simp [hdry ha]
    | false =>
        have hnot := hearnest ha
        cases hb : became file <;> simp_all [FileOutcome.fate, FileOutcome.entry]
  · exact h.dryRun

/-! ### A whole run -/

/-- Every file has one fate. -/
theorem withFate_perm (became : String → FileOutcome) (files : List String) :
    (withFate became .completed files ++ withFate became .drifted files ++
      withFate became .failed files).Perm files := by
  induction files with
  | nil => exact .nil
  | cons file files ih =>
      have hcons (fate : Fate) : withFate became fate (file :: files) =
          if (became file).fate = fate then file :: withFate became fate files
          else withFate became fate files := by simp [withFate, List.filter_cons]
      rw [hcons, hcons, hcons]
      cases (became file).fate with
      | completed => exact ih.cons file
      | drifted =>
          rw [if_neg nofun, if_pos rfl, if_neg nofun, List.append_assoc, List.cons_append]
          exact List.perm_middle.trans ((List.append_assoc .. ▸ ih).cons file)
      | failed =>
          rw [if_neg nofun, if_neg nofun, if_pos rfl]
          exact List.perm_middle.trans (ih.cons file)

theorem outcomeInTurn_of_split {done rest : List String}
    (h : e.editFiles = done ++ file :: rest) :
    e.outcomeInTurn a d file = e.outcome a (e.progress a d done).1 file := by
  have hnodup : (done ++ file :: rest).Nodup := h ▸ nodup_distinct _
  have hdone : ∀ g ∈ done, (g != file) = true := fun g hg =>
    bne_iff_ne.2 ((List.nodup_append.1 hnodup).2.2 g hg file (by simp))
  rw [outcomeInTurn, h, List.takeWhile_append_of_pos hdone, List.takeWhile_cons]
  simp

theorem accounts_progress {done rest : List String} (h : e.editFiles = done ++ rest) :
    e.Accounts a (e.outcomeInTurn a d) done (e.progress a d done).2 := by
  induction done using List.reverseRecOn generalizing rest with
  | nil => exact ⟨rfl, rfl, rfl, rfl, rfl, (ite_self _).symm, rfl⟩
  | append_singleton done file ih =>
      rw [List.append_assoc, List.singleton_append] at h
      have hturn := outcomeInTurn_of_split (a := a) (d := d) h
      rw [progress_append_singleton, applyStep_report, ← hturn]
      refine (ih h).append (fun ha => ?_) fun ha => ?_
      · exact hturn ▸ outcome_ne_written ha
      · exact hturn ▸ outcome_ne_computed ha

theorem accounts_apply (e : Editset) (a : Application) (d : Disk) :
    e.Accounts a (e.outcomeInTurn a d) e.editFiles (e.apply a d).2 :=
  accounts_progress (List.append_nil _).symm

theorem Accounts.sum_eq (h : e.Accounts a became e.editFiles r) :
    r.applied + r.skipped + r.errors = e.edits.length := by
  have hperm := ((withFate_perm became e.editFiles).flatMap_right e.editsOf).length_eq
  rw [List.flatMap_append, List.flatMap_append, List.length_append, List.length_append,
    length_flatMap_editsOf] at hperm
  rw [h.applied, h.skipped, h.errors]
  exact hperm

/-- The same fates and entries make the same report. -/
theorem Accounts.eq_of_dryRun {became' : String → FileOutcome} {r' : ApplyReport}
    (h : e.Accounts { a with dryRun := true } became files r)
    (h' : e.Accounts { a with dryRun := false } became' files r')
    (hsame : ∀ file ∈ files, (became file).fate = (became' file).fate ∧
      ∀ count, (became file).entry file count = (became' file).entry file count) :
    r = { r' with written := [], dryRun := true } := by
  have hfate (fate : Fate) : withFate became fate files = withFate became' fate files :=
    List.filter_congr fun file hfile => by rw [(hsame file hfile).1]
  have hentries (fate : Fate) : e.entries became (withFate became fate files) =
      e.entries became' (withFate became' fate files) := by
    rw [hfate]
    exact List.map_congr_left fun file hfile =>
      (hsame file (List.mem_filter.1 hfile).1).2 _
  cases r
  cases r'
  simp only [ApplyReport.mk.injEq]
  refine ⟨?_, ?_, ?_, ?_, ?_, h.written, h.dryRun⟩
  · exact h.applied.trans (hfate _ ▸ h'.applied.symm)
  · exact h.skipped.trans (hfate _ ▸ h'.skipped.symm)
  · exact h.errors.trans (hfate _ ▸ h'.errors.symm)
  · exact h.drift.trans ((hentries _).trans h'.drift.symm)
  · exact h.errorDetails.trans ((hentries _).trans h'.errorDetails.symm)

/-! ### A dry run and a run in earnest -/

/-- No write of a run fails: a file that is vouched for when it is its turn is not blocked. -/
def WritesSucceed (e : Editset) (a : Application) (d : Disk) : Prop :=
  ∀ done file rest text, e.editFiles = done ++ file :: rest →
    (e.progress a d done).1.readText (a.root.join file) = .ok text → e.Vouches file text →
      a.root.join file ∉ a.blocked

/-- Where the files are at different places, each is read in its turn as at the start. -/
theorem readText_inTurn (hsep : a.Separates d e.editFiles) {done rest : List String}
    (h : e.editFiles = done ++ file :: rest) :
    (e.progress a d done).1.readText (a.root.join file) = d.readText (a.root.join file) := by
  have hnodup : (done ++ file :: rest).Nodup := h ▸ nodup_distinct _
  obtain ⟨hdone, -, hnew⟩ := List.nodup_append.1 hnodup
  rw [h] at hsep
  have hmade : e.Made a d done :=
    Made.all (hsep.mono fun g hg => List.mem_append_left _ hg) hdone
  refine Disk.readText_congr (hmade.read_eq fun g hg text hw place hplace hgplace => ?_)
  exact hnew g hg file (by simp)
    (hsep g (List.mem_append_left _ hg) file (by simp) place hgplace hplace)

theorem outcomeInTurn_of_separates (hsep : a.Separates d e.editFiles)
    (hfile : file ∈ e.editFiles) : e.outcomeInTurn a d file = e.outcome a d file := by
  obtain ⟨done, rest, hsplit⟩ := List.append_of_mem hfile
  rw [outcomeInTurn_of_split hsplit, outcome_congr (readText_inTurn hsep hsplit)]

/-- A file that could be written has the same fate and the same entry in a dry run. -/
theorem outcome_dryRun (hfree : ∀ text, d.readText (a.root.join file) = .ok text →
      e.Vouches file text → a.root.join file ∉ a.blocked) :
    (e.outcome { a with dryRun := true } d file).fate =
        (e.outcome { a with dryRun := false } d file).fate ∧
      ∀ count, (e.outcome { a with dryRun := true } d file).entry file count =
        (e.outcome { a with dryRun := false } d file).entry file count := by
  cases hread : d.readText (a.root.join file) with
  | error fault => simp [outcome, Application.applyFile, hread]
  | ok text =>
      rw [outcome_of_readText (a := { a with dryRun := true }) hread,
        outcome_of_readText (a := { a with dryRun := false }) hread]
      cases hrecorded : (e.checksumsOf file).isEmpty with
      | true => exact ⟨rfl, fun _ => rfl⟩
      | false =>
          cases hdiffers : (e.checksumsOf file).any (· != checksum text) with
          | true => exact ⟨rfl, fun _ => rfl⟩
          | false =>
              have hnot := hfree text hread (vouches_iff.2 ⟨hrecorded, hdiffers⟩)
              rw [List.contains_eq_mem, decide_eq_false hnot]
              exact ⟨rfl, fun _ => rfl⟩

end

/-- The report of a run is made up of the fates of its files: each file with edits has one, and by
it stands in one of the lists, in the order of the files, and has its edits counted once. If the
files are at different places and no write fails, then a dry run reports the same, except that it
lists nothing as written. -/
theorem apply_accounts_for_edits (e : Editset) (a : Application) (d : Disk) :
    (e.apply a d).2.applied + (e.apply a d).2.skipped + (e.apply a d).2.errors =
      e.edits.length ∧
    e.editFiles.Nodup ∧
    (withFate (e.outcomeInTurn a d) .completed e.editFiles ++
      withFate (e.outcomeInTurn a d) .drifted e.editFiles ++
      withFate (e.outcomeInTurn a d) .failed e.editFiles).Perm e.editFiles ∧
    e.Accounts a (e.outcomeInTurn a d) e.editFiles (e.apply a d).2 ∧
    (a.Separates d e.editFiles → e.WritesSucceed { a with dryRun := false } d →
      (e.apply { a with dryRun := true } d).2 =
        { (e.apply { a with dryRun := false } d).2 with written := [], dryRun := true }) := by
  refine ⟨(accounts_apply e a d).sum_eq, nodup_distinct _, withFate_perm _ _,
    accounts_apply e a d, fun hsep hsucceed => ?_⟩
  refine (accounts_apply e _ d).eq_of_dryRun (accounts_apply e _ d) fun file hfile => ?_
  obtain ⟨done, rest, hsplit⟩ := List.append_of_mem hfile
  rw [outcomeInTurn_of_separates (a := { a with dryRun := true }) hsep hfile,
    outcomeInTurn_of_separates (a := { a with dryRun := false }) hsep hfile]
  refine outcome_dryRun fun text hread => hsucceed done file rest text hsplit ?_
  rwa [readText_inTurn (a := { a with dryRun := false }) hsep hsplit]

/-- Of three files one is written, one has drifted and one changes nothing; a dry run tells it. -/
theorem dryRun_predicts_threeFiles :
    inEarnest.Separates threeFiles editThree.editFiles ∧
    editThree.WritesSucceed { inEarnest with dryRun := false } threeFiles ∧
    (editThree.apply { inEarnest with dryRun := true } threeFiles).2 =
      { (editThree.apply inEarnest threeFiles).2 with written := [], dryRun := true } := by
  have hsucceed : editThree.WritesSucceed { inEarnest with dryRun := false } threeFiles :=
    fun _ _ _ _ _ _ _ => List.not_mem_nil
  exact ⟨separates_threeFiles, hsucceed,
    (apply_accounts_for_edits editThree inEarnest threeFiles).2.2.2.2 separates_threeFiles
      hsucceed⟩

end Editset

end Redline
