import Mathlib.Data.List.Induction
import Mathlib.Tactic.Common
import Redline.Editset.Apply
import Redline.Proofs.Disk.Frame
import Redline.Proofs.Distinct

/-!
# Applying an editset never overwrites a changed file

`Editset.progress` is the disk and the report after some of the files. What one file does to them is
said once: either `Writes` holds at that moment, and one place gets the text with the edits made, or
the disk and the list of written files stay as they are. Without a dry run the second case is
`Refuses`, with the reason. A run only replaces the contents of files, so every path leads to the
same place all along; from this the frame of a run follows by induction on its files.
-/

namespace Redline

namespace Editset

/-- The report before the first file. -/
def noReport (a : Application) : ApplyReport :=
  { applied := 0, skipped := 0, errors := 0, drift := [], errorDetails := [], written := []
    dryRun := a.dryRun }

/-- The disk and the report after the files in `done`. -/
def progress (e : Editset) (a : Application) (d : Disk) (done : List String) :
    Disk × ApplyReport :=
  done.foldl (e.applyStep a) (d, noReport a)

theorem apply_eq_progress (e : Editset) (a : Application) (d : Disk) :
    e.apply a d = e.progress a d e.editFiles := rfl

theorem progress_append_singleton (e : Editset) (a : Application) (d : Disk) (done : List String)
    (file : String) :
    e.progress a d (done ++ [file]) = e.applyStep a (e.progress a d done) file := by
  simp [progress, List.foldl_append]

/-- Every reference of a file, of which there is at least one, recorded the checksum of a text. -/
structure Vouches (e : Editset) (file text : String) : Prop where
  recorded : ∃ r ∈ e.refs, r.file = file
  agreed : ∀ r ∈ e.refs, r.file = file → r.checksum = checksum text

/-- A file with a text gets written. -/
structure Writes (e : Editset) (a : Application) (d : Disk) (file text : String) : Prop where
  inEarnest : a.dryRun = false
  readable : d.readText (a.root.join file) = .ok text
  vouched : e.Vouches file text
  free : a.root.join file ∉ a.blocked

/-- Why a file does not get written. -/
inductive Refuses (e : Editset) (a : Application) (d : Disk) (file : String) : Prop where
  | unrecorded (h : ∀ r ∈ e.refs, r.file ≠ file)
  | unreadable (fault : Disk.SourceFault) (h : d.readText (a.root.join file) = .error fault)
  | drifted (text : String) (h : d.readText (a.root.join file) = .ok text) (r : Reference)
      (hr : r ∈ e.refs) (hf : r.file = file) (hc : r.checksum ≠ checksum text)
  | blocked (h : a.root.join file ∈ a.blocked)

theorem mem_checksumsOf {e : Editset} {file c : String} :
    c ∈ e.checksumsOf file ↔ ∃ r ∈ e.refs, r.file = file ∧ r.checksum = c := by
  simp [checksumsOf, and_assoc]

theorem vouches_iff {e : Editset} {file text : String} :
    e.Vouches file text ↔
      (e.checksumsOf file).isEmpty = false ∧
        (e.checksumsOf file).any (· != checksum text) = false := by
  constructor
  · rintro ⟨⟨r, hr, hf⟩, hall⟩
    constructor
    · rw [List.isEmpty_eq_false_iff_exists_mem]
      exact ⟨r.checksum, mem_checksumsOf.2 ⟨r, hr, hf, rfl⟩⟩
    · rw [List.any_eq_false]
      intro c hc
      obtain ⟨r', hr', hf', rfl⟩ := mem_checksumsOf.1 hc
      simp [hall r' hr' hf']
  · rintro ⟨hne, hany⟩
    constructor
    · obtain ⟨c, hc⟩ := List.isEmpty_eq_false_iff_exists_mem.1 hne
      obtain ⟨r, hr, hf, -⟩ := mem_checksumsOf.1 hc
      exact ⟨r, hr, hf⟩
    · intro r hr hf
      have h := List.any_eq_false.1 hany r.checksum (mem_checksumsOf.2 ⟨r, hr, hf, rfl⟩)
      simpa using h

/-- In earnest, a file is written or there is a reason why not. -/
theorem writes_or_refuses (e : Editset) (a : Application) (d : Disk) (file : String)
    (ha : a.dryRun = false) : (∃ text, e.Writes a d file text) ∨ e.Refuses a d file := by
  by_cases hrec : ∃ r ∈ e.refs, r.file = file
  · cases hread : d.readText (a.root.join file) with
    | error fault => exact Or.inr (.unreadable fault hread)
    | ok text =>
        by_cases hall : ∀ r ∈ e.refs, r.file = file → r.checksum = checksum text
        · by_cases hb : a.root.join file ∈ a.blocked
          · exact Or.inr (.blocked hb)
          · exact Or.inl ⟨text, ha, hread, ⟨hrec, hall⟩, hb⟩
        · simp only [not_forall] at hall
          obtain ⟨r, hr, hf, hc⟩ := hall
          exact Or.inr (.drifted text hread r hr hf hc)
  · exact Or.inr (.unrecorded fun r hr hf => hrec ⟨r, hr, hf⟩)

theorem Refuses.not_writes {e : Editset} {a : Application} {d : Disk} {file : String}
    (h : e.Refuses a d file) (text : String) : ¬ e.Writes a d file text := by
  rintro ⟨-, hread, ⟨⟨r, hr, hf⟩, hall⟩, hfree⟩
  cases h with
  | unrecorded h => exact h r hr hf
  | unreadable fault h => rw [hread] at h; cases h
  | drifted text' h r' hr' hf' hc =>
      rw [hread] at h
      cases h
      exact hc (hall r' hr' hf')
  | blocked h => exact hfree h

/-! ### One file -/

section

variable {e : Editset} {a : Application} {d : Disk} {file : String}

/-- The octets that a file with a text gets. -/
def edited (e : Editset) (file text : String) : Bytes :=
  Text.Utf8.encode (applyEdits text (e.editsOf file))

theorem applyFile_of_writes {text : String} (h : e.Writes a d file text) :
    ∃ place c, d.find (a.root.join file) = .at place ∧ d.entryAt place = some (.file c) ∧
      a.applyFile d file (e.checksumsOf file) (e.editsOf file) =
        (d.put place (.file (e.edited file text)), .written) := by
  obtain ⟨c, hread, -⟩ := Disk.readText_eq_ok_iff.1 h.readable
  obtain ⟨place, hfind, hfile⟩ := Disk.read_eq_ok_iff.1 hread
  obtain ⟨hne, hany⟩ := vouches_iff.1 h.vouched
  have hwrite : a.write d (a.root.join file) (applyEdits text (e.editsOf file)) =
      .ok (d.put place (.file (e.edited file text))) := by
    rw [Application.write, List.contains_eq_mem, decide_eq_false h.free]
    exact Disk.write_of_file hfind hfile _
  refine ⟨place, c, hfind, hfile, ?_⟩
  simp only [Application.applyFile, hne, h.readable, hany, h.inEarnest, hwrite]
  rfl

theorem applyFile_of_not_writes (h : ∀ text, ¬ e.Writes a d file text) :
    (a.applyFile d file (e.checksumsOf file) (e.editsOf file)).1 = d ∧
      (a.applyFile d file (e.checksumsOf file) (e.editsOf file)).2 ≠ .written := by
  unfold Application.applyFile
  by_cases hne : (e.checksumsOf file).isEmpty
  · simp [hne]
  · rw [if_neg hne]
    cases hread : d.readText (a.root.join file) with
    | error fault => simp
    | ok text =>
        simp only
        by_cases hany : (e.checksumsOf file).any (· != checksum text)
        · simp [hany]
        · rw [if_neg hany]
          by_cases hdry : a.dryRun
          · simp [hdry]
          · rw [if_neg hdry]
            have hv : e.Vouches file text :=
              vouches_iff.2 ⟨Bool.of_not_eq_true hne, Bool.of_not_eq_true hany⟩
            have hb : a.root.join file ∈ a.blocked := by
              by_contra hb
              exact h text ⟨Bool.of_not_eq_true hdry, hread, hv, hb⟩
            rw [Application.write, List.contains_eq_mem, decide_eq_true hb]
            simp

theorem written_record (o : FileOutcome) (n : Nat) (r : ApplyReport) :
    (o.record file n r).written = if o = .written then r.written ++ [file] else r.written := by
  cases o <;> simp [FileOutcome.record]

theorem applyStep_of_writes {r : ApplyReport} {text : String} (h : e.Writes a d file text) :
    ∃ place c, d.find (a.root.join file) = .at place ∧ d.entryAt place = some (.file c) ∧
      (e.applyStep a (d, r) file).1 = d.put place (.file (e.edited file text)) ∧
      (e.applyStep a (d, r) file).2.written = r.written ++ [file] := by
  obtain ⟨place, c, hfind, hfile, happly⟩ := applyFile_of_writes h
  refine ⟨place, c, hfind, hfile, ?_⟩
  simp [applyStep, happly, written_record]

theorem applyStep_of_not_writes {r : ApplyReport} (h : ∀ text, ¬ e.Writes a d file text) :
    (e.applyStep a (d, r) file).1 = d ∧ (e.applyStep a (d, r) file).2.written = r.written := by
  obtain ⟨hdisk, hout⟩ := applyFile_of_not_writes h
  simp [applyStep, hdisk, written_record, hout]

/-- One file leaves all directories and all places of files as they are. -/
theorem alike_applyStep (e : Editset) (a : Application) (s : Disk × ApplyReport) (file : String) :
    s.1.Alike (e.applyStep a s file).1 := by
  obtain ⟨d, r⟩ := s
  by_cases h : ∃ text, e.Writes a d file text
  · obtain ⟨text, h⟩ := h
    obtain ⟨place, c, -, hfile, hdisk, -⟩ := applyStep_of_writes (r := r) h
    rw [hdisk]
    exact Disk.alike_put_file hfile _
  · obtain ⟨hdisk, -⟩ := applyStep_of_not_writes (r := r) (not_exists.1 h)
    rw [hdisk]
    exact Disk.Alike.refl d

end

/-! ### A whole run -/

section

variable (e : Editset) (a : Application) (d : Disk)

theorem alike_progress (done : List String) : d.Alike (e.progress a d done).1 := by
  induction done using List.reverseRecOn with
  | nil => exact Disk.Alike.refl d
  | append_singleton done file ih =>
      rw [progress_append_singleton]
      exact ih.trans (alike_applyStep e a _ file)

/-- Every path leads all along to where it led at the start. -/
theorem find_progress (done : List String) (p : Path) :
    (e.progress a d done).1.find p = d.find p :=
  (alike_progress e a d done).find_eq p

theorem progress_of_dryRun (ha : a.dryRun = true) (done : List String) :
    (e.progress a d done).1 = d := by
  induction done using List.reverseRecOn with
  | nil => rfl
  | append_singleton done file ih =>
      have hnot : ∀ text, ¬ e.Writes a (e.progress a d done).1 file text := by
        intro text h
        rw [h.inEarnest] at ha
        cases ha
      rw [progress_append_singleton, (applyStep_of_not_writes hnot).1, ih]

/-- Files after those in `done` are written after them, and only they. -/
theorem written_progress_append (done rest : List String) :
    ∃ new, (∀ file ∈ new, file ∈ rest) ∧
      (e.progress a d (done ++ rest)).2.written = (e.progress a d done).2.written ++ new := by
  induction rest using List.reverseRecOn with
  | nil => exact ⟨[], by simp⟩
  | append_singleton rest file ih =>
      obtain ⟨new, hnew, hwritten⟩ := ih
      rw [← List.append_assoc, progress_append_singleton]
      by_cases h : ∃ text, e.Writes a (e.progress a d (done ++ rest)).1 file text
      · obtain ⟨text, h⟩ := h
        obtain ⟨-, -, -, -, -, hstep⟩ :=
          applyStep_of_writes (r := (e.progress a d (done ++ rest)).2) h
        refine ⟨new ++ [file], ?_, ?_⟩
        · intro g hg
          rcases List.mem_append.1 hg with hg | hg
          · exact List.mem_append_left _ (hnew g hg)
          · exact List.mem_append_right _ hg
        · rw [hstep, hwritten, List.append_assoc]
      · obtain ⟨-, hstep⟩ :=
          applyStep_of_not_writes (r := (e.progress a d (done ++ rest)).2) (not_exists.1 h)
        exact ⟨new, fun g hg => List.mem_append_left _ (hnew g hg), hstep.trans hwritten⟩

/-- A place that changes while some files are made belongs to one of them that is written. -/
theorem exists_written_of_entryAt_ne (done rest : List String) {place : List String}
    (h : (e.progress a d (done ++ rest)).1.entryAt place ≠
      (e.progress a d done).1.entryAt place) :
    ∃ file ∈ rest, file ∈ (e.progress a d (done ++ rest)).2.written ∧
      d.find (a.root.join file) = .at place := by
  induction rest using List.reverseRecOn with
  | nil => exact absurd (by simp) h
  | append_singleton rest file ih =>
      rw [← List.append_assoc, progress_append_singleton] at h ⊢
      by_cases hw : ∃ text, e.Writes a (e.progress a d (done ++ rest)).1 file text
      · obtain ⟨text, hw⟩ := hw
        obtain ⟨place', c, hfind, -, hdisk, hwritten⟩ :=
          applyStep_of_writes (r := (e.progress a d (done ++ rest)).2) hw
        rw [hwritten]
        by_cases hp : place = place'
        · rw [find_progress] at hfind
          exact ⟨file, by simp, by simp, hp ▸ hfind⟩
        · rw [hdisk, Disk.entryAt_put_of_ne _ hp] at h
          obtain ⟨g, hg, hgw, hgp⟩ := ih h
          exact ⟨g, List.mem_append_left _ hg, List.mem_append_left _ hgw, hgp⟩
      · obtain ⟨hdisk, hwritten⟩ :=
          applyStep_of_not_writes (r := (e.progress a d (done ++ rest)).2) (not_exists.1 hw)
        rw [hdisk] at h
        rw [hwritten]
        obtain ⟨g, hg, hgw, hgp⟩ := ih h
        exact ⟨g, List.mem_append_left _ hg, hgw, hgp⟩

/-- Whether a file is written is decided at the moment it is its turn, whatever became of the
others. -/
theorem mem_written_iff {done rest : List String} {file : String}
    (h : e.editFiles = done ++ file :: rest) :
    file ∈ (e.apply a d).2.written ↔
      ∃ text, e.Writes a (e.progress a d done).1 file text := by
  have hnodup : (done ++ file :: rest).Nodup := h ▸ nodup_distinct _
  have hdone : file ∉ (e.progress a d done).2.written := by
    obtain ⟨new, hnew, hwritten⟩ := written_progress_append e a d [] done
    rw [List.nil_append] at hwritten
    rw [hwritten]
    intro hmem
    have hmem' : file ∈ done := hnew file (by simpa [progress, noReport] using hmem)
    exact (List.nodup_append.1 hnodup).2.2 file hmem' file (by simp) rfl
  have hrest : file ∉ rest := (List.nodup_cons.1 (List.nodup_append.1 hnodup).2.1).1
  obtain ⟨new, hnew, hwritten⟩ := written_progress_append e a d (done ++ [file]) rest
  have hlast : file ∈ (e.apply a d).2.written ↔
      file ∈ (e.progress a d (done ++ [file])).2.written := by
    rw [apply_eq_progress, h, List.append_cons, hwritten, List.mem_append]
    exact or_iff_left fun hmem => hrest (hnew file hmem)
  rw [hlast, progress_append_singleton]
  constructor
  · intro hmem
    by_contra hnot
    obtain ⟨-, hstep⟩ :=
      applyStep_of_not_writes (r := (e.progress a d done).2) (not_exists.1 hnot)
    exact hdone (hstep ▸ hmem)
  · rintro ⟨text, hw⟩
    obtain ⟨-, -, -, -, -, hstep⟩ := applyStep_of_writes (r := (e.progress a d done).2) hw
    rw [hstep]
    simp

end

/-- What applying an editset does to a disk. A dry run changes nothing. Otherwise a place changes
only if a written file leads to it. A written file had, when it was its turn, a text whose checksum
every one of its references recorded, and got that text with its edits made, which stays unless a
later written file leads to the same place. A file that is refused leaves the disk as it is, and
every other file is written. -/
theorem apply_writes_only_vouched_texts (e : Editset) (a : Application) (d : Disk) :
    (a.dryRun = true → (e.apply a d).1 = d) ∧
    (∀ place, (e.apply a d).1.entryAt place ≠ d.entryAt place →
      ∃ file ∈ (e.apply a d).2.written, d.find (a.root.join file) = .at place) ∧
    (∀ file ∈ (e.apply a d).2.written, ∃ done rest text place,
      e.editFiles = done ++ file :: rest ∧
      (e.progress a d done).1.readText (a.root.join file) = .ok text ∧
      e.Vouches file text ∧
      d.find (a.root.join file) = .at place ∧
      (e.progress a d (done ++ [file])).1 =
        (e.progress a d done).1.put place
          (.file (Text.Utf8.encode (applyEdits text (e.edits.filter (·.file == file))))) ∧
      ((∀ g ∈ rest, g ∈ (e.apply a d).2.written → d.find (a.root.join g) ≠ .at place) →
        (e.apply a d).1.entryAt place =
          some (.file (Text.Utf8.encode
            (applyEdits text (e.edits.filter (·.file == file))))))) ∧
    (∀ done file rest, e.editFiles = done ++ file :: rest →
      (e.Refuses a (e.progress a d done).1 file →
        (e.progress a d (done ++ [file])).1 = (e.progress a d done).1 ∧
        file ∉ (e.apply a d).2.written) ∧
      (a.dryRun = false → ¬ e.Refuses a (e.progress a d done).1 file →
        file ∈ (e.apply a d).2.written)) := by
  refine ⟨?_, ?_, ?_, ?_⟩
  · intro ha
    exact progress_of_dryRun e a d ha e.editFiles
  · intro place hplace
    obtain ⟨file, -, hwritten, hfind⟩ := exists_written_of_entryAt_ne e a d [] e.editFiles hplace
    exact ⟨file, hwritten, hfind⟩
  · intro file hfile
    obtain ⟨new, hnew, hwritten⟩ := written_progress_append e a d [] e.editFiles
    have hmem : file ∈ e.editFiles := by
      refine hnew file ?_
      rw [apply_eq_progress, ← List.nil_append e.editFiles, hwritten] at hfile
      simpa [progress, noReport] using hfile
    obtain ⟨done, rest, hsplit⟩ := List.append_of_mem hmem
    obtain ⟨text, hw⟩ := (mem_written_iff e a d hsplit).1 hfile
    obtain ⟨place, c, hfind, hcontent, hdisk, -⟩ :=
      applyStep_of_writes (r := (e.progress a d done).2) hw
    refine ⟨done, rest, text, place, hsplit, hw.readable, hw.vouched, ?_, ?_, ?_⟩
    · rwa [find_progress] at hfind
    · rw [progress_append_singleton, hdisk]
      rfl
    · intro hlater
      have hkept : (e.apply a d).1.entryAt place =
          (e.progress a d (done ++ [file])).1.entryAt place := by
        by_contra hne
        rw [apply_eq_progress, hsplit, List.append_cons] at hne hlater
        obtain ⟨g, hg, hgw, hgp⟩ := exists_written_of_entryAt_ne e a d (done ++ [file]) rest hne
        exact hlater g hg hgw hgp
      rw [hkept, progress_append_singleton, hdisk]
      exact Disk.entryAt_put_self _ (Disk.ne_top_of_file hcontent) _
  · intro done file rest hsplit
    constructor
    · intro href
      refine ⟨?_, ?_⟩
      · rw [progress_append_singleton]
        exact (applyStep_of_not_writes href.not_writes).1
      · rw [mem_written_iff e a d hsplit]
        exact not_exists.2 href.not_writes
    · intro ha hnot
      rw [mem_written_iff e a d hsplit]
      exact (writes_or_refuses e a _ file ha).resolve_right hnot

end Editset

end Redline
