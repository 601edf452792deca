import Redline.Editset.Drift
import Redline.Proofs.Editset.Application

/-!
# When verifying and a dry run agree

Verifying compares a file with the checksum that the last of its references recorded, applying with
the checksums that all of them recorded. For an editset whose files with edits are those with
references, a clean dry run is always verified. What is verified has a clean dry run just when every
reference of a file recorded what its last one did.
-/

namespace Redline

/-- No edit was skipped and none met an error. -/
def ApplyReport.IsClean (r : ApplyReport) : Prop :=
  r.skipped = 0 ∧ r.errors = 0

instance (r : ApplyReport) : Decidable r.IsClean :=
  inferInstanceAs (Decidable (r.skipped = 0 ∧ r.errors = 0))

namespace Editset

/-! ### Verifying -/

theorem issue_eq_none_iff {d : Disk} {root : Path} {file expected : String} :
    issue d root file expected = none ↔
      ∃ text, d.readText (root.join file) = .ok text ∧ checksum text = expected := by
  rw [issue]
  cases hread : d.readText (root.join file) with
  | error fault => cases h : d.exists_ (root.join file) <;> simp
  | ok text =>
      obtain ⟨c, hc, -⟩ := Disk.readText_eq_ok_iff.1 hread
      simp [Disk.exists_of_read hc]

theorem isValid_verify_iff {e : Editset} {d : Disk} {root : Path} :
    (e.verify d root).isValid = true ↔
      ∀ file ∈ e.files, ∃ text,
        d.readText (root.join file) = .ok text ∧ checksum text = e.recorded file := by
  rw [VerifyReport.isValid, verify, List.isEmpty_iff, List.filterMap_eq_nil_iff]
  exact forall₂_congr fun _ _ => issue_eq_none_iff

theorem mem_files {e : Editset} {file : String} :
    file ∈ e.files ↔ ∃ r ∈ e.refs, r.file = file := by
  rw [files, mem_distinct, List.mem_map]

/-- The checksum that is verified is one that a reference of the file recorded. -/
theorem exists_recorded {e : Editset} {file : String} (h : file ∈ e.files) :
    ∃ r ∈ e.refs, r.file = file ∧ r.checksum = e.recorded file := by
  obtain ⟨r, hr, hf⟩ := mem_files.1 h
  have hne : e.refs.filter (·.file == file) ≠ [] :=
    List.ne_nil_of_mem (List.mem_filter.2 ⟨hr, by simp [hf]⟩)
  have hlast := List.mem_filter.1 (List.getLast_mem hne)
  refine ⟨_, hlast.1, by simpa using hlast.2, ?_⟩
  rw [recorded, List.getLast?_eq_some_getLast hne]
  rfl

/-! ### A dry run -/

section

variable {e : Editset} {a : Application} {d : Disk}

theorem applyFile_of_dryRun (ha : a.dryRun = true) (file : String) (edits : List Edit) :
    (a.applyFile d file (e.checksumsOf file) edits).2 ≠ .written ∧
      ((a.applyFile d file (e.checksumsOf file) edits).2 = .computed ↔
        ∃ text, d.readText (a.root.join file) = .ok text ∧ e.Vouches file text) := by
  unfold Application.applyFile
  simp only [vouches_iff]
  cases hne : (e.checksumsOf file).isEmpty with
  | true => simp
  | false =>
      cases hread : d.readText (a.root.join file) with
      | error fault => simp
      | ok text =>
          simp only [Except.ok.injEq, exists_eq_left']
          generalize (e.checksumsOf file).any (· != checksum text) = differs
          cases differs <;> simp [ha]

theorem isClean_record_iff {o : FileOutcome} {file : String} {count : Nat} {r : ApplyReport}
    (hcount : 0 < count) (ho : o ≠ .written) :
    (o.record file count r).IsClean ↔ r.IsClean ∧ o = .computed := by
  cases o with
  | written => exact absurd rfl ho
  | computed => simp [FileOutcome.record, ApplyReport.IsClean]
  | unrecorded | drifted | failed =>
      simp [FileOutcome.record, ApplyReport.IsClean, Nat.ne_of_gt hcount]

theorem length_editsOf_pos {file : String} (h : file ∈ e.editFiles) :
    0 < (e.editsOf file).length := by
  rw [editFiles, mem_distinct, List.mem_map] at h
  obtain ⟨edit, hedit, hf⟩ := h
  exact List.length_pos_of_mem (List.mem_filter.2 ⟨hedit, by simp [hf]⟩)

/-- After some files of a dry run the report is clean if each of them had a text that all its
references vouch for. -/
theorem isClean_progress_iff (ha : a.dryRun = true) {done : List String}
    (hdone : ∀ file ∈ done, file ∈ e.editFiles) :
    (e.progress a d done).2.IsClean ↔
      ∀ file ∈ done, ∃ text,
        d.readText (a.root.join file) = .ok text ∧ e.Vouches file text := by
  induction done using List.reverseRecOn with
  | nil => exact iff_of_true ⟨rfl, rfl⟩ (by simp)
  | append_singleton done file ih =>
      have hbefore := ih fun g hg => hdone g (List.mem_append_left _ hg)
      have hcount := length_editsOf_pos (hdone file (by simp))
      obtain ⟨hwritten, hcomputed⟩ :=
        applyFile_of_dryRun (e := e) (d := d) ha file (e.editsOf file)
      rw [progress_append_singleton, List.forall_mem_append, List.forall_mem_singleton, ← hbefore,
        ← hcomputed, ← isClean_record_iff hcount hwritten, applyStep,
        progress_of_dryRun e a d ha done]

theorem isClean_apply_iff (ha : a.dryRun = true) :
    (e.apply a d).2.IsClean ↔
      ∀ file ∈ e.editFiles, ∃ text,
        d.readText (a.root.join file) = .ok text ∧ e.Vouches file text :=
  isClean_progress_iff ha fun _ h => h

end

/-- For an editset whose files with edits are those with references, a clean dry run is verified,
and the two agree just when no reference of a verified editset recorded another checksum than the
last reference of its file. -/
theorem verify_agrees_with_dryRun_iff (e : Editset) (a : Application) (d : Disk)
    (ha : a.dryRun = true) (hfiles : ∀ file, file ∈ e.editFiles ↔ file ∈ e.files) :
    ((e.apply a d).2.IsClean → (e.verify d a.root).isValid = true) ∧
    (((e.verify d a.root).isValid = true ↔ (e.apply a d).2.IsClean) ↔
      ((e.verify d a.root).isValid = true →
        ∀ r ∈ e.refs, r.checksum = e.recorded r.file)) := by
  have hrecorded : ∀ file ∈ e.files, ∀ text, e.Vouches file text →
      e.recorded file = checksum text := by
    intro file hfile text hvouches
    obtain ⟨r, hr, hf, hc⟩ := exists_recorded hfile
    rw [← hc, hvouches.agreed r hr hf]
  have hvalid : (e.apply a d).2.IsClean → (e.verify d a.root).isValid = true := by
    intro hclean
    refine isValid_verify_iff.2 fun file hfile => ?_
    obtain ⟨text, hread, hvouches⟩ :=
      (isClean_apply_iff ha).1 hclean file ((hfiles file).2 hfile)
    exact ⟨text, hread, (hrecorded file hfile text hvouches).symm⟩
  refine ⟨hvalid, ?_, ?_⟩
  · intro hagree hverified r hr
    have hfile : r.file ∈ e.files := mem_files.2 ⟨r, hr, rfl⟩
    obtain ⟨text, -, hvouches⟩ :=
      (isClean_apply_iff ha).1 (hagree.1 hverified) r.file ((hfiles r.file).2 hfile)
    rw [hvouches.agreed r hr rfl, hrecorded r.file hfile text hvouches]
  · intro hsame
    refine ⟨fun hverified => (isClean_apply_iff ha).2 fun file hfile => ?_, hvalid⟩
    have hmem := (hfiles file).1 hfile
    obtain ⟨text, hread, hc⟩ := isValid_verify_iff.1 hverified file hmem
    refine ⟨text, hread, mem_files.1 hmem, ?_⟩
    rintro r hr rfl
    rw [hsame hverified r hr, hc]

/-- A directory with one file. -/
def oneFile : Disk :=
  { working := ["root"], entries := [(["root"], .folder), (["root", "a.txt"], .file [0x31])] }

/-- The replacement of the character of the file, with references that recorded some checksums. -/
def replaceOne (checksums : List String) : Editset :=
  { id := .null, operation := .null, old := .null, new := .null
    refs := checksums.map fun checksum =>
      { refId := "", file := "a.txt", range := ⟨1, 1, 1, 2⟩, preview := .null, checksum
        selected := true }
    edits := [⟨"a.txt", 0, 1, "2"⟩]
    createdAt := .null, symbolKey := none, pattern := none }

/-- A dry run in the directory. -/
def dryRun : Application :=
  { root := ⟨true, ["root"]⟩, dryRun := true, blocked := [] }

theorem verify_agrees_same_checksum :
    dryRun.dryRun = true ∧
    (∀ file, file ∈ (replaceOne ["6b86b273ff34", "6b86b273ff34"]).editFiles ↔
      file ∈ (replaceOne ["6b86b273ff34", "6b86b273ff34"]).files) ∧
    (((replaceOne ["6b86b273ff34", "6b86b273ff34"]).verify oneFile dryRun.root).isValid = true ↔
      ((replaceOne ["6b86b273ff34", "6b86b273ff34"]).apply dryRun oneFile).2.IsClean) := by
  have hfiles : ∀ file, file ∈ (replaceOne ["6b86b273ff34", "6b86b273ff34"]).editFiles ↔
      file ∈ (replaceOne ["6b86b273ff34", "6b86b273ff34"]).files := fun _ => Iff.rfl
  exact ⟨rfl, hfiles,
    (verify_agrees_with_dryRun_iff _ dryRun oneFile rfl hfiles).2.2 fun _ => by decide⟩

/-- Of two references of one file, the first with another checksum: it is verified, but skipped. -/
theorem verified_but_skipped :
    ((replaceOne ["000000000000", "6b86b273ff34"]).verify oneFile dryRun.root).isValid = true ∧
    ((replaceOne ["000000000000", "6b86b273ff34"]).apply dryRun oneFile).2.skipped = 1 := by
  decide +kernel

end Editset

end Redline
