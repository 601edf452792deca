import Redline.Proofs.FileRename.Conservation

/-!
# A run of renames accounts for each of them

Every rename of a run has its turn, on the disk and the report that the ones before it left. In its
turn it is counted once: as skipped, because its source drifted, as an error, or as applied. Only
the last of these moves a file, with the recorded content, and only in earnest; the others leave at
most empty directories. A dry run changes nothing, so what it skips is what drifted at the start,
which is what a verification reports.
-/

namespace Redline

namespace Disk

/-- The second disk is the first with some new directories, in which there is no file. -/
structure AddsFolders (d d' : Disk) : Prop where
  kept : ∀ place e, d.entryAt place = some e → d'.entryAt place = some e
  added : ∀ place, d.entryAt place = none →
    d'.entryAt place = none ∨ d'.entryAt place = some .folder
  empty : ∀ place, d.entryAt place = none → ∀ below c, d'.entryAt (place ++ below) ≠ some (.file c)

theorem Grows.addsFolders {d d' : Disk} (hd : d.Lawful) (h : d.Grows d') : d.AddsFolders d' := by
  refine ⟨h.kept, fun place hplace => ?_, fun place hplace below c hc => ?_⟩
  · rcases he : d'.entryAt place with _ | (c | _)
    · exact Or.inl rfl
    · rw [h.files place c he] at hplace
      cases hplace
    · exact Or.inr rfl
  · have hfile := h.files _ c hc
    by_cases hbelow : below = []
    · rw [hbelow, List.append_nil, hplace] at hfile
      cases hfile
    · rw [hd.entryAt_of_append hbelow hfile] at hplace
      cases hplace

theorem entry?_eq_file_iff {d : Disk} {p : Path} {content : Bytes} :
    d.entry? p = some (.file content) ↔ d.read p = .ok content := by
  rw [read_eq_ok_iff, entry?]
  cases d.find p <;> simp

end Disk

namespace FileOp

/-- One file was moved by a rename: it had the recorded content, has it still where the new path
leads to, is gone from its place, if that is another one, and all other files are as they were. -/
structure Moved (op : FileOp) (root : Path) (d d' : Disk) (from_ onto : List String)
    (content : Bytes) : Prop where
  source : d.find (root.join op.oldPath) = .at from_
  holds : d.entryAt from_ = some (.file content)
  unchanged : fileChecksum content = op.checksum
  target : d'.find (root.join op.newPath) = .at onto
  arrived : d'.entryAt onto = some (.file content)
  gone : from_ ≠ onto → d'.entryAt from_ = none
  others : ∀ place, place ≠ from_ → place ≠ onto → ∀ c,
    d'.entryAt place = some (.file c) ↔ d.entryAt place = some (.file c)

/-- What is reported of a source that is not as it was when the rename was planned. -/
inductive Drifted (op : FileOp) (root : Path) (d : Disk) : String → Prop where
  | gone (h : ∀ content, d.read (root.join op.oldPath) ≠ .ok content) :
      Drifted op root d (op.oldPath ++ ": file no longer exists")
  | changed {content : Bytes} (h : d.read (root.join op.oldPath) = .ok content)
      (hsum : fileChecksum content ≠ op.checksum) :
      Drifted op root d (op.oldPath ++ ": checksum mismatch")

/-- The source of a rename is as it was when the rename was planned. -/
def Sound (op : FileOp) (root : Path) (d : Disk) : Prop :=
  ∃ content, d.read (root.join op.oldPath) = .ok content ∧ fileChecksum content = op.checksum

/-- The turn of a rename: what it does to a disk, and how it is counted. -/
inductive Turn (op : FileOp) (root : Path) (dryRun : Bool) :
    Disk × FileApplyReport → Disk × FileApplyReport → Prop where
  | skipped {d : Disk} {r : FileApplyReport} {message : String}
      (drifted : op.Drifted root d message) :
      Turn op root dryRun (d, r) (d, { r with skipped := r.skipped + 1 })
  | failed {d d' : Disk} {r : FileApplyReport} (reason : String) (sound : op.Sound root d)
      (adds : d.AddsFolders d') (dry : dryRun = true → d' = d) :
      Turn op root dryRun (d, r) (d', { r with errors := r.errors ++ [reason] })
  | foreseen {d : Disk} {r : FileApplyReport} (sound : op.Sound root d) (dry : dryRun = true) :
      Turn op root dryRun (d, r) (d, { r with applied := r.applied + 1 })
  | moved {d d' : Disk} {r : FileApplyReport} {from_ onto : List String} {content : Bytes}
      (earnest : dryRun = false) (moved : op.Moved root d d' from_ onto content) :
      Turn op root dryRun (d, r) (d', { r with applied := r.applied + 1 })

section

variable {op : FileOp} {root : Path} {dryRun : Bool} {d d₁ d₂ : Disk}

theorem drift?_eq_some_iff {message : String} :
    op.drift? d root = some message ↔ op.Drifted root d message := by
  constructor
  · intro h
    unfold drift? at h
    split at h
    · rename_i content hentry
      split_ifs at h with hsum
      obtain rfl := Option.some.inj h
      exact .changed (Disk.entry?_eq_file_iff.1 hentry) hsum
    · rename_i hentry
      obtain rfl := Option.some.inj h
      exact .gone fun content hread => hentry content (Disk.entry?_eq_file_iff.2 hread)
  · rintro (hgone | ⟨hread, hsum⟩)
    · unfold drift?
      split
      · rename_i content hentry
        exact absurd (Disk.entry?_eq_file_iff.1 hentry) (hgone content)
      · rfl
    · simp only [drift?, Disk.entry?_eq_file_iff.2 hread]
      rw [if_pos hsum]

theorem sound_of_find {from_ : List String} {content : Bytes}
    (hsource : d.find (root.join op.oldPath) = .at from_)
    (hcontent : d.entryAt from_ = some (.file content))
    (hsum : fileChecksum content = op.checksum) : op.Sound root d :=
  ⟨content, Disk.read_eq_ok_iff.2 ⟨from_, hsource, hcontent⟩, hsum⟩

theorem sound_of_drift? (h : op.drift? d root = none) : op.Sound root d := by
  obtain ⟨from_, content, hsource, hcontent, hsum⟩ := drift?_eq_none_iff.1 h
  exact sound_of_find hsource hcontent hsum

theorem Drifted.not_sound {message : String} (h : op.Drifted root d message) :
    ¬ op.Sound root d := by
  rintro ⟨content, hread, hsum⟩
  cases h with
  | gone hgone => exact hgone content hread
  | changed hread' hsum' =>
      rw [hread, Except.ok.injEq] at hread'
      exact hsum' (hread' ▸ hsum)

/-- The move of a rename takes the content to its new path. -/
theorem MovesAt.moved {from_ onto : List String} {content : Bytes}
    (h : op.MovesAt root d d₁ d₂ from_ onto content) : op.Moved root d d₂ from_ onto content := by
  have hcontent := h.grows.kept _ _ h.holds
  refine ⟨h.source, h.holds, h.unchanged, ?_, ?_, ?_, ?_⟩
  all_goals rcases h.result with ⟨rfl, rfl⟩ | ⟨hne, rfl⟩
  · exact h.target
  · -- No directory is on the way of the file, so the target is found as before.
    refine Disk.follow_eq_of_folders (fun place hplace => ?_) h.target
    rwa [Disk.entryAt_move_of_ne]
    · rintro rfl
      rw [hcontent] at hplace
      cases hplace
    · rintro rfl
      exact h.notFolder hplace
  · exact hcontent
  · refine Disk.entryAt_move_target hne ?_ _
    rintro rfl
    exact h.notFolder rfl
  · exact fun hne => absurd rfl hne
  · exact fun _ => Disk.entryAt_move_source hcontent _
  · exact fun place _ _ c => h.grows.sameFiles place c
  · intro place hf ht c
    rw [Disk.entryAt_move_of_ne hf ht]
    exact h.grows.sameFiles place c

/-- Each rename has its turn. -/
theorem turn_perform (hd : d.Lawful) (op : FileOp) (root : Path) (dryRun : Bool)
    (r : FileApplyReport) :
    op.Turn root dryRun (d, r)
      ((op.perform root dryRun d).1, (op.perform root dryRun d).2.record r) := by
  have hperform := performs_perform hd op root dryRun
  generalize op.perform root dryRun d = result at hperform ⊢
  cases hperform with
  | drifted h => exact .skipped (drift?_eq_some_iff.1 h)
  | taken sound =>
      exact .failed _ (sound_of_drift? sound) ((Disk.Grows.refl hd).addsFolders hd) fun _ => rfl
  | foreseen sound => exact .foreseen (sound_of_drift? sound) rfl
  | stuck sound grows => exact .failed _ (sound_of_drift? sound) (grows.addsFolders hd) nofun
  | moved moves => exact .moved rfl moves.moved

end

end FileOp

/-- The number of renames that a report counts. -/
def FileApplyReport.total (r : FileApplyReport) : Nat :=
  r.applied + r.skipped + r.errors.length

namespace FileOp

section

variable {op : FileOp} {root : Path} {dryRun : Bool} {s s' : Disk × FileApplyReport}

/-- A rename is counted once. -/
theorem Turn.total_eq (h : op.Turn root dryRun s s') : s'.2.total = s.2.total + 1 := by
  cases h <;> simp only [FileApplyReport.total, List.length_append, List.length_singleton] <;> omega

/-- A rename is skipped unless its source is as it was. -/
theorem Turn.skipped_eq_iff (h : op.Turn root dryRun s s') :
    s'.2.skipped = s.2.skipped ↔ op.Sound root s.1 := by
  cases h with
  | skipped drifted => exact iff_of_false (Nat.succ_ne_self _) drifted.not_sound
  | failed reason sound adds dry => exact iff_of_true rfl sound
  | foreseen sound dry => exact iff_of_true rfl sound
  | moved earnest moved =>
      exact iff_of_true rfl (sound_of_find moved.source moved.holds moved.unchanged)

theorem Turn.eq_of_dryRun (h : op.Turn root true s s') : s'.1 = s.1 := by
  cases h with
  | skipped drifted => rfl
  | failed reason sound adds dry => exact dry rfl
  | foreseen sound dry => rfl
  | moved earnest moved => cases earnest

end

end FileOp

namespace FileEditset

/-- The disk and the report after the renames in `done`. -/
def stateAfter (root : Path) (dryRun : Bool) (d : Disk) (done : List FileOp) :
    Disk × FileApplyReport :=
  done.foldl (applyStep root dryRun) (d, { applied := 0, skipped := 0, errors := [], dryRun })

/-- The renames that are counted as skipped in their turn, from a state on. -/
def skippedFrom (root : Path) (dryRun : Bool) (state : Disk × FileApplyReport) :
    List FileOp → List FileOp
  | [] => []
  | op :: rest =>
    let next := applyStep root dryRun state op
    if next.2.skipped = state.2.skipped then skippedFrom root dryRun next rest
    else op :: skippedFrom root dryRun next rest

/-- The renames that a run counts as skipped. -/
def skippedIn (e : FileEditset) (root : Path) (dryRun : Bool) (d : Disk) : List FileOp :=
  skippedFrom root dryRun (stateAfter root dryRun d []) e.ops

section

variable (e : FileEditset) (root : Path) (dryRun : Bool) {d : Disk}

theorem apply_eq_stateAfter : e.apply root dryRun d = stateAfter root dryRun d e.ops := rfl

theorem stateAfter_append_singleton (done : List FileOp) (op : FileOp) :
    stateAfter root dryRun d (done ++ [op]) =
      applyStep root dryRun (stateAfter root dryRun d done) op := by
  rw [stateAfter, stateAfter, List.foldl_append, List.foldl_cons, List.foldl_nil]

theorem turn_stateAfter (hd : d.Lawful) (done : List FileOp) (op : FileOp) :
    op.Turn root dryRun (stateAfter root dryRun d done)
      (stateAfter root dryRun d (done ++ [op])) := by
  rw [stateAfter_append_singleton]
  exact FileOp.turn_perform (lawful_diskAfter root dryRun hd done) op root dryRun _

theorem total_stateAfter (hd : d.Lawful) (done : List FileOp) :
    (stateAfter root dryRun d done).2.total = done.length := by
  induction done using List.reverseRecOn with
  | nil => rfl
  | append_singleton done op ih =>
      rw [(turn_stateAfter root dryRun hd done op).total_eq, ih, List.length_append,
        List.length_singleton]

theorem skipped_applyStep (state : Disk × FileApplyReport) (op : FileOp) :
    (applyStep root dryRun state op).2.skipped = state.2.skipped ∨
      (applyStep root dryRun state op).2.skipped = state.2.skipped + 1 := by
  show ((op.perform root dryRun state.1).2.record state.2).skipped = _ ∨
    ((op.perform root dryRun state.1).2.record state.2).skipped = _
  cases (op.perform root dryRun state.1).2 with
  | skipped => exact Or.inr rfl
  | failed reason => exact Or.inl rfl
  | applied => exact Or.inl rfl

/-- The report counts the skipped renames. -/
theorem length_skippedFrom (state : Disk × FileApplyReport) (ops : List FileOp) :
    (ops.foldl (applyStep root dryRun) state).2.skipped =
      state.2.skipped + (skippedFrom root dryRun state ops).length := by
  induction ops generalizing state with
  | nil => rfl
  | cons op rest ih =>
      rw [List.foldl_cons, ih, skippedFrom]
      rcases skipped_applyStep root dryRun state op with hsame | hmore
      · rw [if_pos hsame, hsame]
      · rw [if_neg (by omega), hmore, List.length_cons]
        omega

theorem stateAfter_dryRun (hd : d.Lawful) (done : List FileOp) :
    (stateAfter root true d done).1 = d := by
  induction done using List.reverseRecOn with
  | nil => rfl
  | append_singleton done op ih =>
      rw [(turn_stateAfter root true hd done op).eq_of_dryRun, ih]

/-- The renames that a dry run skips are those whose source drifted. -/
theorem forall₂_skippedFrom (hd : d.Lawful) (state : Disk × FileApplyReport) (hstate : state.1 = d)
    (ops : List FileOp) :
    List.Forall₂ (fun op message => op.Drifted root d message) (skippedFrom root true state ops)
      (ops.filterMap fun op => op.drift? d root) := by
  induction ops generalizing state with
  | nil => exact .nil
  | cons op rest ih =>
      have hturn : op.Turn root true state (applyStep root true state op) :=
        FileOp.turn_perform (hstate ▸ hd) op root true state.2
      have hrest := ih (applyStep root true state op) (hturn.eq_of_dryRun.trans hstate)
      have hskipped := hturn.skipped_eq_iff
      rw [hstate] at hskipped
      rw [skippedFrom]
      cases hdrift : op.drift? d root with
      | none =>
          rw [if_pos (hskipped.2 (FileOp.sound_of_drift? hdrift))]
          simp only [List.filterMap_cons, hdrift]
          exact hrest
      | some message =>
          have hdrifted := FileOp.drift?_eq_some_iff.1 hdrift
          rw [if_neg (mt hskipped.1 hdrifted.not_sound)]
          simp only [List.filterMap_cons, hdrift]
          exact .cons hdrifted hrest

end

/-- Renames of the twins: the first file is moved away, so the second rename finds it gone, and the
third one finds its target taken. -/
def renameTwins : FileEditset :=
  { renameFirst "b.txt" with
    ops := (renameFirst "b.txt").ops ++ (renameFirst "c.txt").ops ++
      [{ opId := .null, oldPath := "A.txt", newPath := "b.txt", checksum := "d4735e3a265e16ee" }] }

end FileEditset

end Redline
