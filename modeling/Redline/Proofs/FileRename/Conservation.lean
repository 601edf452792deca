import Mathlib.Data.List.Induction
import Redline.FileRename.Apply
import Redline.Proofs.Disk.Contents

/-!
# When renaming files keeps every file

A rename is meant to move one file to a path where nothing is, or to change no file at all.
`FileOp.Overwrites` is the exception: the move goes over another file. Every rename is one of the
three, a run keeps the contents of all files just when none of its renames is the exception, and the
exception needs a target that differs from its source in case only or that has two dots in it. Two
dots matter because a target through a missing directory counts as free, and making the directory
then leads it to a file.
-/

namespace Redline

namespace Disk

/-- The disks have the same files. -/
def SameFiles (d d' : Disk) : Prop :=
  ∀ place c, d'.entryAt place = some (.file c) ↔ d.entryAt place = some (.file c)

/-- One file is at another place, and all other places have the same files. -/
structure MovesFile (d d' : Disk) (from_ onto : List String) (c : Bytes) : Prop where
  source : d.entryAt from_ = some (.file c)
  target : d'.entryAt onto = some (.file c)
  gone : d'.entryAt from_ = none
  others : ∀ place, place ≠ from_ → place ≠ onto → ∀ c',
    d'.entryAt place = some (.file c') ↔ d.entryAt place = some (.file c')

theorem Grows.sameFiles {d d' : Disk} (h : d.Grows d') : d.SameFiles d' :=
  fun place c => ⟨h.files place c, h.kept place _⟩

theorem movesFile_move {d d₁ : Disk} (h : d.Grows d₁) {from_ onto : List String} {c : Bytes}
    (hc : d.entryAt from_ = some (.file c)) (hne : from_ ≠ onto) (ht : onto ≠ []) :
    d.MovesFile (d₁.move from_ onto (.file c)) from_ onto c := by
  refine ⟨hc, entryAt_move_target hne ht _, entryAt_move_source (h.kept _ _ hc) _, ?_⟩
  intro place hf hto c'
  rw [entryAt_move_of_ne hf hto]
  exact h.sameFiles place c'

/-- Without two dots a path leads down. -/
theorem eq_append_of_follow {d : Disk} {parts from_ place : List String} (hdots : ".." ∉ parts)
    (hf : d.follow from_ parts = .at place) : place = from_ ++ parts := by
  induction parts generalizing from_ with
  | nil =>
      rw [follow, Place.at.injEq] at hf
      rw [List.append_nil, hf]
  | cons p rest ih =>
      rw [List.mem_cons, not_or] at hdots
      rw [follow] at hf
      split at hf
      · cases hf
      · cases hf
      · rw [if_neg (Ne.symm hdots.1)] at hf
        rw [ih hdots.2 hf, List.append_assoc, List.singleton_append]

/-- Without two dots a path leads to whatever is listed there. -/
theorem Lawful.follow_of_entryAt {d : Disk} (h : d.Lawful) {parts from_ : List String} {e : Entry}
    (hdots : ".." ∉ parts) (he : d.entryAt (from_ ++ parts) = some e) :
    d.follow from_ parts = .at (from_ ++ parts) := by
  induction parts generalizing from_ with
  | nil => rw [follow, List.append_nil]
  | cons p rest ih =>
      rw [List.mem_cons, not_or] at hdots
      rw [follow, h.entryAt_of_append (by simp) he]
      simp only
      rw [List.append_cons] at he
      rw [if_neg (Ne.symm hdots.1), ih hdots.2 he, ← List.append_cons]

end Disk

namespace FileOp

/-- The move goes over another file: the source is there as recorded, the target is free or let pass
because it differs in case only, and once the directories on the way to it are made it leads to a
file that is not the source. -/
structure OverwritesAt (op : FileOp) (root : Path) (d : Disk) (from_ onto : List String)
    (content lost : Bytes) : Prop where
  source : d.find (root.join op.oldPath) = .at from_
  holds : d.entryAt from_ = some (.file content)
  unchanged : fileChecksum content = op.checksum
  passed : d.exists_ (root.join op.newPath) = true → op.isCaseOnly = true
  made : (d.withFolders (root.join op.newPath).parent).2 = none
  target : (d.withFolders (root.join op.newPath).parent).1.find (root.join op.newPath) = .at onto
  taken : d.entryAt onto = some (.file lost)
  apart : from_ ≠ onto

/-- A rename that would go over another file. -/
def Overwrites (op : FileOp) (root : Path) (d : Disk) : Prop :=
  ∃ from_ onto content lost, op.OverwritesAt root d from_ onto content lost

theorem drift?_eq_none_iff {op : FileOp} {d : Disk} {root : Path} :
    op.drift? d root = none ↔
      ∃ from_ content, d.find (root.join op.oldPath) = .at from_ ∧
        d.entryAt from_ = some (.file content) ∧ fileChecksum content = op.checksum := by
  unfold drift? Disk.entry?
  cases hf : d.find (root.join op.oldPath) with
  | missing => simp
  | notFolder => simp
  | «at» from_ =>
      rcases he : d.entryAt from_ with _ | (content | _)
      · simp [he]
      · simp [he]
      · simp [he]

/-- The move that a rename ends with, once the directories on the way to its target are made: where
it goes there is no directory, but one around. -/
structure MovesAt (op : FileOp) (root : Path) (d d₁ d₂ : Disk) (from_ onto : List String)
    (content : Bytes) : Prop where
  source : d.find (root.join op.oldPath) = .at from_
  holds : d.entryAt from_ = some (.file content)
  unchanged : fileChecksum content = op.checksum
  passed : d.exists_ (root.join op.newPath) = true → op.isCaseOnly = true
  made : d.withFolders (root.join op.newPath).parent = (d₁, none)
  grows : d.Grows d₁
  target : d₁.find (root.join op.newPath) = .at onto
  notFolder : d₁.entryAt onto ≠ some .folder
  parent : d₁.entryAt onto.dropLast = some .folder
  result : from_ = onto ∧ d₂ = d₁ ∨ from_ ≠ onto ∧ d₂ = d₁.move from_ onto (.file content)

/-- What one rename can do to a disk, and what became of it then. -/
inductive Performs (op : FileOp) (root : Path) (d : Disk) : Bool → Disk × Fate → Prop where
  | drifted {dryRun : Bool} {message : String} (h : op.drift? d root = some message) :
      Performs op root d dryRun (d, .skipped)
  | taken {dryRun : Bool} {reason : String} (sound : op.drift? d root = none) :
      Performs op root d dryRun (d, .failed reason)
  | foreseen (sound : op.drift? d root = none) : Performs op root d true (d, .applied)
  | stuck {d₁ : Disk} {reason : String} (sound : op.drift? d root = none) (grows : d.Grows d₁) :
      Performs op root d false (d₁, .failed reason)
  | moved {d₁ d₂ : Disk} {from_ onto : List String} {content : Bytes}
      (moves : op.MovesAt root d d₁ d₂ from_ onto content) :
      Performs op root d false (d₂, .applied)

theorem performs_perform {d : Disk} (hd : d.Lawful) (op : FileOp) (root : Path) (dryRun : Bool) :
    op.Performs root d dryRun (op.perform root dryRun d) := by
  unfold perform
  cases hdrift : op.drift? d root with
  | some message => exact .drifted hdrift
  | none =>
      simp only [Option.isSome_none, Bool.false_eq_true, if_false]
      by_cases hexists : d.exists_ (root.join op.newPath) && !op.isCaseOnly
      · rw [if_pos hexists]
        exact .taken hdrift
      · rw [if_neg hexists]
        cases dryRun with
        | true => exact .foreseen hdrift
        | false =>
            have hgrows := Disk.grows_withFolders hd (root.join op.newPath).parent
            rcases hmade : d.withFolders (root.join op.newPath).parent with ⟨d₁, _ | fault⟩
            · rw [hmade] at hgrows
              simp only [Bool.false_eq_true, if_false]
              cases hmove : d₁.moveFile (root.join op.oldPath) (root.join op.newPath) with
              | error fault => exact .stuck hdrift hgrows
              | ok d₂ =>
                  obtain ⟨from_, content, hsource, hcontent, hsum⟩ := drift?_eq_none_iff.1 hdrift
                  obtain ⟨from₁, onto, e, hfrom, honto, he, hto, hparent, hd₂⟩ :=
                    Disk.moveFile_eq_ok hmove
                  rw [hgrows.find_eq hsource, Disk.Place.at.injEq] at hfrom
                  subst hfrom
                  rw [hgrows.kept from_ _ hcontent, Option.some.injEq] at he
                  subst he
                  exact .moved
                    { source := hsource
                      holds := hcontent
                      unchanged := hsum
                      passed := fun h => by simpa [h] using hexists
                      made := hmade
                      grows := hgrows
                      target := honto
                      notFolder := hto
                      parent := hparent
                      result := hd₂ }
            · rw [hmade] at hgrows
              exact .stuck hdrift hgrows

/-- A move goes over the file at its target, if one is there that is not the source. -/
theorem MovesAt.overwritesAt {op : FileOp} {root : Path} {d d₁ d₂ : Disk}
    {from_ onto : List String} {content lost : Bytes}
    (h : op.MovesAt root d d₁ d₂ from_ onto content) (hne : from_ ≠ onto)
    (htaken : d₁.entryAt onto = some (.file lost)) :
    op.OverwritesAt root d from_ onto content lost :=
  { source := h.source
    holds := h.holds
    unchanged := h.unchanged
    passed := h.passed
    made := by rw [h.made]
    target := by rw [h.made]; exact h.target
    taken := h.grows.files onto lost htaken
    apart := hne }

/-- What one rename does to a lawful disk: new directories at most, a file moved to where nothing
was, or, in earnest, a file moved over another. -/
theorem perform_cases {d : Disk} (hd : d.Lawful) (op : FileOp) (root : Path) (dryRun : Bool) :
    d.Grows (op.perform root dryRun d).1 ∨
    (∃ d₁ from_ onto content, d.Grows d₁ ∧ d.entryAt from_ = some (.file content) ∧
      from_ ≠ onto ∧ d₁.entryAt onto = none ∧ d₁.entryAt onto.dropLast = some .folder ∧
      (op.perform root dryRun d).1 = d₁.move from_ onto (.file content)) ∨
    (dryRun = false ∧ ∃ d₁ from_ onto content lost, d.Grows d₁ ∧
      op.OverwritesAt root d from_ onto content lost ∧
      (op.perform root dryRun d).1 = d₁.move from_ onto (.file content)) := by
  have hperform := performs_perform hd op root dryRun
  generalize op.perform root dryRun d = result at hperform ⊢
  cases hperform with
  | drifted h => exact Or.inl (Disk.Grows.refl hd)
  | taken sound => exact Or.inl (Disk.Grows.refl hd)
  | foreseen sound => exact Or.inl (Disk.Grows.refl hd)
  | stuck sound grows => exact Or.inl grows
  | @moved d₁ d₂ from_ onto content moves =>
      rcases moves.result with ⟨-, rfl⟩ | ⟨hne, rfl⟩
      · exact Or.inl moves.grows
      · rcases htaken : d₁.entryAt onto with _ | (lost | _)
        · exact Or.inr (Or.inl ⟨d₁, from_, onto, content, moves.grows, moves.holds, hne, htaken,
            moves.parent, rfl⟩)
        · exact Or.inr (Or.inr ⟨rfl, d₁, from_, onto, content, lost, moves.grows,
            moves.overwritesAt hne htaken, rfl⟩)
        · exact absurd htaken moves.notFolder

theorem perform_of_overwritesAt {d : Disk} (hd : d.Lawful) {op : FileOp} {root : Path}
    {from_ onto : List String} {content lost : Bytes}
    (h : op.OverwritesAt root d from_ onto content lost) :
    ∃ d₁, d.Grows d₁ ∧
      op.perform root false d = (d₁.move from_ onto (.file content), .applied) := by
  have hdrift : op.drift? d root = none :=
    drift?_eq_none_iff.2 ⟨from_, content, h.source, h.holds, h.unchanged⟩
  have hgrows := Disk.grows_withFolders hd (root.join op.newPath).parent
  have hpassed : (d.exists_ (root.join op.newPath) && !op.isCaseOnly) = false := by
    have := h.passed
    cases hexists : d.exists_ (root.join op.newPath) <;> simp_all
  rcases hmade : d.withFolders (root.join op.newPath).parent with ⟨d₁, stop⟩
  have hstop : stop = none := by
    have := h.made
    rwa [hmade] at this
  have htarget := h.target
  rw [hmade] at hgrows htarget
  subst hstop
  have hmove := hgrows.lawful.moveFile_of_file (hgrows.find_eq h.source)
    (hgrows.kept _ _ h.holds) htarget (hgrows.kept _ _ h.taken) h.apart
  refine ⟨d₁, hgrows, ?_⟩
  simp [perform, hdrift, hpassed, hmade, hmove]

/-- A rename either leaves the files as they are or moves one of them, to where nothing was unless
it overwrites. -/
theorem sameFiles_or_movesFile {d : Disk} (hd : d.Lawful) (op : FileOp) (root : Path)
    (dryRun : Bool) :
    d.SameFiles (op.perform root dryRun d).1 ∨
    ∃ from_ onto c, d.MovesFile (op.perform root dryRun d).1 from_ onto c ∧
      (d.entryAt onto = none ∨ dryRun = false ∧ op.Overwrites root d) := by
  rcases perform_cases hd op root dryRun with
    h | ⟨d₁, from_, onto, c, h, hc, hne, hto, -, hd₂⟩ |
      ⟨hdry, d₁, from_, onto, c, lost, h, hover, hd₂⟩
  · exact Or.inl h.sameFiles
  · have ht : onto ≠ [] := by
      rintro rfl
      cases hto
    have hfree : d.entryAt onto = none := by
      cases he : d.entryAt onto with
      | none => rfl
      | some e =>
          rw [h.kept onto e he] at hto
          cases hto
    rw [hd₂]
    exact Or.inr ⟨from_, onto, c, Disk.movesFile_move h hc hne ht, Or.inl hfree⟩
  · rw [hd₂]
    exact Or.inr ⟨from_, onto, c,
      Disk.movesFile_move h hover.holds hover.apart (Disk.ne_top_of_file hover.taken),
      Or.inr ⟨hdry, from_, onto, c, lost, hover⟩⟩

theorem lawful_perform {d : Disk} (hd : d.Lawful) (op : FileOp) (root : Path) (dryRun : Bool) :
    (op.perform root dryRun d).1.Lawful := by
  rcases perform_cases hd op root dryRun with
    h | ⟨d₁, from_, onto, c, h, hc, hne, hto, hparent, hd₂⟩ |
      ⟨-, d₁, from_, onto, c, lost, h, hover, hd₂⟩
  · exact h.lawful
  · rw [hd₂]
    exact h.lawful.move_file (h.kept _ _ hc) hne (by simp [hto]) hparent
  · have htaken := h.kept _ _ hover.taken
    have hparent := h.lawful.rooted onto _ (Disk.ne_top_of_file htaken) htaken
    rw [hd₂]
    exact h.lawful.move_file (h.kept _ _ hover.holds) hover.apart (by simp [htaken]) hparent

/-- A rename that overwrites loses the content of one file. -/
theorem contents_perform_of_overwrites {d : Disk} (hd : d.Lawful) {op : FileOp} {root : Path}
    (h : op.Overwrites root d) :
    ∃ lost, (op.perform root false d).1.contents + {lost} = d.contents := by
  obtain ⟨from_, onto, c, lost, hover⟩ := h
  obtain ⟨d₁, hgrows, hperform⟩ := perform_of_overwritesAt hd hover
  refine ⟨lost, ?_⟩
  rw [hperform, ← hgrows.contents]
  exact hgrows.lawful.contents_move_of_file (hgrows.kept _ _ hover.holds) hover.apart
    (hgrows.kept _ _ hover.taken)

/-- Every other rename keeps the contents of all files. -/
theorem contents_perform {d : Disk} (hd : d.Lawful) {op : FileOp} {root : Path} {dryRun : Bool}
    (h : dryRun = true ∨ ¬ op.Overwrites root d) :
    (op.perform root dryRun d).1.contents = d.contents := by
  rcases perform_cases hd op root dryRun with
    hgrows | ⟨d₁, from_, onto, c, hgrows, hc, -, hto, hparent, hd₂⟩ |
      ⟨hdry, d₁, from_, onto, c, lost, -, hover, -⟩
  · exact hgrows.contents
  · rw [hd₂, ← hgrows.contents]
    exact hgrows.lawful.contents_move_of_missing (hgrows.kept _ _ hc) hto hparent
  · rcases h with h | h
    · rw [hdry] at h
      cases h
    · exact absurd ⟨from_, onto, c, lost, hover⟩ h

/-- What overwrites differs from its source in case only, or has two dots on the way. -/
theorem Overwrites.caseOnly_or_dots {d : Disk} (hd : d.Lawful) {op : FileOp} {root : Path}
    (h : op.Overwrites root d) :
    op.isCaseOnly = true ∨ ".." ∈ (root.join op.newPath).parts := by
  obtain ⟨from_, onto, c, lost, hover⟩ := h
  by_contra hnot
  rw [not_or] at hnot
  obtain ⟨hcase, hdots⟩ := hnot
  have hworking := (Disk.grows_withFolders hd (root.join op.newPath).parent).working
  have htarget := hover.target
  have htaken := hover.taken
  rw [Disk.find, hworking] at htarget
  rw [Disk.eq_append_of_follow hdots htarget] at htaken
  refine hcase (hover.passed ?_)
  rw [Disk.exists_, Disk.entry?, Disk.find, hd.follow_of_entryAt hdots htaken]
  simp [htaken]

end FileOp

namespace FileEditset

section

variable (e : FileEditset) (root : Path) (dryRun : Bool) (d : Disk)

/-- The disk after the renames in `done`. -/
def diskAfter (done : List FileOp) : Disk :=
  (done.foldl (applyStep root dryRun)
    (d, { applied := 0, skipped := 0, errors := [], dryRun })).1

theorem apply_eq_diskAfter : (e.apply root dryRun d).1 = diskAfter root dryRun d e.ops := rfl

theorem diskAfter_append_singleton (done : List FileOp) (op : FileOp) :
    diskAfter root dryRun d (done ++ [op]) =
      (op.perform root dryRun (diskAfter root dryRun d done)).1 := by
  simp [diskAfter, applyStep, List.foldl_append]

variable {d}

theorem lawful_diskAfter (hd : d.Lawful) (done : List FileOp) :
    (diskAfter root dryRun d done).Lawful := by
  induction done using List.reverseRecOn with
  | nil => exact hd
  | append_singleton done op ih =>
      rw [diskAfter_append_singleton]
      exact FileOp.lawful_perform ih op root dryRun

theorem contents_diskAfter_le (hd : d.Lawful) (done : List FileOp) :
    (diskAfter root dryRun d done).contents ≤ d.contents := by
  induction done using List.reverseRecOn with
  | nil => exact le_refl _
  | append_singleton done op ih =>
      have hlawful := lawful_diskAfter root dryRun hd done
      rw [diskAfter_append_singleton]
      by_cases h : dryRun = true ∨ ¬ op.Overwrites root (diskAfter root dryRun d done)
      · rwa [FileOp.contents_perform hlawful h]
      · rw [not_or, not_not] at h
        obtain ⟨hdry, hover⟩ := h
        obtain ⟨lost, hlost⟩ := FileOp.contents_perform_of_overwrites hlawful hover
        rw [Bool.of_not_eq_true hdry] at hlost ih ⊢
        exact le_trans (hlost ▸ Multiset.le_add_right _ _) ih

theorem diskAfter_append (done rest : List FileOp) :
    diskAfter root dryRun d (done ++ rest) =
      diskAfter root dryRun (diskAfter root dryRun d done) rest := by
  induction rest using List.reverseRecOn with
  | nil => rw [List.append_nil]; rfl
  | append_singleton rest op ih =>
      rw [← List.append_assoc, diskAfter_append_singleton, ih, diskAfter_append_singleton]

theorem contents_diskAfter_of_forall (hd : d.Lawful) (done : List FileOp)
    (h : ∀ before op after, done = before ++ op :: after →
      dryRun = true ∨ ¬ op.Overwrites root (diskAfter root dryRun d before)) :
    (diskAfter root dryRun d done).contents = d.contents := by
  induction done using List.reverseRecOn with
  | nil => rfl
  | append_singleton done op ih =>
      rw [diskAfter_append_singleton,
        FileOp.contents_perform (lawful_diskAfter root dryRun hd done) (h done op [] rfl)]
      apply ih
      rintro before op' after rfl
      exact h before op' (after ++ [op]) (by simp)

end

/-- Applying a file editset keeps the contents of all files exactly when no rename overwrites at its
turn. Each rename leaves the files as they are or moves one of them; where it goes nothing was,
unless it overwrites, which needs a target that differs from the source in case only or has two dots
on the way. -/
theorem contents_apply_eq_iff (e : FileEditset) (root : Path) (dryRun : Bool) (d : Disk)
    (hd : d.Lawful) :
    ((e.apply root dryRun d).1.contents = d.contents ↔
      ∀ done op rest, e.ops = done ++ op :: rest →
        dryRun = true ∨ ¬ op.Overwrites root (diskAfter root dryRun d done)) ∧
    ∀ done op rest, e.ops = done ++ op :: rest →
      (diskAfter root dryRun d done).SameFiles (diskAfter root dryRun d (done ++ [op])) ∨
      ∃ from_ onto c, (diskAfter root dryRun d done).MovesFile
          (diskAfter root dryRun d (done ++ [op])) from_ onto c ∧
        ((diskAfter root dryRun d done).entryAt onto = none ∨
          dryRun = false ∧ op.Overwrites root (diskAfter root dryRun d done) ∧
            (op.isCaseOnly = true ∨ ".." ∈ (root.join op.newPath).parts)) := by
  refine ⟨⟨?_, contents_diskAfter_of_forall root dryRun hd e.ops⟩, ?_⟩
  · intro hkept done op rest hsplit
    by_contra hnot
    rw [not_or, not_not] at hnot
    obtain ⟨hdry, hover⟩ := hnot
    have hlawful := lawful_diskAfter root dryRun hd done
    obtain ⟨lost, hlost⟩ := FileOp.contents_perform_of_overwrites hlawful hover
    rw [← Bool.of_not_eq_true hdry, ← diskAfter_append_singleton] at hlost
    -- What is lost once is missing at the end: contents never grow.
    have hlater := contents_diskAfter_le root dryRun
      (lawful_diskAfter root dryRun hd (done ++ [op])) rest
    rw [← diskAfter_append, ← List.append_cons, ← hsplit, ← apply_eq_diskAfter, hkept] at hlater
    have hbefore := contents_diskAfter_le root dryRun hd done
    rw [← hlost] at hbefore
    have hcard := Multiset.card_le_card (le_trans hbefore hlater)
    rw [Multiset.card_add, Multiset.card_singleton] at hcard
    omega
  · intro done op rest hsplit
    have hlawful := lawful_diskAfter root dryRun hd done
    rw [diskAfter_append_singleton]
    rcases FileOp.sameFiles_or_movesFile hlawful op root dryRun with
      h | ⟨from_, onto, c, hmoves, hfree | ⟨hdry, hover⟩⟩
    · exact Or.inl h
    · exact Or.inr ⟨from_, onto, c, hmoves, Or.inl hfree⟩
    · exact Or.inr ⟨from_, onto, c, hmoves,
        Or.inr ⟨hdry, hover, hover.caseOnly_or_dots hlawful⟩⟩

/-- A directory with two files whose names differ in case only. -/
def twins : Disk :=
  { working := ["root"]
    entries := [(["root"], .folder), (["root", "a.txt"], .file [0x31]),
      (["root", "A.txt"], .file [0x32])] }

/-- The rename of the first of the two files to a name. -/
def renameFirst (newPath : String) : FileEditset :=
  { id := .null, operation := .null, pattern := .null, replacement := .null
    ops := [{ opId := .null, oldPath := "a.txt", newPath, checksum := "6b86b273ff34fce1" }]
    importEdits := [], createdAt := .null }

theorem lawful_twins : twins.Lawful :=
  Disk.Lawful.of_entries (by decide) (by decide) (by decide)

theorem contents_apply_renameFirst_free :
    twins.Lawful ∧
      ((renameFirst "b.txt").apply ⟨true, ["root"]⟩ false twins).1.contents = twins.contents := by
  refine ⟨lawful_twins, (contents_apply_eq_iff _ _ _ _ lawful_twins).1.2 ?_⟩
  intro done op rest hsplit
  have hmem : op ∈ (renameFirst "b.txt").ops := by
    rw [hsplit]
    simp
  have hdone : done = [] := by
    have hlen := congrArg List.length hsplit
    simp only [renameFirst, List.length_append, List.length_cons, List.length_nil] at hlen
    exact List.length_eq_zero_iff.1 (by omega)
  subst hdone
  refine Or.inr fun hover => ?_
  rw [renameFirst, List.mem_singleton] at hmem
  rcases hover.caseOnly_or_dots lawful_twins with hcase | hdots
  · rw [hmem] at hcase
    exact absurd hcase (by decide +kernel)
  · rw [hmem] at hdots
    exact absurd hdots (by decide +kernel)

/-- The rename to the name of the other file overwrites it. -/
theorem contents_apply_renameFirst_taken :
    ((renameFirst "A.txt").apply ⟨true, ["root"]⟩ false twins).1.contents ≠ twins.contents := by
  intro hkept
  generalize hop : ({ opId := .null, oldPath := "a.txt", newPath := "A.txt"
                      checksum := "6b86b273ff34fce1" } : FileOp) = op
  have hover : op.Overwrites ⟨true, ["root"]⟩ twins := by
    subst hop
    exact ⟨["root", "a.txt"], ["root", "A.txt"], [0x31], [0x32],
      { source := by decide +kernel
        holds := by decide
        unchanged := by decide +kernel
        passed := fun _ => by decide +kernel
        made := by decide +kernel
        target := by decide +kernel
        taken := by decide
        apart := by decide }⟩
  obtain ⟨lost, hlost⟩ := FileOp.contents_perform_of_overwrites lawful_twins hover
  have hops : (renameFirst "A.txt").ops = [] ++ [op] := by
    rw [← hop]
    rfl
  rw [apply_eq_diskAfter, hops, diskAfter_append_singleton] at hkept
  have hcard := congrArg Multiset.card (hlost.trans hkept.symm)
  rw [Multiset.card_add, Multiset.card_singleton] at hcard
  exact Nat.succ_ne_self _ hcard

end FileEditset

end Redline
