import Mathlib.Algebra.Order.Group.Multiset
import Mathlib.Data.List.Induction
import Mathlib.Data.List.Nodup
import Mathlib.Tactic.Common
import Redline.Proofs.Disk.Frame

/-!
# The contents of the files on a disk

`Disk.contents` counts the contents of all files. A `Lawful` disk lists every place once and has a
directory around everything it lists; every operation keeps this. `Grows` says that a disk has got
new directories and nothing else: making directories does that, whether it succeeds or not. Moving a
file keeps the contents, unless a file was at the target, whose content is then lost.
-/

namespace Redline.Disk

/-- The contents of the files among some entries, in order. -/
def fileContents (entries : List (List String × Entry)) : List Bytes :=
  entries.filterMap fun e =>
    match e.2 with
    | .file c => some c
    | .folder => none

/-- The contents of all files of a disk, each as often as files have it. -/
def contents (d : Disk) : Multiset Bytes :=
  ↑(fileContents d.entries)

/-- Every place is listed once, the top is not listed, and a directory is around everything. -/
structure Lawful (d : Disk) : Prop where
  nodup : (d.entries.map Prod.fst).Nodup
  proper : [] ∉ d.entries.map Prod.fst
  rooted : ∀ place e, place ≠ [] → d.entryAt place = some e →
    d.entryAt place.dropLast = some .folder

/-- What stands at a place that is listed is one of the entries. -/
theorem mem_entries_of_entryAt {d : Disk} {place : List String} {e : Entry} (hne : place ≠ [])
    (h : d.entryAt place = some e) : (place, e) ∈ d.entries := by
  rw [entryAt_of_ne_top d hne, List.lookup_eq_some_iff] at h
  obtain ⟨before, after, hentries, -⟩ := h
  rw [hentries]
  simp

/-- A disk is lawful if its entries are. -/
theorem Lawful.of_entries {d : Disk} (nodup : (d.entries.map Prod.fst).Nodup)
    (proper : [] ∉ d.entries.map Prod.fst)
    (rooted : ∀ x ∈ d.entries, d.entryAt x.1.dropLast = some .folder) : d.Lawful :=
  ⟨nodup, proper, fun _ _ hne he => rooted _ (mem_entries_of_entryAt hne he)⟩

/-- What is above something on a lawful disk is a directory. -/
theorem Lawful.entryAt_of_append {d : Disk} (h : d.Lawful) {xs ys : List String} {e : Entry}
    (hys : ys ≠ []) (he : d.entryAt (xs ++ ys) = some e) : d.entryAt xs = some .folder := by
  induction ys using List.reverseRecOn generalizing e with
  | nil => exact absurd rfl hys
  | append_singleton ys y ih =>
      have hdrop := h.rooted (xs ++ (ys ++ [y])) e (by simp) he
      rw [← List.append_assoc, List.dropLast_concat] at hdrop
      by_cases hy : ys = []
      · rwa [hy, List.append_nil] at hdrop
      · exact ih hy hdrop

theorem fileContents_append (xs ys : List (List String × Entry)) :
    fileContents (xs ++ ys) = fileContents xs ++ fileContents ys :=
  List.filterMap_append

theorem coe_fileContents_split (before after : List (List String × Entry)) (place : List String)
    (e : Entry) :
    (↑(fileContents (before ++ (place, e) :: after)) : Multiset Bytes) =
      ↑(fileContents [(place, e)]) + ↑(fileContents (before ++ after)) := by
  rw [← List.singleton_append, fileContents_append, fileContents_append, fileContents_append,
    Multiset.coe_add, Multiset.coe_eq_coe]
  exact List.perm_append_comm_assoc _ _ _

/-! ### Setting and removing entries -/

section

variable {d : Disk} {place : List String}

/-- A new entry in a directory keeps a disk lawful, and so does one in place of a file. -/
theorem Lawful.put (h : d.Lawful) (hne : place ≠ []) {e : Entry}
    (hparent : d.entryAt place.dropLast = some .folder)
    (hold : d.entryAt place ≠ some .folder) : (d.put place e).Lawful := by
  have hdrop : place.dropLast ≠ place := by
    intro hp
    have hlen := congrArg List.length hp
    rw [List.length_dropLast] at hlen
    have := List.length_pos_iff.2 hne
    omega
  refine ⟨?_, ?_, ?_⟩
  · rw [Disk.put, Assoc.keys_put]
    split
    · exact h.nodup
    · rename_i hmem
      exact List.Nodup.append h.nodup (List.nodup_singleton place) (by simpa using hmem)
  · rw [Disk.put, Assoc.keys_put]
    split
    · exact h.proper
    · rw [List.mem_append, List.mem_singleton]
      rintro (hmem | hmem)
      · exact h.proper hmem
      · exact hne hmem.symm
  · intro other e' hother he'
    by_cases ho : other = place
    · subst ho
      rwa [d.entryAt_put_of_ne hdrop]
    · rw [d.entryAt_put_of_ne ho] at he'
      have hfolder := h.rooted other e' hother he'
      by_cases hd : other.dropLast = place
      · rw [hd] at hfolder
        exact absurd hfolder hold
      · rwa [d.entryAt_put_of_ne hd]

theorem contents_put_of_missing (hne : place ≠ []) (h : d.entryAt place = none) (e : Entry) :
    (d.put place e).contents = ↑(fileContents [(place, e)]) + d.contents := by
  rw [entryAt_of_ne_top d hne] at h
  have hsplit := coe_fileContents_split d.entries [] place e
  rw [List.append_nil] at hsplit
  rw [contents, put, Assoc.put_of_lookup_eq_none h, hsplit, contents]

/-- Writing over a file exchanges its content. -/
theorem contents_put_of_file {old : Bytes} (h : d.entryAt place = some (.file old)) (c : Bytes) :
    (d.put place (.file c)).contents + {old} = d.contents + {c} := by
  have hlookup : d.entries.lookup place = some (.file old) := by
    rwa [entryAt_of_ne_top d (ne_top_of_file h)] at h
  obtain ⟨before, after, hentries, hput⟩ := Assoc.exists_split_of_lookup hlookup
  rw [contents, put, hput, coe_fileContents_split, contents, hentries, coe_fileContents_split]
  have hone (b : Bytes) : (↑(fileContents [(place, .file b)]) : Multiset Bytes) = {b} := rfl
  rw [hone, hone, add_right_comm, add_comm ({c} : Multiset Bytes) {old}, add_right_comm]

/-- The disk without the entry at a place. -/
def erase (d : Disk) (place : List String) : Disk :=
  { d with entries := d.entries.filter (·.1 ≠ place) }

theorem entryAt_erase_of_ne {other : List String} (h : other ≠ place) :
    (d.erase place).entryAt other = d.entryAt other := by
  by_cases ho : other = []
  · rw [ho, entryAt_top, entryAt_top]
  · rw [entryAt_of_ne_top _ ho, entryAt_of_ne_top _ ho]
    change (d.entries.filter (·.1 ≠ place)).lookup other = d.entries.lookup other
    induction d.entries with
    | nil => rfl
    | cons e rest ih =>
        obtain ⟨p, e⟩ := e
        by_cases hp : p = place
        · subst hp
          rw [List.filter_cons_of_neg (by simp), List.lookup_cons, beq_false_of_ne h, ih]
        · rw [List.filter_cons_of_pos (by simpa using hp), List.lookup_cons, List.lookup_cons, ih]

theorem entryAt_erase_self (hne : place ≠ []) : (d.erase place).entryAt place = none := by
  rw [entryAt_of_ne_top _ hne, List.lookup_eq_none_iff]
  intro e he
  have hp : e.1 ≠ place := by simpa using (List.mem_filter.1 he).2
  simpa using Ne.symm hp

theorem Lawful.erase_file (h : d.Lawful) {c : Bytes} (hc : d.entryAt place = some (.file c)) :
    (d.erase place).Lawful := by
  have hsub : ((d.erase place).entries.map Prod.fst).Sublist (d.entries.map Prod.fst) :=
    List.filter_sublist.map Prod.fst
  refine ⟨h.nodup.sublist hsub, fun hmem => h.proper (hsub.subset hmem), ?_⟩
  intro other e hother he
  have ho : other ≠ place := by
    rintro rfl
    rw [entryAt_erase_self hother] at he
    cases he
  rw [entryAt_erase_of_ne ho] at he
  have hfolder := h.rooted other e hother he
  have hd : other.dropLast ≠ place := by
    intro hd
    rw [hd, hc] at hfolder
    cases hfolder
  rwa [entryAt_erase_of_ne hd]

theorem contents_erase_file (h : d.Lawful) {c : Bytes} (hc : d.entryAt place = some (.file c)) :
    (d.erase place).contents + {c} = d.contents := by
  have hlookup : d.entries.lookup place = some (.file c) := by
    rwa [entryAt_of_ne_top d (ne_top_of_file hc)] at hc
  obtain ⟨before, after, hentries, -⟩ := Assoc.exists_split_of_lookup hlookup
  have hnodup := h.nodup
  rw [hentries, List.map_append, List.map_cons, List.nodup_append, List.nodup_cons] at hnodup
  obtain ⟨-, ⟨hafter, -⟩, hbefore⟩ := hnodup
  have hb : before.filter (·.1 ≠ place) = before := by
    rw [List.filter_eq_self]
    intro e he
    simpa using hbefore e.1 (List.mem_map_of_mem he) place (by simp)
  have ha : after.filter (·.1 ≠ place) = after := by
    rw [List.filter_eq_self]
    intro e he
    have hne : e.1 ≠ place := fun hp => hafter (List.mem_map.2 ⟨e, he, hp⟩)
    simpa using hne
  have herase : (d.erase place).entries = before ++ after := by
    rw [erase, hentries, List.filter_append, hb, List.filter_cons_of_neg (by simp), ha]
  rw [contents, herase, contents, hentries, coe_fileContents_split, add_comm]
  rfl

end

/-! ### Making directories -/

/-- The second disk is the first with some new directories. -/
structure Grows (d d' : Disk) : Prop where
  working : d'.working = d.working
  kept : ∀ place e, d.entryAt place = some e → d'.entryAt place = some e
  files : ∀ place c, d'.entryAt place = some (.file c) → d.entryAt place = some (.file c)
  contents : d'.contents = d.contents
  lawful : d'.Lawful

theorem Grows.refl {d : Disk} (h : d.Lawful) : d.Grows d :=
  ⟨rfl, fun _ _ he => he, fun _ _ hc => hc, rfl, h⟩

theorem Grows.trans {d₁ d₂ d₃ : Disk} (h : d₁.Grows d₂) (h' : d₂.Grows d₃) : d₁.Grows d₃ :=
  ⟨h'.working.trans h.working, fun p e he => h'.kept p e (h.kept p e he),
    fun p c hc => h.files p c (h'.files p c hc), h'.contents.trans h.contents, h'.lawful⟩

/-- A path that can be followed leads to the same place once there are more directories. -/
theorem Grows.follow_eq {d d' : Disk} (h : d.Grows d') {parts from_ place : List String}
    (hf : d.follow from_ parts = .at place) : d'.follow from_ parts = .at place :=
  follow_eq_of_folders (fun place he => h.kept place .folder he) hf

theorem Grows.find_eq {d d' : Disk} (h : d.Grows d') {p : Path} {place : List String}
    (hf : d.find p = .at place) : d'.find p = .at place := by
  rw [find, h.working]
  exact h.follow_eq hf

theorem makeFolder_eq_ok {d d' : Disk} {p : Path} (h : d.makeFolder p = .ok d') :
    ∃ place, place ≠ [] ∧ d.entryAt place = none ∧
      d.entryAt place.dropLast = some .folder ∧ d' = d.put place .folder := by
  unfold makeFolder at h
  cases hf : d.find p with
  | missing => simp [hf] at h
  | notFolder => simp [hf] at h
  | «at» place =>
      cases he : d.entryAt place with
      | some e => simp [hf, he] at h
      | none =>
          have hne : place ≠ [] := by
            rintro rfl
            cases he
          cases hp : d.entryAt place.dropLast with
          | none => simp [hf, he, hp] at h
          | some e =>
              cases e with
              | file c => simp [hf, he, hp] at h
              | folder =>
                  simp only [hf, he, hp, Except.ok.injEq] at h
                  exact ⟨place, hne, he, hp, h.symm⟩

theorem grows_makeFolder {d d' : Disk} {p : Path} (hd : d.Lawful) (h : d.makeFolder p = .ok d') :
    d.Grows d' := by
  obtain ⟨place, hne, he, hp, rfl⟩ := makeFolder_eq_ok h
  refine ⟨rfl, ?_, ?_, ?_, ?_⟩
  · intro other e ho
    have hother : other ≠ place := by
      rintro rfl
      rw [he] at ho
      cases ho
    rwa [d.entryAt_put_of_ne hother]
  · intro other c hc
    have hother : other ≠ place := by
      rintro rfl
      rw [d.entryAt_put_self hne] at hc
      cases hc
    rwa [d.entryAt_put_of_ne hother] at hc
  · rw [contents_put_of_missing hne he]
    exact zero_add _
  · exact hd.put hne hp (by simp [he])

theorem grows_withFoldersWithin {d : Disk} (hd : d.Lawful) (steps : Nat) (p : Path) :
    d.Grows (d.withFoldersWithin steps p).1 := by
  induction steps generalizing p with
  | zero =>
      unfold withFoldersWithin
      cases hm : d.makeFolder p with
      | ok d' => exact grows_makeFolder hd hm
      | error fault => cases fault <;> simp only <;> (try split) <;> exact Grows.refl hd
  | succ steps ih =>
      unfold withFoldersWithin
      cases hm : d.makeFolder p with
      | ok d' => exact grows_makeFolder hd hm
      | error fault =>
          cases fault with
          | missing q =>
              have hparent := ih p.parent
              simp only
              generalize d.withFoldersWithin steps p.parent = made at hparent ⊢
              obtain ⟨d₁, _ | stop⟩ := made
              · simp only at hparent ⊢
                cases hm₁ : d₁.makeFolder p with
                | ok d₂ => exact hparent.trans (grows_makeFolder hparent.lawful hm₁)
                | error fault₁ =>
                    simp only
                    split <;> exact hparent
              · exact hparent
          | _ =>
              simp only
              split <;> exact Grows.refl hd

/-- Making directories adds directories only, also when it stops on the way. -/
theorem grows_withFolders {d : Disk} (hd : d.Lawful) (p : Path) : d.Grows (d.withFolders p).1 :=
  grows_withFoldersWithin hd p.parts.length p

/-! ### Moving a file -/

theorem follow_append (d : Disk) (from_ xs ys : List String) :
    d.follow from_ (xs ++ ys) =
      match d.follow from_ xs with
      | .at place => d.follow place ys
      | stop => stop := by
  induction xs generalizing from_ with
  | nil => rfl
  | cons p rest ih =>
      rw [List.cons_append, follow, follow]
      cases d.entryAt from_ with
      | none => rfl
      | some e =>
          cases e with
          | file c => rfl
          | folder =>
              simp only
              split <;> exact ih _

/-- Two dots at the end of a path lead to a directory. -/
theorem Lawful.entryAt_of_dots {d : Disk} (h : d.Lawful) {p : Path} {place : List String}
    (hdots : p.parts.getLast? = some "..") (hf : d.find p = .at place) :
    d.entryAt place = some .folder := by
  obtain ⟨init, hinit⟩ := List.getLast?_eq_some_iff.1 hdots
  rw [find, hinit, follow_append] at hf
  generalize d.follow (if p.isAbsolute then [] else d.working) init = stop at hf
  cases stop with
  | missing => cases hf
  | notFolder => cases hf
  | «at» q =>
      simp only [follow] at hf
      cases he : d.entryAt q with
      | none => simp [he] at hf
      | some e =>
          cases e with
          | file c => simp [he] at hf
          | folder =>
              simp only [he, if_true, Place.at.injEq] at hf
              subst hf
              by_cases hq : q = []
              · rw [hq]
                rfl
              · exact h.rooted q .folder hq he

/-- The disk with an entry moved from one place to another. -/
def move (d : Disk) (from_ onto : List String) (e : Entry) : Disk :=
  (d.put onto e).erase from_

theorem moveFile_eq_ok {d d' : Disk} {source target : Path}
    (h : d.moveFile source target = .ok d') :
    ∃ from_ onto e, d.find source = .at from_ ∧ d.find target = .at onto ∧
      d.entryAt from_ = some e ∧ d.entryAt onto ≠ some .folder ∧
      d.entryAt onto.dropLast = some .folder ∧
      (from_ = onto ∧ d' = d ∨ from_ ≠ onto ∧ d' = d.move from_ onto e) := by
  unfold moveFile at h
  cases hs : d.find source with
  | missing => simp [hs] at h
  | notFolder => simp [hs] at h
  | «at» from_ =>
      cases ht : d.find target with
      | missing => simp [hs, ht] at h
      | notFolder => simp [hs, ht] at h
      | «at» onto =>
          simp only [hs, ht] at h
          split at h
          · cases h
          · cases he : d.entryAt from_ with
            | none => simp [he] at h
            | some e =>
                have hto : d.entryAt onto ≠ some .folder := by
                  intro hto
                  simp [he, hto] at h
                cases hp : d.entryAt onto.dropLast with
                | none => rcases ho : d.entryAt onto with _ | (_ | _) <;> simp [he, ho, hp] at h
                | some parent =>
                    cases parent with
                    | file c =>
                        rcases ho : d.entryAt onto with _ | (_ | _) <;> simp [he, ho, hp] at h
                    | folder =>
                        refine ⟨from_, onto, e, rfl, rfl, he, hto, hp, ?_⟩
                        simp only [he, hp] at h
                        by_cases heq : from_ = onto
                        · left
                          simpa [heq, eq_comm] using h
                        · right
                          simpa [heq, eq_comm, move, erase, Disk.put] using h

/-- A file can be moved onto another one. -/
theorem Lawful.moveFile_of_file {d : Disk} (h : d.Lawful) {source target : Path}
    {from_ onto : List String} {c lost : Bytes} (hs : d.find source = .at from_)
    (hc : d.entryAt from_ = some (.file c)) (ht : d.find target = .at onto)
    (hl : d.entryAt onto = some (.file lost)) (hne : from_ ≠ onto) :
    d.moveFile source target = .ok (d.move from_ onto (.file c)) := by
  have hparent := h.rooted onto _ (ne_top_of_file hl) hl
  have hdots : target.parts.getLast? ≠ some ".." := by
    intro hdots
    have hfolder := h.entryAt_of_dots hdots ht
    rw [hl] at hfolder
    cases hfolder
  simp [moveFile, hs, ht, hdots, hc, hl, hparent, hne, move, erase, Disk.put]

section

variable {d : Disk} {from_ onto : List String} {c : Bytes}

theorem entryAt_move_source (hc : d.entryAt from_ = some (.file c)) (e : Entry) :
    (d.move from_ onto e).entryAt from_ = none :=
  entryAt_erase_self (ne_top_of_file hc)

theorem entryAt_move_target (hne : from_ ≠ onto) (ht : onto ≠ []) (e : Entry) :
    (d.move from_ onto e).entryAt onto = some e := by
  rw [move, entryAt_erase_of_ne (Ne.symm hne), d.entryAt_put_self ht]

theorem entryAt_move_of_ne {place : List String} (hf : place ≠ from_) (ht : place ≠ onto)
    (e : Entry) : (d.move from_ onto e).entryAt place = d.entryAt place := by
  rw [move, entryAt_erase_of_ne hf, d.entryAt_put_of_ne ht]

theorem Lawful.move_file (h : d.Lawful) (hc : d.entryAt from_ = some (.file c))
    (hne : from_ ≠ onto) (hto : d.entryAt onto ≠ some .folder)
    (hparent : d.entryAt onto.dropLast = some .folder) :
    (d.move from_ onto (.file c)).Lawful := by
  have ht : onto ≠ [] := by
    rintro rfl
    exact hto rfl
  have hc' : (d.put onto (.file c)).entryAt from_ = some (.file c) := by
    rwa [d.entryAt_put_of_ne hne]
  exact (h.put ht hparent hto).erase_file hc'

/-- Moving a file to where nothing is keeps all contents. -/
theorem Lawful.contents_move_of_missing (h : d.Lawful) (hc : d.entryAt from_ = some (.file c))
    (hto : d.entryAt onto = none) (hparent : d.entryAt onto.dropLast = some .folder) :
    (d.move from_ onto (.file c)).contents = d.contents := by
  have ht : onto ≠ [] := by
    rintro rfl
    cases hto
  have hne : from_ ≠ onto := by
    rintro rfl
    rw [hto] at hc
    cases hc
  have hc' : (d.put onto (.file c)).entryAt from_ = some (.file c) := by
    rwa [d.entryAt_put_of_ne hne]
  have herase := contents_erase_file (h.put ht hparent (by simp [hto])) hc'
  rw [contents_put_of_missing ht hto, add_comm] at herase
  exact add_left_cancel herase

/-- Moving a file onto another loses the content of that one. -/
theorem Lawful.contents_move_of_file (h : d.Lawful) (hc : d.entryAt from_ = some (.file c))
    (hne : from_ ≠ onto) {lost : Bytes} (hl : d.entryAt onto = some (.file lost)) :
    (d.move from_ onto (.file c)).contents + {lost} = d.contents := by
  have hparent := h.rooted onto _ (ne_top_of_file hl) hl
  have hc' : (d.put onto (.file c)).entryAt from_ = some (.file c) := by
    rwa [d.entryAt_put_of_ne hne]
  have herase := contents_erase_file (h.put (ne_top_of_file hl) hparent (by simp [hl])) hc'
  have hput := contents_put_of_file hl c
  rw [← herase, add_right_comm] at hput
  exact add_right_cancel hput

end

end Redline.Disk
