import Redline.Disk.Basic
import Redline.Proofs.Text.Utf8

/-!
# What a write leaves as it was

A path is followed by looking at directories only, so two disks that are `Alike`, with directories
and files at the same places, lead every path to the same place. Writing over a file gives an alike
disk in which one place holds other octets.
-/

namespace Redline.Disk

/-- The disks have directories at the same places and files at the same places. -/
structure Alike (d d' : Disk) : Prop where
  working : d'.working = d.working
  folder : ∀ place, d'.entryAt place = some .folder ↔ d.entryAt place = some .folder
  missing : ∀ place, d'.entryAt place = none ↔ d.entryAt place = none

theorem Alike.refl (d : Disk) : d.Alike d :=
  ⟨rfl, fun _ => Iff.rfl, fun _ => Iff.rfl⟩

theorem Alike.trans {d₁ d₂ d₃ : Disk} (h : d₁.Alike d₂) (h' : d₂.Alike d₃) : d₁.Alike d₃ :=
  ⟨h'.working.trans h.working, fun p => (h'.folder p).trans (h.folder p),
    fun p => (h'.missing p).trans (h.missing p)⟩

/-- A file of one disk is a file of the other. -/
theorem Alike.exists_file {d d' : Disk} (h : d.Alike d') {place : List String} {c : Bytes}
    (hc : d.entryAt place = some (.file c)) : ∃ c', d'.entryAt place = some (.file c') := by
  cases hp : d'.entryAt place with
  | none =>
      rw [(h.missing place).1 hp] at hc
      cases hc
  | some e =>
      cases e with
      | file c' => exact ⟨c', rfl⟩
      | folder =>
          rw [(h.folder place).1 hp] at hc
          cases hc

theorem Alike.symm {d d' : Disk} (h : d.Alike d') : d'.Alike d :=
  ⟨h.working.symm, fun p => (h.folder p).symm, fun p => (h.missing p).symm⟩

theorem Alike.follow_eq {d d' : Disk} (h : d.Alike d') (parts from_ : List String) :
    d'.follow from_ parts = d.follow from_ parts := by
  induction parts generalizing from_ with
  | nil => rfl
  | cons p rest ih =>
      rw [follow, follow]
      cases he : d.entryAt from_ with
      | none => rw [(h.missing from_).2 he]
      | some e =>
          cases e with
          | file c =>
              obtain ⟨c', hc'⟩ := h.exists_file he
              rw [hc']
          | folder =>
              rw [(h.folder from_).2 he]
              simp only [ih]

/-- A path that can be followed leads to the same place wherever its directories still are. -/
theorem follow_eq_of_folders {d d' : Disk}
    (h : ∀ place, d.entryAt place = some .folder → d'.entryAt place = some .folder)
    {parts from_ place : List String} (hf : d.follow from_ parts = .at place) :
    d'.follow from_ parts = .at place := by
  induction parts generalizing from_ with
  | nil => exact hf
  | cons p rest ih =>
      rw [follow] at hf ⊢
      cases he : d.entryAt from_ with
      | none =>
          rw [he] at hf
          cases hf
      | some e =>
          rw [he] at hf
          cases e with
          | file c => cases hf
          | folder =>
              rw [h from_ he]
              dsimp only at hf ⊢
              split_ifs at hf ⊢
              · exact ih hf
              · exact ih hf

theorem Alike.find_eq {d d' : Disk} (h : d.Alike d') (p : Path) : d'.find p = d.find p := by
  rw [find, find, h.working, h.follow_eq]

/-- A file is read at the place that its path leads to. -/
theorem read_eq_ok_iff {d : Disk} {p : Path} {c : Bytes} :
    d.read p = .ok c ↔ ∃ place, d.find p = .at place ∧ d.entryAt place = some (.file c) := by
  unfold read
  cases hf : d.find p with
  | missing => simp
  | notFolder => simp
  | «at» place =>
      cases he : d.entryAt place with
      | none => simp [he]
      | some e => cases e <;> simp [he]

/-- A file is read alike where its path leads to the same place with the same content. -/
theorem read_congr {d d' : Disk} {p : Path} (hfind : d'.find p = d.find p)
    (hentry : ∀ place, d.find p = .at place → d'.entryAt place = d.entryAt place) :
    d'.read p = d.read p := by
  unfold read
  rw [hfind]
  cases hp : d.find p with
  | missing => rfl
  | notFolder => rfl
  | «at» place =>
      dsimp only
      rw [hentry place hp]

theorem readText_congr {d d' : Disk} {p : Path} (h : d'.read p = d.read p) :
    d'.readText p = d.readText p := by
  rw [readText, readText, h]

theorem exists_of_read {d : Disk} {p : Path} {c : Bytes} (h : d.read p = .ok c) :
    d.exists_ p = true := by
  obtain ⟨place, hf, he⟩ := read_eq_ok_iff.1 h
  rw [exists_, entry?, hf]
  dsimp only
  rw [he]
  rfl

theorem readText_eq_ok_iff {d : Disk} {p : Path} {text : String} :
    d.readText p = .ok text ↔ ∃ c, d.read p = .ok c ∧ Text.Utf8.decode c = .ok text := by
  unfold readText
  cases d.read p with
  | error e => simp
  | ok c =>
      simp only [Except.ok.injEq, exists_eq_left']
      cases Text.Utf8.decode c with
      | error e => exact ⟨nofun, nofun⟩
      | ok t => constructor <;> (rintro ⟨⟩; rfl)

/-- A file that is read as a text holds it encoded. -/
theorem exists_of_readText {d : Disk} {p : Path} {text : String} (h : d.readText p = .ok text) :
    ∃ place, d.find p = .at place ∧
      d.entryAt place = some (.file (Text.Utf8.encode text)) := by
  obtain ⟨c, hread, hdecode⟩ := readText_eq_ok_iff.1 h
  rw [Text.Utf8.decode_eq_ok_iff.1 hdecode] at hread
  exact read_eq_ok_iff.1 hread

/-- A file that holds a text encoded is read as the text. -/
theorem readText_of_file {d : Disk} {p : Path} {text : String} (place : List String)
    (hfind : d.find p = .at place)
    (hentry : d.entryAt place = some (.file (Text.Utf8.encode text))) : d.readText p = .ok text :=
  readText_eq_ok_iff.2
    ⟨_, read_eq_ok_iff.2 ⟨place, hfind, hentry⟩, Text.Utf8.decode_encode text⟩

@[simp] theorem entryAt_top (d : Disk) : d.entryAt [] = some .folder := rfl

theorem entryAt_of_ne_top (d : Disk) {place : List String} (h : place ≠ []) :
    d.entryAt place = d.entries.lookup place := by
  simp [entryAt, h]

theorem entryAt_put_self (d : Disk) {place : List String} (h : place ≠ []) (e : Entry) :
    (d.put place e).entryAt place = some e := by
  rw [entryAt_of_ne_top _ h, put]
  exact Assoc.lookup_put_self d.entries place e

theorem entryAt_put_of_ne (d : Disk) {place other : List String} (h : other ≠ place) (e : Entry) :
    (d.put place e).entryAt other = d.entryAt other := by
  by_cases ho : other = []
  · rw [ho, entryAt_top, entryAt_top]
  · rw [entryAt_of_ne_top _ ho, entryAt_of_ne_top _ ho, put]
    exact Assoc.lookup_put_of_ne h d.entries e

/-- A file is not at the top. -/
theorem ne_top_of_file {d : Disk} {place : List String} {c : Bytes}
    (h : d.entryAt place = some (.file c)) : place ≠ [] := by
  rintro rfl
  cases h

/-- Putting the file that is there changes nothing. -/
theorem put_eq_self {d : Disk} {place : List String} {c : Bytes}
    (h : d.entryAt place = some (.file c)) : d.put place (.file c) = d := by
  rw [entryAt_of_ne_top d (ne_top_of_file h)] at h
  obtain ⟨before, after, hentries, hput⟩ := Assoc.exists_split_of_lookup h
  rw [put, hput, ← hentries]

theorem alike_put_file {d : Disk} {place : List String} {c : Bytes}
    (h : d.entryAt place = some (.file c)) (c' : Bytes) : d.Alike (d.put place (.file c')) := by
  have hself := d.entryAt_put_self (ne_top_of_file h) (.file c')
  refine ⟨rfl, fun other => ?_, fun other => ?_⟩
  all_goals
    by_cases ho : other = place
    · subst ho
      simp [hself, h]
    · rw [d.entryAt_put_of_ne ho]

/-- A file that can be read can be written, at the place where it is. -/
theorem write_of_file {d : Disk} {p : Path} {place : List String} {c : Bytes}
    (hf : d.find p = .at place) (he : d.entryAt place = some (.file c)) (c' : Bytes) :
    d.write p c' = .ok (d.put place (.file c')) := by
  simp [write, hf, he]

end Redline.Disk
