import Redline.Proofs.Disk.Frame
import Redline.Proofs.Json.Controls
import Redline.Proofs.Text.Utf8
import Redline.Store

/-!
# Documents stored and read

A file that was written is read with what was written. A stored document holds no carriage return,
so unifying line ends leaves it as it is, and it is read as the document that was stored, as long as
no floating-point number is in it and each object has each key once. What is read from any file has
each key once.
-/

namespace Redline

namespace Disk

variable {d d' : Disk}

/-- Where there was no directory, a file there changes no way that could be followed. -/
theorem follow_put {place : List String} (h : d.entryAt place ≠ some .folder) (c : Bytes)
    {parts from_ target : List String} (hf : d.follow from_ parts = .at target) :
    (d.put place (.file c)).follow from_ parts = .at target := by
  refine follow_eq_of_folders (fun other he => ?_) hf
  have hne : other ≠ place := by
    rintro rfl
    exact h he
  rwa [d.entryAt_put_of_ne hne]

/-- A file that was written is read with what was written. -/
theorem read_write {p : Path} {c : Bytes} (h : d.write p c = .ok d') : d'.read p = .ok c := by
  have hput : ∀ place, d.find p = .at place → d.entryAt place ≠ some .folder →
      d' = d.put place (.file c) → d'.read p = .ok c := by
    rintro place hf hne rfl
    have htop : place ≠ [] := by
      rintro rfl
      exact hne rfl
    refine read_eq_ok_iff.2 ⟨place, follow_put hne c hf, d.entryAt_put_self htop _⟩
  rw [write] at h
  cases hf : d.find p with
  | missing => simp [hf] at h
  | notFolder => simp [hf] at h
  | «at» place =>
      rw [hf] at h
      dsimp only at h
      cases he : d.entryAt place with
      | some e =>
          cases e with
          | folder => simp [he] at h
          | file old =>
              rw [he] at h
              cases h
              exact hput place hf (by simp [he]) rfl
      | none =>
          rw [he] at h
          dsimp only at h
          cases hp : d.entryAt place.dropLast with
          | none => simp [hp] at h
          | some e =>
              cases e with
              | file old => simp [hp] at h
              | folder =>
                  rw [hp] at h
                  cases h
                  exact hput place hf (by simp [he]) rfl

end Disk

namespace Text

theorem unifyNewlines_eq_self {cs : List Char} (h : '\r' ∉ cs) : unifyNewlines cs = cs := by
  induction cs with
  | nil => rfl
  | cons c cs ih =>
      rw [List.mem_cons, not_or] at h
      rw [unifyNewlines, ih h.2]
      · rintro rest rfl
        exact absurd rfl h.1
      · rintro rfl
        exact absurd rfl h.1

end Text

/-! ### Storing and reading -/

/-- A computation that gives a result gave one for its first part. -/
theorem bind_eq_ok {ε α β : Type} {x : Except ε α} {f : α → Except ε β} {b : β} :
    (x >>= f) = .ok b ↔ ∃ a, x = .ok a ∧ f a = .ok b := by
  cases x with
  | error e => exact ⟨nofun, nofun⟩
  | ok a => exact ⟨fun h => ⟨a, rfl, h⟩, fun ⟨a', ha, h⟩ => by cases ha; exact h⟩

namespace Store

variable {d d' : Disk} {p : Path} {members : List (String × Json)}

/-- The file that a document was stored in holds its text. -/
theorem readText_save {j : Json} (h : save d p j = .ok d') : d'.readText p = .ok (textOf j) := by
  rw [save] at h
  obtain ⟨d₁, -, hwrite⟩ := bind_eq_ok.1 h
  exact Disk.readText_eq_ok_iff.2 ⟨_, Disk.read_write hwrite, Text.Utf8.decode_encode _⟩

theorem return_not_mem_textOf {j : Json} (h : Json.FloatFree j) : '\r' ∉ (textOf j).toList := by
  rw [textOf, String.toList_append, Json.pretty, String.toList_ofList, List.mem_append, not_or]
  exact ⟨Json.return_not_mem_write h 0, by decide⟩

variable {α : Type} {ofJson : Json → Except Mishap α} {a : α}

/-- A document that was stored is read as the record that it is. -/
theorem load_save (hfloat : Json.FloatFree (.obj members)) (hkeyed : Json.Keyed (.obj members))
    (h : save d p (.obj members) = .ok d') (hread : ofJson (.obj members) = .ok a) :
    load ofJson d' p = .ok a := by
  have htext := readText_save h
  obtain ⟨c, hc, -⟩ := Disk.readText_eq_ok_iff.1 htext
  have hlines : readLines d' p = .ok (textOf (.obj members)) := by
    rw [readLines, htext]
    exact congrArg Except.ok (by
      rw [Text.unifyNewlines_eq_self (return_not_mem_textOf hfloat), String.ofList_toList])
  have hparse : Json.parse (textOf (.obj members)) = .ok (.obj members) :=
    Json.parse_pretty hfloat hkeyed
  rw [load, if_neg (by simp [Disk.exists_of_read hc]), hlines]
  dsimp only [onSourceText, bind, Except.bind, Except.mapError]
  rw [hparse]
  dsimp only
  rw [hread]
  rfl

/-- A record that was read is that of an object with each key once. -/
theorem exists_of_load (h : load ofJson d p = .ok a) :
    ∃ members, Json.Keyed (.obj members) ∧ ofJson (.obj members) = .ok a := by
  rw [load] at h
  dsimp only at h
  split_ifs at h
  · cases h
  obtain ⟨text, -, h⟩ := bind_eq_ok.1 h
  cases hparse : Json.parse text with
  | error reason =>
      rw [hparse] at h
      cases h
  | ok j =>
      rw [hparse] at h
      dsimp only at h
      cases j with
      | obj members =>
          dsimp only at h
          cases hread : ofJson (.obj members) with
          | ok a' =>
              rw [hread] at h
              cases h
              exact ⟨members, Json.keyed_of_parse hparse, hread⟩
          | error m =>
              rw [hread] at h
              dsimp only at h
              split_ifs at h <;> cases h
      | _ => cases h

end Store

end Redline
