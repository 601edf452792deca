import Redline.Proofs.Text.Offsets
import Redline.Tree.Source

/-!
# Octets, characters and lines of a source file

`Source.Marks s n c` says that octet `n` of a file is where its character `c` starts. On such octets
the way from octets to characters is exact and keeps the order, what a node covers is the text
between two characters, and the line and the column of a character lead back to it.
-/

namespace Redline

namespace Source

open Text.Utf8

/-- The octets of the file are those of its text. -/
def IsUtf8 (s : Source) : Prop :=
  s.bytes = encode (String.ofList s.text)

/-- Octet `n` is where character `c` starts, or the end of the file. -/
def Marks (s : Source) (n c : Nat) : Prop :=
  c ≤ s.text.length ∧ n = width (s.text.take c)

/-- An octet where a character starts, or the end of the file. -/
def IsBoundary (s : Source) (n : Nat) : Prop :=
  ∃ c, s.Marks n c

variable {s : Source}

theorem isUtf8_of_decode {text : String} (h : decode s.bytes = .ok text) : s.IsUtf8 := by
  rw [decode_eq_ok_iff] at h
  rw [IsUtf8, s.text_eq, h, decodeLossy_encode, String.ofList_toList]

theorem text_of_decode {text : String} (h : decode s.bytes = .ok text) :
    s.text = text.toList := by
  rw [decode_eq_ok_iff] at h
  rw [s.text_eq, h, decodeLossy_encode]

theorem IsUtf8.bytes_eq (hs : s.IsUtf8) :
    s.bytes = s.text.flatMap String.utf8EncodeChar := by
  rw [hs, encode_ofList]

theorem IsUtf8.size_eq_width (hs : s.IsUtf8) : s.size = width s.text := by
  rw [s.size_eq, hs.bytes_eq, width]

theorem IsUtf8.width_eq_of_isPlain (hs : s.IsUtf8) (h : s.isPlain = true) :
    width s.text = s.text.length := by
  rw [← hs.size_eq_width]
  simpa [isPlain] using h

/-- The characters of the file are those of its text. -/
theorem Marks.ofText {n c : Nat} (h : s.Marks n c) :
    Text.Utf8.Marks (String.ofList s.text).toList n c := by
  rwa [String.toList_ofList]

theorem Marks.lt_iff {n c m e : Nat} (hn : s.Marks n c) (hm : s.Marks m e) : n < m ↔ c < e :=
  hn.ofText.lt_iff hm.ofText

theorem Marks.le_iff {n c m e : Nat} (hn : s.Marks n c) (hm : s.Marks m e) : n ≤ m ↔ c ≤ e :=
  hn.ofText.le_iff hm.ofText

theorem Marks.eq_iff {n c m e : Nat} (hn : s.Marks n c) (hm : s.Marks m e) : n = m ↔ c = e := by
  have h := hm.lt_iff hn
  have h' := hn.lt_iff hm
  omega

theorem Marks.le_size {n c : Nat} (hs : s.IsUtf8) (h : s.Marks n c) : n ≤ s.bytes.length := by
  rw [← s.size_eq, hs.size_eq_width]
  exact Text.Utf8.Marks.le_width h

/-- The number of characters before an octet where one starts. -/
theorem Marks.charOffset_eq {n c : Nat} (hs : s.IsUtf8) (h : s.Marks n c) :
    s.charOffset n = c := by
  unfold Source.charOffset
  by_cases hplain : s.isPlain
  · rw [if_pos hplain, h.2, width_take_of_width_eq (hs.width_eq_of_isPlain hplain) h.1]
  · rw [if_neg hplain, hs, h.ofText.charOffset_eq]

/-- The number of octets before a character. -/
theorem Marks.byteOffset_eq {n c : Nat} (hs : s.IsUtf8) (h : s.Marks n c) :
    s.byteOffset c = n := by
  unfold Source.byteOffset
  by_cases hplain : s.isPlain
  · rw [if_pos hplain, h.2, width_take_of_width_eq (hs.width_eq_of_isPlain hplain) h.1]
  · rw [if_neg hplain, Text.before_natCast, encode_ofList, h.2, width]

/-- What a node covers is the text between the characters at its ends. -/
theorem textOf_eq {t : Tree} {c e : Nat} (hs : s.IsUtf8) (hstart : s.Marks t.start c)
    (hstop : s.Marks t.stop e) (hle : t.start ≤ t.stop) :
    s.textOf t = String.ofList ((s.text.take e).drop c) := by
  have hoctets := hstart.ofText.between_encode hstop.ofText hle
  rw [textOf, octets, ← List.drop_take, hs, hoctets, decodeLossy_encode, String.toList_ofList]

/-- The line of a character is there; the column counts from its start. -/
theorem exists_lineStart (s : Source) {offset : Int} (h : 0 ≤ offset) :
    ∃ start : Nat, s.lineStart? ((s.lineColumn offset).1 - 1) = some start ∧
      (s.lineColumn offset).2 = offset - start + 1 ∧ 1 ≤ (s.lineColumn offset).1 ∧
      (s.lineColumn offset).1 ≤ s.lineStarts.length := by
  generalize hpassed :
    (s.lineStarts.takeWhile fun (start : Nat) => decide ((start : Int) ≤ offset)) = passed
  have hne : 1 ≤ passed.length := by
    rw [← hpassed, s.lineStarts_eq, List.takeWhile_cons, if_pos (by simpa using h)]
    simp
  have hle : passed.length ≤ s.lineStarts.length := by
    rw [← hpassed]
    exact (List.takeWhile_prefix _).length_le
  have hline : (s.lineColumn offset).1 = passed.length := by
    simp only [lineColumn, hpassed]
    omega
  have hlast : s.lineStart? ((passed.length : Int) - 1) = s.lineStarts[passed.length - 1]? := by
    rw [lineStart?, if_pos (by omega)]
    congr 1
    omega
  obtain ⟨start, hstart⟩ : ∃ start, s.lineStarts[passed.length - 1]? = some start :=
    ⟨_, List.getElem?_eq_getElem (by omega)⟩
  refine ⟨start, ?_, ?_, ?_, ?_⟩
  · rw [hline, hlast, hstart]
  · simp only [lineColumn, hpassed, hlast, hstart, Option.getD_some]
  · rw [hline]
    omega
  · rw [hline]
    omega

/-- The line and the column of a character lead back to it. -/
theorem offset?_lineColumn (s : Source) {offset : Int} (h : 0 ≤ offset) :
    s.offset? (s.lineColumn offset).1 (s.lineColumn offset).2 = some offset := by
  obtain ⟨start, hstart, hcolumn, hlow, hhigh⟩ := s.exists_lineStart h
  rw [offset?, if_neg (by omega), hstart]
  show some ((start : Int) + (s.lineColumn offset).2 - 1) = some offset
  rw [hcolumn]
  congr 1
  omega

end Source

end Redline
