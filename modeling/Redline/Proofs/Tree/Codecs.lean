import Redline.Proofs.Tree.Columns

/-!
# Two ways to count lines and columns

A source file finds the line of an offset in the table of its line starts; a text alone counts and
cuts at its line feeds. Both give every offset the same line and column, both lead back from there,
and both take the same text for a line.
-/

namespace Redline

namespace Source

open Text

variable {s : Source} {text : String}

/-- Both ways give an offset the same line and column, which lead back to it both ways. -/
theorem position_of_le_length (h : s.text = text.toList) {o : Nat} (ho : o ≤ text.length) :
    s.lineColumn o = Position.lineColumn text o ∧
      Position.offset? text (s.lineColumn o).1 (s.lineColumn o).2 = some (o : Int) ∧
      s.offset? (s.lineColumn o).1 (s.lineColumn o).2 = some (o : Int) := by
  have hle : o ≤ s.text.length := by rwa [h, String.length_toList]
  obtain ⟨above, front, hsplit, habove, hfront, hplace⟩ := exists_above_of_le_length hle
  have htake : (front ++ s.text.drop o).take front.length = front := List.take_left
  have hback : '\n' ∉ (front ++ s.text.drop o).take front.length := by rwa [htake]
  have hsource := lineColumn_ended hsplit habove hback
  have htext := Position.lineColumn_ended (h.symm.trans hsplit) habove
    (by rw [List.length_append]; omega) hback
  rw [← hplace] at hsource htext
  have hsame : s.lineColumn o = Position.lineColumn text o := hsource.trans htext.symm
  refine ⟨hsame, ?_, s.offset?_lineColumn (Int.natCast_nonneg o)⟩
  rw [hsame]
  exact Position.offset?_lineColumn ho

/-- Both ways take the same text for a line. -/
theorem lineText_of_getElem? (h : s.text = text.toList) {k : Nat} {l : List Char}
    (hl : (splitLines text.toList)[k]? = some l) :
    s.lineText? (k + 1) = some (String.ofList l) ∧
      Position.lineText text (k + 1) = String.ofList l := by
  obtain ⟨hk, -⟩ := List.getElem?_eq_some_iff.1 hl
  obtain ⟨above, back, hsplit, habove, rfl⟩ := exists_above hk
  rw [hsplit, splitLines_ended_append habove, List.getElem?_append_right (Nat.le_refl _),
    Nat.sub_self, getElem?_splitLines_zero] at hl
  obtain rfl := Option.some.inj hl
  exact ⟨lineText?_ended (h.trans hsplit) habove, Position.lineText_ended hsplit habove⟩

/-- A column of a line, up to the one behind its last character, has an offset, whose line and
column it is. -/
theorem exists_offset_of_column {k r : Nat} {l : List Char}
    (hl : (splitLines text.toList)[k]? = some l) (hr : r ≤ l.length) :
    ∃ o : Nat, o ≤ text.length ∧ Position.offset? text (k + 1) (r + 1) = some (o : Int) ∧
      Position.lineColumn text o = ((k : Int) + 1, (r : Int) + 1) := by
  obtain ⟨hk, -⟩ := List.getElem?_eq_some_iff.1 hl
  obtain ⟨above, back, hsplit, habove, rfl⟩ := exists_above hk
  rw [hsplit, splitLines_ended_append habove, List.getElem?_append_right (Nat.le_refl _),
    Nat.sub_self, getElem?_splitLines_zero] at hl
  obtain rfl := Option.some.inj hl
  have hle := (List.takeWhile_prefix (fun c => c != '\n') (l := back)).length_le
  have hlength := congrArg List.length hsplit
  rw [String.length_toList, List.length_append] at hlength
  refine ⟨(ended above).length + r, by omega, ?_, ?_⟩
  · rw [Position.offset?_ended hsplit habove]
    congr 1
    omega
  · exact Position.lineColumn_ended hsplit habove (by omega) (notMem_take_of_le hr)

/-- The two ways to count lines and columns agree and lead back. Every text is that of a source
file. In one with this text, every offset up to the end has the same line and column both ways, and
these lead back to it both ways. Every line has the same text both ways, that between its line
feeds, and each of its columns, up to the one behind its last character, leads to an offset and
from there back. -/
theorem codecs_agree (text : String) :
    (∃ s : Source, s.text = text.toList) ∧ ∀ s : Source, s.text = text.toList →
      (∀ o : Nat, o ≤ text.length →
        s.lineColumn o = Position.lineColumn text o ∧
          Position.offset? text (s.lineColumn o).1 (s.lineColumn o).2 = some (o : Int) ∧
          s.offset? (s.lineColumn o).1 (s.lineColumn o).2 = some (o : Int)) ∧
      ∀ (k : Nat) (l : List Char), (splitLines text.toList)[k]? = some l →
        s.lineText? (k + 1) = some (String.ofList l) ∧
          Position.lineText text (k + 1) = String.ofList l ∧
          ∀ r : Nat, r ≤ l.length →
            ∃ o : Nat, o ≤ text.length ∧
              Position.offset? text (k + 1) (r + 1) = some (o : Int) ∧
              Position.lineColumn text o = ((k : Int) + 1, (r : Int) + 1) := by
  have hmake := congrArg String.toList (Utf8.decodeLossy_encode text)
  refine ⟨⟨make "" (Utf8.encode text) default, hmake⟩,
    fun s h => ⟨fun o ho => position_of_le_length h ho, fun k l hl => ?_⟩⟩
  obtain ⟨hsource, htext⟩ := lineText_of_getElem? h hl
  exact ⟨hsource, htext, fun r hr => exists_offset_of_column hl hr⟩

end Source

end Redline
