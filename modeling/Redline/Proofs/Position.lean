import Redline.Proofs.Text.Offsets
import Redline.Proofs.Text.Parts

/-!
# Lines and columns of a text

A text is its lines, each but the last with a line feed behind it (`Text.ended`). The columns of a
line count from behind the lines above it, and the line and the column of an offset lead back to it.
-/

namespace Redline

namespace Text

/-- Lines with a line feed behind each. -/
def ended (lines : List (List Char)) : List Char :=
  lines.flatMap (· ++ ['\n'])

@[simp] theorem ended_nil : ended [] = [] := rfl

theorem ended_cons (line : List Char) (lines : List (List Char)) :
    ended (line :: lines) = line ++ '\n' :: ended lines := by
  simp [ended]

theorem ended_append (lines more : List (List Char)) :
    ended (lines ++ more) = ended lines ++ ended more :=
  List.flatMap_append

/-- A text with a line feed behind it is its lines. -/
theorem ended_splitLines (cs : List Char) : ended (splitLines cs) = cs ++ ['\n'] := by
  induction cs with
  | nil => rfl
  | cons c cs ih =>
      rw [splitLines] at ih ⊢
      rw [splitAtChar]
      split_ifs with hc
      · rw [hc, ended_cons, ih, List.nil_append, List.cons_append]
      · cases hparts : splitAtChar '\n' cs with
        | nil => exact absurd hparts (splitAtChar_ne_nil '\n' cs)
        | cons part parts =>
            rw [hparts, ended_cons] at ih
            rw [ended_cons, List.cons_append, ih, List.cons_append]

/-- The text up to the end of one of its lines. -/
theorem exists_eq_of_splitLines {cs line : List Char} {above below : List (List Char)}
    (h : splitLines cs = above ++ line :: below) : ∃ tail, cs = ended above ++ line ++ tail := by
  have hcs := ended_splitLines cs
  rw [h, ended_append, ended_cons] at hcs
  have hprefix : ended above ++ line <+: cs ++ ['\n'] := by
    rw [← hcs, ← List.append_assoc]
    exact List.prefix_append _ _
  have hlength := congrArg List.length hcs
  simp only [List.length_append, List.length_cons, List.length_nil] at hlength
  obtain ⟨tail, htail⟩ := List.prefix_of_prefix_length_le hprefix (List.prefix_append cs ['\n'])
    (by rw [List.length_append]; omega)
  exact ⟨tail, htail.symm⟩

theorem newline_notMem_of_mem_splitLines {cs line : List Char} (h : line ∈ splitLines cs) :
    '\n' ∉ line :=
  notMem_of_mem_splitAtChar h

/-- A text as whole lines and the characters after them. -/
theorem exists_lines (cs : List Char) :
    ∃ lines rest, cs = ended lines ++ rest ∧ (∀ line ∈ lines, '\n' ∉ line) ∧ '\n' ∉ rest := by
  obtain ⟨lines, rest, hlines⟩ :=
    (List.eq_nil_or_concat (splitLines cs)).resolve_left (splitAtChar_ne_nil '\n' cs)
  rw [List.concat_eq_append] at hlines
  have hmem : ∀ line ∈ lines ++ [rest], '\n' ∉ line := fun line hline =>
    newline_notMem_of_mem_splitLines (hlines ▸ hline)
  refine ⟨lines, rest, ?_, fun line hline => hmem line (by simp [hline]), hmem rest (by simp)⟩
  have hcs := ended_splitLines cs
  rw [hlines, ended_append, ended_cons, ended_nil, ← List.append_assoc] at hcs
  exact (List.append_cancel_right hcs).symm

theorem splitLines_ended_append {lines : List (List Char)} (h : ∀ line ∈ lines, '\n' ∉ line)
    (rest : List Char) : splitLines (ended lines ++ rest) = lines ++ splitLines rest := by
  induction lines with
  | nil => rfl
  | cons line lines ih =>
      have hrest := ih fun l hl => h l (List.mem_cons_of_mem _ hl)
      rw [splitLines] at hrest ⊢
      rw [ended_cons, List.append_assoc, List.cons_append,
        splitAtChar_append_cons (h line List.mem_cons_self), hrest, List.cons_append]

/-- The text from one of its lines on, with the lines above it. -/
theorem exists_above {cs : List Char} {k : Nat} (h : k < (splitLines cs).length) :
    ∃ above back, cs = ended above ++ back ∧ (∀ line ∈ above, '\n' ∉ line) ∧ above.length = k := by
  obtain ⟨lines, rest, hcs, hlines, hrest⟩ := exists_lines cs
  have hlength : (splitLines cs).length = lines.length + 1 := by
    rw [hcs, splitLines_ended_append hlines, List.length_append, splitLines,
      splitAtChar_of_notMem hrest, List.length_singleton]
  refine ⟨lines.take k, ended (lines.drop k) ++ rest, ?_,
    fun line hline => hlines line (List.mem_of_mem_take hline), ?_⟩
  · rw [← List.append_assoc, ← ended_append, List.take_append_drop, hcs]
  · rw [List.length_take]
    omega

/-- The first line of a text goes up to its first line feed. -/
theorem getElem?_splitLines_zero (cs : List Char) :
    (splitLines cs)[0]? = some (cs.takeWhile (· != '\n')) := by
  induction cs with
  | nil => rfl
  | cons c cs ih =>
      rw [splitLines] at ih ⊢
      rw [splitAtChar]
      split_ifs with hc
      · rw [hc]
        rfl
      · rw [List.takeWhile_cons, if_pos (bne_iff_ne.2 hc)]
        cases hparts : splitAtChar '\n' cs with
        | nil => exact absurd hparts (splitAtChar_ne_nil '\n' cs)
        | cons part parts =>
            rw [hparts] at ih
            rw [← Option.some.inj ih]
            rfl

theorem count_newline_ended {lines : List (List Char)} (h : ∀ line ∈ lines, '\n' ∉ line) :
    (ended lines).count '\n' = lines.length := by
  induction lines with
  | nil => rfl
  | cons line lines ih =>
      rw [ended_cons, List.count_append, List.count_cons_self,
        List.count_eq_zero.2 (h line List.mem_cons_self),
        ih fun l hl => h l (List.mem_cons_of_mem _ hl), List.length_cons, Nat.zero_add]

/-- The characters at the end of a text, back to the last line feed. -/
theorem takeWhile_reverse_ended_append (lines : List (List Char)) {rest : List Char}
    (hrest : '\n' ∉ rest) :
    (ended lines ++ rest).reverse.takeWhile (· != '\n') = rest.reverse := by
  have hall : ∀ c ∈ rest.reverse, (c != '\n') = true := by
    intro c hc
    rw [bne_iff_ne]
    rintro rfl
    exact hrest (List.mem_reverse.1 hc)
  rw [List.reverse_append, List.takeWhile_append_of_pos hall]
  have hnil : (ended lines).reverse.takeWhile (· != '\n') = [] := by
    rcases List.eq_nil_or_concat lines with rfl | ⟨lines, line, rfl⟩
    · rfl
    · rw [List.concat_eq_append, ended_append, ended_cons, ended_nil, List.reverse_append,
        List.reverse_append]
      rfl
  rw [hnil, List.append_nil]

end Text

namespace Position

theorem foldl_passed (lines : List (List Char)) (passed : Nat) :
    lines.foldl (fun passed l => passed + (l.length + 1)) passed =
      passed + (Text.ended lines).length := by
  induction lines generalizing passed with
  | nil => rfl
  | cons line lines ih =>
      rw [List.foldl_cons, ih, Text.ended_cons, List.length_append, List.length_cons]
      omega

/-- The offset of a column counts from behind the lines above. -/
theorem offset?_of_splitLines {text : String} {above below : List (List Char)}
    (h : Text.splitLines text.toList = above ++ below) (column : Int) :
    offset? text (above.length + 1 : Nat) column =
      some ((Text.ended above).length + column - 1) := by
  have habove : (((above.length + 1 : Nat) : Int) - 1).toNat = above.length := by omega
  rw [offset?, habove, h, if_pos (by rw [List.length_append]; omega), List.take_left, foldl_passed,
    Nat.zero_add]

variable {text : String} {above : List (List Char)} {back : List Char}

/-- The offset of a column of the line behind some lines. -/
theorem offset?_ended (h : text.toList = Text.ended above ++ back)
    (habove : ∀ l ∈ above, '\n' ∉ l) (column : Int) :
    offset? text ((above.length : Int) + 1) column =
      some ((Text.ended above).length + column - 1) :=
  offset?_of_splitLines (by rw [h, Text.splitLines_ended_append habove]) column

/-- The line and the column of a character that is in the line behind some lines. -/
theorem lineColumn_ended (h : text.toList = Text.ended above ++ back)
    (habove : ∀ l ∈ above, '\n' ∉ l) {r : Nat} (hr : r ≤ back.length) (hback : '\n' ∉ back.take r) :
    lineColumn text (((Text.ended above).length + r : Nat) : Int) =
      ((above.length : Int) + 1, (r : Int) + 1) := by
  have hbefore : text.toList.take ((Text.ended above).length + r) =
      Text.ended above ++ back.take r := by
    rw [h, List.take_length_add_append]
  simp only [lineColumn, Text.before_natCast, hbefore, List.count_append,
    Text.count_newline_ended habove, List.count_eq_zero.2 hback,
    Text.takeWhile_reverse_ended_append above hback, List.length_append, List.length_reverse,
    List.length_take, Nat.min_eq_left hr]
  congr 1
  omega

/-- The text of the line behind some lines. -/
theorem lineText_ended (h : text.toList = Text.ended above ++ back)
    (habove : ∀ l ∈ above, '\n' ∉ l) :
    lineText text ((above.length : Int) + 1) =
      String.ofList (back.takeWhile (· != '\n')) := by
  have hindex : ((above.length : Int) + 1 - 1).toNat = above.length := by omega
  rw [lineText, if_pos (by omega), hindex, h, Text.splitLines_ended_append habove, List.getD,
    List.getElem?_append_right (Nat.le_refl _), Nat.sub_self, Text.getElem?_splitLines_zero]
  rfl

/-- The line and the column of an offset lead back to it. -/
theorem offset?_lineColumn {text : String} {offset : Nat} (h : offset ≤ text.length) :
    offset? text (lineColumn text offset).1 (lineColumn text offset).2 = some (offset : Int) := by
  have hle : offset ≤ text.toList.length := by rwa [String.length_toList]
  obtain ⟨lines, rest, hbefore, hlines, hrest⟩ := Text.exists_lines (text.toList.take offset)
  have hlength : (Text.ended lines).length + rest.length = offset := by
    rw [← List.length_append, ← hbefore, List.length_take, Nat.min_eq_left hle]
  have htext : text.toList = Text.ended lines ++ (rest ++ text.toList.drop offset) := by
    rw [← List.append_assoc, ← hbefore, List.take_append_drop]
  have hposition := lineColumn_ended htext hlines (r := rest.length)
    (by rw [List.length_append]; omega) (by rwa [List.take_left])
  rw [hlength] at hposition
  rw [hposition, offset?_ended htext hlines]
  congr 1
  omega

end Position

end Redline
