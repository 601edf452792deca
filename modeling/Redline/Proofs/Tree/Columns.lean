import Mathlib.Data.List.TakeWhile
import Redline.Proofs.Position
import Redline.Proofs.Tree.WellFormed

/-!
# Positions that are in their line

A column is not checked against its line, so a position may lead to an offset that is not in the
line. The identifier that is found there stands in another line then. What is found at a position is
an identifier of that line around that column exactly when the line has the column.
-/

namespace Redline

open Text

/-! ### Where the lines start -/

theorem lineStartsFrom_append (offset : Nat) (cs ds : List Char) :
    lineStartsFrom offset (cs ++ ds) =
      lineStartsFrom offset cs ++ lineStartsFrom (offset + cs.length) ds := by
  induction cs generalizing offset with
  | nil => rfl
  | cons c cs ih =>
      have hlength : offset + (c :: cs).length = offset + 1 + cs.length := by
        rw [List.length_cons]
        omega
      rw [List.cons_append, lineStartsFrom, lineStartsFrom, ih, hlength]
      split_ifs <;> rfl

theorem lineStartsFrom_of_notMem {offset : Nat} {cs : List Char} (h : '\n' ∉ cs) :
    lineStartsFrom offset cs = [] := by
  induction cs generalizing offset with
  | nil => rfl
  | cons c cs ih =>
      rw [List.mem_cons, not_or] at h
      rw [lineStartsFrom, if_neg (Ne.symm h.1), ih h.2]

theorem range_of_mem_lineStartsFrom {offset start : Nat} {cs : List Char}
    (h : start ∈ lineStartsFrom offset cs) : offset < start ∧ start ≤ offset + cs.length := by
  induction cs generalizing offset with
  | nil => cases h
  | cons c cs ih =>
      rw [lineStartsFrom] at h
      rw [List.length_cons]
      split_ifs at h with hc
      · rcases List.mem_cons.1 h with rfl | h
        · omega
        · have := ih h
          omega
      · have := ih h
        omega

/-- Every line but the first starts behind a line feed. -/
theorem length_lineStartsFrom (offset : Nat) (cs : List Char) :
    (lineStartsFrom offset cs).length + 1 = (splitLines cs).length := by
  induction cs generalizing offset with
  | nil => rfl
  | cons c cs ih =>
      have hrest := ih (offset + 1)
      rw [splitLines] at hrest ⊢
      rw [lineStartsFrom, splitAtChar]
      split_ifs with hc
      · rw [List.length_cons, List.length_cons, hrest]
      · cases hparts : splitAtChar '\n' cs with
        | nil => exact absurd hparts (splitAtChar_ne_nil '\n' cs)
        | cons part parts => rw [hrest, hparts, List.length_cons, List.length_cons]

variable {above : List (List Char)} {back : List Char}

theorem length_lineStartsFrom_ended (habove : ∀ l ∈ above, '\n' ∉ l) (offset : Nat) :
    (lineStartsFrom offset (ended above)).length = above.length := by
  induction above generalizing offset with
  | nil => rfl
  | cons line above ih =>
      rw [ended_cons, lineStartsFrom_append,
        lineStartsFrom_of_notMem (habove line List.mem_cons_self), List.nil_append, lineStartsFrom,
        if_pos rfl, List.length_cons, ih fun l hl => habove l (List.mem_cons_of_mem _ hl),
        List.length_cons]

/-- The line behind some lines starts behind them. -/
theorem getElem?_lineStartsFrom_ended (habove : ∀ l ∈ above, '\n' ∉ l) (offset : Nat) :
    (offset :: lineStartsFrom offset (ended above))[above.length]? =
      some (offset + (ended above).length) := by
  induction above generalizing offset with
  | nil => rfl
  | cons line above ih =>
      rw [ended_cons, lineStartsFrom_append,
        lineStartsFrom_of_notMem (habove line List.mem_cons_self), List.nil_append, lineStartsFrom,
        if_pos rfl, List.length_cons, List.getElem?_cons_succ,
        ih fun l hl => habove l (List.mem_cons_of_mem _ hl), List.length_append, List.length_cons]
      congr 1
      omega

namespace Source

variable {s : Source}

theorem lineStarts_eq_append (h : s.text = ended above ++ back) :
    s.lineStarts = (0 :: lineStartsFrom 0 (ended above)) ++
      lineStartsFrom (ended above).length back := by
  rw [s.lineStarts_eq, h, lineStartsFrom_append, List.cons_append, Nat.zero_add]

theorem lineStart?_ended (h : s.text = ended above ++ back) (habove : ∀ l ∈ above, '\n' ∉ l) :
    s.lineStart? (above.length : Nat) = some (ended above).length := by
  have hlength := length_lineStartsFrom_ended habove 0
  rw [lineStart?, if_pos (Int.natCast_nonneg _), Int.toNat_natCast, lineStarts_eq_append h,
    List.getElem?_append_left (by rw [List.length_cons]; omega),
    getElem?_lineStartsFrom_ended habove, Nat.zero_add]

theorem length_lineStarts (s : Source) : s.lineStarts.length = (splitLines s.text).length := by
  rw [s.lineStarts_eq, List.length_cons, length_lineStartsFrom]

/-- The text from a line on, with the lines above it. -/
theorem exists_above_of_le {line : Int} (hlow : 1 ≤ line) (hhigh : line ≤ s.lineStarts.length) :
    ∃ above back, s.text = ended above ++ back ∧ (∀ l ∈ above, '\n' ∉ l) ∧
      line = above.length + 1 := by
  have hcount : (line - 1).toNat < (splitLines s.text).length := by
    have hlength := s.length_lineStarts
    omega
  obtain ⟨above, back, htext, habove, hlength⟩ := exists_above hcount
  exact ⟨above, back, htext, habove, by omega⟩

/-- The offset of a column counts from behind the lines above. -/
theorem offset?_ended (h : s.text = ended above ++ back) (habove : ∀ l ∈ above, '\n' ∉ l)
    (column : Int) :
    s.offset? ((above.length : Int) + 1) column = some ((ended above).length + column - 1) := by
  have hindex : (above.length : Int) + 1 - 1 = (above.length : Nat) := by omega
  have hcount : above.length + 1 ≤ s.lineStarts.length := by
    rw [lineStarts_eq_append h, List.length_append, List.length_cons,
      length_lineStartsFrom_ended habove]
    omega
  rw [offset?, if_neg (by omega), hindex, lineStart?_ended h habove]
  rfl

theorem lineCount_of_offset? {line column o : Int} (h : s.offset? line column = some o) :
    1 ≤ line ∧ line ≤ s.lineStarts.length := by
  rw [offset?] at h
  split_ifs at h with hline
  omega

/-- The lines that start at or before a character in the line behind some lines are these lines and
that line. -/
theorem takeWhile_lineStarts_ended (h : s.text = ended above ++ back) {r : Nat}
    (hback : '\n' ∉ back.take r) :
    (s.lineStarts.takeWhile fun (start : Nat) =>
      decide ((start : Int) ≤ (((ended above).length + r : Nat) : Int))) =
        0 :: lineStartsFrom 0 (ended above) := by
  have hfirst : ∀ start ∈ 0 :: lineStartsFrom 0 (ended above),
      decide ((start : Int) ≤ (((ended above).length + r : Nat) : Int)) = true := by
    intro start hstart
    rw [decide_eq_true_iff]
    rcases List.mem_cons.1 hstart with rfl | hstart
    · omega
    · have := range_of_mem_lineStartsFrom hstart
      omega
  have hrest : ∀ start ∈ lineStartsFrom (ended above).length back,
      ¬decide ((start : Int) ≤ (((ended above).length + r : Nat) : Int)) = true := by
    intro start hstart
    rw [← List.take_append_drop r back, lineStartsFrom_append, lineStartsFrom_of_notMem hback,
      List.nil_append, List.length_take] at hstart
    have := range_of_mem_lineStartsFrom hstart
    rw [List.length_drop] at this
    rw [decide_eq_true_iff]
    omega
  rw [lineStarts_eq_append h, List.takeWhile_append_of_pos hfirst]
  cases hstarts : lineStartsFrom (ended above).length back with
  | nil => rw [List.takeWhile_nil, List.append_nil]
  | cons start starts =>
      rw [List.takeWhile_cons, if_neg (hrest start (hstarts ▸ List.mem_cons_self)),
        List.append_nil]

/-- The line and the column of a character that is in the line behind some lines. -/
theorem lineColumn_ended (h : s.text = ended above ++ back) (habove : ∀ l ∈ above, '\n' ∉ l)
    {r : Nat} (hback : '\n' ∉ back.take r) :
    s.lineColumn (((ended above).length + r : Nat) : Int) =
      ((above.length : Int) + 1, (r : Int) + 1) := by
  have hlength := length_lineStartsFrom_ended habove 0
  have hindex : (((0 :: lineStartsFrom 0 (ended above)).length : Nat) : Int) - 1 =
      (above.length : Nat) := by
    rw [List.length_cons]
    omega
  simp only [lineColumn, takeWhile_lineStarts_ended h hback, hindex, lineStart?_ended h habove,
    Option.getD_some]
  congr 1
  omega

/-! ### The way down to an octet -/

mutual

/-- What is found below a node that covers an octet covers the octet. -/
theorem eq_or_covers_of_innermost {wanted : String → Bool} {target : Int} {found : Option Spot}
    {n : Spot} (above : List Tree) (address : Address) (t : Tree) (hcovers : covers target t = true)
    (h : innermost wanted target found above address t = some n) :
    found = some n ∨ covers target n.tree = true := by
  match t with
  | .node label children =>
      rw [innermost] at h
      rcases eq_or_covers_of_innermostAmong _ _ 0 children h with hhere | hn
      · split_ifs at hhere with hwanted
        · cases hhere
          exact .inr hcovers
        · exact .inl hhere
      · exact .inr hn

theorem eq_or_covers_of_innermostAmong {wanted : String → Bool} {target : Int}
    {found : Option Spot} {n : Spot} (above : List Tree) (address : Address) (number : Nat)
    (ts : List Tree) (h : innermostAmong wanted target found above address number ts = some n) :
    found = some n ∨ covers target n.tree = true := by
  match ts with
  | [] => exact .inl h
  | t :: ts =>
      rw [innermostAmong] at h
      split_ifs at h with hcovers
      · exact eq_or_covers_of_innermost _ _ t hcovers h
      · exact eq_or_covers_of_innermostAmong _ _ (number + 1) ts h

end

/-- A wanted node that is found on the way down from a root that is not wanted covers the octet. -/
theorem covers_of_innermost {wanted : String → Bool} {target : Int} {t : Tree} {n : Spot}
    (hroot : wanted t.kind = false) (h : innermost wanted target none [] [] t = some n) :
    covers target n.tree = true := by
  obtain ⟨label, children⟩ := t
  have hroot : ¬wanted label.kind = true := Bool.eq_false_iff.1 hroot
  rw [innermost, if_neg hroot] at h
  exact (eq_or_covers_of_innermostAmong _ _ 0 children h).resolve_left nofun

/-! ### Positions in a line -/

/-- The line is there and long enough for the column. -/
def HasColumn (s : Source) (line column : Int) : Prop :=
  1 ≤ column ∧ ∃ text, s.lineText? line = some text ∧ column ≤ text.length

/-- A tree as the grammar of scripts gives it: the root is no identifier, and none goes on behind
the end of a line. -/
structure Lined (s : Source) : Prop where
  root : NodeKind.isIdentifier s.tree.kind = false
  name : ∀ n, s.Identifier n → '\n' ∉ (s.textOf n.tree).toList

theorem lineText?_ended (h : s.text = ended above ++ back) (habove : ∀ l ∈ above, '\n' ∉ l) :
    s.lineText? ((above.length : Int) + 1) = some (String.ofList (back.takeWhile (· != '\n'))) := by
  have hline : (above.length : Int) + 1 - 1 = (above.length : Nat) := by omega
  rw [lineText?, hline, lineStart?_ended h habove, Option.map_some, h, List.drop_left]

theorem length_le_takeWhile {cs : List Char} {r : Nat} (h : '\n' ∉ cs.take r)
    (hr : r ≤ cs.length) : r ≤ (cs.takeWhile (· != '\n')).length := by
  have hall : ∀ c ∈ cs.take r, (c != '\n') = true := by
    intro c hc
    rw [bne_iff_ne]
    rintro rfl
    exact h hc
  conv_rhs => rw [← List.take_append_drop r cs]
  rw [List.takeWhile_append_of_pos hall, List.length_append, List.length_take]
  omega

theorem notMem_take_of_le {cs : List Char} {r : Nat} (h : r ≤ (cs.takeWhile (· != '\n')).length) :
    '\n' ∉ cs.take r := by
  conv => rw [← List.takeWhile_append_dropWhile (p := fun c => c != '\n') (l := cs)]
  rw [List.take_append_of_le_length h]
  intro hmem
  exact absurd (List.mem_takeWhile_imp (List.mem_of_mem_take hmem)) (by decide)

/-- A text around one of its characters: the lines above, and what stands before the character in
its line. -/
theorem exists_above_of_le_length {c : Nat} (h : c ≤ s.text.length) :
    ∃ above front, s.text = ended above ++ (front ++ s.text.drop c) ∧ (∀ l ∈ above, '\n' ∉ l) ∧
      '\n' ∉ front ∧ c = (ended above).length + front.length := by
  obtain ⟨above, front, htake, habove, hfront⟩ := exists_lines (s.text.take c)
  refine ⟨above, front, ?_, habove, hfront, ?_⟩
  · rw [← List.append_assoc, ← htake, List.take_append_drop]
  · rw [← List.length_append, ← htake, List.length_take, Nat.min_eq_left h]

variable {n : Spot} {line column : Int}

/-- The position is in the text of an identifier. -/
def Spans (s : Source) (n : Spot) (line column : Int) : Prop :=
  (s.rangeOf n.tree).startLine = line ∧ (s.rangeOf n.tree).startColumn ≤ column ∧
    column < (s.rangeOf n.tree).startColumn + (s.textOf n.tree).length

/-- The line of an identifier has every column of the identifier. -/
theorem hasColumn_of_spans (hw : s.WellFormed) (hutf8 : s.IsUtf8) (hl : s.Lined)
    (hn : s.Identifier n) (h : s.Spans n line column) : s.HasColumn line column := by
  obtain ⟨c, e, hc, he, hlt, htext⟩ := hw.exists_marks hutf8 hn
  have hname := hl.name n hn
  rw [Spans, rangeOf_of_marks hutf8 hc he, htext] at h
  rw [htext, String.toList_ofList] at hname
  obtain ⟨above, front, hsplit, habove, hfront, hplace⟩ := exists_above_of_le_length hc.1
  have hbefore : (front ++ s.text.drop c).take front.length = front := List.take_left
  have hposition := lineColumn_ended hsplit habove (r := front.length) (by rwa [hbefore])
  rw [← hplace] at hposition
  rw [hposition, String.length_ofList, List.length_drop, List.length_take,
    Nat.min_eq_left he.1] at h
  dsimp only at h
  obtain ⟨rfl, hlow, hhigh⟩ := h
  refine ⟨by omega, _, lineText?_ended hsplit habove, ?_⟩
  have hfree : '\n' ∉ (front ++ s.text.drop c).take (front.length + (e - c)) := by
    rw [List.take_length_add_append, ← List.drop_take, List.mem_append, not_or]
    exact ⟨hfront, hname⟩
  have hlong := length_le_takeWhile hfree (by
    have := he.1
    rw [List.length_append, List.length_drop]
    omega)
  rw [String.length_ofList]
  omega

/-- A text that goes over the start of a line has a line feed. -/
theorem newline_mem_of_lt {c e : Nat} (h : s.text = ended above ++ back)
    (hc : c < (ended above).length) (he : (ended above).length ≤ e) :
    '\n' ∈ (s.text.take e).drop c := by
  rcases List.eq_nil_or_concat above with rfl | ⟨lines, line, rfl⟩
  · exact absurd hc (Nat.not_lt_zero c)
  rw [List.concat_eq_append, ended_append, ended_cons, ended_nil, ← List.append_assoc] at h hc he
  rw [List.length_append, List.length_singleton] at hc he
  have hfeed : ((s.text.take e).drop c)[(ended lines ++ line).length - c]? = some '\n' := by
    rw [List.getElem?_drop, Nat.add_sub_cancel' (by omega), List.getElem?_take_of_lt (by omega), h,
      List.append_assoc, List.getElem?_append_right (Nat.le_refl _), Nat.sub_self]
    rfl
  exact List.mem_of_getElem? hfeed

/-- For a column that its line has, the search goes down to the octet of that character. -/
theorem exists_innermost_of_spotAt? {wanted : String → Bool} (hutf8 : s.IsUtf8)
    (hfound : s.spotAt? wanted line column = some n) (h : s.HasColumn line column) :
    ∃ above back r, s.text = ended above ++ back ∧ (∀ l ∈ above, '\n' ∉ l) ∧
      line = above.length + 1 ∧ column = (r : Nat) + 1 ∧
      r < (back.takeWhile (· != '\n')).length ∧
      innermost wanted (Utf8.width (s.text.take ((ended above).length + r)) : Nat) none [] []
        s.tree = some n := by
  obtain ⟨hlow, text, hline, hhigh⟩ := h
  rw [spotAt?] at hfound
  cases hoffset : s.offset? line column with
  | none =>
      rw [hoffset] at hfound
      cases hfound
  | some o =>
  obtain ⟨hfirst, hlast⟩ := lineCount_of_offset? hoffset
  obtain ⟨above, back, hsplit, habove, rfl⟩ := exists_above_of_le hfirst hlast
  rw [lineText?_ended hsplit habove] at hline
  obtain rfl := Option.some.inj hline
  rw [String.length_ofList] at hhigh
  obtain ⟨r, rfl⟩ : ∃ r : Nat, column = r + 1 := ⟨(column - 1).toNat, by omega⟩
  have hback := (List.takeWhile_prefix (fun c => c != '\n') (l := back)).length_le
  have hlength := congrArg List.length hsplit
  rw [List.length_append] at hlength
  have hcast : (((ended above).length : Int) + ((r : Int) + 1) - 1) =
      (((ended above).length + r : Nat) : Int) := by omega
  rw [offset?_ended hsplit habove, hcast] at hfound
  dsimp only at hfound
  have hmarks : s.Marks (Utf8.width (s.text.take ((ended above).length + r)))
      ((ended above).length + r) := ⟨by omega, rfl⟩
  rw [if_neg (by omega), hmarks.byteOffset_eq hutf8] at hfound
  exact ⟨above, back, r, hsplit, habove, rfl, rfl, by omega, hfound⟩

/-- What is found at a position that its line has spans the position. -/
theorem spans_of_hasColumn (hw : s.WellFormed) (hutf8 : s.IsUtf8) (hl : s.Lined)
    (hfound : s.spotAt? NodeKind.isIdentifier line column = some n)
    (h : s.HasColumn line column) : s.Spans n line column := by
  have hn := identifier_of_spotAt? hfound
  obtain ⟨c, e, hc, he, hlt, htext⟩ := hw.exists_marks hutf8 hn
  have hname := hl.name n hn
  rw [htext, String.toList_ofList] at hname
  obtain ⟨above, back, r, hsplit, habove, rfl, rfl, hr, hinner⟩ :=
    exists_innermost_of_spotAt? hutf8 hfound h
  have hback := (List.takeWhile_prefix (fun c => c != '\n') (l := back)).length_le
  have hmarks : s.Marks (Utf8.width (s.text.take ((ended above).length + r)))
      ((ended above).length + r) := ⟨by rw [hsplit, List.length_append]; omega, rfl⟩
  obtain ⟨hstart, hstop⟩ := covers_iff.1 (covers_of_innermost hl.root hinner)
  have hce : c ≤ (ended above).length + r ∧ (ended above).length + r < e :=
    ⟨(hc.le_iff hmarks).1 (Int.ofNat_le.1 hstart), (hmarks.lt_iff he).1 (Int.ofNat_lt.1 hstop)⟩
  -- The name has no line feed, so it starts in the line of the position.
  have hstarts : (ended above).length ≤ c := by
    refine Nat.le_of_not_lt fun hlt => hname (newline_mem_of_lt hsplit hlt ?_)
    omega
  obtain ⟨r', rfl⟩ := Nat.exists_eq_add_of_le hstarts
  have hposition := lineColumn_ended hsplit habove (r := r') (notMem_take_of_le (by omega))
  rw [Spans, rangeOf_of_marks hutf8 hc he, htext, hposition, String.length_ofList,
    List.length_drop, List.length_take, Nat.min_eq_left he.1]
  refine ⟨rfl, ?_, ?_⟩
  · show ((r' : Int) + 1) ≤ (r : Int) + 1
    omega
  · show (r : Int) + 1 < ((r' : Int) + 1) + _
    omega

end Source

end Redline
