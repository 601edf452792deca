import Redline.Proofs.Json.Values

/-!
# No control character is written

A control character in a text is written as an escape, so a document without floating-point numbers
has none but those that its layout puts between the marks.
-/

namespace Redline.Json

variable {c : Char}

theorem control_not_mem_writeChar (hc : c.toNat < 0x20) (d : Char) : c ∉ writeChar d := by
  have hdigit : ∀ n < 16, c ≠ Nat.digitChar n := by
    have hall : ∀ k : Fin 16, 0x20 ≤ (Nat.digitChar k).toNat := by decide
    rintro n hn rfl
    exact absurd hc (Nat.not_lt.2 (hall ⟨n, hn⟩))
  have hmark : ∀ d : Char, 0x20 ≤ d.toNat → c ≠ d := by
    rintro d hd rfl
    omega
  rw [writeChar.eq_def]
  split
  case h_8 =>
    split_ifs with hcontrol
    · simp only [controlEscape, List.mem_cons, List.not_mem_nil, or_false, not_or]
      refine ⟨hmark _ (by decide), hmark _ (by decide), hmark _ (by decide), hmark _ (by decide),
        hdigit _ ?_, hdigit _ (Nat.mod_lt _ (by decide))⟩
      omega
    · rw [List.mem_singleton]
      exact hmark d (Nat.not_lt.1 hcontrol)
  all_goals
    simp only [List.mem_cons, List.not_mem_nil, or_false, not_or]
    exact ⟨hmark _ (by decide), hmark _ (by decide)⟩

theorem control_not_mem_writeString (hc : c.toNat < 0x20) (s : String) : c ∉ writeString s := by
  have hquote : c ≠ '"' := by
    rintro rfl
    exact absurd hc (by decide)
  have hbody : c ∉ s.toList.flatMap writeChar := fun hmem => by
    obtain ⟨d, -, hd⟩ := List.mem_flatMap.1 hmem
    exact control_not_mem_writeChar hc d hd
  simp [writeString, hquote, hbody]

theorem control_not_mem_ofInt (hc : c.toNat < 0x20) (k : Int) :
    c ∉ (Text.Numeral.ofInt k).toList := by
  have hdigits : ∀ n, c ∉ Text.Numeral.digitsOf n := fun n hmem => by
    have hdigit := isDigit_of_mem_digitsOf hmem
    simp only [isDigit, Bool.and_eq_true, decide_eq_true_eq] at hdigit
    have hlow : '0'.toNat ≤ c.toNat := hdigit.1
    exact absurd hlow (by rw [show '0'.toNat = 48 from rfl]; omega)
  cases k with
  | ofNat n =>
      rw [Text.Numeral.ofInt, String.toList_ofList]
      exact hdigits n
  | negSucc n =>
      rw [Text.Numeral.ofInt, String.toList_ofList, List.mem_cons, not_or]
      refine ⟨?_, hdigits (n + 1)⟩
      rintro rfl
      exact absurd hc (by decide)

section

variable {l : Layout} (hline : ∀ level, c ∉ l.line level)
include hline

theorem control_not_mem_writeItems (hc : c.toNat < 0x20) {items : List Json}
    (h : ∀ j ∈ items, ∀ level, c ∉ l.write level j) (level : Nat) :
    c ∉ l.writeItems level items := by
  have hcomma : c ≠ ',' := by
    rintro rfl
    exact absurd hc (by decide)
  induction items with
  | nil => simp [Layout.writeItems]
  | cons item items ih =>
      have hitem := h item List.mem_cons_self level
      have hrest := ih fun j hj => h j (List.mem_cons_of_mem _ hj)
      simp [Layout.writeItems, hcomma, hline, hitem, hrest]

theorem control_not_mem_writeMembers (hc : c.toNat < 0x20) (hgap : c ∉ l.gap)
    {members : List (String × Json)} (h : ∀ m ∈ members, ∀ level, c ∉ l.write level m.2)
    (level : Nat) : c ∉ l.writeMembers level members := by
  have hmark : c ≠ ',' ∧ c ≠ ':' := by
    constructor
    all_goals
      rintro rfl
      exact absurd hc (by decide)
  induction members with
  | nil => simp [Layout.writeMembers]
  | cons m members ih =>
      have hvalue := h m List.mem_cons_self level
      have hrest := ih fun e he => h e (List.mem_cons_of_mem _ he)
      simp [Layout.writeMembers, hmark, hline, hgap, control_not_mem_writeString hc, hvalue, hrest]

/-- A control character that the layout does not write is not written. -/
theorem control_not_mem_write (hc : c.toNat < 0x20) (hgap : c ∉ l.gap) {j : Json}
    (h : FloatFree j) (level : Nat) : c ∉ l.write level j := by
  have hne : ∀ {cs : List Char}, cs.all (fun d => decide (0x20 ≤ d.toNat)) = true → c ∉ cs :=
    fun hall hmem => absurd hc (Nat.not_lt.2 (of_decide_eq_true (List.all_eq_true.1 hall c hmem)))
  have hmark : ∀ d : Char, 0x20 ≤ d.toNat → c ≠ d := by
    rintro d hd rfl
    omega
  induction h generalizing level with
  | null =>
      rw [Layout.write]
      exact hne (by decide)
  | bool b =>
      rw [Layout.write]
      cases b <;> exact hne (by decide)
  | int n =>
      rw [Layout.write]
      exact control_not_mem_ofInt hc n
  | str s =>
      rw [Layout.write]
      exact control_not_mem_writeString hc s
  | @arr items _ ih =>
      cases items with
      | nil =>
          rw [Layout.write]
          exact hne (by decide)
      | cons item items =>
          have hitem := ih item List.mem_cons_self (level + 1)
          have hrest := control_not_mem_writeItems hline hc
            (fun j hj => ih j (List.mem_cons_of_mem _ hj)) (level + 1)
          simp [Layout.write, hmark '[' (by decide), hmark ']' (by decide), hline, hitem, hrest]
  | @obj members _ ih =>
      cases members with
      | nil =>
          rw [Layout.write]
          exact hne (by decide)
      | cons m members =>
          have hvalue := ih m List.mem_cons_self (level + 1)
          have hrest := control_not_mem_writeMembers hline hc hgap
            (fun e he => ih e (List.mem_cons_of_mem _ he)) (level + 1)
          simp [Layout.write, hmark '\x7b' (by decide), hmark '\x7d' (by decide),
            hmark ':' (by decide), hline, hgap, control_not_mem_writeString hc, hvalue, hrest]

end

theorem return_not_mem_write {j : Json} (h : FloatFree j) (level : Nat) :
    '\r' ∉ Json.write level j := by
  rw [← Layout.write_pretty]
  refine control_not_mem_write (fun level => ?_) (by decide) (by decide) h level
  simp [Layout.pretty, newline]

/-- A document on one line has no control character. -/
theorem control_not_mem_compact {j : Json} (h : FloatFree j) (hc : c.toNat < 0x20) :
    c ∉ (compact j).toList := by
  rw [compact, String.toList_ofList]
  exact control_not_mem_write (fun _ => List.not_mem_nil) hc List.not_mem_nil h 0

end Redline.Json
