import Mathlib.Tactic.Common
import Redline.Text.Numeral

/-!
# Numerals read back

A whole number written in decimal digits is read as itself: its digits are read one after the other
to the same value, and no margin, sign or separator is among them.
-/

namespace Redline.Text.Numeral

/-- The characters of the decimal digits. -/
theorem digitChar_spec {n : Nat} (h : n < 10) :
    digitValue? (Nat.digitChar n) = some n ∧ Nat.digitChar n ≠ '_' ∧ Nat.digitChar n ≠ '-' ∧
      Nat.digitChar n ≠ '+' ∧ Nat.digitChar n ≠ ':' ∧ isMargin (Nat.digitChar n) = false := by
  have hall : ∀ k : Fin 10, digitValue? (Nat.digitChar k) = some k.val ∧
      Nat.digitChar k ≠ '_' ∧ Nat.digitChar k ≠ '-' ∧ Nat.digitChar k ≠ '+' ∧
      Nat.digitChar k ≠ ':' ∧ isMargin (Nat.digitChar k) = false := by decide +kernel
  exact hall ⟨n, h⟩

theorem digits?_digitChar {d : Nat} (h : d < 10) (value : Nat) (afterDigit : Bool)
    (cs : List Char) :
    digits? value afterDigit (Nat.digitChar d :: cs) = digits? (value * 10 + d) true cs := by
  obtain ⟨hvalue, hline, -⟩ := digitChar_spec h
  rw [digits?]
  · rw [hvalue]
  · exact hline

/-- The digits of a number are read to the number. -/
theorem digits?_digitsOf (n : Nat) (afterDigit : Bool) (cs : List Char) :
    digits? 0 afterDigit (digitsOf n ++ cs) = digits? n true cs := by
  induction n using Nat.strongRecOn generalizing afterDigit cs with
  | _ n ih =>
      rw [digitsOf]
      split_ifs with hsmall
      · rw [List.singleton_append, digits?_digitChar hsmall, Nat.zero_mul, Nat.zero_add]
      · rw [List.append_assoc, List.singleton_append, ih (n / 10) (by omega),
          digits?_digitChar (Nat.mod_lt n (by decide)), Nat.mul_comm, Nat.div_add_mod]

theorem exists_of_mem_digitsOf {n : Nat} {c : Char} (h : c ∈ digitsOf n) :
    ∃ d < 10, c = Nat.digitChar d := by
  induction n using Nat.strongRecOn with
  | _ n ih =>
      rw [digitsOf] at h
      split_ifs at h with hsmall
      · exact ⟨n, hsmall, List.mem_singleton.1 h⟩
      · rcases List.mem_append.1 h with h | h
        · exact ih (n / 10) (by omega) h
        · exact ⟨n % 10, Nat.mod_lt n (by decide), List.mem_singleton.1 h⟩

theorem digitsOf_ne_nil (n : Nat) : digitsOf n ≠ [] := by
  rw [digitsOf]
  split_ifs <;> simp

theorem signed?_digitsOf (n : Nat) : signed? (digitsOf n) = some (n : Int) := by
  have hread := digits?_digitsOf n false []
  rw [List.append_nil] at hread
  obtain ⟨c, cs, hcs⟩ := List.exists_cons_of_ne_nil (digitsOf_ne_nil n)
  obtain ⟨d, hd, hc⟩ := exists_of_mem_digitsOf (n := n) (c := c) (by rw [hcs]; simp)
  obtain ⟨-, -, hminus, hplus, -⟩ := digitChar_spec hd
  rw [hcs] at hread ⊢
  rw [signed?]
  · rw [hread]
    rfl
  · intro rest heq
    exact hminus (hc.symm.trans (List.cons.inj heq).1)
  · intro rest heq
    exact hplus (hc.symm.trans (List.cons.inj heq).1)

/-- The characters of a numeral are a sign and digits. -/
theorem of_mem_ofInt {k : Int} {c : Char} (h : c ∈ (ofInt k).toList) :
    c ≠ ':' ∧ isMargin c = false := by
  have hdigit : ∀ {n : Nat}, c ∈ digitsOf n → c ≠ ':' ∧ isMargin c = false := by
    intro n hmem
    obtain ⟨d, hd, rfl⟩ := exists_of_mem_digitsOf hmem
    obtain ⟨-, -, -, -, hcolon, hmargin⟩ := digitChar_spec hd
    exact ⟨hcolon, hmargin⟩
  cases k with
  | ofNat n =>
      rw [ofInt, String.toList_ofList] at h
      exact hdigit h
  | negSucc n =>
      rw [ofInt, String.toList_ofList] at h
      rcases List.mem_cons.1 h with rfl | h
      · exact ⟨by decide, by decide⟩
      · exact hdigit h

theorem dropWhile_eq_self {α : Type} {p : α → Bool} {xs : List α} (h : ∀ x ∈ xs, p x = false) :
    xs.dropWhile p = xs := by
  cases xs with
  | nil => rfl
  | cons x xs => rw [List.dropWhile_cons_of_neg (by rw [h x (by simp)]; simp)]

/-- A whole number that was written is read as itself. -/
theorem toInt?_ofInt (k : Int) : toInt? (ofInt k) = some k := by
  have hmargin : ∀ c ∈ (ofInt k).toList, isMargin c = false := fun c hc => (of_mem_ofInt hc).2
  rw [toInt?, dropWhile_eq_self hmargin, dropWhile_eq_self fun c hc =>
    hmargin c (List.mem_reverse.1 hc), List.reverse_reverse]
  cases k with
  | ofNat n =>
      rw [ofInt, String.toList_ofList, signed?_digitsOf]
      rfl
  | negSucc n =>
      have hread := digits?_digitsOf (n + 1) false []
      rw [List.append_nil] at hread
      rw [ofInt, String.toList_ofList, signed?, hread]
      rfl

theorem ofInt_injective : Function.Injective ofInt := by
  intro k l h
  have hk := toInt?_ofInt k
  rw [h, toInt?_ofInt] at hk
  exact (Option.some.inj hk).symm

end Redline.Text.Numeral
