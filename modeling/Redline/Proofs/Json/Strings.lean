import Redline.Json.Printer
import Redline.Json.Reader
import Redline.Proofs.Text.Numerals

/-!
# Strings and numbers read back

What the printer writes for a string or a whole number is read as that string or number, whatever
text follows. A string is read character by character, each escape in one step; a number ends where
no digit, point or exponent follows.
-/

namespace Redline.Json

/-! ### Strings -/

theorem hexValue?_digitChar {n : Nat} (h : n < 16) : hexValue? (Nat.digitChar n) = some n := by
  have hall : ∀ k : Fin 16, hexValue? (Nat.digitChar k) = some k.val := by decide
  exact hall ⟨n, h⟩

/-- The digits of a control character's escape give its number. -/
theorem hex4?_controlEscape {n : Nat} (h : n < 0x20) (rest : List Char) :
    hex4? ('0' :: '0' :: Nat.digitChar (n / 16) :: Nat.digitChar (n % 16) :: rest)
      = some (n, rest) := by
  have hzero : hexValue? '0' = some 0 := by decide
  have hvalue : ((0 * 16 + 0) * 16 + n / 16) * 16 + n % 16 = n := by omega
  simp only [hex4?, hzero, hexValue?_digitChar (show n / 16 < 16 by omega),
    hexValue?_digitChar (Nat.mod_lt n (by decide)), Option.bind_eq_bind, Option.bind_some,
    Option.pure_def, hvalue]

theorem unicodeEscape_control {c : Char} (h : c.toNat < 0x20) (place : List Char) (next : Char)
    (rest : List Char) :
    unicodeEscape place ('0' :: '0' :: Nat.digitChar (c.toNat / 16)
      :: Nat.digitChar (c.toNat % 16) :: next :: rest) = .ok (c, next :: rest) := by
  rw [unicodeEscape, hex4?_controlEscape h]
  dsimp only
  rw [if_neg (by omega), Char.ofNat_toNat]

theorem stringBody_plain (opening : List Char) (steps : Nat) (done : List Char) {c : Char}
    (hquote : c ≠ '"') (hslash : c ≠ '\\') (hcontrol : ¬c.toNat < 0x20) (rest : List Char) :
    stringBody opening (steps + 1) done (c :: rest) =
      stringBody opening steps (c :: done) rest := by
  rw [stringBody, if_neg hcontrol]
  all_goals
    intros
    simp_all

/-- A character inside a string is read in one step. -/
theorem stringBody_writeChar (opening : List Char) (steps : Nat) (done : List Char) (c next : Char)
    (rest : List Char) :
    stringBody opening (steps + 1) done (writeChar c ++ next :: rest) =
      stringBody opening steps (c :: done) (next :: rest) := by
  rw [writeChar.eq_def]
  split
  case h_8 c hquote hslash hn hr ht hb hf =>
    split_ifs with hcontrol
    · rw [controlEscape, List.cons_append, List.cons_append, List.cons_append, List.cons_append,
        List.cons_append, List.cons_append, List.nil_append, stringBody,
        unicodeEscape_control hcontrol]
    · exact stringBody_plain opening steps done hquote hslash hcontrol (next :: rest)
  all_goals rfl

theorem writeChar_ne_nil (c : Char) : writeChar c ≠ [] := by
  rw [writeChar.eq_def]
  split
  case h_8 => split_ifs <;> simp [controlEscape]
  all_goals simp

theorem length_le_flatMap_writeChar (cs : List Char) :
    cs.length ≤ (cs.flatMap writeChar).length := by
  induction cs with
  | nil => exact Nat.le_refl 0
  | cons c cs ih =>
      have hpos := List.length_pos_iff.2 (writeChar_ne_nil c)
      rw [List.flatMap_cons, List.length_append, List.length_cons]
      omega

theorem stringBody_flatMap (opening : List Char) (cs rest : List Char) {steps : Nat}
    (done : List Char) (h : cs.length < steps) :
    stringBody opening steps done (cs.flatMap writeChar ++ '"' :: rest) =
      .ok (String.ofList (done.reverse ++ cs), rest) := by
  induction cs generalizing steps done with
  | nil =>
      obtain ⟨steps, rfl⟩ := Nat.exists_eq_succ_of_ne_zero (Nat.ne_of_gt h)
      rw [List.append_nil]
      rfl
  | cons c cs ih =>
      rw [List.length_cons] at h
      obtain ⟨steps, rfl⟩ := Nat.exists_eq_succ_of_ne_zero (Nat.ne_of_gt (Nat.zero_lt_of_lt h))
      have hrest := ih (c :: done) (Nat.lt_of_succ_lt_succ h)
      obtain ⟨next, more, hnext⟩ :
          ∃ next more, cs.flatMap writeChar ++ '"' :: rest = next :: more :=
        List.exists_cons_of_ne_nil (by simp)
      rw [List.flatMap_cons, List.append_assoc, hnext, stringBody_writeChar, ← hnext, hrest]
      simp

/-- A string that was written is read as itself. -/
theorem string_writeString (s : String) (rest : List Char) :
    string (s.toList.flatMap writeChar ++ '"' :: rest) = .ok (s, rest) := by
  have hsteps : s.toList.length < (s.toList.flatMap writeChar ++ '"' :: rest).length + 1 := by
    have hlen := length_le_flatMap_writeChar s.toList
    rw [List.length_append]
    omega
  rw [string, stringBody_flatMap _ _ _ _ hsteps, List.reverse_nil, List.nil_append,
    String.ofList_toList]

/-! ### Whole numbers -/

open Text.Numeral

theorem isDigit_digitChar {n : Nat} (h : n < 10) :
    isDigit (Nat.digitChar n) = true ∧ (Nat.digitChar n).toNat - '0'.toNat = n := by
  have hall : ∀ k : Fin 10,
      isDigit (Nat.digitChar k) = true ∧ (Nat.digitChar k).toNat - '0'.toNat = k.val := by decide
  exact hall ⟨n, h⟩

theorem isDigit_of_mem_digitsOf {n : Nat} {c : Char} (h : c ∈ digitsOf n) : isDigit c = true := by
  obtain ⟨d, hd, rfl⟩ := exists_of_mem_digitsOf h
  exact (isDigit_digitChar hd).1

/-- The digits of a number have its value. -/
theorem digitsValue_digitsOf (n : Nat) : digitsValue (digitsOf n) = n := by
  induction n using Nat.strongRecOn with
  | _ n ih =>
      rw [digitsOf]
      split_ifs with hsmall
      · rw [digitsValue, List.foldl_cons, List.foldl_nil, Nat.zero_mul, Nat.zero_add]
        exact (isDigit_digitChar hsmall).2
      · have hlast := (isDigit_digitChar (Nat.mod_lt n (show 0 < 10 by decide))).2
        have hrest := ih (n / 10) (by omega)
        rw [digitsValue] at hrest ⊢
        rw [List.foldl_append, hrest, List.foldl_cons, List.foldl_nil, hlast]
        omega

/-- The digits of a number do not start with a zero, but for the number zero. -/
theorem head?_digitsOf {n : Nat} (h : 0 < n) : (digitsOf n).head? ≠ some '0' := by
  induction n using Nat.strongRecOn with
  | _ n ih =>
      rw [digitsOf]
      split_ifs with hsmall
      · have hall : ∀ k : Fin 10, 0 < k.val → Nat.digitChar k ≠ '0' := by decide
        simpa using hall ⟨n, hsmall⟩ h
      · have hrest := ih (n / 10) (by omega) (by omega)
        obtain ⟨c, cs, hcs⟩ := List.exists_cons_of_ne_nil (digitsOf_ne_nil (n / 10))
        rwa [hcs] at hrest ⊢

/-- A text before which a number ends: it starts with no digit, point or exponent. -/
def EndsNumber (rest : List Char) : Prop :=
  ∀ c ∈ rest.head?, isDigit c = false ∧ c ≠ '.' ∧ c ≠ 'e' ∧ c ≠ 'E'

variable {rest : List Char}

theorem takeDigits_append {ds : List Char} (hds : ∀ c ∈ ds, isDigit c = true)
    (h : EndsNumber rest) : takeDigits (ds ++ rest) = (ds, rest) := by
  have htake : rest.takeWhile isDigit = [] ∧ rest.dropWhile isDigit = rest := by
    cases rest with
    | nil => exact ⟨rfl, rfl⟩
    | cons c rest =>
        have hc := (h c rfl).1
        exact ⟨by simp [hc], by simp [hc]⟩
  rw [takeDigits, List.takeWhile_append_of_pos hds, List.dropWhile_append_of_pos hds, htake.1,
    htake.2, List.append_nil]

theorem wholePart?_digitsOf (n : Nat) (h : EndsNumber rest) :
    wholePart? (digitsOf n ++ rest) = some (digitsOf n, rest) := by
  have htake := takeDigits_append (fun c hc => isDigit_of_mem_digitsOf (n := n) hc) h
  rcases Nat.eq_zero_or_pos n with rfl | hpos
  · have hzero : digitsOf 0 = ['0'] := by rw [digitsOf]; rfl
    rw [hzero]
    rfl
  · obtain ⟨c, cs, hcs⟩ := List.exists_cons_of_ne_nil (digitsOf_ne_nil n)
    have hfirst := head?_digitsOf hpos
    have hdigit := isDigit_of_mem_digitsOf (n := n) (c := c) (by simp [hcs])
    rw [hcs] at htake hfirst ⊢
    rw [List.cons_append] at htake ⊢
    rw [wholePart?, if_pos hdigit, htake]
    simpa using hfirst

theorem fractionPart?_eq_none (h : EndsNumber rest) : fractionPart? rest = none := by
  rw [fractionPart?.eq_def]
  split
  · exact absurd rfl (h '.' rfl).2.1
  · rfl

theorem exponentPart?_eq_none (h : EndsNumber rest) : exponentPart? rest = none := by
  cases rest with
  | nil => rfl
  | cons c rest =>
      obtain ⟨-, -, hlow, hhigh⟩ := h c rfl
      simp [exponentPart?, hlow, hhigh]

theorem number?_digitsOf (n : Nat) (h : EndsNumber rest) :
    number? (digitsOf n ++ rest) = some (.int n, rest) := by
  have hwhole := wholePart?_digitsOf n h
  obtain ⟨c, cs, hcs⟩ := List.exists_cons_of_ne_nil (digitsOf_ne_nil n)
  have hdigit := isDigit_of_mem_digitsOf (n := n) (c := c) (by simp [hcs])
  have hsign : c ≠ '-' := by
    rintro rfl
    exact absurd hdigit (by decide)
  have hvalue := digitsValue_digitsOf n
  rw [hcs] at hwhole hvalue ⊢
  rw [List.cons_append] at hwhole ⊢
  unfold number?
  simp [hsign, hwhole, fractionPart?_eq_none h, exponentPart?_eq_none h, hvalue]

/-- A whole number that was written is read as itself. -/
theorem number?_ofInt (k : Int) (h : EndsNumber rest) :
    number? ((ofInt k).toList ++ rest) = some (.int k, rest) := by
  cases k with
  | ofNat n =>
      rw [ofInt, String.toList_ofList]
      exact number?_digitsOf n h
  | negSucc n =>
      rw [ofInt, String.toList_ofList, List.cons_append]
      unfold number?
      simp [wholePart?_digitsOf (n + 1) h, fractionPart?_eq_none h, exponentPart?_eq_none h,
        digitsValue_digitsOf, Int.negSucc_eq]

end Redline.Json
