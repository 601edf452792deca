import Redline.Proofs.Json.Values

/-!
# No object goes on after its end

What a reader has read it reads also when more text follows, with that text left over: a string is
closed by its quote and an array or an object by its bracket, and a number inside them is followed
by a character that ends it. So the text of an object is not the start of a longer document, unless
only blanks follow.
-/

namespace Redline.Json

/-! ### Strings -/

theorem hex4?_append {ds rest : List Char} {n : Nat} (h : hex4? ds = some (n, rest))
    (more : List Char) : hex4? (ds ++ more) = some (n, rest ++ more) := by
  match ds, h with
  | a :: b :: c :: d :: tail, h =>
      simp only [hex4?, Option.bind_eq_bind, Option.bind_eq_some_iff, Option.pure_def,
        Option.some.injEq, Prod.mk.injEq] at h
      obtain ⟨va, ha, vb, hb, vc, hc, vd, hd, hn, rfl⟩ := h
      simp [hex4?, ha, hb, hc, hd, hn]
  | [], h | [_], h | [_, _], h | [_, _, _], h => cases h

theorem length_of_hex4? {ds rest : List Char} {n : Nat} (h : hex4? ds = some (n, rest)) :
    ds.length = rest.length + 4 := by
  match ds, h with
  | a :: b :: c :: d :: tail, h =>
      simp only [hex4?, Option.bind_eq_bind, Option.bind_eq_some_iff, Option.pure_def,
        Option.some.injEq, Prod.mk.injEq] at h
      obtain ⟨va, ha, vb, hb, vc, hc, vd, hd, hn, rfl⟩ := h
      rfl
  | [], h | [_], h | [_, _], h | [_, _, _], h => cases h

/-- A text that is too short for an escape to end in it. -/
theorem unicodeEscape_short {place digits : List Char} (h : digits.length < 5)
    (found : Char × List Char) : unicodeEscape place digits ≠ .ok found := by
  rw [unicodeEscape]
  cases hhex : hex4? digits with
  | none => simp [faultAt]
  | some p =>
      obtain ⟨n, rest⟩ := p
      have hlength := length_of_hex4? hhex
      cases rest with
      | nil => simp [faultAt]
      | cons c rest =>
          rw [List.length_cons] at hlength
          omega

/-- A text in which the escape that it starts with, if it does, has room to end. -/
def HasRoom (rest : List Char) : Prop :=
  rest ≠ ['\\'] ∧ ∀ more, rest = '\\' :: 'u' :: more → 5 ≤ more.length

theorem hasRoom_of_stringBody {opening done cs rest : List Char} {steps : Nat} {s : String}
    (h : stringBody opening steps done cs = .ok (s, rest)) : HasRoom cs := by
  cases steps with
  | zero => cases h
  | succ steps =>
      constructor
      · rintro rfl
        cases h
      · rintro more rfl
        by_contra hshort
        rw [stringBody] at h
        cases hescape : unicodeEscape ('u' :: more) more with
        | error e =>
            rw [hescape] at h
            cases h
        | ok found => exact unicodeEscape_short (by omega) found hescape

theorem unicodeEscape_append {place digits rest : List Char} {c : Char}
    (h : unicodeEscape place digits = .ok (c, rest)) (hrest : HasRoom rest)
    (place' more : List Char) :
    unicodeEscape place' (digits ++ more) = .ok (c, rest ++ more) := by
  rw [unicodeEscape] at h ⊢
  cases hhex : hex4? digits with
  | none => simp [hhex, faultAt] at h
  | some p =>
      obtain ⟨high, after⟩ := p
      rw [hhex] at h
      rw [hex4?_append hhex]
      cases after with
      | nil => simp [faultAt] at h
      | cons next after =>
          dsimp only [List.cons_append] at h ⊢
          by_cases hhigh : 0xD800 ≤ high ∧ high ≤ 0xDBFF
          · rw [if_pos hhigh] at h ⊢
            split at h
            · rename_i low heq
              obtain ⟨rfl, rfl⟩ := List.cons.inj heq
              by_cases hshort : low.length < 5
              · rw [if_pos hshort] at h
                cases h
                exact absurd (hrest.2 low rfl) (by omega)
              · rw [if_neg hshort] at h
                have hroom : ¬(low ++ more).length < 5 := by
                  rw [List.length_append]
                  omega
                simp only [List.cons_append, if_neg hroom]
                cases hlow : hex4? low with
                | none => simp [hlow, faultAt] at h
                | some q =>
                    obtain ⟨value, tail⟩ := q
                    rw [hlow] at h
                    rw [hex4?_append hlow]
                    dsimp only at h ⊢
                    split_ifs at h ⊢ with hrange
                    all_goals
                      rw [Except.ok.injEq, Prod.mk.injEq] at h
                      rw [← h.1, ← h.2]
                    rfl
            · rename_i hother
              cases h
              split
              · rename_i low heq
                obtain ⟨rfl, htail⟩ := List.cons.inj heq
                cases after with
                | nil => exact absurd rfl hrest.1
                | cons d after =>
                    obtain ⟨rfl, -⟩ := List.cons.inj htail
                    exact absurd rfl (hother after)
              · rfl
          · rw [if_neg hhigh] at h ⊢
            cases h
            rfl

theorem stringBody_append {opening done cs rest : List Char} {steps : Nat} {s : String}
    (h : stringBody opening steps done cs = .ok (s, rest)) (opening' more : List Char)
    {steps' : Nat} (hsteps : steps ≤ steps') :
    stringBody opening' steps' done (cs ++ more) = .ok (s, rest ++ more) := by
  induction steps generalizing done cs steps' with
  | zero => cases h
  | succ steps ih =>
      obtain ⟨steps', rfl⟩ := Nat.exists_eq_add_of_le' hsteps
      rw [← Nat.add_assoc]
      have hle : steps ≤ steps' + steps := Nat.le_add_left _ _
      rw [stringBody.eq_def] at h
      dsimp only at h
      split at h
      · cases h
      · cases h
        rfl
      · cases h
      · rename_i digits
        cases hescape : unicodeEscape ('u' :: digits) digits with
        | error e =>
            rw [hescape] at h
            cases h
        | ok found =>
            obtain ⟨c, after⟩ := found
            rw [hescape] at h
            dsimp only at h
            rw [List.cons_append, List.cons_append, stringBody,
              unicodeEscape_append hescape (hasRoom_of_stringBody h)]
            exact ih h hle
      · rename_i e after hu
        cases hescape : escaped? e with
        | none => simp [hescape, faultAt] at h
        | some c =>
            rw [hescape] at h
            dsimp only at h
            rw [List.cons_append, List.cons_append, stringBody, hescape]
            · exact ih h hle
            · exact hu
      · rename_i c after hquote hlast _ hescape
        have hslash : c ≠ '\\' := by
          intro hc
          cases after with
          | nil => exact hlast hc rfl
          | cons e after => exact hescape e after hc rfl
        by_cases hcontrol : c.toNat < 0x20
        · simp [hcontrol, faultAt] at h
        · rw [if_neg hcontrol] at h
          rw [List.cons_append, stringBody_plain _ _ _ hquote hslash hcontrol]
          exact ih h hle

theorem string_append {cs rest : List Char} {s : String} (h : string cs = .ok (s, rest))
    (more : List Char) : string (cs ++ more) = .ok (s, rest ++ more) := by
  refine stringBody_append h _ more ?_
  rw [List.length_append]
  omega

/-! ### Numbers -/

/-- A text after a number that says where the number ends. -/
def Delimits (rest : List Char) : Prop :=
  rest ≠ [] ∧ EndsNumber rest

theorem takeDigits_append_of_ne_nil {cs : List Char} (h : (takeDigits cs).2 ≠ [])
    (more : List Char) :
    takeDigits (cs ++ more) = ((takeDigits cs).1, (takeDigits cs).2 ++ more) := by
  induction cs with
  | nil => exact absurd rfl h
  | cons c cs ih =>
      cases hc : isDigit c with
      | false => simp [takeDigits, hc]
      | true =>
          simp only [takeDigits, List.takeWhile_cons, List.dropWhile_cons, hc, if_true,
            List.cons_append, Prod.mk.injEq, List.cons.injEq, true_and] at h ih ⊢
          exact ih h

theorem wholePart?_append {cs whole rest : List Char} (h : wholePart? cs = some (whole, rest))
    (hrest : rest ≠ []) (more : List Char) :
    wholePart? (cs ++ more) = some (whole, rest ++ more) := by
  rw [wholePart?.eq_def] at h
  split at h
  · cases h
    rfl
  · rename_i c cs hzero
    cases hc : isDigit c with
    | false => simp [hc] at h
    | true =>
        rw [if_pos hc, Option.some.injEq] at h
        have htake := takeDigits_append_of_ne_nil (by rwa [h]) more
        rw [List.cons_append] at htake ⊢
        rw [wholePart?, if_pos hc, htake, h]
        exact hzero
  · cases h

theorem fractionPart?_append {cs fraction rest : List Char}
    (h : fractionPart? cs = some (fraction, rest)) (hrest : rest ≠ []) (more : List Char) :
    fractionPart? (cs ++ more) = some (fraction, rest ++ more) := by
  rw [fractionPart?.eq_def] at h
  split at h
  · rename_i c cs
    cases hc : isDigit c with
    | false => simp [hc] at h
    | true =>
        rw [if_pos hc, Option.some.injEq] at h
        have htake := takeDigits_append_of_ne_nil (by rwa [h]) more
        rw [List.cons_append] at htake
        rw [List.cons_append, List.cons_append, fractionPart?, if_pos hc, htake, h]
  · cases h

theorem exponentPart?_append {cs rest : List Char} {power : Int}
    (h : exponentPart? cs = some (power, rest)) (hrest : rest ≠ []) (more : List Char) :
    exponentPart? (cs ++ more) = some (power, rest ++ more) := by
  rw [exponentPart?.eq_def] at h
  split at h
  · rename_i e digits
    split_ifs at h with he
    split at h
    rename_i negative unsigned hsign
    split at h
    · cases h
    · rename_i ds after hne htake
      cases h
      have hmore : takeDigits (unsigned ++ more) = (ds, rest ++ more) := by
        rw [takeDigits_append_of_ne_nil (by rwa [htake]), htake]
      obtain ⟨d, ds, rfl⟩ := List.exists_cons_of_ne_nil hne
      split at hsign
      · cases hsign
        simp [exponentPart?, he, hmore]
      · cases hsign
        simp [exponentPart?, he, hmore]
      · rename_i hminus hplus
        cases hsign
        cases digits with
        | nil => cases htake
        | cons c digits =>
            have hc : c ≠ '-' ∧ c ≠ '+' :=
              ⟨fun h => hminus digits (by rw [h]), fun h => hplus digits (by rw [h])⟩
            rw [List.cons_append] at hmore
            simp [exponentPart?, he, hc, hmore]
  · cases h

/-- What is read of a number after its sign. -/
def afterSign (negative : Bool) (cs : List Char) : Option (Json × List Char) :=
  match wholePart? cs with
  | none => none
  | some (whole, rest) =>
    match fractionPart? rest with
    | some (fraction, rest) =>
      let (power, rest) := (exponentPart? rest).getD (0, rest)
      some (.float (.ofDecimal negative (digitsValue (whole ++ fraction))
        (power - fraction.length)), rest)
    | none =>
      match exponentPart? rest with
      | some (power, rest) => some (.float (.ofDecimal negative (digitsValue whole) power), rest)
      | none =>
        let n : Int := digitsValue whole
        some (.int (if negative then -n else n), rest)

theorem number?_minus (cs : List Char) : number? ('-' :: cs) = afterSign true cs := rfl

theorem number?_of_ne {c : Char} (h : c ≠ '-') (cs : List Char) :
    number? (c :: cs) = afterSign false (c :: cs) := by
  unfold number?
  split
  rename_i hsign
  split at hsign
  · rename_i heq
    exact absurd (List.cons.inj heq).1 h
  · cases hsign
    rfl

theorem Delimits.append {rest : List Char} (h : Delimits rest) (more : List Char) :
    EndsNumber (rest ++ more) := by
  obtain ⟨c, rest, rfl⟩ := List.exists_cons_of_ne_nil h.1
  exact h.2

/-- What starts with an exponent has no fraction. -/
theorem fractionPart?_of_exponent {cs : List Char} {found : Int × List Char}
    (h : exponentPart? cs = some found) (more : List Char) : fractionPart? (cs ++ more) = none := by
  cases cs with
  | nil => cases h
  | cons c cs =>
      rw [List.cons_append, fractionPart?.eq_def]
      split
      · rename_i heq
        obtain ⟨rfl, -⟩ := List.cons.inj heq
        cases h
      · rfl

theorem afterSign_append {negative : Bool} {cs rest : List Char} {j : Json}
    (h : afterSign negative cs = some (j, rest)) (hrest : Delimits rest) (more : List Char) :
    afterSign negative (cs ++ more) = some (j, rest ++ more) := by
  have hnext := hrest.append more
  rw [afterSign] at h ⊢
  cases hwhole : wholePart? cs with
  | none => simp [hwhole] at h
  | some p =>
      obtain ⟨whole, r⟩ := p
      rw [hwhole] at h
      dsimp only at h
      cases hfraction : fractionPart? r with
      | some q =>
          obtain ⟨fraction, r'⟩ := q
          have hr : r ≠ [] := by
            rintro rfl
            cases hfraction
          rw [hfraction] at h
          dsimp only at h
          rw [wholePart?_append hwhole hr]
          dsimp only
          cases hexponent : exponentPart? r' with
          | some e =>
              obtain ⟨power, r''⟩ := e
              have hr' : r' ≠ [] := by
                rintro rfl
                cases hexponent
              rw [hexponent] at h
              cases h
              rw [fractionPart?_append hfraction hr']
              dsimp only
              rw [exponentPart?_append hexponent hrest.1]
              rfl
          | none =>
              rw [hexponent, Option.getD_none] at h
              cases h
              rw [fractionPart?_append hfraction hrest.1]
              dsimp only
              rw [exponentPart?_eq_none hnext]
              rfl
      | none =>
          rw [hfraction] at h
          dsimp only at h
          cases hexponent : exponentPart? r with
          | some e =>
              obtain ⟨power, r''⟩ := e
              have hr : r ≠ [] := by
                rintro rfl
                cases hexponent
              rw [hexponent] at h
              cases h
              rw [wholePart?_append hwhole hr]
              dsimp only
              rw [fractionPart?_of_exponent hexponent, exponentPart?_append hexponent hrest.1]
          | none =>
              rw [hexponent] at h
              cases h
              rw [wholePart?_append hwhole hrest.1]
              dsimp only
              rw [fractionPart?_eq_none hnext, exponentPart?_eq_none hnext]

theorem number?_append {cs rest : List Char} {j : Json} (h : number? cs = some (j, rest))
    (hrest : Delimits rest) (more : List Char) : number? (cs ++ more) = some (j, rest ++ more) := by
  cases cs with
  | nil => cases h
  | cons c cs =>
      by_cases hc : c = '-'
      · subst hc
        rw [number?_minus] at h
        rw [List.cons_append, number?_minus, afterSign_append h hrest]
      · rw [number?_of_ne hc] at h
        rw [List.cons_append, number?_of_ne hc, ← List.cons_append, afterSign_append h hrest]

theorem exists_digit_of_wholePart? {cs : List Char} {found : List Char × List Char}
    (h : wholePart? cs = some found) : ∃ c more, cs = c :: more ∧ isDigit c = true := by
  rw [wholePart?.eq_def] at h
  split at h
  · exact ⟨_, _, rfl, by decide⟩
  · split_ifs at h with hc
    exact ⟨_, _, rfl, hc⟩
  · cases h

theorem startsNumber_of_number? {cs : List Char} {found : Json × List Char}
    (h : number? cs = some found) : StartsNumber cs := by
  have hwhole : ∀ {negative : Bool} {cs : List Char}, afterSign negative cs = some found →
      ∃ c more, cs = c :: more ∧ isDigit c = true := by
    intro negative cs h
    rw [afterSign] at h
    cases hwhole : wholePart? cs with
    | none => simp [hwhole] at h
    | some p => exact exists_digit_of_wholePart? hwhole
  cases cs with
  | nil => cases h
  | cons c cs =>
      by_cases hc : c = '-'
      · subst hc
        obtain ⟨d, more, rfl, hd⟩ := hwhole h
        exact ⟨d, more, hd, Or.inr rfl⟩
      · rw [number?_of_ne hc] at h
        obtain ⟨d, more, heq, hd⟩ := hwhole h
        exact ⟨d, more, hd, Or.inl heq⟩

/-! ### Words -/

theorem eq_append_of_dropWord? {word cs rest : List Char} (h : dropWord? word cs = some rest) :
    cs = word ++ rest := by
  rw [dropWord?] at h
  split_ifs at h with hword
  cases h
  obtain ⟨tail, rfl⟩ := List.isPrefixOf_iff_prefix.1 hword
  rw [List.drop_left]

theorem scalar_append {cs rest : List Char} {j : Json} (h : scalar cs = .ok (j, rest))
    (hrest : Delimits rest) (more : List Char) : scalar (cs ++ more) = .ok (j, rest ++ more) := by
  rw [scalar] at h
  split at h
  · rename_i found hfound
    cases h
    obtain ⟨w, hw, hsome⟩ := List.exists_of_findSome?_eq_some hfound
    obtain ⟨after, hdrop, heq⟩ := Option.map_eq_some_iff.1 hsome
    cases heq
    rw [eq_append_of_dropWord? hdrop, List.append_assoc]
    simp only [words, List.mem_cons, List.not_mem_nil, or_false] at hw
    rcases hw with rfl | rfl | rfl | rfl | rfl | rfl
    all_goals rfl
  · split at h
    · rename_i found hfound
      cases h
      exact scalar_number (fun w hw => ((startsNumber_of_number? hfound).append more).not_word hw)
        (number?_append hfound hrest more)
    · cases h

/-! ### Values -/

theorem skipSpace_append_of_cons {cs rest : List Char} {c : Char} (h : skipSpace cs = c :: rest)
    (more : List Char) : skipSpace (cs ++ more) = c :: (rest ++ more) := by
  induction cs with
  | nil => cases h
  | cons d cs ih =>
      cases hd : isSpace d with
      | false =>
          simp only [skipSpace, List.dropWhile_cons, hd, Bool.false_eq_true, if_false,
            List.cons_append] at h ⊢
          cases h
          rfl
      | true =>
          simp only [skipSpace, List.dropWhile_cons, hd, if_true, List.cons_append] at h ih ⊢
          exact ih h

/-- The marks that stand after a value inside an array or an object end a number. -/
theorem delimits_of_skipSpace {rest more : List Char} {c : Char} (h : skipSpace rest = c :: more)
    (hc : isDigit c = false ∧ c ≠ '.' ∧ c ≠ 'e' ∧ c ≠ 'E') : Delimits rest := by
  cases rest with
  | nil => cases h
  | cons d rest =>
      refine ⟨List.cons_ne_nil d rest, ?_⟩
      cases hd : isSpace d with
      | false =>
          rw [skipSpace, List.dropWhile_cons_of_neg (by simp [hd])] at h
          cases h
          exact endsNumber_cons hc
      | true => exact endsNumber_space hd

/-- A text that starts with the mark of a string, an array or an object. -/
def StartsMarked (cs : List Char) : Prop :=
  ∃ c more, cs = c :: more ∧ (c = '"' ∨ c = '[' ∨ c = '\x7b')

/-- What one amount of fuel reads, more fuel reads also when more text follows. -/
structure Extends (fuel : Nat) : Prop where
  value : ∀ {cs rest : List Char} {j : Json}, Json.value fuel cs = .ok (j, rest) →
    StartsMarked cs ∨ Delimits rest → ∀ (more : List Char) {fuel' : Nat}, fuel ≤ fuel' →
    Json.value fuel' (cs ++ more) = .ok (j, rest ++ more)
  elements : ∀ {done : List Json} {cs rest : List Char} {j : Json},
    Json.elements fuel done cs = .ok (j, rest) → ∀ (more : List Char) {fuel' : Nat},
    fuel ≤ fuel' → Json.elements fuel' done (cs ++ more) = .ok (j, rest ++ more)
  members : ∀ {done : List (String × Json)} {cs rest : List Char} {j : Json},
    Json.members fuel done cs = .ok (j, rest) → ∀ (more : List Char) {fuel' : Nat},
    fuel ≤ fuel' → Json.members fuel' done (cs ++ more) = .ok (j, rest ++ more)

section

variable {fuel : Nat} {cs rest : List Char} {j : Json}

theorem value_nil_ne : Json.value fuel [] ≠ .ok (j, rest) := by
  intro h
  cases fuel with
  | zero => cases h
  | succ fuel => cases h

theorem elements_nil_ne {done : List Json} : Json.elements fuel done [] ≠ .ok (j, rest) := by
  intro h
  cases fuel with
  | zero => cases h
  | succ fuel =>
      rw [Json.elements] at h
      cases hvalue : Json.value fuel [] with
      | error e => simp [hvalue] at h
      | ok found => exact value_nil_ne hvalue

theorem members_nil_ne {done : List (String × Json)} :
    Json.members fuel done [] ≠ .ok (j, rest) := by
  intro h
  cases fuel with
  | zero => cases h
  | succ fuel => cases h

theorem Extends.value_succ (h : Extends fuel) (hread : Json.value (fuel + 1) cs = .ok (j, rest))
    (hends : StartsMarked cs ∨ Delimits rest) (more : List Char) {fuel' : Nat}
    (hfuel : fuel + 1 ≤ fuel') : Json.value fuel' (cs ++ more) = .ok (j, rest ++ more) := by
  obtain ⟨fuel', rfl⟩ := Nat.exists_eq_add_of_le' hfuel
  rw [← Nat.add_assoc]
  have hle : fuel ≤ fuel' + fuel := Nat.le_add_left _ _
  have hvalue := hread
  rw [Json.value.eq_def] at hread
  dsimp only at hread
  split at hread
  · rename_i tail
    cases hstring : string tail with
    | error e => simp [hstring] at hread
    | ok found =>
        obtain ⟨s, after⟩ := found
        rw [hstring] at hread
        cases hread
        rw [List.cons_append, Json.value, string_append hstring]
  · rename_i tail
    rw [List.cons_append]
    cases hskip : skipSpace tail with
    | nil =>
        rw [hskip] at hread
        exact absurd hread elements_nil_ne
    | cons c after =>
        have hmore := skipSpace_append_of_cons hskip more
        by_cases hc : c = ']'
        · subst hc
          rw [hskip] at hread
          cases hread
          rw [Json.value, hmore]
          rfl
        · rw [value_bracket hskip hc] at hvalue
          rw [value_bracket hmore hc, ← List.cons_append]
          exact h.elements hvalue more hle
  · rename_i tail
    rw [List.cons_append]
    cases hskip : skipSpace tail with
    | nil =>
        rw [hskip] at hread
        exact absurd hread members_nil_ne
    | cons c after =>
        have hmore := skipSpace_append_of_cons hskip more
        by_cases hc : c = '\x7d'
        · subst hc
          rw [hskip] at hread
          cases hread
          rw [Json.value, hmore]
          rfl
        · rw [value_brace hskip hc] at hvalue
          rw [value_brace hmore hc, ← List.cons_append]
          exact h.members hvalue more hle
  · rename_i hquote hbracket hbrace
    have hmarked : ¬StartsMarked cs := by
      rintro ⟨c, tail, rfl, rfl | rfl | rfl⟩
      · exact hquote tail rfl
      · exact hbracket tail rfl
      · exact hbrace tail rfl
    have hscalar := scalar_append hread (hends.resolve_left hmarked) more
    cases cs with
    | nil => cases hread
    | cons c cs =>
        rw [List.cons_append] at hscalar ⊢
        rw [value_scalar _ _ _, hscalar]
        all_goals
          rintro rfl
        · exact hquote cs rfl
        · exact hbracket cs rfl
        · exact hbrace cs rfl

theorem Extends.elements_succ (h : Extends fuel) {done : List Json}
    (hread : Json.elements (fuel + 1) done cs = .ok (j, rest)) (more : List Char) {fuel' : Nat}
    (hfuel : fuel + 1 ≤ fuel') : Json.elements fuel' done (cs ++ more) = .ok (j, rest ++ more) := by
  obtain ⟨fuel', rfl⟩ := Nat.exists_eq_add_of_le' hfuel
  rw [← Nat.add_assoc]
  have hle : fuel ≤ fuel' + fuel := Nat.le_add_left _ _
  rw [Json.elements] at hread
  cases hvalue : Json.value fuel cs with
  | error e => simp [hvalue] at hread
  | ok found =>
      obtain ⟨v, after⟩ := found
      rw [hvalue] at hread
      dsimp only at hread
      split at hread
      · rename_i hskip
        cases hread
        have hv := h.value hvalue (Or.inr (delimits_of_skipSpace hskip (by decide))) more hle
        rw [elements_close hv (skipSpace_append_of_cons hskip more)]
      · rename_i next hskip
        have hv := h.value hvalue (Or.inr (delimits_of_skipSpace hskip (by decide))) more hle
        rw [elements_comma hv (skipSpace_append_of_cons hskip more)]
        cases hnext : skipSpace next with
        | nil =>
            rw [hnext] at hread
            exact absurd hread elements_nil_ne
        | cons c after =>
            rw [hnext] at hread
            rw [skipSpace_append_of_cons hnext, ← List.cons_append]
            exact h.elements hread more hle
      · cases hread

theorem colon_append {after : List Char} (h : colon cs = .ok after) (hafter : after ≠ [])
    (more : List Char) : colon (cs ++ more) = .ok (after ++ more) := by
  rw [colon] at h
  split at h
  · rename_i tail hskip
    cases h
    obtain ⟨c, after, hc⟩ := List.exists_cons_of_ne_nil hafter
    rw [colon, skipSpace_append_of_cons hskip]
    exact congrArg Except.ok (by rw [skipSpace_append_of_cons hc, hc, List.cons_append])
  · cases h

theorem Extends.members_succ (h : Extends fuel) {done : List (String × Json)}
    (hread : Json.members (fuel + 1) done cs = .ok (j, rest)) (more : List Char) {fuel' : Nat}
    (hfuel : fuel + 1 ≤ fuel') : Json.members fuel' done (cs ++ more) = .ok (j, rest ++ more) := by
  obtain ⟨fuel', rfl⟩ := Nat.exists_eq_add_of_le' hfuel
  rw [← Nat.add_assoc]
  have hle : fuel ≤ fuel' + fuel := Nat.le_add_left _ _
  rw [Json.members.eq_def] at hread
  dsimp only at hread
  split at hread
  · rename_i tail
    cases hkey : string tail with
    | error e => simp [hkey] at hread
    | ok found =>
        obtain ⟨key, afterKey⟩ := found
        rw [hkey] at hread
        dsimp only at hread
        cases hcolon : colon afterKey with
        | error e => simp [hcolon] at hread
        | ok afterColon =>
            rw [hcolon] at hread
            dsimp only at hread
            cases hvalue : Json.value fuel afterColon with
            | error e => simp [hvalue] at hread
            | ok found =>
                obtain ⟨v, after⟩ := found
                rw [hvalue] at hread
                dsimp only at hread
                have hne : afterColon ≠ [] := by
                  rintro rfl
                  exact value_nil_ne hvalue
                have hkey' := string_append hkey more
                have hcolon' := colon_append hcolon hne more
                rw [List.cons_append]
                split at hread
                · rename_i hskip
                  cases hread
                  have hv := h.value hvalue
                    (Or.inr (delimits_of_skipSpace hskip (by decide))) more hle
                  rw [members_close hkey' hcolon' hv (skipSpace_append_of_cons hskip more)]
                · rename_i next hskip
                  have hv := h.value hvalue
                    (Or.inr (delimits_of_skipSpace hskip (by decide))) more hle
                  rw [members_comma hkey' hcolon' hv (skipSpace_append_of_cons hskip more)]
                  cases hnext : skipSpace next with
                  | nil =>
                      rw [hnext] at hread
                      exact absurd hread members_nil_ne
                  | cons c after =>
                      rw [hnext] at hread
                      rw [skipSpace_append_of_cons hnext, ← List.cons_append]
                      exact h.members hread more hle
                · cases hread
  · cases hread

end

theorem extends_all (fuel : Nat) : Extends fuel := by
  induction fuel with
  | zero =>
      refine ⟨?_, ?_, ?_⟩
      · intro cs rest j h
        cases h
      · intro done cs rest j h
        cases h
      · intro done cs rest j h
        cases h
  | succ fuel ih => exact ⟨ih.value_succ, ih.elements_succ, ih.members_succ⟩

/-! ### Documents -/

/-- No object ends inside a document that is one, unless blanks follow: a text that starts an object
and with which a longer document starts is no document. -/
theorem exists_error_of_longer {tail more : List Char} {c : Char} {v : Json}
    (hc : isSpace c = false)
    (h : parse (String.ofList ('\x7b' :: (tail ++ c :: more))) = .ok v) :
    ∃ reason, parse (String.ofList ('\x7b' :: tail)) = .error reason := by
  simp only [parse, String.toList_ofList] at h ⊢
  cases hshort : document ('\x7b' :: tail) with
  | error fault => exact ⟨_, rfl⟩
  | ok w =>
      obtain ⟨rest, hvalue, hrest⟩ := (document_eq_ok_iff rfl (by decide)).1 hshort
      -- the longer text has the same value first, and `c` is left over
      have hmarked : StartsMarked ('\x7b' :: tail) := ⟨_, _, rfl, Or.inr (Or.inr rfl)⟩
      have hlong : value (2 * ('\x7b' :: (tail ++ c :: more)).length + 2)
          ('\x7b' :: (tail ++ c :: more)) = .ok (w, rest ++ c :: more) := by
        refine (extends_all _).value hvalue (Or.inl hmarked) (c :: more) ?_
        simp only [List.length_cons, List.length_append]
        omega
      have hleft : skipSpace (rest ++ c :: more) = c :: more := by
        rw [skipSpace, List.dropWhile_append, ← skipSpace, hrest]
        simp [hc]
      cases hdocument : document ('\x7b' :: (tail ++ c :: more)) with
      | error fault =>
          rw [hdocument] at h
          cases h
      | ok u =>
          obtain ⟨r, hu, hr⟩ := (document_eq_ok_iff rfl (by decide)).1 hdocument
          rw [hlong] at hu
          cases hu
          rw [hleft] at hr
          cases hr

end Redline.Json
