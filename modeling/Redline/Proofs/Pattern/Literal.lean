import Mathlib.Tactic.Common
import Mathlib.Tactic.FinCases
import Redline.Pattern.Reader
import Redline.Proofs.Pattern.Ways

/-!
# Literal patterns

An escaped text is read as the pattern that matches the text character by character, whatever the
characters mean in patterns. So the pattern is found at the first place where the text stands, and
replacing its matches is a scan of the text from left to right.
-/

namespace Redline

namespace Pattern

/-! ### Reading an escaped text -/

/-- The token of a character of an escaped text. -/
def escapedToken (c : Char) : Token :=
  if specials.contains c then .escape c else .plain c

theorem escapedToken_of_mem {c : Char} (h : c ∈ specials) : escapedToken c = .escape c :=
  if_pos (List.contains_iff_mem.2 h)

theorem escapedToken_of_notMem {c : Char} (h : c ∉ specials) : escapedToken c = .plain c :=
  if_neg fun hc => h (List.contains_iff_mem.1 hc)

theorem map_escapedToken_ne_dangling (cs : List Char) : cs.map escapedToken ≠ [.dangling] := by
  intro h
  obtain ⟨c, -, hc⟩ := List.mem_map.1 (h ▸ List.mem_singleton_self Token.dangling)
  rw [escapedToken] at hc
  split_ifs at hc

theorem tokens_escape (cs : List Char) :
    tokens (cs.flatMap fun c => if specials.contains c then ['\\', c] else [c]) =
      cs.map escapedToken := by
  induction cs with
  | nil => rfl
  | cons c cs ih =>
      rw [List.flatMap_cons, List.map_cons, escapedToken, ← ih]
      split_ifs with hc
      · rfl
      · have hne : c ≠ '\\' := by
          rintro rfl
          exact hc (by decide)
        rw [List.singleton_append, tokens]
        · exact fun h => absurd h hne
        · exact fun _ _ h => absurd h hne

/-- The reading with these tokens left. -/
def Reading.withRest (r : Reading) (rest : List Token) : Reading :=
  { r with source := { r.source with rest } }

section

variable {α β : Type} {x : Read α} {f : α → Read β} {a : α} {r r' : Reading} {t : Token}
  {rest : List Token} {c : Char} {cs : List Char} {scope : Flags}

/-- A backslash at the end is the sole defect that is found in advance. -/
theorem Source.checked_of_ne {s : Source} (h : s.rest ≠ [.dangling]) : s.checked = .ok s := by
  rw [checked]
  split
  · rename_i hrest
    exact absurd hrest h
  · rfl

theorem rest_withRest : (r.withRest rest).source.rest = rest := rfl

theorem read_bind_of_ok (h : x r = .ok (a, r')) : (x >>= f) r = f a r' := by
  show (x r >>= fun p => f p.1 p.2) = f a r'
  rw [h]
  rfl

theorem takeToken_withRest (h : rest ≠ [.dangling]) :
    takeToken (r.withRest (t :: rest)) = .ok (some t, r.withRest rest) := by
  have hchecked : Source.checked { r.source with rest } = .ok { r.source with rest } :=
    Source.checked_of_ne h
  have htake : Source.take (r.withRest (t :: rest)).source =
      .ok (some t, { r.source with rest }) := by
    show (Source.checked { r.source with rest } >>= fun s => pure (some t, s)) = _
    rw [hchecked]
    rfl
  rw [takeToken, onSource, read_bind_of_ok (a := r.withRest (t :: rest)) rfl, htake]
  rfl

/-- An escaped special character stands for itself. -/
theorem itemEscape_of_mem (h : c ∈ specials) : itemEscape scope c r = .ok (.char c, r) := by
  change c ∈ ['(', ')', '[', ']', '\x7b', '\x7d', '?', '*', '+', '-', '|', '^', '$', '\\', '.', '&',
    '~', '#', ' ', '\t', '\n', '\r', '\x0b', '\x0c'] at h
  fin_cases h <;> rfl

/-- A character that is not special repeats nothing. -/
theorem quantifier?_of_notMem (h : c ∉ specials) : quantifier? (.plain c) r = .ok (none, r) := by
  have hne : ∀ x ∈ specials, (c = x) = False := fun x hx => eq_false fun hcx => h (hcx ▸ hx)
  simp only [quantifier?, Token.plain.injEq, hne _ (by decide : '?' ∈ specials),
    hne _ (by decide : '*' ∈ specials), hne _ (by decide : '+' ∈ specials),
    hne _ (by decide : '\x7b' ∈ specials), imp_false, not_false_eq_true]
  rfl

/-- A character that is not special starts an item of its own. -/
theorem itemStart_of_notMem (h : c ∉ specials) : (Token.plain c).itemStart = .other := by
  have hne : ∀ x ∈ specials, (c = x) = False := fun x hx => eq_false fun hcx => h (hcx ▸ hx)
  simp only [Token.itemStart, Token.itemStart.plainStart, hne _ (by decide : '[' ∈ specials),
    hne _ (by decide : '.' ∈ specials), hne _ (by decide : '^' ∈ specials),
    hne _ (by decide : '$' ∈ specials), hne _ (by decide : '(' ∈ specials), imp_false,
    not_false_eq_true]

/-- The node of a character that is compared under the flags. -/
theorem items_escapedToken (hverbose : scope.verbose = false) (fuel : Nat) (leading : Bool)
    (done : List Node) (c : Char) (cs : List Char) :
    items (fuel + 1) leading scope done (r.withRest ((c :: cs).map escapedToken)) =
      items fuel leading scope (.char scope.rule c :: done) (r.withRest (cs.map escapedToken)) := by
  have htake := takeToken_withRest (r := r) (t := escapedToken c) (map_escapedToken_ne_dangling cs)
  rw [List.map_cons, items, read_bind_of_ok (a := r.withRest _) rfl, rest_withRest]
  by_cases hc : c ∈ specials
  · rw [escapedToken_of_mem hc] at htake ⊢
    dsimp only [Token.itemStart]
    rw [read_bind_of_ok (a := Source.place _) rfl, read_bind_of_ok htake, hverbose]
    simp only [Bool.false_and, Bool.false_eq_true, if_false]
    rw [read_bind_of_ok (itemEscape_of_mem hc), read_bind_of_ok (a := r.withRest _) rfl]
    rfl
  · rw [escapedToken_of_notMem hc] at htake ⊢
    have hne : ∀ x ∈ specials, (c = x) = False := fun x hx => eq_false fun h => hc (h ▸ hx)
    simp only [hne _ (by decide : '|' ∈ specials), hne _ (by decide : ')' ∈ specials),
      itemStart_of_notMem hc, hverbose, Token.plain.injEq, imp_false, not_false_eq_true,
      Bool.false_and, Bool.false_eq_true, if_false]
    rw [read_bind_of_ok (a := Source.place _) rfl, read_bind_of_ok htake,
      read_bind_of_ok (quantifier?_of_notMem hc)]
    rfl

theorem items_map_escapedToken (hverbose : scope.verbose = false) {fuel : Nat} (leading : Bool)
    (done : List Node) (hfuel : cs.length < fuel) :
    items fuel leading scope done (r.withRest (cs.map escapedToken)) =
      .ok (.ofList (done.reverse ++ cs.map (.char scope.rule)), r.withRest []) := by
  induction cs generalizing fuel done with
  | nil =>
      obtain ⟨fuel, rfl⟩ := Nat.exists_eq_add_one_of_ne_zero (Nat.ne_of_gt hfuel)
      rw [List.map_nil, List.map_nil, List.append_nil, items]
      rfl
  | cons c cs ih =>
      obtain ⟨fuel, rfl⟩ := Nat.exists_eq_add_one_of_ne_zero (Nat.ne_zero_of_lt hfuel)
      rw [items_escapedToken hverbose, ih _ (Nat.lt_of_succ_lt_succ hfuel), List.reverse_cons,
        List.append_assoc, List.singleton_append, List.map_cons]

theorem alternatives_map_escapedToken (hverbose : scope.verbose = false) {fuel : Nat}
    (hfuel : cs.length < fuel) :
    alternatives (fuel + 1) true true scope (r.withRest (cs.map escapedToken)) =
      .ok (.ofList (cs.map (.char scope.rule)), r.withRest []) := by
  rw [alternatives, Bool.and_self,
    read_bind_of_ok (items_map_escapedToken hverbose true [] hfuel)]
  rfl

end

/-- The pattern of the characters of a text, one after the other. -/
def literal (rule : CaseRule) (text : List Char) : Node :=
  .ofList (text.map (.char rule))

theorem isAnchored_literal (rule : CaseRule) (text : List Char) :
    (literal rule text).isAnchored = true := by
  induction text with
  | nil => rfl
  | cons c text ih =>
      cases text with
      | nil => rfl
      | cons d text => exact ih

theorem whole_map_escapedToken {r : Reading} (cs : List Char)
    (hflags : (r.flags.ascii && r.flags.unicode) = false) (hpromised : r.promised = [])
    (hverbose : r.flags.verbose = false) :
    whole r.flags (r.withRest (cs.map escapedToken)) =
      .ok (literal r.flags.rule cs, r.withRest []) := by
  have hfuel : cs.length < 2 * (cs.map escapedToken).length + 3 := by
    rw [List.length_map]
    omega
  rw [whole, read_bind_of_ok (a := r.withRest _) rfl, rest_withRest,
    read_bind_of_ok (alternatives_map_escapedToken hverbose hfuel),
    read_bind_of_ok (a := r.withRest []) rfl]
  have hanchored := isAnchored_literal r.flags.rule cs
  rw [literal] at hanchored ⊢
  simp only [Reading.withRest, hflags, hpromised, hanchored]
  rfl

/-- Reading the escaped text gives back its characters. -/
theorem read_escape (text : String) (ignoreCase : Bool) :
    Pattern.read (escape text) ignoreCase =
      .ok { node := literal (Flags.rule { ignoreCase }) text.toList
            groups := 0
            names := [] } := by
  have hsource : Source.ofString (escape text) =
      .ok { size := (escape text).length, rest := text.toList.map escapedToken } := by
    rw [Source.ofString, escape, String.toList_ofList, tokens_escape]
    exact Source.checked_of_ne (map_escapedToken_ne_dangling _)
  have hwhole := whole_map_escapedToken
    (r := { source := { size := (escape text).length, rest := [] }, flags := { ignoreCase }
            widths := [], names := [], behind := none, promised := [] }) text.toList rfl rfl rfl
  rw [Reading.withRest] at hwhole
  rw [Pattern.read, hsource]
  dsimp only at hwhole ⊢
  rw [StateT.run, hwhole]
  rfl

/-! ### Matching -/

/-- Whether the text starts with the characters of `part`, up to `same`. -/
def startsWith (same : Char → Char → Bool) : (part text : List Char) → Bool
  | [], _ => true
  | _ :: _, [] => false
  | a :: part, c :: text => same a c && startsWith same part text

/-- The text with every occurrence of `part` replaced that a scan from left to right comes to. -/
def scan (same : Char → Char → Bool) (part : List Char) (replacement : List Char → List Char) :
    List Char → List Char
  | [] => []
  | c :: text =>
    if startsWith same part (c :: text) then
      replacement ((c :: text).take part.length)
        ++ scan same part replacement (text.drop (part.length - 1))
    else c :: scan same part replacement text
termination_by text => text.length

section

variable {same : Char → Char → Bool} {part text : List Char}

/-- The text that is found has the length of `part`, and its characters are the same one by one. -/
theorem startsWith_iff :
    startsWith same part text = true ↔
      ∃ found rest, text = found ++ rest ∧
        List.Forall₂ (fun a c => same a c = true) part found := by
  induction part generalizing text with
  | nil => exact ⟨fun _ => ⟨[], text, rfl, .nil⟩, fun _ => rfl⟩
  | cons a part ih =>
      constructor
      · intro h
        cases text with
        | nil => cases h
        | cons c text =>
            rw [startsWith, Bool.and_eq_true] at h
            obtain ⟨found, rest, rfl, hfound⟩ := ih.1 h.2
            exact ⟨c :: found, rest, rfl, .cons h.1 hfound⟩
      · rintro ⟨_, rest, rfl, hfound⟩
        cases hfound with
        | cons hc hfound =>
            rw [List.cons_append, startsWith, hc, Bool.true_and]
            exact ih.2 ⟨_, rest, rfl, hfound⟩

theorem length_le_of_startsWith (h : startsWith same part text = true) :
    part.length ≤ text.length := by
  obtain ⟨found, rest, rfl, hfound⟩ := startsWith_iff.1 h
  rw [List.length_append, hfound.length_eq]
  exact Nat.le_add_right _ _

end

/-- The place `n` characters on. -/
def Cursor.onward (n : Nat) (c : Cursor) : Cursor :=
  { before := (c.after.take n).reverse ++ c.before, after := c.after.drop n }

theorem run_ofList_cons (n : Node) (ns : List Node) (c : Cursor) (caps : Captures)
    (k : Continuation Outcome) :
    run (.ofList (n :: ns)) c caps k = run n c caps fun c caps => run (.ofList ns) c caps k := by
  cases ns <;> rfl

variable {rule : CaseRule} {part : List Char}

theorem run_literal (rule : CaseRule) (part : List Char) (c : Cursor) (caps : Captures)
    (k : Continuation Outcome) :
    run (literal rule part) c caps k =
      if startsWith rule.same part c.after then k (c.onward part.length) caps else none := by
  induction part generalizing c with
  | nil => rfl
  | cons a part ih =>
      rw [literal, List.map_cons, run_ofList_cons, run, one]
      obtain ⟨before, _ | ⟨x, after⟩⟩ := c
      · rfl
      · simp only [Cursor.next?, startsWith, Bool.and_eq_true]
        by_cases hx : rule.same a x = true
        · rw [if_pos hx, ← literal, ih]
          simp [hx, Cursor.onward]
        · rw [if_neg hx, if_neg fun h => hx h.1]

theorem matchAt?_literal {advance : Bool} (hadvance : part ≠ [] ∨ advance = false) (c : Cursor) :
    matchAt? (literal rule part) advance c =
      if startsWith rule.same part c.after then some (c.onward part.length, []) else none := by
  rw [matchAt?, run_literal]
  by_cases h : startsWith rule.same part c.after = true
  · have hlen := length_le_of_startsWith h
    rw [if_pos h, if_pos h, if_neg]
    rintro ⟨htrue, heq⟩
    have hpos := List.length_pos_iff.2 (hadvance.resolve_right (by simp [htrue]))
    rw [Cursor.onward, List.length_drop] at heq
    omega
  · rw [if_neg h, if_neg h]

theorem between_onward (c : Cursor) (n : Nat) (h : n ≤ c.after.length) :
    c.between (c.onward n) = c.after.take n := by
  rw [Cursor.between, Cursor.onward, List.length_drop]
  congr 1
  omega

/-! ### Finding and replacing -/

section

variable {advance : Bool} {skipped before after : List Char} {c : Char}

theorem findFrom_literal_of_starts (hadvance : part ≠ [] ∨ advance = false)
    (h : startsWith rule.same part after = true) :
    findFrom (literal rule part) advance skipped before after =
      some { skipped := skipped.reverse, text := after.take part.length, captures := []
             stop := Cursor.onward part.length { before, after } } := by
  rw [findFrom.eq_def, matchAt?_literal hadvance, if_pos h]
  dsimp only
  rw [between_onward _ _ (length_le_of_startsWith h)]

theorem findFrom_literal_nil (hadvance : part ≠ [] ∨ advance = false)
    (h : ¬ startsWith rule.same part [] = true) :
    findFrom (literal rule part) advance skipped before [] = none := by
  rw [findFrom, matchAt?_literal hadvance, if_neg h]

theorem findFrom_literal_cons (hadvance : part ≠ [] ∨ advance = false)
    (h : ¬ startsWith rule.same part (c :: after) = true) :
    findFrom (literal rule part) advance skipped before (c :: after) =
      findFrom (literal rule part) false (c :: skipped) (c :: before) after := by
  rw [findFrom, matchAt?_literal hadvance, if_neg h]

/-- A literal is found where some part of the text has its characters. -/
theorem isSome_findFrom_literal :
    (findFrom (literal rule part) false skipped before after).isSome = true ↔
      ∃ found, found <:+: after ∧ List.Forall₂ (fun a c => rule.same a c = true) part found := by
  induction after generalizing skipped before with
  | nil =>
      by_cases h : startsWith rule.same part [] = true
      · obtain ⟨found, rest, htext, hfound⟩ := startsWith_iff.1 h
        rw [findFrom_literal_of_starts (Or.inr rfl) h]
        exact ⟨fun _ => ⟨found, ⟨[], rest, htext.symm⟩, hfound⟩, fun _ => rfl⟩
      · rw [findFrom_literal_nil (Or.inr rfl) h]
        refine ⟨nofun, fun ⟨found, hin, hfound⟩ => absurd (startsWith_iff.2 ?_) h⟩
        obtain rfl := List.infix_nil.1 hin
        exact ⟨[], [], rfl, hfound⟩
  | cons c after ih =>
      by_cases h : startsWith rule.same part (c :: after) = true
      · obtain ⟨found, rest, htext, hfound⟩ := startsWith_iff.1 h
        rw [findFrom_literal_of_starts (Or.inr rfl) h]
        exact ⟨fun _ => ⟨found, ⟨[], rest, htext.symm⟩, hfound⟩, fun _ => rfl⟩
      · rw [findFrom_literal_cons (Or.inr rfl) h, ih]
        refine exists_congr fun found => and_congr_left fun hfound => ?_
        rw [List.infix_cons_iff]
        refine ⟨Or.inr, fun hin => hin.resolve_left ?_⟩
        rintro ⟨rest, htext⟩
        exact h (startsWith_iff.2 ⟨found, rest, htext.symm, hfound⟩)

/-- Replacing the first match and what follows it is the scan, if it is behind the match. -/
theorem replace_first_literal (hpart : part ≠ []) (f : List Char → List Char)
    (next : Bool → Cursor → List Char) (skipped : List Char)
    (hnext : ∀ advance c, c.after.length < after.length →
      next advance c = scan rule.same part f c.after) :
    (match findFrom (literal rule part) advance skipped before after with
      | none => skipped.reverse ++ after
      | some m => m.skipped ++ f m.text ++ next m.text.isEmpty m.stop) =
      skipped.reverse ++ scan rule.same part f after := by
  induction after generalizing advance skipped before with
  | nil =>
      have hnil : ¬ startsWith rule.same part [] = true := by
        cases part with
        | nil => exact absurd rfl hpart
        | cons a part => exact Bool.false_ne_true
      rw [findFrom_literal_nil (Or.inl hpart) hnil, scan]
  | cons c after ih =>
      rw [scan]
      by_cases h : startsWith rule.same part (c :: after) = true
      · have hdrop : (c :: after).drop part.length = after.drop (part.length - 1) := by
          cases part with
          | nil => exact absurd rfl hpart
          | cons a part => rfl
        have hlt : (after.drop (part.length - 1)).length < (c :: after).length := by
          rw [List.length_drop, List.length_cons]
          omega
        rw [findFrom_literal_of_starts (Or.inl hpart) h, if_pos h]
        dsimp only [Cursor.onward]
        rw [hdrop, hnext _ _ hlt, List.append_assoc]
      · have hcons : ∀ text, skipped.reverse ++ c :: text = (c :: skipped).reverse ++ text := by
          simp
        rw [findFrom_literal_cons (Or.inl hpart) h, if_neg h, hcons, hcons]
        exact ih _ fun advance c' hlt => hnext advance c' (Nat.lt_succ_of_lt hlt)

/-- Replacing the matches of a literal is the scan for it. -/
theorem replaceFrom_literal (hpart : part ≠ []) (f : List Char → List Char) {fuel : Nat}
    (c : Cursor) (hfuel : c.after.length < fuel) :
    replaceFrom (literal rule part) (fun m => f m.text) fuel advance c =
      scan rule.same part f c.after := by
  induction fuel generalizing advance c with
  | zero => exact absurd hfuel (Nat.not_lt_zero _)
  | succ fuel ih =>
      rw [replaceFrom]
      exact replace_first_literal hpart f _ [] fun advance c' hlt => ih c' (by omega)

end

end Pattern

end Redline
