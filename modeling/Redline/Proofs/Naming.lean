import Redline.Assoc
import Redline.Naming
import Redline.Proofs.Pairs
import Redline.Proofs.Pattern.Literal
import Redline.Proofs.Text.Utf8

/-!
# Finding a text in a name, whatever its case

The new name of a file is made by one scan for a text, which compares characters by likeness. Lower
case is another way to find a text whatever its case, and the two do not always agree: some
characters are alike and have different lower cases, the capital sigma has two, and `İ` becomes two
characters. They agree in all names exactly for the texts that are `Steady`.
-/

namespace Redline

namespace Text

/-! ### Characters that are alike -/

theorem exists_of_mem_variants {c v : Char} (h : v ∈ variants c) :
    ∃ e ∈ Table.caseVariants, e.1 = c.toNat ∧ ∃ code ∈ e.2, Char.ofNat code = v := by
  rw [variants] at h
  split at h
  · rename_i codes hcodes
    obtain ⟨code, hcode, rfl⟩ := List.mem_map.1 h
    exact ⟨_, Assoc.mem_of_lookup hcodes, rfl, code, hcode, rfl⟩
  · cases h

/-- A variant is a lower-case character, and the characters that are variants of each other are
closed under that. -/
structure IsVariant (c v : Char) : Prop where
  lower : fold v = v
  ne : v ≠ c
  symm : c ∈ variants v
  trans : ∀ w ∈ variants v, w = c ∨ w ∈ variants c

-- `List.all`: a quantifier over characters may be decided by running through all characters
theorem isVariant_of_mem {c v : Char} (h : v ∈ variants c) : IsVariant c v := by
  have hall : ∀ e ∈ Table.caseVariants, ∀ code ∈ e.2,
      fold (Char.ofNat code) = Char.ofNat code ∧ Char.ofNat code ≠ Char.ofNat e.1 ∧
      (variants (Char.ofNat code)).contains (Char.ofNat e.1) = true ∧
      ((variants (Char.ofNat code)).all fun w =>
        w == Char.ofNat e.1 || (variants (Char.ofNat e.1)).contains w) = true := by
    decide +kernel
  obtain ⟨e, he, hc, code, hcode, rfl⟩ := exists_of_mem_variants h
  obtain ⟨hlower, hne, hsymm, htrans⟩ := hall e he code hcode
  rw [hc, Char.ofNat_toNat] at hne hsymm htrans
  refine ⟨hlower, hne, List.contains_iff_mem.1 hsymm, fun w hw => ?_⟩
  simpa using List.all_eq_true.1 htrans w hw

theorem alike_iff {a b : Char} :
    alike a b = true ↔ fold a = fold b ∨ fold b ∈ variants (fold a) := by
  rw [alike, Bool.or_eq_true, beq_iff_eq, List.contains_iff_mem]

/-- Likeness divides the characters into classes. -/
theorem alike_equivalence : Equivalence fun a b : Char => alike a b = true where
  refl a := alike_iff.2 (Or.inl rfl)
  symm {a b} h := by
    rw [alike_iff] at h ⊢
    exact h.imp Eq.symm fun hv => (isVariant_of_mem hv).symm
  trans {a b c} hab hbc := by
    rw [alike_iff] at hab hbc ⊢
    rcases hab with hab | hab
    · rwa [hab]
    · rcases hbc with hbc | hbc
      · exact Or.inr (hbc ▸ hab)
      · exact ((isVariant_of_mem hab).trans _ hbc).imp_left Eq.symm

theorem alike_of_fold_eq {a b : Char} (h : fold a = fold b) : alike a b = true :=
  alike_iff.2 (Or.inl h)

/-- A character that no run of lower case leads to is the lower case of itself only. -/
theorem eq_of_fold_eq {c x : Char} (hx : x.toNat ≠ 0)
    (hruns : ∀ r ∈ Table.lowerRuns,
      ¬ ((r.1 : Int) + r.2.2.2 ≤ x.toNat ∧ (x.toNat : Int) ≤ r.2.1 + r.2.2.2))
    (h : fold c = x) : c = x := by
  rw [fold] at h
  split at h
  · rename_i shift hshift
    obtain ⟨r, hr, rfl⟩ := Option.map_eq_some_iff.1 hshift
    have hmem := hruns r (List.mem_of_find?_eq_some hr)
    have hrange := List.find?_some hr
    simp only [Bool.and_eq_true, decide_eq_true_eq] at hrange
    have hcode : (c.toNat + r.2.2.2 : Int).toNat = x.toNat := by
      rw [← h, shiftChar, Char.ofNat]
      by_cases hvalid : (c.toNat + r.2.2.2 : Int).toNat.isValidChar
      · rw [dif_pos hvalid]
        rfl
      · rw [← h, shiftChar, Char.ofNat, dif_neg hvalid] at hx
        exact absurd rfl hx
    omega
  · exact h

theorem ne_of_fold_eq_self {c : Char} (h : fold c = c) : c ≠ 'Σ' ∧ c ≠ 'İ' := by
  constructor <;> rintro rfl <;> revert h <;> decide +kernel

theorem eq_slash_of_alike {a : Char} (h : alike a '/' = true) : a = '/' := by
  have hslash : fold '/' = '/' := by decide +kernel
  rw [alike_iff, hslash] at h
  rcases h with h | h
  · exact eq_of_fold_eq (by decide) (by decide +kernel) h
  · have hnil : variants '/' = [] := by decide +kernel
    have hmem := (isVariant_of_mem h).symm
    rw [hnil] at hmem
    cases hmem

/-- How a character is lowered: a capital sigma in one of two ways, a capital `İ` to two
characters, any other to its lower case. -/
inductive LowersTo : Char → List Char → Prop where
  | sigma {l : Char} (h : l = 'σ' ∨ l = 'ς') : LowersTo 'Σ' [l]
  | dotted : LowersTo 'İ' ['i', '\u0307']
  | plain {c : Char} (hsigma : c ≠ 'Σ') (hdotted : c ≠ 'İ') : LowersTo c [fold c]

theorem lowersTo_lowerChar (before : List Char) (c : Char) (after : List Char) :
    LowersTo c (lowerChar before c after) := by
  rw [lowerChar]
  by_cases hsigma : c = 'Σ'
  · subst hsigma
    rw [if_pos (by rfl)]
    split_ifs
    · exact .sigma (Or.inr rfl)
    · exact .sigma (Or.inl rfl)
  · rw [if_neg (by simpa using hsigma)]
    by_cases hdotted : c = 'İ'
    · subst hdotted
      exact .dotted
    · rw [if_neg (by simpa using hdotted)]
      exact .plain hsigma hdotted

/-- No other character is lowered to a slash. -/
theorem LowersTo.slash_mem_iff {c : Char} {block : List Char} (h : LowersTo c block) :
    '/' ∈ block ↔ c = '/' := by
  cases h with
  | sigma hl => rcases hl with rfl | rfl <;> decide
  | dotted => decide
  | plain =>
      rw [List.mem_singleton, eq_comm]
      refine ⟨eq_of_fold_eq (by decide) (by decide +kernel), ?_⟩
      rintro rfl
      decide +kernel

theorem slash_mem_lowerChars_iff {before cs : List Char} :
    '/' ∈ lowerChars before cs ↔ '/' ∈ cs := by
  induction cs generalizing before with
  | nil => rfl
  | cons c cs ih =>
      rw [lowerChars, List.mem_append, (lowersTo_lowerChar before c cs).slash_mem_iff, ih,
        List.mem_cons, eq_comm]

theorem toList_toLower (s : String) : (toLower s).toList = lowerChars [] s.toList := by
  rw [toLower, String.toList_ofList]

/-- Without variants a character is lowered by itself. -/
theorem ne_of_variants_eq_nil {c : Char} (h : variants (fold c) = []) : c ≠ 'Σ' ∧ c ≠ 'İ' := by
  constructor <;> rintro rfl <;> revert h <;> decide +kernel

theorem lowerChars_append {cs : List Char} (h : ∀ c ∈ cs, c ≠ 'Σ' ∧ c ≠ 'İ')
    (before rest : List Char) :
    lowerChars before (cs ++ rest) = cs.map fold ++ lowerChars (cs.reverse ++ before) rest := by
  induction cs generalizing before with
  | nil => rfl
  | cons c cs ih =>
      obtain ⟨⟨hsigma, hdotted⟩, hcs⟩ := List.forall_mem_cons.1 h
      have hc : lowerChar before c (cs ++ rest) = [fold c] := by
        have hlowers := lowersTo_lowerChar before c (cs ++ rest)
        generalize lowerChar before c (cs ++ rest) = block at hlowers
        cases hlowers with
        | sigma => exact absurd rfl hsigma
        | dotted => exact absurd rfl hdotted
        | plain => rfl
      rw [List.cons_append, lowerChars, hc, ih hcs, List.map_cons, List.reverse_cons,
        List.append_assoc]
      rfl

theorem lowerChars_eq_map {cs : List Char} (h : ∀ c ∈ cs, c ≠ 'Σ' ∧ c ≠ 'İ')
    (before : List Char) : lowerChars before cs = cs.map fold := by
  have happend := lowerChars_append h before []
  rwa [List.append_nil, lowerChars, List.append_nil] at happend

end Text

namespace Naming

open Pattern Text

/-- Whether a text is found in a name, whatever its case: what a new name replaces. -/
def finds (text name : String) : Bool :=
  match Pattern.read (Pattern.escape text) true with
  | .ok pattern => pattern.occursIn name
  | .error _ => false

/-- A text stands in another, its characters up to likeness. -/
def Stands (text name : List Char) : Prop :=
  ∃ found, found <:+: name ∧ List.Forall₂ (fun a c => alike a c = true) text found

theorem finds_iff {text name : String} :
    finds text name = true ↔ Stands text.toList name.toList := by
  rw [finds, read_escape]
  exact isSome_findFrom_literal

/-- The new name of a file. A scan of the name from left to right replaces every text of the
pattern's length whose characters are like those of the pattern, one by one, by the replacement in
its casing; the scan goes on behind it, and every other character is copied. No character of the
pattern or of the replacement has a special meaning. -/
theorem newFileName_eq_scan (name text replacement : String) (h : text ≠ "") :
    newFileName name text replacement =
      String.ofList (scan alike text.toList
        (fun found => (preserveCase (String.ofList found) replacement).toList) name.toList) := by
  have hne : text.toList ≠ [] := fun hnil => h (String.toList_eq_nil_iff.1 hnil)
  have hfuel : (Cursor.atStart name.toList).after.length < 2 * name.length + 2 := by
    show name.toList.length < _
    rw [String.length_toList]
    omega
  rw [newFileName, read_escape]
  dsimp only
  rw [newName, Pattern.replace]
  exact congrArg String.ofList (replaceFrom_literal hne
    (fun found => (preserveCase (String.ofList found) replacement).toList) _ hfuel)

/-- A dot and a long s are no pattern, and a backslash with a letter is no template. -/
theorem newFileName_eq_scan_dotted :
    ".ſ" ≠ "" ∧
    newFileName "axs.S.s" ".ſ" "\\g" =
      String.ofList (scan alike ".ſ".toList
        (fun found => (preserveCase (String.ofList found) "\\g").toList) "axs.S.s".toList) ∧
    newFileName "axs.S.s" ".ſ" "\\g" = "axs\\G\\g" := by
  have hne : ".ſ" ≠ "" := by decide
  exact ⟨hne, newFileName_eq_scan _ _ _ hne, by decide +kernel⟩

/-! ### Finding by lower case -/

/-- Lower case finds the text in every name where it stands up to likeness, and nowhere else: its
characters have no variants, and it does not start with the dot above that ends the lower case of
`İ`. -/
structure Steady (text : List Char) : Prop where
  single : ∀ c ∈ text, variants (fold c) = []
  undotted : text.head? ≠ some '\u0307'

section

variable {text name before : List Char}

theorem Steady.lowerChars_eq (h : Steady text) : lowerChars before text = text.map fold :=
  lowerChars_eq_map (fun c hc => ne_of_variants_eq_nil (h.single c hc)) before

/-- Where a lowered name starts with the lowered text, the name starts with a text like it. -/
theorem exists_prefix_of_lower (hsingle : ∀ c ∈ text, variants (fold c) = [])
    (h : text.map fold <+: lowerChars before name) :
    ∃ found, found <+: name ∧ List.Forall₂ (fun a c => alike a c = true) text found := by
  induction text generalizing before name with
  | nil => exact ⟨[], List.nil_prefix, .nil⟩
  | cons a text ih =>
      obtain ⟨ha, hsingle⟩ := List.forall_mem_cons.1 hsingle
      cases name with
      | nil => exact absurd (List.prefix_nil.1 h) (by simp)
      | cons c name =>
          rw [lowerChars] at h
          have hlowers := lowersTo_lowerChar before c name
          generalize lowerChar before c name = block at h hlowers
          -- the first character of a block with two or more readings has variants
          cases hlowers with
          | sigma hl =>
              rw [(List.cons_prefix_cons.1 h).1] at ha
              rcases hl with rfl | rfl <;> exact absurd ha (by decide +kernel)
          | dotted =>
              rw [(List.cons_prefix_cons.1 h).1] at ha
              exact absurd ha (by decide +kernel)
          | plain =>
              obtain ⟨hfold, h⟩ := List.cons_prefix_cons.1 h
              obtain ⟨found, hstart, hfound⟩ := ih hsingle h
              exact ⟨c :: found, List.cons_prefix_cons.2 ⟨rfl, hstart⟩,
                .cons (alike_of_fold_eq hfold) hfound⟩

theorem fold_eq_dot_iff {c : Char} : fold c = '\u0307' ↔ c = '\u0307' := by
  refine ⟨eq_of_fold_eq (by decide) (by decide +kernel), ?_⟩
  rintro rfl
  decide +kernel

theorem Steady.stands_of_lower (h : Steady text)
    (hin : text.map fold <:+: lowerChars before name) : Stands text name := by
  induction name generalizing before with
  | nil =>
      rw [lowerChars, List.infix_nil, List.map_eq_nil_iff] at hin
      subst hin
      exact ⟨[], List.infix_rfl, .nil⟩
  | cons c name ih =>
      -- the text starts with the block of `c`, with the dot above that ends it, or later
      have hplace : text.map fold <+: lowerChars before (c :: name) ∨
          text.map fold <+: '\u0307' :: lowerChars (c :: before) name ∨
          text.map fold <:+: lowerChars (c :: before) name := by
        rw [lowerChars] at hin ⊢
        have hlowers := lowersTo_lowerChar before c name
        generalize lowerChar before c name = block at hin hlowers
        cases hlowers with
        | sigma | plain => exact (List.infix_cons_iff.1 hin).imp_right Or.inr
        | dotted => exact (List.infix_cons_iff.1 hin).imp_right List.infix_cons_iff.1
      rcases hplace with hstart | hdot | hlater
      · obtain ⟨found, hstart, hfound⟩ := exists_prefix_of_lower h.single hstart
        exact ⟨found, hstart.isInfix, hfound⟩
      · cases text with
        | nil => exact ⟨[], List.nil_infix, .nil⟩
        | cons a text =>
            obtain rfl := fold_eq_dot_iff.1 (List.cons_prefix_cons.1 hdot).1
            exact absurd rfl h.undotted
      · obtain ⟨found, hin, hfound⟩ := ih hlater
        exact ⟨found, List.infix_cons hin, hfound⟩

theorem map_fold_eq {found : List Char} (hsingle : ∀ c ∈ text, variants (fold c) = [])
    (hfound : List.Forall₂ (fun a c => alike a c = true) text found) :
    found.map fold = text.map fold := by
  induction hfound with
  | nil => rfl
  | cons hac _ ih =>
      obtain ⟨ha, hsingle⟩ := List.forall_mem_cons.1 hsingle
      have hfold := (alike_iff.1 hac).resolve_right (by simp [ha])
      rw [List.map_cons, List.map_cons, ih hsingle, hfold]

theorem Steady.lower_of_stands (h : Steady text) (hstands : Stands text name) :
    text.map fold <:+: lowerChars before name := by
  obtain ⟨found, ⟨front, back, rfl⟩, hfound⟩ := hstands
  have hfold := map_fold_eq h.single hfound
  have hplain : ∀ c ∈ found, c ≠ 'Σ' ∧ c ≠ 'İ' := fun c hc => by
    have hmem : fold c ∈ text.map fold := hfold ▸ List.mem_map_of_mem hc
    obtain ⟨a, ha, hac⟩ := List.mem_map.1 hmem
    exact ne_of_variants_eq_nil (hac ▸ h.single a ha)
  rw [List.append_assoc, ← hfold]
  induction front generalizing before with
  | nil =>
      rw [List.nil_append, lowerChars_append hplain]
      exact (List.prefix_append _ _).isInfix
  | cons c front ih =>
      rw [List.cons_append, lowerChars]
      exact ih.trans (List.suffix_append _ _).isInfix

/-- A steady text is found by lower case exactly where it stands up to likeness. -/
theorem Steady.isInfix_iff (h : Steady text) :
    lowerChars [] text <:+: lowerChars [] name ↔ Stands text name := by
  rw [h.lowerChars_eq]
  exact ⟨h.stands_of_lower, h.lower_of_stands⟩

/-- A text with a slash stands in no text without one. -/
theorem Stands.slash_mem (h : Stands text name) (hslash : '/' ∈ text) : '/' ∈ name := by
  obtain ⟨found, hin, hfound⟩ := h
  obtain ⟨c, hc, hlike⟩ := (exists_mem_of_forall₂ hfound).1 _ hslash
  exact hin.subset (eq_slash_of_alike (alike_equivalence.symm hlike) ▸ hc)

/-- In names without slashes, where a text with one is not found either way, a text is found by
lower case exactly where it stands if it is steady or has a slash. -/
theorem isInfix_iff_of_steady_or_slash (h : Steady text ∨ '/' ∈ text) (hname : '/' ∉ name) :
    lowerChars [] text <:+: lowerChars [] name ↔ Stands text name := by
  rcases h with h | hslash
  · exact h.isInfix_iff
  · refine iff_of_false (fun hin => hname ?_) fun hstands => hname (hstands.slash_mem hslash)
    exact slash_mem_lowerChars_iff.1 (hin.subset (slash_mem_lowerChars_iff.2 hslash))

/-- A lookalike of a text: like it, lowered character by character, not longer than the lower case
of the text, and different from it if the text has a character with variants. -/
structure Lookalike (before text other : List Char) : Prop where
  alike : List.Forall₂ (fun a c => Text.alike a c = true) text other
  plain : ∀ c ∈ other, c ≠ 'Σ' ∧ c ≠ 'İ'
  length_le : other.length ≤ (lowerChars before text).length
  ne : (∃ c ∈ text, variants (fold c) ≠ []) → other.map fold ≠ lowerChars before text

/-- A character that is like another one and, if this has variants, has not its lower case. -/
theorem exists_lookalike_char {c : Char} {block : List Char} (h : LowersTo c block) :
    ∃ v l tail, block = l :: tail ∧ Text.alike c v = true ∧ (v ≠ 'Σ' ∧ v ≠ 'İ') ∧
      (variants (fold c) ≠ [] ∧ fold v ≠ l ∨ variants (fold c) = [] ∧ fold v = l ∧ tail = []) := by
  cases h with
  | sigma hl =>
      rcases hl with rfl | rfl
      · exact ⟨'ς', 'σ', [], rfl, by decide +kernel⟩
      · exact ⟨'σ', 'ς', [], rfl, by decide +kernel⟩
  | dotted => exact ⟨'ı', 'i', ['\u0307'], rfl, by decide +kernel⟩
  | plain hsigma hdotted =>
      by_cases hc : variants (fold c) = []
      · exact ⟨c, fold c, [], rfl, alike_of_fold_eq rfl, ⟨hsigma, hdotted⟩, Or.inr ⟨hc, rfl, rfl⟩⟩
      · obtain ⟨v, hv⟩ := List.exists_mem_of_ne_nil _ hc
        obtain ⟨hlower, hne, -, -⟩ := isVariant_of_mem hv
        refine ⟨v, fold c, [], rfl, alike_iff.2 (Or.inr ?_), ne_of_fold_eq_self hlower,
          Or.inl ⟨hc, ?_⟩⟩
        · rwa [hlower]
        · rwa [hlower]

theorem exists_lookalike (before text : List Char) : ∃ other, Lookalike before text other := by
  induction text generalizing before with
  | nil => exact ⟨[], .nil, by simp, Nat.le_refl _, by simp⟩
  | cons c text ih =>
      obtain ⟨other, halike, hplain, hlength, hne⟩ := ih (c :: before)
      obtain ⟨v, l, tail, hblock, hlike, hv, hhead⟩ :=
        exists_lookalike_char (lowersTo_lowerChar before c text)
      have hlower : lowerChars before (c :: text) =
          l :: (tail ++ lowerChars (c :: before) text) := by
        rw [lowerChars, hblock, List.cons_append]
      refine ⟨v :: other, .cons hlike halike, List.forall_mem_cons.2 ⟨hv, hplain⟩, ?_, ?_⟩
      · rw [hlower, List.length_cons, List.length_cons, List.length_append]
        omega
      · rintro ⟨x, hx, hvariants⟩ heq
        rw [hlower, List.map_cons, List.cons.injEq] at heq
        rcases hhead with ⟨-, hdiffers⟩ | ⟨hc, -, rfl⟩
        · exact hdiffers heq.1
        · rcases List.mem_cons.1 hx with rfl | hx
          · exact hvariants hc
          · exact hne ⟨x, hx, hvariants⟩ heq.2

/-- A name in which lower case misses a text that stands there, or finds one that does not. -/
structure Misleads (text name : List Char) : Prop where
  slash : '/' ∉ name
  shown : name.head? ≠ some '.'
  ne_nil : name ≠ []
  differs : ¬ (lowerChars [] text <:+: lowerChars [] name ↔ Stands text name)

theorem exists_misleads_of_variants (hvariants : ∃ c ∈ text, variants (fold c) ≠ [])
    (hslash : '/' ∉ text) : ∃ name, Misleads text name := by
  obtain ⟨other, halike, hplain, hlength, hne⟩ := exists_lookalike [] text
  have hother : '/' ∉ other := fun hmem => by
    obtain ⟨a, ha, hlike⟩ := (exists_mem_of_forall₂ halike).2 _ hmem
    exact hslash (eq_slash_of_alike hlike ▸ ha)
  -- in front stands a letter that the lowered text does not start with
  obtain ⟨x, hx, hfirst⟩ : ∃ x ∈ ['x', 'y'], (lowerChars [] text).head? ≠ some x := by
    by_cases hx : (lowerChars [] text).head? = some 'x'
    · exact ⟨'y', by decide, by rw [hx]; decide⟩
    · exact ⟨'x', by decide, hx⟩
  have hletters : ∀ x ∈ ['x', 'y'], (x ≠ '/' ∧ x ≠ '.') ∧ fold x = x := by
    intro x hx
    rcases List.mem_pair.1 hx with rfl | rfl <;> decide +kernel
  obtain ⟨⟨hx, hx'⟩, hfold⟩ := hletters x hx
  have hlower : lowerChars [] (x :: other) = x :: other.map fold := by
    rw [lowerChars_eq_map (List.forall_mem_cons.2 ⟨ne_of_fold_eq_self hfold, hplain⟩),
      List.map_cons, hfold]
  refine ⟨x :: other, ?_, by simpa using hx', by simp, fun hiff => ?_⟩
  · rw [List.mem_cons, not_or]
    exact ⟨hx.symm, hother⟩
  · have hin := hiff.2 ⟨other, (List.suffix_cons x other).isInfix, halike⟩
    rw [hlower, List.infix_cons_iff] at hin
    have hlater : lowerChars [] text <:+: other.map fold := by
      refine hin.resolve_left fun hstart => ?_
      cases hl : lowerChars [] text with
      | nil =>
          rw [hl, List.length_nil, Nat.le_zero, List.length_eq_zero_iff] at hlength
          exact hne hvariants (by rw [hlength, hl, List.map_nil])
      | cons l rest =>
          rw [hl] at hstart hfirst
          exact hfirst (congrArg some (List.cons_prefix_cons.1 hstart).1)
    refine hne hvariants (hlater.eq_of_length (Nat.le_antisymm hlater.length_le ?_)).symm
    rwa [List.length_map]

theorem misleads_of_dot (hsingle : ∀ c ∈ text, variants (fold c) = []) (hslash : '/' ∉ text) :
    Misleads ('\u0307' :: text) ('İ' :: text) := by
  have hplain : ∀ c ∈ text, c ≠ 'Σ' ∧ c ≠ 'İ' := fun c hc => ne_of_variants_eq_nil (hsingle c hc)
  have hlower : lowerChars [] ('\u0307' :: text) = '\u0307' :: text.map fold := by
    rw [lowerChars_eq_map (List.forall_mem_cons.2 ⟨by decide, hplain⟩), List.map_cons,
      fold_eq_dot_iff.2 rfl]
  have hname : lowerChars [] ('İ' :: text) = 'i' :: '\u0307' :: text.map fold := by
    rw [lowerChars, lowerChars_eq_map hplain]
    rfl
  refine ⟨?_, by simp, by simp, fun hiff => ?_⟩
  · rw [List.mem_cons, not_or]
    exact ⟨by decide, hslash⟩
  · rw [hlower, hname] at hiff
    obtain ⟨found, hin, hfound⟩ := hiff.1 (List.suffix_cons _ _).isInfix
    obtain rfl := hin.eq_of_length hfound.length_eq.symm
    obtain ⟨hlike, -⟩ := List.forall₂_cons.1 hfound
    exact absurd hlike (by decide +kernel)

/-- A text without slashes that is not steady misleads in some name. -/
theorem exists_misleads (h : ¬ Steady text) (hslash : '/' ∉ text) : ∃ name, Misleads text name := by
  by_cases hvariants : ∃ c ∈ text, variants (fold c) ≠ []
  · exact exists_misleads_of_variants hvariants hslash
  · have hsingle : ∀ c ∈ text, variants (fold c) = [] := by simpa using hvariants
    have hdot : text.head? = some '\u0307' := by
      by_contra hne
      exact h ⟨hsingle, hne⟩
    obtain ⟨rest, rfl⟩ := List.head?_eq_some_iff.1 hdot
    exact ⟨_, misleads_of_dot (List.forall_mem_cons.1 hsingle).2 (fun hmem =>
      hslash (List.mem_cons_of_mem _ hmem))⟩

end

end Naming

end Redline
