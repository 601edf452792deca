import Mathlib.Algebra.BigOperators.Group.List.Basic
import Mathlib.Algebra.Ring.Int.Defs
import Mathlib.Tactic.Common
import Redline.Editset.Apply
import Redline.Proofs.Text.Offsets

/-!
# Edits that lie apart are made at once

`onePass` goes over a text once from the left: at every offset it puts out what is inserted there
and then the character, unless an edit takes it away. Edits that fit a text and lie apart from one
another give the same text when they are made one after the other from the greatest offset down: the
edits that are left all end before what has been done.
-/

namespace Redline

/-- The place of an edit is in a text of `size` characters. -/
structure Edit.Fits (size : Nat) (e : Edit) : Prop where
  offset_nonneg : 0 ≤ e.offset
  length_nonneg : 0 ≤ e.length
  le_size : e.offset + e.length ≤ size

/-- Two edits start at different offsets and do not overlap. -/
structure Edit.Apart (a b : Edit) : Prop where
  offset_ne : a.offset ≠ b.offset
  disjoint : a.offset + a.length ≤ b.offset ∨ b.offset + b.length ≤ a.offset

theorem Edit.Apart.symm {a b : Edit} (h : a.Apart b) : b.Apart a :=
  ⟨h.offset_ne.symm, h.disjoint.symm⟩

/-- An edit that starts below another and lies apart from it ends where the other starts or
before. -/
theorem Edit.Fits.of_apart {e f : Edit} {size start : Nat} (hf : f.Fits size)
    (hstart : e.offset = start) (hlength : 0 ≤ e.length) (hlt : f.offset < e.offset)
    (hapart : e.Apart f) : f.Fits start := by
  refine ⟨hf.offset_nonneg, hf.length_nonneg, ?_⟩
  rcases hapart.disjoint with h | h
  all_goals omega

/-- What edits insert at an offset. -/
def inserted (edits : List Edit) (offset : Nat) : List Char :=
  (edits.filter (·.offset == (offset : Int))).flatMap (·.replacement.toList)

/-- Whether an edit takes away the character at an offset. -/
def isReplaced (edits : List Edit) (offset : Nat) : Bool :=
  edits.any fun e => decide (e.offset ≤ offset) && decide ((offset : Int) < e.offset + e.length)

/-- A text, which starts at `offset`, with all edits made in one pass over it. -/
def onePass (edits : List Edit) (offset : Nat) : List Char → List Char
  | [] => inserted edits offset
  | c :: rest =>
    inserted edits offset ++ (if isReplaced edits offset then [] else [c])
      ++ onePass edits (offset + 1) rest

theorem inserted_eq_nil {edits : List Edit} {offset : Nat}
    (h : ∀ e ∈ edits, e.offset ≠ offset) : inserted edits offset = [] := by
  rw [inserted, List.filter_eq_nil_iff.2, List.flatMap_nil]
  intro e he
  simpa using h e he

theorem isReplaced_eq_false {edits : List Edit} {offset : Nat}
    (h : ∀ e ∈ edits, e.offset + e.length ≤ offset) : isReplaced edits offset = false := by
  rw [isReplaced, List.any_eq_false]
  intro e he
  have := h e he
  simp only [Bool.and_eq_true, decide_eq_true_eq]
  omega

theorem inserted_cons (e : Edit) (edits : List Edit) (offset : Nat) :
    inserted (e :: edits) offset =
      (if e.offset = offset then e.replacement.toList else []) ++ inserted edits offset := by
  by_cases h : e.offset = offset
  · simp [inserted, h]
  · simp [inserted, h]

@[simp] theorem onePass_nil (offset : Nat) (cs : List Char) : onePass [] offset cs = cs := by
  induction cs generalizing offset with
  | nil => rfl
  | cons c cs ih => simp [onePass, inserted, isReplaced, ih]

/-- Past all edits nothing changes. -/
theorem onePass_of_past {edits : List Edit} {offset : Nat} (cs : List Char)
    (hstarted : ∀ e ∈ edits, e.offset < offset)
    (hended : ∀ e ∈ edits, e.offset + e.length ≤ offset) : onePass edits offset cs = cs := by
  have hnone : inserted edits offset = [] :=
    inserted_eq_nil fun e he => Int.ne_of_lt (hstarted e he)
  induction cs generalizing offset with
  | nil => exact hnone
  | cons c cs ih =>
      have hlater : ∀ e ∈ edits, e.offset < ((offset + 1 : Nat) : Int) := fun e he => by
        have := hstarted e he
        omega
      have hover : ∀ e ∈ edits, e.offset + e.length ≤ ((offset + 1 : Nat) : Int) := fun e he => by
        have := hended e he
        omega
      have hnext : inserted edits (offset + 1) = [] :=
        inserted_eq_nil fun e he => Int.ne_of_lt (hlater e he)
      rw [onePass, hnone, isReplaced_eq_false hended, ih hlater hover hnext]
      rfl

/-- Inside the last edit its characters are taken away and the rest does not change. -/
theorem onePass_of_inside {e : Edit} {edits : List Edit} {offset n : Nat} {cs : List Char}
    (hstarted : ∀ f ∈ e :: edits, f.offset < offset)
    (hended : ∀ f ∈ edits, f.offset + f.length ≤ offset)
    (hend : e.offset + e.length = offset + n) (hn : n ≤ cs.length) :
    onePass (e :: edits) offset cs = cs.drop n := by
  induction n generalizing offset cs with
  | zero =>
      refine onePass_of_past cs hstarted fun f hf => ?_
      rcases List.mem_cons.1 hf with rfl | hf
      · omega
      · exact hended f hf
  | succ n ih =>
      cases cs with
      | nil => simp at hn
      | cons c cs =>
          have hstart := hstarted e (by simp)
          have hnone : inserted (e :: edits) offset = [] :=
            inserted_eq_nil fun f hf => Int.ne_of_lt (hstarted f hf)
          have hgone : isReplaced (e :: edits) offset = true := by
            rw [isReplaced, List.any_cons, Bool.or_eq_true, Bool.and_eq_true]
            left
            constructor <;> rw [decide_eq_true_eq] <;> omega
          rw [onePass, hnone, hgone, ih]
          · rfl
          · intro f hf
            have := hstarted f hf
            omega
          · intro f hf
            have := hended f hf
            omega
          · omega
          · simpa using hn

/-- At the last edit its replacement is put out in the place of its characters. -/
theorem onePass_at {e : Edit} {edits : List Edit} {offset n : Nat} {cs : List Char}
    (hoffset : e.offset = offset) (hlength : e.length = n) (hn : n ≤ cs.length)
    (hstarted : ∀ f ∈ edits, f.offset < offset)
    (hended : ∀ f ∈ edits, f.offset + f.length ≤ offset) :
    onePass (e :: edits) offset cs = e.replacement.toList ++ cs.drop n := by
  have hinserted : inserted (e :: edits) offset = e.replacement.toList := by
    rw [inserted_cons, if_pos hoffset,
      inserted_eq_nil fun f hf => Int.ne_of_lt (hstarted f hf), List.append_nil]
  have hlater : ∀ f ∈ e :: edits, f.offset < ((offset + 1 : Nat) : Int) := fun f hf => by
    rcases List.mem_cons.1 hf with rfl | hf
    · omega
    · have := hstarted f hf
      omega
  have hover : ∀ f ∈ edits, f.offset + f.length ≤ ((offset + 1 : Nat) : Int) := fun f hf => by
    have := hended f hf
    omega
  cases cs with
  | nil => simpa [onePass] using hinserted
  | cons c cs =>
      cases n with
      | zero =>
          have hended' : ∀ f ∈ e :: edits, f.offset + f.length ≤ (offset : Int) := fun f hf => by
            rcases List.mem_cons.1 hf with rfl | hf
            · omega
            · exact hended f hf
          have hover' : ∀ f ∈ e :: edits, f.offset + f.length ≤ ((offset + 1 : Nat) : Int) :=
            fun f hf => by
              have := hended' f hf
              omega
          rw [onePass, hinserted, isReplaced_eq_false hended', onePass_of_past cs hlater hover']
          simp
      | succ n =>
          have hgone : isReplaced (e :: edits) offset = true := by
            rw [isReplaced, List.any_cons, Bool.or_eq_true, Bool.and_eq_true]
            left
            constructor <;> rw [decide_eq_true_eq] <;> omega
          rw [onePass, hinserted, hgone,
            onePass_of_inside (n := n) hlater hover (by omega) (by simpa using hn)]
          simp

/-- Before the last edit only the others matter. -/
theorem onePass_append {e : Edit} {edits : List Edit} {offset : Nat} {cs : List Char}
    (hoffset : e.offset = ((offset + cs.length : Nat) : Int)) (ds : List Char)
    (hstarted : ∀ f ∈ edits, f.offset < e.offset) :
    onePass (e :: edits) offset (cs ++ ds) =
      onePass edits offset cs ++ onePass (e :: edits) (offset + cs.length) ds := by
  induction cs generalizing offset with
  | nil =>
      have hnone : inserted edits offset = [] := by
        refine inserted_eq_nil fun f hf => ?_
        have := hstarted f hf
        simp at hoffset
        omega
      rw [onePass, hnone]
      rfl
  | cons c cs ih =>
      have hne : e.offset ≠ offset := by
        rw [hoffset, List.length_cons]
        omega
      have hsame : isReplaced (e :: edits) offset = isReplaced edits offset := by
        have hout : decide (e.offset ≤ (offset : Int)) = false := by
          rw [decide_eq_false_iff_not, hoffset, List.length_cons]
          omega
        rw [isReplaced, List.any_cons, hout, Bool.false_and, Bool.false_or, isReplaced]
      have hlater : e.offset = ((offset + 1 + cs.length : Nat) : Int) := by
        rw [hoffset, List.length_cons]
        omega
      rw [List.cons_append, onePass, inserted_cons, if_neg hne, hsame, ih hlater, onePass,
        List.length_cons, List.nil_append, List.append_assoc _ _ (onePass _ _ ds), Nat.add_assoc,
        Nat.add_comm 1]

/-! ### One edit after the other -/

/-- An edit whose place ends behind the text takes away what there is. -/
theorem splice_eq {e : Edit} {m n : Nat} (hoffset : e.offset = m) (hlength : e.length = n)
    (cs : List Char) : e.splice cs = cs.take m ++ e.replacement.toList ++ cs.drop (m + n) := by
  have hend : e.offset + e.length = ((m + n : Nat) : Int) := by omega
  rw [Edit.splice, hend, hoffset, Text.before_natCast, Text.onward_natCast]

/-- Edits from the greatest offset down that all end within the first `size` characters. -/
theorem foldl_splice_eq_onePass {edits : List Edit} {cs : List Char} {size : Nat}
    (hsize : size ≤ cs.length) (hfits : ∀ e ∈ edits, e.Fits size)
    (hdown : edits.Pairwise fun a b => b.offset < a.offset) (hapart : edits.Pairwise Edit.Apart) :
    edits.foldl (fun cs e => e.splice cs) cs = onePass edits 0 (cs.take size) ++ cs.drop size := by
  induction edits generalizing cs size with
  | nil => simp
  | cons e edits ih =>
      obtain ⟨hdownHead, hdownTail⟩ := List.pairwise_cons.1 hdown
      obtain ⟨hapartHead, hapartTail⟩ := List.pairwise_cons.1 hapart
      have he := hfits e (by simp)
      obtain ⟨m, hm⟩ := Int.eq_ofNat_of_zero_le he.offset_nonneg
      obtain ⟨n, hn⟩ := Int.eq_ofNat_of_zero_le he.length_nonneg
      have hle := he.le_size
      rw [hm, hn] at hle
      have hfits' : ∀ f ∈ edits, f.Fits m := fun f hf =>
        (hfits f (List.mem_cons_of_mem _ hf)).of_apart hm he.length_nonneg (hdownHead f hf)
          (hapartHead f hf)
      have htake : cs.take size = cs.take m ++ (cs.take size).drop m := by
        conv_lhs => rw [← List.take_append_drop m (cs.take size)]
        rw [List.take_take, Nat.min_eq_left (by omega)]
      have hlength : (cs.take m).length = m := by
        rw [List.length_take]
        omega
      have hrest : ((cs.take size).drop m).drop n ++ cs.drop size = cs.drop (m + n) := by
        rw [List.drop_drop, ← List.drop_append_of_le_length, List.take_append_drop]
        rw [List.length_take]
        omega
      have hedited : e.splice cs = cs.take m ++ (e.replacement.toList ++ cs.drop (m + n)) := by
        rw [splice_eq hm hn, List.append_assoc]
      have hstarted : ∀ f ∈ edits, f.offset < ((m : Nat) : Int) := fun f hf => hm ▸ hdownHead f hf
      rw [List.foldl_cons, hedited, ih _ hfits' hdownTail hapartTail, List.take_left' hlength,
        List.drop_left' hlength, htake,
        onePass_append (by rw [hm, hlength, Nat.zero_add]) _ hdownHead,
        hlength, Nat.zero_add, onePass_at hm hn _ hstarted fun f hf => (hfits' f hf).le_size]
      · rw [List.append_assoc, List.append_assoc, hrest]
      · rw [List.length_drop, List.length_take]
        omega
      · rw [List.length_append, hlength]
        omega

/-! ### Any order -/

/-- Of edits that start at different offsets, at most one is at an offset. -/
theorem filter_offset_of_apart {edits : List Edit} (h : edits.Pairwise Edit.Apart) (offset : Int) :
    (edits.filter (·.offset == offset)).length ≤ 1 := by
  have hpair : (edits.filter (·.offset == offset)).Pairwise Edit.Apart := h.filter _
  have hmem : ∀ e ∈ edits.filter (·.offset == offset), e.offset = offset := fun e he => by
    simpa using (List.mem_filter.1 he).2
  generalize edits.filter (·.offset == offset) = found at *
  match found, hpair, hmem with
  | [], _, _ => exact Nat.zero_le 1
  | [_], _, _ => exact Nat.le_refl 1
  | e :: f :: rest, hpair, hmem =>
      have hef := (List.pairwise_cons.1 hpair).1 f (by simp)
      exact absurd ((hmem e (by simp)).trans (hmem f (by simp)).symm) hef.offset_ne

theorem inserted_perm {edits edits' : List Edit} (h : edits.Perm edits')
    (hapart : edits.Pairwise Edit.Apart) (offset : Nat) :
    inserted edits offset = inserted edits' offset := by
  have hperm := h.filter (·.offset == (offset : Int))
  have hlength := filter_offset_of_apart hapart offset
  rw [inserted, inserted]
  generalize edits.filter (·.offset == (offset : Int)) = found at *
  match found, hlength, hperm with
  | [], _, hperm => rw [hperm.nil_eq]
  | [e], _, hperm => rw [hperm.symm.eq_singleton]
  | _ :: _ :: _, hlength, _ => simp at hlength

theorem isReplaced_perm {edits edits' : List Edit} (h : edits.Perm edits') (offset : Nat) :
    isReplaced edits offset = isReplaced edits' offset :=
  h.any_eq

/-- The order of edits that lie apart does not matter. -/
theorem onePass_perm {edits edits' : List Edit} (h : edits.Perm edits')
    (hapart : edits.Pairwise Edit.Apart) (offset : Nat) (cs : List Char) :
    onePass edits offset cs = onePass edits' offset cs := by
  induction cs generalizing offset with
  | nil => exact inserted_perm h hapart offset
  | cons c cs ih =>
      rw [onePass, onePass, inserted_perm h hapart, isReplaced_perm h, ih]

theorem sortEdits_perm (edits : List Edit) : (sortEdits edits).Perm edits :=
  List.mergeSort_perm _ _

theorem descending_perm (edits : List Edit) : (descending edits).Perm edits :=
  List.mergeSort_perm _ _

theorem pairwise_descending (edits : List Edit) :
    (descending edits).Pairwise fun a b => b.offset ≤ a.offset := by
  have h : (descending edits).Pairwise fun a b => decide (b.offset ≤ a.offset) = true :=
    List.pairwise_mergeSort (fun a b c hab hbc => by
      rw [decide_eq_true_eq] at hab hbc ⊢
      omega)
    (fun a b => by
      rw [Bool.or_eq_true, decide_eq_true_eq, decide_eq_true_eq]
      omega) edits
  exact h.imp fun hab => by simpa using hab

theorem pairwise_descending_lt {edits : List Edit} (hapart : edits.Pairwise Edit.Apart) :
    (descending edits).Pairwise (fun a b => b.offset < a.offset) ∧
      (descending edits).Pairwise Edit.Apart := by
  have hapart' : (descending edits).Pairwise Edit.Apart :=
    hapart.perm (descending_perm edits).symm fun h => h.symm
  refine ⟨?_, hapart'⟩
  exact (List.Pairwise.and (pairwise_descending edits) hapart').imp fun h =>
    Int.lt_iff_le_and_ne.2 ⟨h.1, fun heq => h.2.offset_ne heq.symm⟩

/-- Edits that fit a text and lie apart are made as in one pass over it. -/
theorem applyEdits_eq_onePass {content : String} {edits : List Edit}
    (hfits : ∀ e ∈ edits, e.Fits content.toList.length) (hapart : edits.Pairwise Edit.Apart) :
    applyEdits content edits = String.ofList (onePass edits 0 content.toList) := by
  have hperm := descending_perm edits
  obtain ⟨hdown, hapart'⟩ := pairwise_descending_lt hapart
  have hmade := foldl_splice_eq_onePass (Nat.le_refl _)
    (fun e he => hfits e (hperm.mem_iff.1 he)) hdown hapart'
  rw [applyEdits, hmade, List.take_length, List.drop_length, List.append_nil,
    onePass_perm hperm hapart']

/-!
## Making edits is splicing them at once

Edits are made one after the other, each at its offset in the text as it was before the first. For
edits that fit a text and lie apart this gives what one pass over that text gives. So the order in
which they are listed does not matter, and each edit makes the text longer by what it puts in less
what it takes away.
-/

instance (size : Nat) (e : Edit) : Decidable (e.Fits size) :=
  decidable_of_iff (0 ≤ e.offset ∧ 0 ≤ e.length ∧ e.offset + e.length ≤ size)
    ⟨fun h => ⟨h.1, h.2.1, h.2.2⟩, fun h => ⟨h.offset_nonneg, h.length_nonneg, h.le_size⟩⟩

instance (a b : Edit) : Decidable (a.Apart b) :=
  decidable_of_iff
    (a.offset ≠ b.offset ∧ (a.offset + a.length ≤ b.offset ∨ b.offset + b.length ≤ a.offset))
    ⟨fun h => ⟨h.1, h.2⟩, fun h => ⟨h.offset_ne, h.disjoint⟩⟩

/-- How many characters longer an edit makes a text. -/
def Edit.growth (e : Edit) : Int :=
  e.replacement.length - e.length

theorem length_splice {e : Edit} {cs : List Char} (h : e.Fits cs.length) :
    ((e.splice cs).length : Int) = cs.length + e.growth := by
  obtain ⟨m, hm⟩ := Int.eq_ofNat_of_zero_le h.offset_nonneg
  obtain ⟨n, hn⟩ := Int.eq_ofNat_of_zero_le h.length_nonneg
  have hle := h.le_size
  rw [hm, hn] at hle
  rw [splice_eq hm hn, Edit.growth, hn, List.length_append, List.length_append,
    List.length_take, List.length_drop, String.length_toList]
  omega

/-- Edits from the greatest offset down that all end within the first `size` characters. -/
theorem length_foldl_splice {edits : List Edit} {cs : List Char} {size : Nat}
    (hsize : size ≤ cs.length) (hfits : ∀ e ∈ edits, e.Fits size)
    (hdown : edits.Pairwise fun a b => b.offset < a.offset) (hapart : edits.Pairwise Edit.Apart) :
    ((edits.foldl (fun cs e => e.splice cs) cs).length : Int) =
      cs.length + (edits.map Edit.growth).sum := by
  induction edits generalizing cs size with
  | nil => simp
  | cons e edits ih =>
      obtain ⟨hdownHead, hdownTail⟩ := List.pairwise_cons.1 hdown
      obtain ⟨hapartHead, hapartTail⟩ := List.pairwise_cons.1 hapart
      have he := hfits e List.mem_cons_self
      obtain ⟨start, hstart⟩ := Int.eq_ofNat_of_zero_le he.offset_nonneg
      have hlength := he.length_nonneg
      have hend := he.le_size
      have hspliced : ((e.splice cs).length : Int) = cs.length + e.growth :=
        length_splice ⟨he.offset_nonneg, he.length_nonneg, by omega⟩
      -- What is left lies in the text before the edit, which the edit does not touch.
      have hroom : start ≤ (e.splice cs).length := by
        have hgrown := Int.natCast_nonneg e.replacement.length
        rw [Edit.growth] at hspliced
        omega
      have hrest : ∀ f ∈ edits, f.Fits start := fun f hf =>
        (hfits f (List.mem_cons_of_mem _ hf)).of_apart hstart hlength (hdownHead f hf)
          (hapartHead f hf)
      rw [List.foldl_cons, ih hroom hrest hdownTail hapartTail, hspliced, List.map_cons,
        List.sum_cons, Int.add_assoc]

theorem length_applyEdits {content : String} {edits : List Edit}
    (hfits : ∀ e ∈ edits, e.Fits content.length) (hapart : edits.Pairwise Edit.Apart) :
    ((applyEdits content edits).length : Int) =
      content.length + (edits.map Edit.growth).sum := by
  have hperm := descending_perm edits
  obtain ⟨hdown, hapart'⟩ := pairwise_descending_lt hapart
  have hsize : content.length ≤ content.toList.length := Nat.le_of_eq String.length_toList.symm
  have hmade := length_foldl_splice hsize (fun e he => hfits e (hperm.mem_iff.1 he)) hdown hapart'
  rw [applyEdits, String.length_ofList, hmade, String.length_toList, (hperm.map _).sum_eq]

/-- Edits that start at different offsets, lie within a text and do not overlap are made as in one
pass over the text, which copies the characters outside of them and puts out each replacement where
its edit starts. The order of the edits does not matter, and the text grows by the characters of the
replacements less those replaced. -/
theorem applyEdits_at_once {content : String} {edits : List Edit}
    (hfits : ∀ e ∈ edits, e.Fits content.length) (hapart : edits.Pairwise Edit.Apart) :
    applyEdits content edits = String.ofList (onePass edits 0 content.toList) ∧
    (∀ edits', edits'.Perm edits → applyEdits content edits' = applyEdits content edits) ∧
    ((applyEdits content edits).length : Int) =
      content.length + (edits.map fun e => (e.replacement.length : Int) - e.length).sum := by
  have hpass : ∀ edits', edits'.Perm edits →
      applyEdits content edits' = String.ofList (onePass edits 0 content.toList) := by
    intro edits' hperm
    have hapart' : edits'.Pairwise Edit.Apart := hapart.perm hperm.symm fun h => h.symm
    have hfits' : ∀ e ∈ edits', e.Fits content.toList.length := fun e he => by
      rw [String.length_toList]
      exact hfits e (hperm.mem_iff.1 he)
    rw [applyEdits_eq_onePass hfits' hapart', onePass_perm hperm hapart']
  refine ⟨hpass edits (List.Perm.refl edits), ?_, length_applyEdits hfits hapart⟩
  intro edits' hperm
  rw [hpass edits' hperm, hpass edits (List.Perm.refl edits)]

/-- An insertion inside a replaced span overlaps it: it is lost, and the span ends elsewhere. -/
example : applyEdits "abcdef" [⟨"a.ts", 1, 4, "X"⟩, ⟨"a.ts", 3, 0, "Y"⟩] = "aXef" := by cbv

/-- Edits that touch one another, with insertions before, between and after them. -/
def touching : List Edit :=
  [⟨"a.ts", 3, 2, ""⟩, ⟨"a.ts", 5, 0, "!"⟩, ⟨"a.ts", 0, 1, "kn"⟩, ⟨"a.ts", 1, 0, "-"⟩]

theorem applyEdits_touching :
    (∀ e ∈ touching, e.Fits "naïve".length) ∧ touching.Pairwise Edit.Apart ∧
    applyEdits "naïve" touching = "kn-aï!" ∧
    applyEdits "naïve" touching.reverse = applyEdits "naïve" touching ∧
    ((applyEdits "naïve" touching).length : Int) = 5 + (-2 + (1 + (1 + (1 + 0)))) := by
  have hfits : ∀ e ∈ touching, e.Fits "naïve".length := by decide
  have hapart : touching.Pairwise Edit.Apart := by decide
  obtain ⟨hpass, hperm, hlength⟩ := applyEdits_at_once hfits hapart
  exact ⟨hfits, hapart, hpass, hperm _ (List.reverse_perm _), hlength⟩

end Redline
