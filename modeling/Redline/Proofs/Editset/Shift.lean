import Mathlib.Algebra.Ring.Int.Defs
import Redline.Proofs.Editset.Splice
import Redline.Proofs.Tree.Positions
import Redline.Proofs.Tree.Moved

/-!
# Where octets are after some edits

Every edit moves the octets after it by as many as it makes the file longer: `Source.shift`. For
edits that lie apart, an octet outside of them is then where one pass over the text comes to it. The
text between two such octets is what the pass puts out between them: the text that was there, or the
replacement of an edit that takes just this text away.
-/

namespace Redline

open Text.Utf8

/-- What one pass puts out before the end of some characters, the first of which is at `offset`. -/
def passed (edits : List Edit) (offset : Nat) : List Char → List Char
  | [] => []
  | c :: rest =>
    inserted edits offset ++ (if isReplaced edits offset then [] else [c])
      ++ passed edits (offset + 1) rest

theorem passed_append (edits : List Edit) (offset : Nat) (cs ds : List Char) :
    passed edits offset (cs ++ ds) =
      passed edits offset cs ++ passed edits (offset + cs.length) ds := by
  induction cs generalizing offset with
  | nil => rfl
  | cons c cs ih =>
      rw [List.cons_append, passed, ih, passed, List.length_cons, List.append_assoc _ _
        (passed edits _ ds), Nat.add_assoc, Nat.add_comm 1]

/-- One pass is what was put out, then a pass over the rest. -/
theorem onePass_eq_passed_append (edits : List Edit) (offset : Nat) (cs ds : List Char) :
    onePass edits offset (cs ++ ds) =
      passed edits offset cs ++ onePass edits (offset + cs.length) ds := by
  induction cs generalizing offset with
  | nil => rfl
  | cons c cs ih =>
      rw [List.cons_append, onePass, ih, passed, List.length_cons, List.append_assoc _ _
        (onePass edits _ ds), Nat.add_assoc, Nat.add_comm 1]

theorem passed_perm {edits edits' : List Edit} (h : edits.Perm edits')
    (hapart : edits.Pairwise Edit.Apart) (offset : Nat) (cs : List Char) :
    passed edits offset cs = passed edits' offset cs := by
  induction cs generalizing offset with
  | nil => rfl
  | cons c cs ih => rw [passed, passed, inserted_perm h hapart, isReplaced_perm h, ih]

/-- The edit changes something, and nothing among the characters from `low` up to `high`. -/
structure Edit.Outside (low high : Nat) (e : Edit) : Prop where
  length_pos : 0 < e.length
  outside : e.offset + e.length ≤ low ∨ (high : Int) ≤ e.offset

theorem Edit.Outside.mono {low high low' high' : Nat} {e : Edit} (h : e.Outside low high)
    (hlow : low ≤ low') (hhigh : high' ≤ high) : e.Outside low' high' := by
  refine ⟨h.length_pos, ?_⟩
  rcases h.outside with hended | hstarts
  · exact Or.inl (by omega)
  · exact Or.inr (by omega)

theorem inserted_cons_of_ne {e : Edit} {edits : List Edit} {offset : Nat} (h : e.offset ≠ offset) :
    inserted (e :: edits) offset = inserted edits offset := by
  rw [inserted_cons, if_neg h, List.nil_append]

theorem isReplaced_cons_of_outside {e : Edit} {edits : List Edit} {offset : Nat}
    (h : e.offset + e.length ≤ offset ∨ (offset : Int) < e.offset) :
    isReplaced (e :: edits) offset = isReplaced edits offset := by
  have hout : (decide (e.offset ≤ (offset : Int)) && decide ((offset : Int) < e.offset + e.length))
      = false := by
    rw [Bool.and_eq_false_iff, decide_eq_false_iff_not, decide_eq_false_iff_not]
    omega
  rw [isReplaced, List.any_cons, hout, Bool.false_or, isReplaced]

/-- An edit elsewhere does not matter. -/
theorem passed_cons_of_outside {e : Edit} {edits : List Edit} {offset : Nat} {cs : List Char}
    (h : e.Outside offset (offset + cs.length)) :
    passed (e :: edits) offset cs = passed edits offset cs := by
  induction cs generalizing offset with
  | nil => rfl
  | cons c cs ih =>
      have hpos := h.length_pos
      have hout := h.outside
      rw [List.length_cons] at h hout
      rw [passed, passed, inserted_cons_of_ne (by omega), isReplaced_cons_of_outside (by omega),
        ih (h.mono (Nat.le_succ _) (by omega))]

/-- Text without edits is put out as it is. -/
theorem passed_of_outside {edits : List Edit} {offset : Nat} {cs : List Char}
    (h : ∀ e ∈ edits, e.Outside offset (offset + cs.length)) : passed edits offset cs = cs := by
  induction edits with
  | nil =>
      clear h
      induction cs generalizing offset with
      | nil => rfl
      | cons c cs ih => rw [passed, ih]; rfl
  | cons e edits ih =>
      rw [passed_cons_of_outside (h e List.mem_cons_self)]
      exact ih fun f hf => h f (List.mem_cons_of_mem _ hf)

theorem inserted_of_outside {edits : List Edit} {low high offset : Nat} (hlow : low ≤ offset)
    (hhigh : offset < high) (h : ∀ e ∈ edits, e.Outside low high) : inserted edits offset = [] := by
  refine inserted_eq_nil fun e he => ?_
  have hpos := (h e he).length_pos
  have hout := (h e he).outside
  omega

/-- Inside an edit nothing is put out. -/
theorem passed_of_inside {e : Edit} {edits : List Edit} {offset : Nat} {cs : List Char}
    (hstart : e.offset < offset) (hend : e.offset + e.length = ((offset + cs.length : Nat) : Int))
    (h : ∀ f ∈ edits, f.Outside offset (offset + cs.length)) :
    passed (e :: edits) offset cs = [] := by
  induction cs generalizing offset with
  | nil => rfl
  | cons c cs ih =>
      rw [List.length_cons] at hend h
      have hgone : isReplaced (e :: edits) offset = true := by
        rw [isReplaced, List.any_cons, Bool.or_eq_true, Bool.and_eq_true, decide_eq_true_eq,
          decide_eq_true_eq]
        exact Or.inl ⟨by omega, by omega⟩
      rw [passed, inserted_cons_of_ne (by omega),
        inserted_of_outside (Nat.le_refl _) (by omega) h, hgone, ih (by omega) (by omega)]
      · rfl
      · exact fun f hf => (h f hf).mono (Nat.le_succ _) (by omega)

/-- The text that an edit takes away is put out as its replacement. -/
theorem passed_at {e : Edit} {edits : List Edit} {offset : Nat} {cs : List Char}
    (hoffset : e.offset = offset) (hlength : e.length = cs.length) (hpos : 0 < e.length)
    (h : ∀ f ∈ edits, f.Outside offset (offset + cs.length)) :
    passed (e :: edits) offset cs = e.replacement.toList := by
  cases cs with
  | nil =>
      rw [List.length_nil] at hlength
      omega
  | cons c cs =>
      rw [List.length_cons] at hlength h
      have hgone : isReplaced (e :: edits) offset = true := by
        rw [isReplaced, List.any_cons, Bool.or_eq_true, Bool.and_eq_true, decide_eq_true_eq,
          decide_eq_true_eq]
        exact Or.inl ⟨by omega, by omega⟩
      rw [passed, inserted_cons, if_pos hoffset,
        inserted_of_outside (Nat.le_refl _) (by omega) h, hgone,
        passed_of_inside (by omega) (by omega)]
      · simp
      · exact fun f hf => (h f hf).mono (Nat.le_succ _) (by omega)

/-- Something is put out where a character stays or an edit inserts something. -/
theorem passed_ne_nil {edits : List Edit} {offset i : Nat} {cs : List Char} (hlow : offset ≤ i)
    (hhigh : i < offset + cs.length)
    (h : isReplaced edits i = false ∨ inserted edits i ≠ []) : passed edits offset cs ≠ [] := by
  induction cs generalizing offset with
  | nil => simp at hhigh; omega
  | cons c cs ih =>
      rw [passed]
      rcases Nat.eq_or_lt_of_le hlow with rfl | hlt
      · rcases h with hstays | hinserts
        · simp [hstays]
        · simp [hinserts]
      · rw [List.length_cons] at hhigh
        have hrest := ih hlt (by omega)
        simp [hrest]

/-! ### Octets -/

/-- How many octets a text gets longer by an edit. -/
def growthIn (cs : List Char) (e : Edit) : Int :=
  (width e.replacement.toList : Int)
    - (width (cs.take (e.offset + e.length).toNat) - width (cs.take e.offset.toNat))

/-- The characters up to `c`: those before a span, those in it, and the rest. -/
theorem take_eq_append (cs : List Char) {a k c : Nat} (hac : a + k ≤ c) :
    cs.take c = cs.take a ++ ((cs.take (a + k)).drop a ++ (cs.take c).drop (a + k)) := by
  conv_lhs => rw [← List.take_append_drop (a + k) (cs.take c), List.take_take,
    Nat.min_eq_left hac, ← List.take_append_drop a (cs.take (a + k)), List.take_take,
    Nat.min_eq_left (Nat.le_add_right a k)]
  rw [List.append_assoc]

/-- An edit that ends before a character moves it by what the text grows. -/
theorem width_passed_cons {cs : List Char} {e : Edit} {edits : List Edit} {a k c : Nat}
    (ha : e.offset = a) (hk : e.length = k) (hpos : 0 < k) (hac : a + k ≤ c) (hc : c ≤ cs.length)
    (hothers : ∀ f ∈ edits, f.Outside a (a + k)) :
    (width (passed (e :: edits) 0 (cs.take c)) : Int) =
      width (passed edits 0 (cs.take c)) + growthIn cs e := by
  have htake : (cs.take a).length = a := by
    rw [List.length_take]
    omega
  have htaken : ((cs.take (a + k)).drop a).length = k := by
    rw [List.length_drop, List.length_take]
    omega
  have hkept : passed edits a ((cs.take (a + k)).drop a) = (cs.take (a + k)).drop a :=
    passed_of_outside (by rwa [htaken])
  have hreplaced : passed (e :: edits) a ((cs.take (a + k)).drop a) = e.replacement.toList :=
    passed_at ha (by rw [hk, htaken]) (by omega) (by rwa [htaken])
  have hbefore : passed (e :: edits) 0 (cs.take a) = passed edits 0 (cs.take a) :=
    passed_cons_of_outside ⟨by omega, Or.inr (by omega)⟩
  have hafter : passed (e :: edits) (a + k) ((cs.take c).drop (a + k)) =
      passed edits (a + k) ((cs.take c).drop (a + k)) :=
    passed_cons_of_outside ⟨by omega, Or.inl (by omega)⟩
  have hwidth : width (cs.take a) + width ((cs.take (a + k)).drop a) =
      width (cs.take (a + k)) := by
    have h := width_take_add_width_drop (cs.take (a + k)) a
    rwa [List.take_take, Nat.min_eq_left (Nat.le_add_right a k)] at h
  have hgrowth : growthIn cs e = (width e.replacement.toList : Int)
      - width ((cs.take (a + k)).drop a) := by
    rw [growthIn, ha, hk, show ((a : Int) + k).toNat = a + k by omega, Int.toNat_natCast]
    omega
  rw [take_eq_append cs hac, passed_append, passed_append, passed_append, passed_append, htake,
    htaken, Nat.zero_add, hbefore, hreplaced, hafter, hkept, hgrowth]
  simp only [width_append]
  omega

/-- How far a character outside of all edits is moved. -/
theorem width_passed {cs : List Char} {edits : List Edit} {c : Nat} (hc : c ≤ cs.length)
    (hfits : ∀ e ∈ edits, e.Fits cs.length) (hapart : edits.Pairwise Edit.Apart)
    (hout : ∀ e ∈ edits, e.Outside c c) :
    (width (passed edits 0 (cs.take c)) : Int) = width (cs.take c)
      + ((edits.filter fun (e : Edit) => decide (e.offset + e.length ≤ (c : Int))).map
        (growthIn cs)).sum := by
  induction edits with
  | nil =>
      rw [passed_of_outside (by simp), List.filter_nil, List.map_nil, List.sum_nil, Int.add_zero]
  | cons e edits ih =>
      obtain ⟨hapartHead, hapartTail⟩ := List.pairwise_cons.1 hapart
      have hrest := ih (fun f hf => hfits f (List.mem_cons_of_mem _ hf)) hapartTail
        fun f hf => hout f (List.mem_cons_of_mem _ hf)
      have hefits := hfits e List.mem_cons_self
      have heout := hout e List.mem_cons_self
      have hpos := heout.length_pos
      by_cases hended : e.offset + e.length ≤ c
      · obtain ⟨a, ha⟩ := Int.eq_ofNat_of_zero_le hefits.offset_nonneg
        obtain ⟨k, hk⟩ := Int.eq_ofNat_of_zero_le hefits.length_nonneg
        have hothers : ∀ f ∈ edits, f.Outside a (a + k) := fun f hf =>
          ⟨(hout f (List.mem_cons_of_mem _ hf)).length_pos, by
            rcases (hapartHead f hf).disjoint with h | h <;> omega⟩
        rw [List.filter_cons_of_pos (by simpa using hended), List.map_cons, List.sum_cons,
          width_passed_cons ha hk (by omega) (by omega) hc hothers, hrest]
        omega
      · have hstarts : (c : Int) ≤ e.offset := heout.outside.resolve_left hended
        have hbefore : passed (e :: edits) 0 (cs.take c) = passed edits 0 (cs.take c) :=
          passed_cons_of_outside ⟨hpos, Or.inr (by rw [List.length_take]; omega)⟩
        rw [List.filter_cons_of_neg (by simpa using hended), hbefore, hrest]

namespace Source

/-- How many octets longer a file gets by an edit. -/
def growth (s : Source) (e : Edit) : Int :=
  ((encode e.replacement).length : Int)
    - (s.byteOffset (e.offset + e.length) - s.byteOffset e.offset)

/-- Where an octet is after some edits: each of them that ends at or before it moves it by as many
octets as the file gets longer. -/
def shift (s : Source) (edits : List Edit) (octet : Nat) : Nat :=
  ((octet : Int) + ((edits.filter fun (e : Edit) =>
    decide (s.byteOffset (e.offset + e.length) ≤ octet)).map s.growth).sum).toNat

variable {s : Source}

theorem growth_eq {e : Edit} (hs : s.IsUtf8) (he : e.Fits s.text.length) :
    s.growth e = growthIn s.text e := by
  obtain ⟨a, ha⟩ := Int.eq_ofNat_of_zero_le he.offset_nonneg
  obtain ⟨k, hk⟩ := Int.eq_ofNat_of_zero_le he.length_nonneg
  have hle := he.le_size
  have hstart : s.Marks (width (s.text.take a)) a := ⟨by omega, rfl⟩
  have hstop : s.Marks (width (s.text.take (a + k))) (a + k) := ⟨by omega, rfl⟩
  rw [growth, growthIn, length_encode, ha, hk, hstart.byteOffset_eq hs,
    show (a : Int) + k = ((a + k : Nat) : Int) by omega, hstop.byteOffset_eq hs, Int.toNat_natCast,
    Int.toNat_natCast]

section

variable {s' : Source} {edits : List Edit} (hs : s.IsUtf8)
  (hfits : ∀ e ∈ edits, e.Fits s.text.length) (hapart : edits.Pairwise Edit.Apart)

include hs hfits hapart

/-- An octet outside of all edits is where one pass comes to it. -/
theorem shift_eq {n c : Nat} (hn : s.Marks n c) (hout : ∀ e ∈ edits, e.Outside c c) :
    s.shift edits n = width (passed edits 0 (s.text.take c)) := by
  have hended : edits.filter (fun (e : Edit) =>
        decide (s.byteOffset (e.offset + e.length) ≤ (n : Int))) =
      edits.filter fun (e : Edit) => decide (e.offset + e.length ≤ (c : Int)) := by
    refine List.filter_congr fun e he => ?_
    obtain ⟨a, ha⟩ := Int.eq_ofNat_of_zero_le (hfits e he).offset_nonneg
    obtain ⟨k, hk⟩ := Int.eq_ofNat_of_zero_le (hfits e he).length_nonneg
    have hle := (hfits e he).le_size
    have hstop : s.Marks (width (s.text.take (a + k))) (a + k) := ⟨by omega, rfl⟩
    rw [ha, hk, show (a : Int) + k = ((a + k : Nat) : Int) by omega, hstop.byteOffset_eq hs,
      decide_eq_decide, Int.ofNat_le, Int.ofNat_le]
    exact hstop.le_iff hn
  have hgrowth : ∀ e ∈ edits.filter fun (e : Edit) => decide (e.offset + e.length ≤ (c : Int)),
      s.growth e = growthIn s.text e := fun e he =>
    growth_eq hs (hfits e (List.mem_filter.1 he).1)
  have hwidth := width_passed hn.1 hfits hapart hout
  rw [← hn.2] at hwidth
  rw [shift, hended, List.map_congr_left hgrowth, ← hwidth, Int.toNat_natCast]

/-- Between two octets outside of all edits the pass puts out the text between them. -/
theorem shift_add_width {n m b c : Nat} (hn : s.Marks n b) (hm : s.Marks m c) (hbc : b ≤ c)
    (hb : ∀ e ∈ edits, e.Outside b b) (hc : ∀ e ∈ edits, e.Outside c c) :
    s.shift edits m = s.shift edits n + width (passed edits b ((s.text.take c).drop b)) := by
  have hsplit : s.text.take c = s.text.take b ++ (s.text.take c).drop b := by
    conv_lhs => rw [← List.take_append_drop b (s.text.take c), List.take_take, Nat.min_eq_left hbc]
  have hlength : (s.text.take b).length = b := by
    rw [List.length_take, Nat.min_eq_left hn.1]
  rw [shift_eq hs hfits hapart hn hb, shift_eq hs hfits hapart hm hc]
  conv_lhs => rw [hsplit, passed_append, hlength, Nat.zero_add, width_append]

variable (htext : s'.text = onePass edits 0 s.text)

include htext

/-- An octet outside of all edits where a character starts is moved to one. -/
theorem Marks.shift {n c : Nat} (hn : s.Marks n c) (hout : ∀ e ∈ edits, e.Outside c c) :
    s'.Marks (s.shift edits n) (passed edits 0 (s.text.take c)).length := by
  have hlength : (s.text.take c).length = c := by rw [List.length_take, Nat.min_eq_left hn.1]
  have hsplit : s'.text = passed edits 0 (s.text.take c) ++ onePass edits c (s.text.drop c) := by
    have h := onePass_eq_passed_append edits 0 (s.text.take c) (s.text.drop c)
    rwa [List.take_append_drop, hlength, Nat.zero_add, ← htext] at h
  refine ⟨?_, ?_⟩
  · rw [hsplit, List.length_append]
    exact Nat.le_add_right _ _
  · rw [hsplit, List.take_left, shift_eq hs hfits hapart hn hout]

/-- What a moved node covers in the edited file. -/
theorem textOf_moved {t : Tree} {b c : Nat} (hs' : s'.IsUtf8) (hstart : s.Marks t.start b)
    (hstop : s.Marks t.stop c) (hbc : b ≤ c) (hb : ∀ e ∈ edits, e.Outside b b)
    (hc : ∀ e ∈ edits, e.Outside c c) :
    s'.textOf (t.moved (s.shift edits)) =
      String.ofList (passed edits b ((s.text.take c).drop b)) := by
  have hstart' := hstart.shift hs hfits hapart htext hb
  have hstop' := hstop.shift hs hfits hapart htext hc
  rw [← Tree.start_moved (s.shift edits) t] at hstart'
  rw [← Tree.stop_moved (s.shift edits) t] at hstop'
  have hle : (t.moved (s.shift edits)).start ≤ (t.moved (s.shift edits)).stop := by
    rw [Tree.start_moved, Tree.stop_moved,
      shift_add_width hs hfits hapart hstart hstop hbc hb hc]
    exact Nat.le_add_right _ _
  have hlength : (s.text.take c).length = c := by rw [List.length_take, Nat.min_eq_left hstop.1]
  have hsplit : s.text.take c = s.text.take b ++ (s.text.take c).drop b := by
    conv_lhs => rw [← List.take_append_drop b (s.text.take c), List.take_take, Nat.min_eq_left hbc]
  have hpassed : passed edits 0 (s.text.take c) = passed edits 0 (s.text.take b)
      ++ passed edits b ((s.text.take c).drop b) := by
    conv_lhs => rw [hsplit, passed_append, List.length_take, Nat.min_eq_left hstart.1,
      Nat.zero_add]
  have hprefix : s'.text.take (passed edits 0 (s.text.take c)).length =
      passed edits 0 (s.text.take c) := by
    have h := onePass_eq_passed_append edits 0 (s.text.take c) (s.text.drop c)
    rw [List.take_append_drop, ← htext] at h
    rw [h, List.take_left]
  rw [textOf_eq hs' hstart' hstop' hle, hprefix, hpassed, List.drop_left]

end

end Source

end Redline
