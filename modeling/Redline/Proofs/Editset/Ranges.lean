import Mathlib.Algebra.Order.BigOperators.Group.List
import Redline.Proofs.Editset.Splice

/-!
# Edits that overlap

The characters that some edits of a text replace lie in ranges, each a longest run of them
(`IsRange`). Edits that lie apart, or one inside the other, are made from the greatest offset down,
each with its length in the text as it was. So an edit that was made after others of its range may
find the range shorter than it was, and then takes away characters behind it (`overreach`). What is
made of a text is known range by range: each becomes what its own edits make of it (`rangeText`),
and what comes behind it lacks the characters that they take away too many. If all edits end within
their ranges, all other characters stay (`Keeps`).
-/

namespace Redline

/-! ### Ranges -/

/-- A range of replaced characters starts at the offset. -/
def opens (edits : List Edit) : Nat → Bool
  | 0 => isReplaced edits 0
  | offset + 1 => isReplaced edits (offset + 1) && !isReplaced edits offset

/-- Where the replaced characters end that start at `offset` a text. -/
def rangeEnd (edits : List Edit) (offset : Nat) : List Char → Nat
  | [] => offset
  | _ :: rest => if isReplaced edits offset then rangeEnd edits (offset + 1) rest else offset

/-- The characters from `a` up to `b` are a longest run of replaced ones. -/
structure IsRange (edits : List Edit) (a b : Nat) : Prop where
  lt : a < b
  opens : opens edits a = true
  replaced : ∀ i, a ≤ i → i < b → isReplaced edits i = true
  stop : isReplaced edits b = false

/-- A text, which starts at `offset`, with `fill a` in the place of the range that starts at `a`. -/
def filled (edits : List Edit) (fill : Nat → List Char) (offset : Nat) : List Char → List Char
  | [] => []
  | c :: rest =>
    (if isReplaced edits offset then if opens edits offset then fill offset else [] else [c])
      ++ filled edits fill (offset + 1) rest

/-- The characters outside of all ranges stay, in their order, with some text in the place of each
range. -/
def Keeps (edits : List Edit) (cs result : List Char) : Prop :=
  ∃ fill, result = filled edits fill 0 cs

/-- The edits of a range in the order in which they are made. -/
def turns (edits : List Edit) (a b : Nat) : List Edit :=
  (descending edits).filter fun e => decide (a ≤ e.offset) && decide (e.offset < b)

/-- What the edits of a range make of it when the text ends there. -/
def rangeText (edits : List Edit) (cs : List Char) (a b : Nat) : List Char :=
  ((turns edits a b).foldl (fun cs e => e.splice cs) (cs.take b)).drop a

/-- A text with each range made what its own edits make of it. -/
def byRange (edits : List Edit) (cs : List Char) : List Char :=
  filled edits (fun a => rangeText edits cs a (rangeEnd edits a (cs.drop a))) 0 cs

/-- Each edit ends, at its turn, within what was the first `size` characters: they are as many more
as the edits made before it made them. -/
def EndWithin (size : Int) (edits : List Edit) : Prop :=
  ∀ done e rest, edits = done ++ e :: rest →
    e.offset + e.length ≤ size + (done.map Edit.growth).sum

/-- No edit reaches behind its range, unless the text of `size` characters ends with the range. -/
def StayInRange (edits : List Edit) (size : Nat) : Prop :=
  ∀ a b, IsRange edits a b → b < size → EndWithin b (turns edits a b)

variable {edits : List Edit} {cs : List Char}

theorem isReplaced_iff {offset : Nat} :
    isReplaced edits offset = true ↔
      ∃ e ∈ edits, e.offset ≤ offset ∧ (offset : Int) < e.offset + e.length := by
  simp only [isReplaced, List.any_eq_true, Bool.and_eq_true, decide_eq_true_eq]

theorem opens_of_replaced {offset : Nat} (h : isReplaced edits offset = true) :
    opens edits (offset + 1) = false := by
  rw [opens, h, Bool.not_true, Bool.and_false]

theorem opens_of_not_replaced {offset : Nat} (h : isReplaced edits offset = false) :
    opens edits (offset + 1) = isReplaced edits (offset + 1) := by
  rw [opens, h, Bool.not_false, Bool.and_true]

theorem isReplaced_of_opens {offset : Nat} (h : opens edits offset = true) :
    isReplaced edits offset = true := by
  cases offset with
  | zero => exact h
  | succ offset => exact (Bool.and_eq_true_iff.1 h).1

theorem rangeEnd_of_not_replaced {offset : Nat} (h : isReplaced edits offset = false)
    (cs : List Char) : rangeEnd edits offset cs = offset := by
  cases cs with
  | nil => rfl
  | cons c cs => rw [rangeEnd, h, if_neg Bool.false_ne_true]

theorem rangeEnd_cons {offset : Nat} (h : isReplaced edits offset = true) (c : Char)
    (cs : List Char) : rangeEnd edits offset (c :: cs) = rangeEnd edits (offset + 1) cs := by
  rw [rangeEnd, if_pos h]

/-- The end of a run of replaced characters is in the text, and all before it are replaced. -/
theorem rangeEnd_spec (edits : List Edit) (offset : Nat) (cs : List Char) :
    offset ≤ rangeEnd edits offset cs ∧ rangeEnd edits offset cs ≤ offset + cs.length ∧
      ∀ i, offset ≤ i → i < rangeEnd edits offset cs → isReplaced edits i = true := by
  induction cs generalizing offset with
  | nil => exact ⟨Nat.le_refl _, Nat.le_refl _, fun i hi hlt => absurd hlt (Nat.not_lt.2 hi)⟩
  | cons c cs ih =>
      cases h : isReplaced edits offset with
      | false =>
          rw [rangeEnd_of_not_replaced h]
          exact ⟨Nat.le_refl _, Nat.le_add_right _ _, fun i hi hlt => absurd hlt (Nat.not_lt.2 hi)⟩
      | true =>
          obtain ⟨hle, hsize, hall⟩ := ih (offset + 1)
          rw [rangeEnd_cons h, List.length_cons]
          refine ⟨by omega, by omega, fun i hi hlt => ?_⟩
          rcases Nat.eq_or_lt_of_le hi with rfl | hi
          · exact h
          · exact hall i hi hlt

/-- The character at the end of a run of replaced ones, if there is one, is not replaced. -/
theorem isReplaced_rangeEnd {offset : Nat} {cs : List Char}
    (h : rangeEnd edits offset cs < offset + cs.length) :
    isReplaced edits (rangeEnd edits offset cs) = false := by
  induction cs generalizing offset with
  | nil => exact absurd h (Nat.lt_irrefl _)
  | cons c cs ih =>
      cases hrep : isReplaced edits offset with
      | false => rw [rangeEnd_of_not_replaced hrep, hrep]
      | true =>
          rw [rangeEnd_cons hrep] at h ⊢
          rw [List.length_cons] at h
          exact ih (by omega)

/-- From where on edits belong to the text that starts at `offset`: from there, or from the end of
the range that the offset is inside of. -/
def frontier (edits : List Edit) (offset : Nat) (cs : List Char) : Nat :=
  if opens edits offset then offset else rangeEnd edits offset cs

theorem frontier_of_opens {offset : Nat} (h : opens edits offset = true) (cs : List Char) :
    frontier edits offset cs = offset :=
  if_pos h

theorem frontier_of_not_opens {offset : Nat} (h : opens edits offset = false) (cs : List Char) :
    frontier edits offset cs = rangeEnd edits offset cs :=
  if_neg (Bool.eq_false_iff.1 h)

theorem frontier_of_not_replaced {offset : Nat} (h : isReplaced edits offset = false)
    (cs : List Char) : frontier edits offset cs = offset := by
  rw [frontier, rangeEnd_of_not_replaced h, ite_self]

/-- Behind a character that stays no range goes on. -/
theorem frontier_succ {offset : Nat} (h : isReplaced edits offset = false) (cs : List Char) :
    frontier edits (offset + 1) cs = offset + 1 := by
  cases hnext : isReplaced edits (offset + 1) with
  | false => exact frontier_of_not_replaced hnext cs
  | true => exact frontier_of_opens ((opens_of_not_replaced h).trans hnext) cs

/-! ### One edit after the other, with more text behind -/

/-- An edit starts in a text of `size` characters or at its end. -/
structure Edit.StartsIn (size : Nat) (e : Edit) : Prop where
  offset_nonneg : 0 ≤ e.offset
  length_nonneg : 0 ≤ e.length
  le_size : e.offset ≤ size

/-- How many characters behind a text edits take away that are made in it one after the other. -/
def overreach : List Char → List Edit → Nat
  | _, [] => 0
  | cs, e :: rest => ((e.offset + e.length).toNat - cs.length) + overreach (e.splice cs) rest

variable {e : Edit}

/-- What is behind a text lacks what the edit takes away beyond its end. -/
theorem splice_append (h : e.StartsIn cs.length) (ds : List Char) :
    e.splice (cs ++ ds) =
      e.splice cs ++ ds.drop ((e.offset + e.length).toNat - cs.length) := by
  obtain ⟨m, hm⟩ := Int.eq_ofNat_of_zero_le h.offset_nonneg
  obtain ⟨n, hn⟩ := Int.eq_ofNat_of_zero_le h.length_nonneg
  have hle := h.le_size
  have hend : (e.offset + e.length).toNat = m + n := by omega
  rw [splice_eq hm hn, splice_eq hm hn, hend, List.take_append_of_le_length (by omega),
    List.drop_append, List.append_assoc, List.append_assoc, List.append_assoc]

/-- The characters before an edit stay, and an edit that starts no later starts in what it makes. -/
theorem exists_splice_eq (h : e.StartsIn cs.length) {a : Nat} (ha : a ≤ e.offset) :
    (∃ tail, e.splice cs = cs.take a ++ tail) ∧ e.offset ≤ (e.splice cs).length := by
  obtain ⟨m, hm⟩ := Int.eq_ofNat_of_zero_le h.offset_nonneg
  obtain ⟨n, hn⟩ := Int.eq_ofNat_of_zero_le h.length_nonneg
  have hle := h.le_size
  have htake : cs.take m = cs.take a ++ (cs.take m).drop a := by
    conv_lhs => rw [← List.take_append_drop a (cs.take m)]
    rw [List.take_take, Nat.min_eq_left (by omega)]
  constructor
  · rw [splice_eq hm hn, htake, List.append_assoc, List.append_assoc]
    exact ⟨_, rfl⟩
  · rw [splice_eq hm hn, List.length_append, List.length_append, List.length_take]
    omega

/-- Edits that are made from the greatest offset down all start in the text as it is then. -/
theorem startsIn_splice {rest : List Edit}
    (hdown : (e :: rest).Pairwise fun a b => b.offset ≤ a.offset)
    (hstart : ∀ f ∈ e :: rest, f.StartsIn cs.length) :
    ∀ f ∈ rest, f.StartsIn (e.splice cs).length := by
  intro f hf
  have he := hstart e List.mem_cons_self
  have hf' := hstart f (List.mem_cons_of_mem _ hf)
  have hroom := (exists_splice_eq he (a := 0) he.offset_nonneg).2
  have hle := (List.pairwise_cons.1 hdown).1 f hf
  exact ⟨hf'.offset_nonneg, hf'.length_nonneg, by omega⟩

/-- Making edits in a text with more behind it is making them in the text alone; what is behind
lacks the characters that they take away beyond the end. -/
theorem foldl_splice_append {es : List Edit}
    (hdown : es.Pairwise fun a b => b.offset ≤ a.offset)
    (hstart : ∀ e ∈ es, e.StartsIn cs.length) (ds : List Char) :
    es.foldl (fun cs e => e.splice cs) (cs ++ ds) =
      es.foldl (fun cs e => e.splice cs) cs ++ ds.drop (overreach cs es) := by
  induction es generalizing cs ds with
  | nil => rfl
  | cons e es ih =>
      rw [List.foldl_cons, List.foldl_cons, splice_append (hstart e List.mem_cons_self),
        ih (List.pairwise_cons.1 hdown).2 (startsIn_splice hdown hstart), List.drop_drop, overreach]

/-- The characters before all edits stay. -/
theorem exists_foldl_splice_eq {es : List Edit} {a : Nat}
    (hdown : es.Pairwise fun a b => b.offset ≤ a.offset)
    (hstart : ∀ e ∈ es, e.StartsIn cs.length) (ha : ∀ e ∈ es, a ≤ e.offset) (hle : a ≤ cs.length) :
    ∃ tail, es.foldl (fun cs e => e.splice cs) cs = cs.take a ++ tail := by
  induction es generalizing cs with
  | nil => exact ⟨cs.drop a, (List.take_append_drop a cs).symm⟩
  | cons e es ih =>
      have he := hstart e List.mem_cons_self
      obtain ⟨⟨tail, htail⟩, -⟩ := exists_splice_eq he (ha e List.mem_cons_self)
      have hlength : (cs.take a).length = a := by
        rw [List.length_take, Nat.min_eq_left hle]
      obtain ⟨tail', htail'⟩ := ih (List.pairwise_cons.1 hdown).2 (startsIn_splice hdown hstart)
        (fun f hf => ha f (List.mem_cons_of_mem _ hf)) (by
          rw [htail, List.length_append, hlength]
          omega)
      rw [htail, List.take_left' hlength, ← htail] at htail'
      exact ⟨tail', htail'⟩

theorem endWithin_cons {size : Int} {es : List Edit} :
    EndWithin size (e :: es) ↔ e.offset + e.length ≤ size ∧ EndWithin (size + e.growth) es := by
  constructor
  · refine fun h => ⟨?_, fun done f rest hsplit => ?_⟩
    · simpa using h [] e es rfl
    · have hf := h (e :: done) f rest (by rw [hsplit, List.cons_append])
      rwa [List.map_cons, List.sum_cons, ← Int.add_assoc] at hf
  · rintro ⟨he, hes⟩ done f rest hsplit
    cases done with
    | nil =>
        cases hsplit
        simpa using he
    | cons g done =>
        obtain ⟨rfl, htail⟩ := List.cons.inj hsplit
        rw [List.map_cons, List.sum_cons, ← Int.add_assoc]
        exact hes done f rest htail

/-- Edits take away nothing from what is behind a text just when they end within it. -/
theorem overreach_eq_zero_iff {es : List Edit}
    (hdown : es.Pairwise fun a b => b.offset ≤ a.offset)
    (hstart : ∀ e ∈ es, e.StartsIn cs.length) :
    overreach cs es = 0 ↔ EndWithin cs.length es := by
  induction es generalizing cs with
  | nil => exact ⟨fun _ done e rest h => absurd h (by simp), fun _ => rfl⟩
  | cons e es ih =>
      have he := hstart e List.mem_cons_self
      have hfirst : (e.offset + e.length).toNat - cs.length = 0 ↔
          e.offset + e.length ≤ (cs.length : Int) := by omega
      rw [overreach, Nat.add_eq_zero_iff, endWithin_cons, hfirst]
      refine and_congr_right fun hend => ?_
      rw [ih (List.pairwise_cons.1 hdown).2 (startsIn_splice hdown hstart),
        length_splice ⟨he.offset_nonneg, he.length_nonneg, hend⟩]

/-! ### Range by range -/

/-- A text with `fill a` in the place of the range that starts at `a`, and without the first
`takes a` characters of what comes behind that range. -/
def eaten (edits : List Edit) (fill : Nat → List Char) (takes : Nat → Nat) (offset : Nat) :
    List Char → List Char
  | [] => []
  | c :: rest =>
    if isReplaced edits offset then
      if opens edits offset then
        fill offset ++ (eaten edits fill takes (offset + 1) rest).drop (takes offset)
      else eaten edits fill takes (offset + 1) rest
    else c :: eaten edits fill takes (offset + 1) rest

/-- The edits that start at `a` or behind are those that start at `b` or behind, and then those
between. -/
theorem filter_descending {es : List Edit} (hdown : es.Pairwise fun a b => b.offset ≤ a.offset)
    {a b : Int} (hab : a ≤ b) :
    es.filter (fun e => decide (a ≤ e.offset)) = es.filter (fun e => decide (b ≤ e.offset)) ++
      es.filter fun e => decide (a ≤ e.offset) && decide (e.offset < b) := by
  induction es with
  | nil => rfl
  | cons e es ih =>
      obtain ⟨hhead, htail⟩ := List.pairwise_cons.1 hdown
      by_cases hb : b ≤ e.offset
      · rw [List.filter_cons_of_pos (by simpa using Int.le_trans hab hb),
          List.filter_cons_of_pos (by simpa using hb),
          List.filter_cons_of_neg (by simp; omega), ih htail, List.cons_append]
      · have hall : ∀ f ∈ e :: es, f.offset < b := by
          intro f hf
          rcases List.mem_cons.1 hf with rfl | hf
          · omega
          · have := hhead f hf
            omega
        have hnone : (e :: es).filter (fun e => decide (b ≤ e.offset)) = [] :=
          List.filter_eq_nil_iff.2 fun f hf => by simpa using hall f hf
        rw [hnone, List.nil_append]
        refine List.filter_congr fun f hf => ?_
        rw [decide_eq_true (hall f hf), Bool.and_true]

section

variable (hfits : ∀ e ∈ edits, e.Fits cs.length) (hlong : ∀ e ∈ edits, 0 < e.length)

/-- The number of characters behind a range that its edits take away. -/
def rangeTakes (edits : List Edit) (cs : List Char) (a b : Nat) : Nat :=
  overreach (cs.take b) (turns edits a b)

include hfits in
theorem startsIn_of_mem_turns {a b : Nat} (hb : b ≤ cs.length) {e : Edit}
    (he : e ∈ turns edits a b) :
    e.StartsIn (cs.take b).length ∧ a ≤ e.offset := by
  obtain ⟨hmem, hplace⟩ := List.mem_filter.1 he
  have hfit := hfits e ((descending_perm edits).mem_iff.1 hmem)
  simp only [Bool.and_eq_true, decide_eq_true_eq] at hplace
  refine ⟨⟨hfit.offset_nonneg, hfit.length_nonneg, ?_⟩, hplace.1⟩
  rw [List.length_take, Nat.min_eq_left hb]
  exact Int.le_of_lt hplace.2

theorem pairwise_turns (a b : Nat) : (turns edits a b).Pairwise fun x y => y.offset ≤ x.offset :=
  (pairwise_descending edits).filter _

include hfits in
/-- The edits of a range leave the text before it alone. -/
theorem foldl_turns {a b : Nat} (hab : a ≤ b) (hb : b ≤ cs.length) :
    (turns edits a b).foldl (fun cs e => e.splice cs) (cs.take b) =
      cs.take a ++ rangeText edits cs a b := by
  have hlength : (cs.take a).length = a := by
    rw [List.length_take, Nat.min_eq_left (by omega)]
  obtain ⟨tail, htail⟩ := exists_foldl_splice_eq (a := a) (pairwise_turns a b)
    (fun e he => (startsIn_of_mem_turns hfits hb he).1)
    (fun e he => (startsIn_of_mem_turns hfits hb he).2) (by rw [List.length_take]; omega)
  rw [List.take_take, Nat.min_eq_left hab] at htail
  rw [rangeText, htail, List.drop_left' hlength]

include hfits hlong in
/-- No edit starts at the end of a text. -/
theorem filter_descending_length :
    (descending edits).filter (fun e => decide ((cs.length : Int) ≤ e.offset)) = [] := by
  refine List.filter_eq_nil_iff.2 fun e he => ?_
  have hmem := (descending_perm edits).mem_iff.1 he
  have hfit := (hfits e hmem).le_size
  have hpos := hlong e hmem
  rw [decide_eq_true_eq]
  omega

include hlong in
/-- No edit starts at a character that stays, or it would replace it. -/
theorem filter_descending_succ {p : Nat} (h : isReplaced edits p = false) :
    (descending edits).filter (fun e => decide ((p : Int) ≤ e.offset)) =
      (descending edits).filter fun e => decide (((p + 1 : Nat) : Int) ≤ e.offset) := by
  refine List.filter_congr fun e he => ?_
  have hmem := (descending_perm edits).mem_iff.1 he
  have hout : ¬(e.offset ≤ p ∧ (p : Int) < e.offset + e.length) := fun hin =>
    Bool.eq_false_iff.1 h (isReplaced_iff.2 ⟨e, hmem, hin⟩)
  have hpos := hlong e hmem
  rw [decide_eq_decide]
  omega

include hfits hlong in
/-- The edits that belong to the text from an offset on make of a text what was before them and,
range by range, what comes then. -/
theorem foldl_splice_eq_eaten {p : Nat} {ds : List Char} (hds : cs.drop p = ds)
    (hp : p + ds.length = cs.length) :
    ((descending edits).filter fun e => decide ((frontier edits p ds : Int) ≤ e.offset)).foldl
        (fun cs e => e.splice cs) cs =
      cs.take (frontier edits p ds) ++
        eaten edits (fun a => rangeText edits cs a (rangeEnd edits a (cs.drop a)))
          (fun a => rangeTakes edits cs a (rangeEnd edits a (cs.drop a))) p ds := by
  induction ds generalizing p with
  | nil =>
      have hend : frontier edits p [] = cs.length := (ite_self p).trans hp
      rw [hend, filter_descending_length hfits hlong, List.take_length]
      exact (List.append_nil cs).symm
  | cons c rest ih =>
      have hrest : cs.drop (p + 1) = rest := by rw [← List.tail_drop, hds, List.tail_cons]
      have hnext : p + 1 + rest.length = cs.length := by
        rw [List.length_cons] at hp
        omega
      have hmade := ih hrest hnext
      cases hrep : isReplaced edits p with
      | false =>
          have htake : cs.take (p + 1) = cs.take p ++ [c] := by
            rw [List.take_add, hds]
            rfl
          rw [frontier_succ hrep, htake, List.append_assoc] at hmade
          rw [frontier_of_not_replaced hrep, filter_descending_succ hlong hrep, hmade, eaten, hrep]
          rfl
      | true =>
          rw [frontier_of_not_opens (opens_of_replaced hrep)] at hmade
          cases hopens : opens edits p with
          | false =>
              rw [frontier_of_not_opens hopens, rangeEnd_cons hrep, eaten, hrep, hopens]
              exact hmade
          | true =>
              -- the edits of the range are made last, in a text that may go on behind it
              obtain ⟨hle, hsize, -⟩ := rangeEnd_spec edits (p + 1) rest
              have hb : rangeEnd edits (p + 1) rest ≤ cs.length := by omega
              rw [frontier_of_opens hopens, filter_descending (pairwise_descending edits)
                (show (p : Int) ≤ (rangeEnd edits (p + 1) rest : Nat) by omega), List.foldl_append,
                hmade, ← turns, foldl_splice_append (pairwise_turns _ _)
                fun e he => (startsIn_of_mem_turns hfits hb he).1, foldl_turns hfits (by omega) hb,
                eaten, hrep, hopens, hds, rangeEnd_cons hrep, rangeTakes, List.append_assoc]
              rfl

end

/-! ### When nothing behind a range is taken away -/

section

variable (fill : Nat → List Char) (takes : Nat → Nat)

theorem length_eaten_le (p : Nat) (ds : List Char) :
    (eaten edits fill takes p ds).length ≤ (filled edits fill p ds).length := by
  induction ds generalizing p with
  | nil => exact Nat.le_refl _
  | cons c rest ih =>
      have hrest := ih (p + 1)
      cases hrep : isReplaced edits p with
      | false =>
          rw [eaten, filled, hrep]
          simpa using hrest
      | true =>
          cases hopens : opens edits p with
          | false =>
              rw [eaten, filled, hrep, hopens]
              simpa using hrest
          | true =>
              rw [eaten, filled, hrep, hopens]
              simp only [if_true, List.length_append, List.length_drop]
              omega

/-- Inside a range that goes up to the end of the text nothing comes any more. -/
theorem filled_eq_nil_iff {p : Nat} {ds : List Char} (hopens : opens edits p = false) :
    filled edits fill p ds = [] ↔ ¬rangeEnd edits p ds < p + ds.length := by
  induction ds generalizing p with
  | nil => simp [filled, rangeEnd]
  | cons c rest ih =>
      cases hrep : isReplaced edits p with
      | false =>
          rw [filled, hrep, rangeEnd_of_not_replaced hrep]
          simp
      | true =>
          have hsize : p + (c :: rest).length = p + 1 + rest.length := by
            rw [List.length_cons]
            omega
          rw [filled, hrep, hopens, rangeEnd_cons hrep, hsize, ← ih (opens_of_replaced hrep)]
          rfl

theorem drop_eq_iff {xs ys : List Char} (h : xs.length ≤ ys.length) (n : Nat) :
    xs.drop n = ys ↔ xs = ys ∧ (ys ≠ [] → n = 0) := by
  constructor
  · intro hdrop
    have hlength := congrArg List.length hdrop
    rw [List.length_drop] at hlength
    by_cases hn : n = 0
    · rw [hn, List.drop_zero] at hdrop
      exact ⟨hdrop, fun _ => hn⟩
    · have hxs : xs = [] := List.length_eq_zero_iff.1 (by omega)
      have hys : ys = [] := List.length_eq_zero_iff.1 (by omega)
      exact ⟨hxs.trans hys.symm, fun hne => absurd hys hne⟩
  · rintro ⟨rfl, hn⟩
    cases xs with
    | nil => exact List.drop_nil
    | cons x xs => rw [hn (List.cons_ne_nil x xs), List.drop_zero]

/-- Nothing is missing just when nothing is taken away behind a range that ends within the text. -/
theorem eaten_eq_filled_iff {p : Nat} {ds : List Char} (hds : cs.drop p = ds)
    (hp : p + ds.length = cs.length) :
    eaten edits fill takes p ds = filled edits fill p ds ↔
      ∀ a, p ≤ a → opens edits a = true → rangeEnd edits a (cs.drop a) < cs.length →
        takes a = 0 := by
  induction ds generalizing p with
  | nil =>
      refine ⟨fun _ a ha _ hend => ?_, fun _ => rfl⟩
      have hle := (rangeEnd_spec edits a (cs.drop a)).1
      rw [List.length_nil] at hp
      omega
  | cons c rest ih =>
      have hrest : cs.drop (p + 1) = rest := by rw [← List.tail_drop, hds, List.tail_cons]
      have hsize : p + 1 + rest.length = cs.length := by
        rw [List.length_cons] at hp
        omega
      have hih := ih hrest hsize
      have hsplit : ∀ Q : Nat → Prop, (∀ a, p ≤ a → Q a) ↔ Q p ∧ ∀ a, p + 1 ≤ a → Q a :=
        fun Q => ⟨fun h => ⟨h p (Nat.le_refl p), fun a ha => h a (by omega)⟩,
          fun h a ha => (Nat.eq_or_lt_of_le ha).elim (fun heq => heq ▸ h.1) (h.2 a)⟩
      cases hopens : opens edits p with
      | false =>
          rw [hsplit, ← hih, eaten, filled, hopens]
          cases isReplaced edits p with
          | false => simp
          | true => simp
      | true =>
          have hrep := isReplaced_of_opens hopens
          have hnil : filled edits fill (p + 1) rest = [] ↔
              ¬rangeEnd edits (p + 1) rest < p + 1 + rest.length :=
            filled_eq_nil_iff fill (opens_of_replaced hrep)
          rw [hsplit, ← hih, eaten, filled, hrep, hopens, hds, rangeEnd_cons hrep, ← hsize]
          simp only [if_true, List.append_cancel_left_eq,
            drop_eq_iff (length_eaten_le fill takes (p + 1) rest)]
          rw [and_comm, Ne, hnil, not_not]
          simp

end

section

variable (hfits : ∀ e ∈ edits, e.Fits cs.length) (hlong : ∀ e ∈ edits, 0 < e.length)

include hfits

theorem isReplaced_eq_false_of_le {i : Nat} (hi : cs.length ≤ i) : isReplaced edits i = false :=
  isReplaced_eq_false fun e he => by
    have := (hfits e he).le_size
    omega

/-- A range is where its first character is and where the replaced ones end. -/
theorem isRange_iff {a b : Nat} :
    IsRange edits a b ↔ opens edits a = true ∧ b = rangeEnd edits a (cs.drop a) := by
  obtain ⟨hle, hsize, hall⟩ := rangeEnd_spec edits a (cs.drop a)
  rw [List.length_drop] at hsize
  have hstop (h : opens edits a = true) :
      isReplaced edits (rangeEnd edits a (cs.drop a)) = false := by
    have ha : a < cs.length := by
      by_contra hout
      have hrep := isReplaced_of_opens h
      rw [isReplaced_eq_false_of_le hfits (Nat.le_of_not_lt hout)] at hrep
      cases hrep
    rcases Nat.lt_or_ge (rangeEnd edits a (cs.drop a)) cs.length with hlt | hge
    · exact isReplaced_rangeEnd (by rw [List.length_drop]; omega)
    · exact isReplaced_eq_false_of_le hfits hge
  constructor
  · intro h
    refine ⟨h.opens, Nat.le_antisymm ?_ ?_⟩
    · by_contra hlt
      have hrep := h.replaced _ hle (Nat.lt_of_not_le hlt)
      rw [hstop h.opens] at hrep
      cases hrep
    · by_contra hlt
      have hrep := hall b (Nat.le_of_lt h.lt) (Nat.lt_of_not_le hlt)
      rw [h.stop] at hrep
      cases hrep
  · rintro ⟨hopens, rfl⟩
    refine ⟨Nat.lt_of_le_of_ne hle fun heq => ?_, hopens, hall, hstop hopens⟩
    have hrep := isReplaced_of_opens hopens
    rw [heq, hstop hopens] at hrep
    cases hrep

include hlong

/-- Edits make of a text what its ranges become and, behind each range, what the edits of the range
do not take away there. -/
theorem foldl_descending_eq_eaten :
    (descending edits).foldl (fun cs e => e.splice cs) cs =
      eaten edits (fun a => rangeText edits cs a (rangeEnd edits a (cs.drop a)))
        (fun a => rangeTakes edits cs a (rangeEnd edits a (cs.drop a))) 0 cs := by
  have hstart : frontier edits 0 cs = 0 := by
    cases h : opens edits 0 with
    | true => exact frontier_of_opens h cs
    | false => exact frontier_of_not_replaced h cs
  have hall : (descending edits).filter (fun e => decide (((0 : Nat) : Int) ≤ e.offset)) =
      descending edits :=
    List.filter_eq_self.2 fun e he =>
      decide_eq_true (hfits e ((descending_perm edits).mem_iff.1 he)).offset_nonneg
  have hmade := foldl_splice_eq_eaten hfits hlong List.drop_zero (Nat.zero_add _)
  rwa [hstart, hall, List.take_zero, List.nil_append] at hmade

/-- Edits of at least one character each make each range what its own edits make of it, and leave
all other characters, just when no edit of a range that ends before the text does reaches behind
it. -/
theorem foldl_descending_eq_byRange_iff :
    (descending edits).foldl (fun cs e => e.splice cs) cs = byRange edits cs ↔
      StayInRange edits cs.length := by
  have hwithin (a b : Nat) (hb : b ≤ cs.length) :
      rangeTakes edits cs a b = 0 ↔ EndWithin b (turns edits a b) := by
    rw [rangeTakes, overreach_eq_zero_iff (pairwise_turns a b)
      fun e he => (startsIn_of_mem_turns hfits hb he).1, List.length_take, Nat.min_eq_left hb]
  rw [foldl_descending_eq_eaten hfits hlong, byRange,
    eaten_eq_filled_iff _ _ List.drop_zero (Nat.zero_add _)]
  constructor
  · intro h a b hrange hb
    obtain ⟨hopens, rfl⟩ := (isRange_iff hfits).1 hrange
    exact (hwithin a _ (Nat.le_of_lt hb)).1 (h a (Nat.zero_le a) hopens hb)
  · intro h a _ hopens hend
    exact (hwithin a _ (Nat.le_of_lt hend)).2 (h a _ ((isRange_iff hfits).2 ⟨hopens, rfl⟩) hend)

end

/-! ### Edits that never reach behind their range -/

/-- An edit of a range ends within it in the text as it was. -/
theorem IsRange.le_of_mem_turns {a b : Nat} (h : IsRange edits a b) {e : Edit}
    (he : e ∈ turns edits a b) : e.offset + e.length ≤ b := by
  obtain ⟨hmem, hplace⟩ := List.mem_filter.1 he
  simp only [Bool.and_eq_true, decide_eq_true_eq] at hplace
  by_contra hlt
  have hrep := isReplaced_iff.2 ⟨e, (descending_perm edits).mem_iff.1 hmem, by omega,
    Int.lt_of_not_ge hlt⟩
  rw [h.stop] at hrep
  cases hrep

/-- Edits that make no text shorter stay in their ranges, however they overlap. -/
theorem stayInRange_of_growth_nonneg (hgrowth : ∀ e ∈ edits, 0 ≤ e.growth) (size : Nat) :
    StayInRange edits size := by
  intro a b hrange _ done e rest hsplit
  have hmem : ∀ f ∈ done, f ∈ turns edits a b := fun f hf => by
    rw [hsplit]
    exact List.mem_append_left _ hf
  have hsum : 0 ≤ (done.map Edit.growth).sum := by
    refine List.sum_nonneg fun n hn => ?_
    obtain ⟨f, hf, rfl⟩ := List.mem_map.1 hn
    exact hgrowth f ((descending_perm edits).mem_iff.1 (List.mem_filter.1 (hmem f hf)).1)
  have hend := hrange.le_of_mem_turns (e := e) (by rw [hsplit]; simp)
  omega

/-- Edits that lie apart, from the greatest offset down, stay within a text that they all fit. -/
theorem endWithin_of_apart {size : Int} {es : List Edit}
    (hfits : ∀ e ∈ es, 0 ≤ e.length ∧ e.offset + e.length ≤ size)
    (hdown : es.Pairwise fun a b => b.offset < a.offset) (hapart : es.Pairwise Edit.Apart) :
    EndWithin size es := by
  induction es generalizing size with
  | nil => exact fun done e rest h => absurd h (by simp)
  | cons e es ih =>
      obtain ⟨hbelow, hdown⟩ := List.pairwise_cons.1 hdown
      obtain ⟨haway, hapart⟩ := List.pairwise_cons.1 hapart
      obtain ⟨hlength, hend⟩ := hfits e List.mem_cons_self
      refine endWithin_cons.2 ⟨hend, ih (fun f hf => ?_) hdown hapart⟩
      obtain ⟨hf', -⟩ := hfits f (List.mem_cons_of_mem _ hf)
      have hlt := hbelow f hf
      have hgrown := Int.natCast_nonneg e.replacement.length
      refine ⟨hf', ?_⟩
      rw [Edit.growth]
      rcases (haway f hf).disjoint with h | h
      all_goals omega

/-- Edits that lie apart stay in their ranges, whatever they put in. -/
theorem stayInRange_of_apart (hlength : ∀ e ∈ edits, 0 ≤ e.length)
    (hapart : edits.Pairwise Edit.Apart) (size : Nat) : StayInRange edits size := by
  intro a b hrange _
  obtain ⟨hdown, hapart'⟩ := pairwise_descending_lt hapart
  refine endWithin_of_apart (fun e he => ⟨?_, hrange.le_of_mem_turns he⟩) (hdown.filter _)
    (hapart'.filter _)
  exact hlength e ((descending_perm edits).mem_iff.1 (List.mem_filter.1 he).1)

end Redline
