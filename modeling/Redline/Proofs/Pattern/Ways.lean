import Mathlib.Tactic.Choose
import Mathlib.Tactic.Common
import Redline.Pattern.Matcher

/-!
# The ways to match

What is done after a part has matched does not change how the part matches: at every place there is
one list of ways, in the order of preference, and the continuation is tried on one after the other.
Every way leads to a place further on in the text. So a match that must have some property is the
first of all ways that has it.
-/

namespace Redline.Pattern

/-- The other place is further on in the text, or the same. -/
def Cursor.Reaches (c c' : Cursor) : Prop :=
  ∃ read, c.after = read ++ c'.after ∧ c'.before = read.reverse ++ c.before

namespace Cursor.Reaches

variable {c c' c'' : Cursor}

theorem refl (c : Cursor) : c.Reaches c :=
  ⟨[], rfl, rfl⟩

theorem trans (h : c.Reaches c') (h' : c'.Reaches c'') : c.Reaches c'' := by
  obtain ⟨read, hafter, hbefore⟩ := h
  obtain ⟨read', hafter', hbefore'⟩ := h'
  refine ⟨read ++ read', ?_, ?_⟩
  · rw [hafter, hafter', List.append_assoc]
  · rw [hbefore', hbefore, List.reverse_append, List.append_assoc]

theorem of_next? {x : Char} (h : c.next? = some (x, c')) : c.Reaches c' := by
  rw [next?] at h
  split at h
  · cases h
  · rename_i y rest hafter
    cases h
    exact ⟨[x], hafter, rfl⟩

theorem of_skip? {same : Char → Char → Bool} {text : List Char}
    (h : c.skip? same text = some c') : c.Reaches c' := by
  induction text generalizing c with
  | nil =>
      cases h
      exact refl _
  | cons x text ih =>
      rw [skip?] at h
      split at h
      · cases h
      · rename_i y next hnext
        split_ifs at h
        exact (of_next? hnext).trans (ih h)

end Cursor.Reaches

theorem findSome?_flatMap {α β γ : Type} (xs : List α) (f : α → List β) (g : β → Option γ) :
    (xs.flatMap f).findSome? g = xs.findSome? fun x => (f x).findSome? g := by
  induction xs with
  | nil => rfl
  | cons x xs ih =>
      rw [List.flatMap_cons, List.findSome?_append, List.findSome?_cons, ih]
      cases (f x).findSome? g <;> rfl

/-- A step has a list of ways at every place, and tries the continuation on them in turn. -/
def Enumerates (step : Step Outcome) : Prop :=
  ∀ c caps, ∃ ways : List Outcome, (∀ o ∈ ways, c.Reaches o.1) ∧
    ∀ k, step c caps k = ways.findSome? fun o => k o.1 o.2

namespace Enumerates

variable {step next : Step Outcome}

/-- What is found without a condition is one of the ways. -/
theorem reaches (h : Enumerates step) {c : Cursor} {caps : Captures} {o : Outcome}
    (ho : step c caps (fun c caps => some (c, caps)) = some o) : c.Reaches o.1 := by
  obtain ⟨ways, hways, hstep⟩ := h c caps
  rw [hstep] at ho
  obtain ⟨way, hway, hsome⟩ := List.exists_of_findSome?_eq_some ho
  obtain rfl : way = o := Option.some.inj hsome
  exact hways way hway

/-- A step with one way at most. -/
theorem jump (place : Cursor → Captures → Option Outcome)
    (hplace : ∀ {c caps o}, place c caps = some o → c.Reaches o.1)
    (hstep : ∀ c caps k, step c caps k = (place c caps).bind fun o => k o.1 o.2) :
    Enumerates step := by
  intro c caps
  refine ⟨(place c caps).toList, fun o ho => hplace (Option.mem_toList.1 ho), fun k => ?_⟩
  rw [hstep]
  cases place c caps with
  | none => rfl
  | some o => simp

theorem stay : Enumerates fun c caps k => k c caps := by
  refine jump (fun c caps => some (c, caps)) (fun h => ?_) fun _ _ _ => rfl
  obtain rfl := Option.some.inj h
  exact .refl _

theorem fail : Enumerates fun _ _ _ => none :=
  jump (fun _ _ => none) nofun fun _ _ _ => rfl

/-- A step whose way is found by a look at the text, and that stays where it is. -/
theorem look (found : Cursor → Captures → Option Captures)
    (hstep : ∀ c caps k, step c caps k = (found c caps).bind fun caps => k c caps) :
    Enumerates step := by
  refine jump (fun c caps => (found c caps).map fun caps => (c, caps)) (fun h => ?_)
    fun c caps k => ?_
  · obtain ⟨caps, -, rfl⟩ := Option.map_eq_some_iff.1 h
    exact .refl _
  · rw [hstep]
    cases found c caps <;> rfl

theorem chain (h : Enumerates step) (hnext : Enumerates next) :
    Enumerates fun c caps k => step c caps fun c caps => next c caps k := by
  intro c caps
  obtain ⟨ways, hways, hstep⟩ := h c caps
  choose more hmore hnext using hnext
  refine ⟨ways.flatMap fun o => more o.1 o.2, fun o ho => ?_, fun k => ?_⟩
  · obtain ⟨way, hway, ho⟩ := List.mem_flatMap.1 ho
    exact (hways way hway).trans (hmore _ _ o ho)
  · simp only [hstep, hnext, findSome?_flatMap]

theorem choice (h : Enumerates step) (hnext : Enumerates next) :
    Enumerates fun c caps k => attempt (step c caps k) fun _ => next c caps k := by
  intro c caps
  obtain ⟨ways, hways, hstep⟩ := h c caps
  obtain ⟨more, hmore, hnext⟩ := hnext c caps
  refine ⟨ways ++ more, fun o ho => (List.mem_append.1 ho).elim (hways o) (hmore o), fun k => ?_⟩
  simp only [hstep, hnext, List.findSome?_append, attempt]
  cases ways.findSome? fun o => k o.1 o.2 <;> rfl

theorem exactly (h : Enumerates step) (n : Nat) :
    Enumerates fun c caps k => Pattern.exactly step n c caps k := by
  induction n with
  | zero => exact stay
  | succ n ih => exact h.chain ih

theorem greedily (h : Enumerates step) (fuel : Nat) (most last : Option Nat) :
    Enumerates fun c caps k => Pattern.greedily step k fuel most last c caps := by
  induction fuel generalizing most last with
  | zero => exact stay
  | succ fuel ih =>
      intro c caps
      simp only [Pattern.greedily]
      split_ifs
      · exact stay c caps
      · exact (h.chain (ih (most.map (· - 1)) (some c.after.length))).choice stay c caps

theorem lazily (h : Enumerates step) (fuel : Nat) (most last : Option Nat) :
    Enumerates fun c caps k => Pattern.lazily step k fuel most last c caps := by
  induction fuel generalizing most last with
  | zero => exact stay
  | succ fuel ih =>
      intro c caps
      simp only [Pattern.lazily]
      split_ifs
      · exact stay.choice fail c caps
      · exact stay.choice (h.chain (ih (most.map (· - 1)) (some c.after.length))) c caps

theorem exactlyKept (h : Enumerates step) (n : Nat) {c : Cursor} {caps : Captures} {o : Outcome}
    (ho : Pattern.exactlyKept step n c caps = some o) : c.Reaches o.1 := by
  induction n generalizing c caps with
  | zero =>
      cases ho
      exact .refl _
  | succ n ih =>
      rw [Pattern.exactlyKept] at ho
      split at ho
      · cases ho
      · rename_i way hway
        exact (h.reaches hway).trans (ih ho)

theorem possessively (h : Enumerates step) (fuel : Nat) (most last : Option Nat) (c : Cursor)
    (caps : Captures) : c.Reaches (Pattern.possessively step fuel most last c caps).1 := by
  induction fuel generalizing most last c caps with
  | zero => exact .refl c
  | succ fuel ih =>
      rw [Pattern.possessively]
      split_ifs
      · exact .refl c
      · split
        · exact .refl c
        · rename_i way hway
          exact (h.reaches hway).trans (ih _ _ _ _)

end Enumerates

/-- The groups after a look at the text, if it shows what is wanted. -/
def seen? (negated : Bool) (caps : Captures) : Option Outcome → Option Captures
  | some (_, found) => if negated then none else some found
  | none => if negated then some caps else none

theorem enumerates_one (test : Char → Bool) : Enumerates (one test) := by
  refine .jump (fun c caps => c.next?.bind fun p => if test p.1 then some (p.2, caps) else none)
    (fun {c caps o} h => ?_) fun c caps k => ?_
  · obtain ⟨p, hp, h⟩ := Option.bind_eq_some_iff.1 h
    split_ifs at h
    obtain rfl := Option.some.inj h
    exact .of_next? hp
  · rw [one]
    cases c.next? with
    | none => rfl
    | some p =>
        dsimp only [Option.bind_some]
        split_ifs <;> rfl

theorem enumerates_backref (rule : CaseRule) (group low high : Nat) :
    Enumerates (run (.backref rule group low high)) := by
  refine .jump (fun c caps => (caps.lookup group).bind fun text =>
    (c.skip? rule.sameText text).map fun c => (c, caps)) (fun {c caps o} h => ?_) fun c caps k => ?_
  · obtain ⟨text, -, h⟩ := Option.bind_eq_some_iff.1 h
    obtain ⟨c', hc', rfl⟩ := Option.map_eq_some_iff.1 h
    exact .of_skip? hc'
  · rw [run]
    cases caps.lookup group with
    | none => rfl
    | some text =>
        dsimp only [Option.bind_some]
        cases c.skip? rule.sameText text <;> rfl

theorem enumerates_repetition {body : Node} (h : Enumerates (run body)) (greed : Greed)
    (least : Nat) (most : Option Nat) : Enumerates (run (.repetition greed least most body)) := by
  cases greed with
  | greedy => exact (h.exactly least).chain fun c caps => h.greedily _ _ _ c caps
  | lazy => exact (h.exactly least).chain fun c caps => h.lazily _ _ _ c caps
  | possessive =>
      refine .jump (fun c caps => (exactlyKept (run body) least c caps).map fun o =>
        possessively (run body) (o.1.after.length + 1) (most.map (· - least)) none o.1 o.2)
        (fun h' => ?_) fun c caps k => ?_
      · obtain ⟨o, ho, rfl⟩ := Option.map_eq_some_iff.1 h'
        exact (h.exactlyKept least ho).trans (h.possessively _ _ _ _ _)
      · rw [run]
        cases exactlyKept (run body) least c caps <;> rfl

/-- Every node enumerates its ways to match. -/
theorem enumerates_run (node : Node) : Enumerates (run node) := by
  induction node with
  | empty => exact .stay
  | char | any | set => exact enumerates_one _
  | anchor a =>
      refine .look (fun c caps => if a.holds c then some caps else none) fun c caps k => ?_
      rw [run]
      split_ifs <;> rfl
  | backref rule group low high => exact enumerates_backref rule group low high
  | seq a b iha ihb => exact iha.chain ihb
  | alt a b iha ihb => exact iha.choice ihb
  | group body ih => exact ih
  | capture index body ih =>
      intro c caps
      obtain ⟨ways, hways, hstep⟩ := ih c caps
      refine ⟨ways.map fun o => (o.1, (index, c.between o.1) :: o.2), fun o ho => ?_, fun k => ?_⟩
      · obtain ⟨way, hway, rfl⟩ := List.mem_map.1 ho
        exact hways way hway
      · rw [run, hstep, List.findSome?_map]
        rfl
  | atomic body ih =>
      refine .jump (fun c caps => run body c caps fun c caps => some (c, caps)) ih.reaches
        fun c caps k => ?_
      rw [run]
      cases run body c caps fun c caps => some (c, caps) <;> rfl
  | repetition greed least most body ih => exact enumerates_repetition ih greed least most
  | ahead negated body ih =>
      refine .look (fun c caps => seen? negated caps (run body c caps fun c caps => some (c, caps)))
        fun c caps k => ?_
      cases hfound : run body c caps fun c caps => some (c, caps) <;> cases negated <;>
        simp [run, hfound, seen?]
  | behind width negated body ih =>
      refine .look (fun c caps => seen? negated caps ((width.bind c.back?).bind fun start =>
        run body start caps fun c caps => some (c, caps))) fun c caps k => ?_
      cases hback : width.bind c.back? with
      | none => cases negated <;> simp [run, hback, seen?]
      | some start =>
          cases hfound : run body start caps fun c caps => some (c, caps) <;> cases negated <;>
            simp [run, hback, hfound, seen?]
  | conditional group yes no ihy ihn =>
      intro c caps
      simp only [run]
      split_ifs
      · exact ihy c caps
      · exact ihn c caps

end Redline.Pattern
