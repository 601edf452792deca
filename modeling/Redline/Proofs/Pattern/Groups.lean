import Mathlib
import Redline.Pattern.Reader

/-!
# The groups of a pattern

Reading a pattern opens its groups one after the other. What is read between them, a set or an
escape, flags or a comment, leaves the groups as they are; so the names of a pattern are names of
its groups, and it has no more groups than a pattern can have.
-/

namespace Redline

namespace Pattern

open Std.Do

set_option mvcgen.warning false

/-- There are not too many groups, and the names are names of groups. -/
structure Grouped (groups : Nat) (names : List (String × Nat)) : Prop where
  limited : groups < groupLimit
  named : ∀ entry ∈ names, entry.2 ≤ groups

/-- A step of reading after which the groups are still in order, if they were before. -/
abbrev KeepsGroups {α : Type} (x : Read α) : Prop :=
  ⦃fun r => ⌜Grouped r.widths.length r.names⌝⦄ x
    ⦃⇓? _ r => ⌜Grouped r.widths.length r.names⌝⦄

section

variable {α : Type} {x : Read α} {a : α} {r r' : Reading}

theorem KeepsGroups.grouped (h : KeepsGroups x) (hr : Grouped r.widths.length r.names)
    (hx : x r = .ok (a, r')) : Grouped r'.widths.length r'.names := by
  have hpost : (wp⟦x r⟧
    (fun o => ⌜Grouped o.2.widths.length o.2.names⌝, ExceptConds.true)).down := h r hr
  rw [hx] at hpost
  exact hpost

end

/-! ### Steps that leave the groups alone -/

@[spec high] theorem keepsGroups_throw {α : Type} (e : Refusal) :
    KeepsGroups (MonadExceptOf.throw e : Read α) := by
  intro r h
  trivial

attribute [spec] takeToken accept takeMany here nextHas fail

@[spec] theorem keepsGroups_onSource {α : Type} (step : Source → Except Fault (α × Source)) :
    KeepsGroups (onSource step) := by
  mvcgen [onSource]

@[spec] theorem keepsGroups_failBack {α : Type} (d : Defect) (back : Nat) :
    KeepsGroups (failBack (α := α) d back) := by
  mvcgen [failBack]

@[spec] theorem keepsGroups_failAt {α : Type} (d : Defect) (place : Nat) :
    KeepsGroups (failAt (α := α) d place) := by
  mvcgen [failAt]

@[spec] theorem keepsGroups_checkBehind (group : Nat) : KeepsGroups (checkBehind group) := by
  mvcgen [checkBehind]

@[spec] theorem keepsGroups_octalEscape (digits : List Char) :
    KeepsGroups (octalEscape digits) := by
  mvcgen [octalEscape]

@[spec] theorem keepsGroups_commonEscape (c : Char) : KeepsGroups (commonEscape c) := by
  mvcgen [commonEscape, hexEscape, namedEscape]

@[spec] theorem keepsGroups_setMember (t : Token) : KeepsGroups (setMember t) := by
  mvcgen [setMember, setEscape]

@[spec] theorem keepsGroups_itemEscape (flags : Flags) (c : Char) :
    KeepsGroups (itemEscape flags c) := by
  mvcgen [itemEscape, digitEscape, groupEscape]

@[spec] theorem keepsGroups_setItems (flags : Flags) (start n : Nat) (done : List SetItem) :
    KeepsGroups (setItems flags start n done) := by
  induction n generalizing done with
  | zero => mvcgen [setItems]
  | succ n ih => mvcgen [setItems, ih]

@[spec] theorem keepsGroups_setNode (flags : Flags) : KeepsGroups (setNode flags) := by
  mvcgen [setNode]

@[spec] theorem keepsGroups_quantifier? (t : Token) : KeepsGroups (quantifier? t) := by
  mvcgen [quantifier?, bounds?]

@[spec] theorem keepsGroups_repeated (done : List Node) (least : Nat) (most : Option Nat)
    (place : Nat) : KeepsGroups (repeated done least most place) := by
  mvcgen [repeated]

@[spec] theorem keepsGroups_skipComment (start n : Nat) : KeepsGroups (skipComment start n) := by
  induction n with
  | zero => mvcgen [skipComment]
  | succ n ih => mvcgen [skipComment, ih]

@[spec] theorem keepsGroups_skipLine (n : Nat) : KeepsGroups (skipLine n) := by
  induction n with
  | zero => mvcgen [skipLine]
  | succ n ih => mvcgen [skipLine, ih]

@[spec] theorem keepsGroups_flagsOn (n : Nat) (on : Flags) (t : Token) :
    KeepsGroups (flagsOn n on t) := by
  induction n generalizing on t with
  | zero => mvcgen [flagsOn]
  | succ n ih => mvcgen [flagsOn, turnOn, ih]

@[spec] theorem keepsGroups_flagsOff (n : Nat) (off : Flags) (t : Token) :
    KeepsGroups (flagsOff n off t) := by
  induction n generalizing off t with
  | zero => mvcgen [flagsOff]
  | succ n ih => mvcgen [flagsOff, ih]

@[spec] theorem keepsGroups_groupFlags (t : Token) : KeepsGroups (groupFlags t) := by
  mvcgen [groupFlags]

@[spec] theorem keepsGroups_groupName (terminator : Char) :
    KeepsGroups (groupName terminator) := by
  mvcgen [groupName]

@[spec] theorem keepsGroups_conditionGroup : KeepsGroups conditionGroup := by
  mvcgen [conditionGroup]
  rename_i h _ next
  dsimp only [next]
  split <;> exact h

@[spec] theorem keepsGroups_opening (flags : Flags) (start : Nat) :
    KeepsGroups (opening flags start) := by
  mvcgen [opening, namedOpening, behindOpening, namedBackref]

@[spec] theorem keepsGroups_closing (start : Nat) : KeepsGroups (closing start) := by
  mvcgen [closing]

/-! ### Opening and closing a group -/

section

variable {groups : Nat} {names : List (String × Nat)}

theorem Grouped.opened (h : Grouped groups names) (hlimit : groups + 1 < groupLimit) :
    Grouped (groups + 1) names where
  limited := hlimit
  named entry hentry := Nat.le_succ_of_le (h.named entry hentry)

/-- A group that is opened with a name is the last one. -/
theorem Grouped.openedAs (h : Grouped groups names) (name : String)
    (hlimit : groups + 1 < groupLimit) :
    Grouped (groups + 1) (names ++ [(name, groups + 1)]) where
  limited := hlimit
  named entry hentry := by
    rcases List.mem_append.1 hentry with hentry | hentry
    · exact (h.opened hlimit).named entry hentry
    · rw [List.mem_singleton.1 hentry]

end

@[spec] theorem keepsGroups_openGroup (name : Option String) : KeepsGroups (openGroup name) := by
  mvcgen [openGroup]
  · rename_i h _ _ _ hlimit
    rw [List.length_append]
    exact h.opened (Nat.not_le.1 hlimit)
  · rename_i h _ _ _ _ hlimit _
    rw [List.length_append]
    exact h.openedAs _ (Nat.not_le.1 hlimit)

@[spec] theorem keepsGroups_closeGroup (index : Nat) (body : Node) :
    KeepsGroups (closeGroup index body) := by
  intro r h
  show Grouped (r.widths.set _ _).length r.names
  rw [List.length_set]
  exact h

section

variable {fuel : Nat}

theorem keepsGroups_alternatives_succ
    (halternatives : ∀ top first scope, KeepsGroups (alternatives fuel top first scope))
    (hitems : ∀ leading scope done, KeepsGroups (items fuel leading scope done))
    (top first : Bool) (scope : Flags) :
    KeepsGroups (alternatives (fuel + 1) top first scope) := by
  rw [alternatives]
  mvcgen [halternatives, hitems]

theorem keepsGroups_items_succ
    (halternatives : ∀ top first scope, KeepsGroups (alternatives fuel top first scope))
    (hitems : ∀ leading scope done, KeepsGroups (items fuel leading scope done))
    (leading : Bool) (scope : Flags) (done : List Node) :
    KeepsGroups (items (fuel + 1) leading scope done) := by
  rw [items]
  mvcgen [halternatives, hitems]

theorem keepsGroups_alternatives_items (fuel : Nat) :
    (∀ top first scope, KeepsGroups (alternatives fuel top first scope)) ∧
      ∀ leading scope done, KeepsGroups (items fuel leading scope done) := by
  induction fuel with
  | zero =>
      constructor
      · intro top first scope
        rw [alternatives]
        mvcgen
      · intro leading scope done
        rw [items]
        mvcgen
  | succ fuel ih =>
      exact ⟨keepsGroups_alternatives_succ ih.1 ih.2, keepsGroups_items_succ ih.1 ih.2⟩

end

theorem keepsGroups_whole (flags : Flags) : KeepsGroups (whole flags) := by
  have halternatives := fun fuel => (keepsGroups_alternatives_items fuel).1
  mvcgen [whole, halternatives]

/-- A pattern that is read has no more groups than a pattern can have, and its names are names of
its groups. -/
theorem grouped_of_read {text : String} {ignoreCase : Bool} {p : Pattern}
    (h : Pattern.read text ignoreCase = .ok p) : Grouped p.groups p.names := by
  rw [Pattern.read] at h
  split at h
  · exact absurd h (by simp)
  · dsimp only at h
    split at h
    · exact absurd h (by simp)
    · rename_i hread
      obtain rfl := Except.ok.inj h
      have hstart : Grouped 0 [] := ⟨by decide, by simp⟩
      refine (keepsGroups_whole _).grouped ?_ hread
      exact hstart

end Pattern

end Redline
