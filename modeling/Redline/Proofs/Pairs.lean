import Mathlib.Data.List.Forall2
import Mathlib.Tactic.Common

/-!
# Lists pair by pair

Two lists of one length whose members are related in turn. What is done to each of them member by
member is then related too.
-/

namespace Redline

section

variable {ε α β γ : Type} {R : α → β → Prop} {xs : List α} {ys : List β}

theorem forall₂_mem (h : List.Forall₂ R xs ys) :
    List.Forall₂ (fun x y => x ∈ xs ∧ R x y) xs ys := by
  induction h with
  | nil => exact .nil
  | cons hxy _ ih =>
      exact .cons ⟨List.mem_cons_self, hxy⟩
        (ih.imp fun _ _ hR => ⟨List.mem_cons_of_mem _ hR.1, hR.2⟩)

/-- Every member of one list is related to a member of the other. -/
theorem exists_mem_of_forall₂ (h : List.Forall₂ R xs ys) :
    (∀ x ∈ xs, ∃ y ∈ ys, R x y) ∧ ∀ y ∈ ys, ∃ x ∈ xs, R x y := by
  induction h with
  | nil => simp
  | cons hxy _ ih =>
      constructor
      · refine List.forall_mem_cons.2 ⟨⟨_, List.mem_cons_self, hxy⟩, fun x hx => ?_⟩
        obtain ⟨y, hy, hR⟩ := ih.1 x hx
        exact ⟨y, List.mem_cons_of_mem _ hy, hR⟩
      · refine List.forall_mem_cons.2 ⟨⟨_, List.mem_cons_self, hxy⟩, fun y hy => ?_⟩
        obtain ⟨x, hx, hR⟩ := ih.2 y hy
        exact ⟨x, List.mem_cons_of_mem _ hx, hR⟩

theorem filterMap_eq_of_forall₂ (h : List.Forall₂ R xs ys) {g : α → Option γ}
    {g' : β → Option γ} {φ : γ → γ} (hg : ∀ x y, R x y → g' y = (g x).map φ) :
    ys.filterMap g' = (xs.filterMap g).map φ := by
  induction h with
  | nil => rfl
  | cons hxy _ ih =>
      rw [List.filterMap_cons, List.filterMap_cons, hg _ _ hxy]
      cases g _ with
      | none => exact ih
      | some c => exact congrArg _ ih

theorem findIdx?_eq_of_forall₂ (h : List.Forall₂ R xs ys) {p : α → Bool} {q : β → Bool}
    (hpq : ∀ x y, R x y → q y = p x) : ys.findIdx? q = xs.findIdx? p := by
  induction h with
  | nil => rfl
  | cons hxy _ ih => rw [List.findIdx?_cons, List.findIdx?_cons, hpq _ _ hxy, ih]

/-- A list is read member by member when what each member shows says how it is read. -/
theorem exists_mapM_of_forall₂ {f : β → Except ε γ} {S : α → γ → Prop}
    (h : List.Forall₂ R xs ys) (hread : ∀ x y, R x y → ∃ z, f y = .ok z ∧ S x z) :
    ∃ zs, ys.mapM f = .ok zs ∧ List.Forall₂ S xs zs := by
  induction h with
  | nil => exact ⟨[], rfl, .nil⟩
  | cons hxy _ ih =>
      obtain ⟨z, hz, hS⟩ := hread _ _ hxy
      obtain ⟨zs, hzs, hall⟩ := ih
      refine ⟨z :: zs, ?_, .cons hS hall⟩
      rw [List.mapM_cons, hz, hzs]
      rfl

theorem mapM_eq_ok_map {f : α → Except ε γ} {g : α → γ} (h : ∀ x ∈ xs, f x = .ok (g x)) :
    xs.mapM f = .ok (xs.map g) := by
  induction xs with
  | nil => rfl
  | cons x xs ih =>
      obtain ⟨hx, hxs⟩ := List.forall_mem_cons.1 h
      rw [List.mapM_cons, hx, ih hxs]
      rfl

theorem exists_mapM {f : α → Except ε γ} (h : ∀ x ∈ xs, ∃ z, f x = .ok z) :
    ∃ zs, xs.mapM f = .ok zs := by
  have hsame : List.Forall₂ (fun x x' => x = x' ∧ x' ∈ xs) xs xs :=
    List.forall₂_same.2 fun x hx => ⟨rfl, hx⟩
  obtain ⟨zs, hzs, -⟩ := exists_mapM_of_forall₂ (S := fun x z => f x = .ok z) hsame
    fun x x' hx => by
      obtain ⟨rfl, hx⟩ := hx
      obtain ⟨z, hz⟩ := h x hx
      exact ⟨z, hz, hz⟩
  exact ⟨zs, hzs⟩

end

end Redline
