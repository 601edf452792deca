import Redline.Symbol.Index

/-!
# Lists without repetition

`distinct` and `distinctBy` keep the first of the items that agree. What they keep is a sublist,
with every key of the list and each of them once; `distinct` is the case in which an item is its own
key. The fold that computes them carries the items kept so far, latest first.
-/

namespace Redline

variable {α κ : Type}

theorem distinct_eq_distinctBy [BEq α] [LawfulBEq α] (xs : List α) :
    distinct xs = distinctBy id xs := by
  unfold distinct distinctBy
  congr 1
  generalize ([] : List α) = kept
  induction xs generalizing kept with
  | nil => rfl
  | cons x xs ih =>
      have hstep : kept.contains x = kept.any fun y => id y == id x := by
        rw [Bool.eq_iff_iff]
        simp
      simp only [List.foldl_cons, hstep, ih]

/-- The next step of the fold behind `distinctBy`. -/
private abbrev keepNew [BEq κ] (key : α → κ) (kept : List α) (x : α) : List α :=
  if kept.any fun y => key y == key x then kept else x :: kept

section

variable [BEq κ] [LawfulBEq κ] (key : α → κ)

omit [LawfulBEq κ] in
private theorem foldl_keepNew_sublist (xs kept : List α) :
    ((xs.foldl (keepNew key) kept).reverse).Sublist (kept.reverse ++ xs) := by
  induction xs generalizing kept with
  | nil => simp
  | cons x xs ih =>
      rw [List.foldl_cons]
      refine (ih _).trans ?_
      unfold keepNew
      split
      · exact List.Sublist.append_left (List.sublist_cons_self x xs) kept.reverse
      · simp

private theorem foldl_keepNew_nodup (xs kept : List α) (hk : (kept.map key).Nodup) :
    ((xs.foldl (keepNew key) kept).map key).Nodup := by
  induction xs generalizing kept with
  | nil => exact hk
  | cons x xs ih =>
      apply ih
      unfold keepNew
      split
      · exact hk
      · rename_i hx
        simp only [List.any_eq_true, beq_iff_eq, not_exists, not_and] at hx
        simp only [List.map_cons, List.nodup_cons, List.mem_map, not_exists, not_and]
        exact ⟨hx, hk⟩

private theorem foldl_keepNew_key_mem (xs kept : List α) {k : κ}
    (h : k ∈ kept.map key ∨ k ∈ xs.map key) :
    k ∈ (xs.foldl (keepNew key) kept).map key := by
  induction xs generalizing kept with
  | nil => simpa using h
  | cons x xs ih =>
      apply ih
      simp only [List.map_cons, List.mem_cons] at h
      unfold keepNew
      split
      · rename_i hx
        rcases h with h | rfl | h
        · exact Or.inl h
        · simp only [List.any_eq_true, beq_iff_eq] at hx
          obtain ⟨y, hy, hyx⟩ := hx
          exact Or.inl (List.mem_map.2 ⟨y, hy, hyx⟩)
        · exact Or.inr h
      · rcases h with h | rfl | h
        · exact Or.inl (List.mem_cons_of_mem _ h)
        · exact Or.inl (by simp)
        · exact Or.inr h

omit [LawfulBEq κ] in
theorem distinctBy_sublist (xs : List α) : (distinctBy key xs).Sublist xs := by
  have h := foldl_keepNew_sublist key xs []
  rwa [List.reverse_nil, List.nil_append] at h

theorem distinctBy_nodup (xs : List α) : ((distinctBy key xs).map key).Nodup := by
  have h := foldl_keepNew_nodup key xs [] List.nodup_nil
  rw [distinctBy, List.map_reverse]
  exact (List.reverse_perm _).nodup_iff.2 h

omit [LawfulBEq κ] in
theorem mem_of_mem_distinctBy {xs : List α} {x : α} (h : x ∈ distinctBy key xs) : x ∈ xs :=
  (distinctBy_sublist key xs).subset h

/-- Every item has its key among the items kept. -/
theorem exists_mem_distinctBy {xs : List α} {x : α} (h : x ∈ xs) :
    ∃ y ∈ distinctBy key xs, key y = key x := by
  have hk : key x ∈ (xs.foldl (keepNew key) []).map key :=
    foldl_keepNew_key_mem key xs [] (Or.inr (List.mem_map_of_mem h))
  obtain ⟨y, hy, hyx⟩ := List.mem_map.1 hk
  exact ⟨y, List.mem_reverse.2 hy, hyx⟩

/-- No key is lost. -/
theorem mem_map_distinctBy {xs : List α} {k : κ} :
    k ∈ (distinctBy key xs).map key ↔ k ∈ xs.map key := by
  refine ⟨fun hk => ((distinctBy_sublist key xs).map key).subset hk, fun hk => ?_⟩
  obtain ⟨x, hx, rfl⟩ := List.mem_map.1 hk
  obtain ⟨y, hy, hyx⟩ := exists_mem_distinctBy key hx
  exact List.mem_map.2 ⟨y, hy, hyx⟩

/-- A further item is kept if its key is new. -/
theorem distinctBy_append_singleton (xs : List α) (x : α) [Decidable (key x ∈ xs.map key)] :
    distinctBy key (xs ++ [x]) =
      if key x ∈ xs.map key then distinctBy key xs else distinctBy key xs ++ [x] := by
  have hkept : ((xs.foldl (keepNew key) []).any fun y => key y == key x) = true ↔
      key x ∈ xs.map key := by
    rw [← mem_map_distinctBy, List.any_eq_true, List.mem_map]
    simp only [beq_iff_eq]
    exact exists_congr fun y => and_congr_left fun _ => List.mem_reverse.symm
  rw [distinctBy, List.foldl_append, List.foldl_cons, List.foldl_nil]
  by_cases hx : key x ∈ xs.map key
  · rw [if_pos hx, if_pos (hkept.2 hx), distinctBy]
  · rw [if_neg hx, if_neg (mt hkept.1 hx), List.reverse_cons, distinctBy]

/-- Nothing is lost where items with one key are the same. -/
theorem mem_distinctBy_iff {xs : List α} (h : ∀ x ∈ xs, ∀ y ∈ xs, key x = key y → x = y) {x : α} :
    x ∈ distinctBy key xs ↔ x ∈ xs := by
  refine ⟨mem_of_mem_distinctBy key, fun hx => ?_⟩
  obtain ⟨y, hy, hyx⟩ := exists_mem_distinctBy key hx
  rwa [← h y (mem_of_mem_distinctBy key hy) x hx hyx]

end

section

variable [BEq α] [LawfulBEq α]

@[simp] theorem mem_distinct {xs : List α} {x : α} : x ∈ distinct xs ↔ x ∈ xs := by
  rw [distinct_eq_distinctBy]
  constructor
  · exact mem_of_mem_distinctBy id
  · intro h
    obtain ⟨y, hy, hyx⟩ := exists_mem_distinctBy id h
    simp only [id_eq] at hyx
    exact hyx ▸ hy

theorem nodup_distinct (xs : List α) : (distinct xs).Nodup := by
  rw [distinct_eq_distinctBy]
  simpa using distinctBy_nodup id xs

end

end Redline
