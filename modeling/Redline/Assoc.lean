/-!
# Association lists

A list of pairs that keeps the order in which its keys were set first. Setting a key changes the
value that is found under it and under no other key, and adds the key at the end if it is new.
-/

namespace Redline.Assoc

variable {α β : Type} [DecidableEq α]

/-- Sets the value of a key: in place when the key is there, at the end otherwise. -/
def put (entries : List (α × β)) (key : α) (value : β) : List (α × β) :=
  match entries with
  | [] => [(key, value)]
  | (k, v) :: rest => if k = key then (k, value) :: rest else (k, v) :: put rest key value

@[simp] theorem lookup_put_self [BEq α] [LawfulBEq α] (entries : List (α × β)) (key : α)
    (value : β) :
    (put entries key value).lookup key = some value := by
  induction entries with
  | nil => simp [put]
  | cons e rest ih =>
    obtain ⟨k, v⟩ := e
    by_cases h : k = key
    · subst h
      simp [put]
    · simp [put, h, List.lookup_cons, beq_false_of_ne (Ne.symm h), ih]

theorem lookup_put_of_ne [BEq α] [LawfulBEq α] {key other : α} (h : other ≠ key)
    (entries : List (α × β)) (value : β) :
    (put entries key value).lookup other = entries.lookup other := by
  induction entries with
  | nil => simp [put, List.lookup_cons, beq_false_of_ne h]
  | cons e rest ih =>
    obtain ⟨k, v⟩ := e
    by_cases hk : k = key
    · subst hk
      simp [put, List.lookup_cons, beq_false_of_ne h]
    · simp [put, hk, List.lookup_cons, ih]

theorem keys_put (entries : List (α × β)) (key : α) (value : β) :
    (put entries key value).map Prod.fst =
      if key ∈ entries.map Prod.fst then entries.map Prod.fst
      else entries.map Prod.fst ++ [key] := by
  induction entries with
  | nil => simp [put]
  | cons e rest ih =>
    obtain ⟨k, v⟩ := e
    by_cases hk : k = key
    · simp [put, hk]
    · have hk' : key ≠ k := Ne.symm hk
      simp only [put, hk, if_false, List.map_cons, ih, List.mem_cons, hk', false_or]
      split <;> simp

omit [DecidableEq α] in
theorem lookup_eq_none_of_notMem [BEq α] [LawfulBEq α] {entries : List (α × β)} {key : α}
    (h : key ∉ entries.map Prod.fst) : entries.lookup key = none := by
  rw [List.lookup_eq_none_iff]
  intro e he
  rw [bne_iff_ne]
  exact fun heq => h (List.mem_map.2 ⟨e, he, heq.symm⟩)

theorem put_of_lookup_eq_none [BEq α] [LawfulBEq α] {entries : List (α × β)} {key : α}
    (h : entries.lookup key = none) (value : β) :
    put entries key value = entries ++ [(key, value)] := by
  induction entries with
  | nil => rfl
  | cons e rest ih =>
    obtain ⟨k, v⟩ := e
    have hk : (key == k) = false := by
      cases hk : key == k with
      | false => rfl
      | true => simp [List.lookup_cons, hk] at h
    rw [List.lookup_cons, hk] at h
    have hne : k ≠ key := fun hkk => by simp [hkk] at hk
    simp [put, hne, ih h]

/-- The first entry of a key that is there, with the entries before and after it; setting the key
changes this entry. -/
theorem exists_split_of_lookup [BEq α] [LawfulBEq α] {entries : List (α × β)} {key : α} {value : β}
    (h : entries.lookup key = some value) :
    ∃ before after, entries = before ++ (key, value) :: after ∧
      ∀ v, put entries key v = before ++ (key, v) :: after := by
  induction entries with
  | nil => cases h
  | cons e rest ih =>
    obtain ⟨k, v⟩ := e
    by_cases hk : k = key
    · subst hk
      simp only [List.lookup_cons, beq_self_eq_true, Option.some.injEq] at h
      subst h
      exact ⟨[], rest, rfl, fun w => by simp [put]⟩
    · rw [List.lookup_cons, beq_false_of_ne (Ne.symm hk)] at h
      obtain ⟨before, after, hsplit, hput⟩ := ih h
      refine ⟨(k, v) :: before, after, by rw [hsplit, List.cons_append], fun w => ?_⟩
      rw [put, if_neg hk, hput, List.cons_append]

theorem mem_of_lookup [BEq α] [LawfulBEq α] {entries : List (α × β)} {key : α} {value : β}
    (h : entries.lookup key = some value) : (key, value) ∈ entries := by
  obtain ⟨before, after, hsplit, -⟩ := exists_split_of_lookup h
  rw [hsplit]
  simp

omit [DecidableEq α] in
/-- Where each key is there once, its entry is found under it. -/
theorem lookup_of_mem [BEq α] [LawfulBEq α] {entries : List (α × β)} {key : α} {value : β}
    (hkeys : (entries.map Prod.fst).Nodup) (h : (key, value) ∈ entries) :
    entries.lookup key = some value := by
  induction entries with
  | nil => cases h
  | cons e rest ih =>
    obtain ⟨k, v⟩ := e
    rw [List.map_cons, List.nodup_cons] at hkeys
    rcases List.mem_cons.1 h with heq | h
    · cases heq
      exact List.lookup_cons_self
    · have hk : key ≠ k := fun hk => hkeys.1 (hk ▸ List.mem_map.2 ⟨(key, value), h, rfl⟩)
      rw [List.lookup_cons, beq_false_of_ne hk]
      exact ih hkeys.2 h

theorem mem_of_mem_put {entries : List (α × β)} {key : α} {value : β} {e : α × β}
    (h : e ∈ put entries key value) : e ∈ entries ∨ e = (key, value) := by
  induction entries with
  | nil => exact Or.inr (List.mem_singleton.1 h)
  | cons e' rest ih =>
    obtain ⟨k, v⟩ := e'
    rw [put] at h
    by_cases hk : k = key
    · rw [if_pos hk] at h
      rcases List.mem_cons.1 h with h | h
      · exact Or.inr (hk ▸ h)
      · exact Or.inl (List.mem_cons_of_mem _ h)
    · rw [if_neg hk] at h
      rcases List.mem_cons.1 h with h | h
      · exact Or.inl (h ▸ List.mem_cons_self)
      · exact (ih h).imp_left (List.mem_cons_of_mem _)

theorem nodup_keys_put {entries : List (α × β)} (h : (entries.map Prod.fst).Nodup) (key : α)
    (value : β) : ((put entries key value).map Prod.fst).Nodup := by
  rw [keys_put]
  split
  · exact h
  · rename_i hkey
    rw [List.nodup_append]
    refine ⟨h, by simp, fun a ha b hb => ?_⟩
    rw [List.mem_singleton.1 hb]
    exact fun heq => hkey (heq ▸ ha)

/-- Keys that are new and there once each are added at the end. -/
theorem foldl_put_eq_append {entries rest : List (α × β)}
    (h : ((entries ++ rest).map Prod.fst).Nodup) :
    rest.foldl (fun es e => put es e.1 e.2) entries = entries ++ rest := by
  induction rest generalizing entries with
  | nil => rw [List.foldl_nil, List.append_nil]
  | cons e rest ih =>
    have hnew : e.1 ∉ entries.map Prod.fst := by
      rw [List.map_append, List.nodup_append] at h
      exact fun hmem => h.2.2 _ hmem _ List.mem_cons_self rfl
    rw [List.append_cons] at h
    rw [List.foldl_cons, put_of_lookup_eq_none (lookup_eq_none_of_notMem hnew), ih h,
      ← List.append_cons]

omit [DecidableEq α] in
/-- Lists with the same keys, each there once, and the same values under them. -/
theorem eq_of_lookup_eq [BEq α] [LawfulBEq α] {xs ys : List (α × β)}
    (hkeys : xs.map Prod.fst = ys.map Prod.fst) (hnodup : (xs.map Prod.fst).Nodup)
    (h : ∀ key, xs.lookup key = ys.lookup key) : xs = ys := by
  induction xs generalizing ys with
  | nil => exact (List.map_eq_nil_iff.1 hkeys.symm).symm
  | cons x xs ih =>
      obtain ⟨key, v⟩ := x
      obtain ⟨⟨key', w⟩, ys, rfl, rfl, hrest⟩ := List.map_eq_cons_iff.1 hkeys.symm
      rw [List.map_cons, List.nodup_cons] at hnodup
      have hvalue := h key'
      rw [List.lookup_cons_self, List.lookup_cons_self] at hvalue
      obtain rfl := Option.some.inj hvalue
      rw [ih hrest.symm hnodup.2 fun other => ?_]
      by_cases hother : other = key'
      · rw [hother, lookup_eq_none_of_notMem hnodup.1, lookup_eq_none_of_notMem (hrest ▸ hnodup.1)]
      · have htail := h other
        rwa [List.lookup_cons, List.lookup_cons, beq_false_of_ne hother] at htail

end Redline.Assoc
