import Mathlib.Tactic.Common
import Redline.Tree.Basic

/-!
# The spots of a tree

`Spot.Under a s` says that `s` is the spot `a` or one below it; the spots of a tree are those under
its root, and an address names at most one of them. In a tree that is `Laid` out the nodes below a
node stay inside it and siblings come in order, so two spots are one under the other or apart.
-/

namespace Redline

namespace Spot

/-- A spot, or one below it. -/
inductive Under (a : Spot) : Spot → Prop where
  | self : Under a a
  | step {s : Spot} {number : Nat} {child : Tree} (hs : Under a s)
      (hc : s.tree.children[number]? = some child) : Under a (s.below child number)

theorem Under.trans {a b c : Spot} (hab : a.Under b) (hbc : b.Under c) : a.Under c := by
  induction hbc with
  | self => exact hab
  | step _ hc ih => exact ih.step hc

/-- A tree in a place. -/
abbrev «at» (t : Tree) (above : List Tree) (address : Address) : Spot :=
  { tree := t, above, address }

/-- What is under a child is under the node. -/
theorem Under.of_child {label : Label} {children : List Tree} {above : List Tree}
    {address : Address} {number : Nat} {child : Tree} {s : Spot}
    (hc : children[number]? = some child)
    (hs : (Spot.at child (.node label children :: above) (number :: address)).Under s) :
    (Spot.at (.node label children) above address).Under s :=
  (Under.self.step (s := Spot.at (.node label children) above address) hc).trans hs

/-- What is under a spot is the spot or under one of its children. -/
theorem Under.eq_or_under_child {a s : Spot} (h : a.Under s) :
    s = a ∨ ∃ number child, a.tree.children[number]? = some child ∧
      (a.below child number).Under s := by
  induction h with
  | self => exact Or.inl rfl
  | step hs hc ih =>
      rcases ih with rfl | ⟨number, child, hchild, hunder⟩
      · exact Or.inr ⟨_, _, hc, .self⟩
      · exact Or.inr ⟨number, child, hchild, hunder.step hc⟩

theorem mem_children {s c : Spot} :
    c ∈ s.children ↔ ∃ number child, s.tree.children[number]? = some child ∧
      c = s.below child number := by
  simp only [children, List.mem_mapIdx, List.getElem?_eq_some_iff]
  constructor
  · rintro ⟨i, hi, rfl⟩
    exact ⟨i, _, ⟨hi, rfl⟩, rfl⟩
  · rintro ⟨i, child, ⟨hi, rfl⟩, rfl⟩
    exact ⟨i, hi, rfl⟩

theorem under_of_mem_children {a s c : Spot} (hs : a.Under s) (hc : c ∈ s.children) :
    a.Under c := by
  obtain ⟨number, child, hchild, rfl⟩ := mem_children.1 hc
  exact hs.step hchild

theorem mem_children_of_child? {s c : Spot} {field : String} (h : s.child? field = some c) :
    c ∈ s.children :=
  List.mem_of_find?_eq_some h

theorem field_of_child? {s c : Spot} {field : String} (h : s.child? field = some c) :
    c.tree.label.field = some field := by
  simpa using List.find?_some h

theorem under_of_child? {a s c : Spot} {field : String} (hs : a.Under s)
    (h : s.child? field = some c) : a.Under c :=
  under_of_mem_children hs (mem_children_of_child? h)

theorem under_of_mem_namedChildren {a s c : Spot} (hs : a.Under s) (h : c ∈ s.namedChildren) :
    a.Under c :=
  under_of_mem_children hs (List.mem_filter.1 h).1

theorem address_below (s : Spot) (child : Tree) (number : Nat) :
    (s.below child number).address = number :: s.address := rfl

/-- An address names at most one spot of a tree. -/
theorem eq_of_address_eq {t : Tree} {s n : Spot} (hs : (root t).Under s) (hn : (root t).Under n)
    (h : s.address = n.address) : s = n := by
  induction hs generalizing n with
  | self =>
      cases hn with
      | self => rfl
      | step hm hc => cases h
  | step hs hc ih =>
      cases hn with
      | self => cases h
      | step hm hc' =>
          rw [address_below, address_below, List.cons.injEq] at h
          obtain ⟨rfl, htail⟩ := h
          obtain rfl := ih hm htail
          rw [hc] at hc'
          cases hc'
          rfl

/-! ### The children of a spot -/

section

variable {a b c s : Spot}

/-- The address of a spot ends with those of the spots above it. -/
theorem Under.exists_address_eq (h : a.Under s) : ∃ front, s.address = front ++ a.address := by
  induction h with
  | self => exact ⟨[], rfl⟩
  | step _ _ ih =>
      obtain ⟨front, hfront⟩ := ih
      exact ⟨_ :: front, congrArg _ hfront⟩

/-- A spot is under one child of a node only. -/
theorem eq_of_under_children (hb : b ∈ a.children) (hc : c ∈ a.children) (hbs : b.Under s)
    (hcs : c.Under s) : b = c := by
  obtain ⟨i, child, hchild, rfl⟩ := mem_children.1 hb
  obtain ⟨j, child', hchild', rfl⟩ := mem_children.1 hc
  obtain ⟨front, hfront⟩ := hbs.exists_address_eq
  obtain ⟨front', hfront'⟩ := hcs.exists_address_eq
  have heq := (List.append_inj' (hfront.symm.trans hfront') rfl).2
  rw [address_below, address_below, List.cons.injEq] at heq
  rw [heq.1, hchild'] at hchild
  rw [heq.1, Option.some.inj hchild]

/-- What is under a spot is the spot or under a child. -/
theorem Under.eq_or_exists_child (h : a.Under s) : s = a ∨ ∃ c ∈ a.children, c.Under s := by
  rcases h.eq_or_under_child with rfl | ⟨i, child, hchild, hs⟩
  · exact Or.inl rfl
  · exact Or.inr ⟨_, mem_children.2 ⟨i, child, hchild, rfl⟩, hs⟩

theorem forall_children {P : Spot → Prop}
    (h : ∀ i t, a.tree.children[i]? = some t → P (a.below t i)) : ∀ c ∈ a.children, P c := by
  intro c hc
  obtain ⟨i, t, ht, rfl⟩ := mem_children.1 hc
  exact h i t ht

/-- A relation between the children of a node, from left to right. -/
theorem pairwise_children {R : Spot → Spot → Prop}
    (h : ∀ i j c e, i < j → a.tree.children[i]? = some c → a.tree.children[j]? = some e →
      R (a.below c i) (a.below e j)) : a.children.Pairwise R := by
  rw [List.pairwise_iff_getElem]
  intro i j hi hj hij
  simp only [children, List.getElem_mapIdx]
  exact h _ _ _ _ hij (List.getElem?_eq_getElem _) (List.getElem?_eq_getElem _)

theorem not_under_of_mem_children (hc : c ∈ a.children) : ¬ c.Under a := by
  intro h
  obtain ⟨i, child, -, rfl⟩ := mem_children.1 hc
  obtain ⟨front, hfront⟩ := h.exists_address_eq
  have hlength := congrArg List.length hfront
  rw [List.length_append, address_below, List.length_cons] at hlength
  omega

theorem sizeOf_tree_lt_of_mem_children (h : c ∈ a.children) : sizeOf c.tree < sizeOf a.tree := by
  obtain ⟨i, child, hchild, rfl⟩ := mem_children.1 h
  obtain ⟨⟨label, children⟩, above, address⟩ := a
  have hlt := List.sizeOf_lt_of_mem (List.mem_of_getElem? hchild)
  simp only [below, Tree.node.sizeOf_spec, Tree.children] at hlt ⊢
  omega

end

end Spot

namespace Tree

/-- Under a spot, nodes stay inside the nodes above them and siblings come in order. -/
structure Laid (a : Spot) : Prop where
  inside : ∀ s, a.Under s → ∀ c ∈ s.tree.children, s.start ≤ c.start ∧ c.stop ≤ s.stop
  ordered : ∀ s, a.Under s → s.tree.children.Pairwise fun b c => b.stop ≤ c.start

namespace Laid

variable {a : Spot}

theorem of_under (h : Laid a) {b : Spot} (hb : a.Under b) : Laid b :=
  ⟨fun s hs => h.inside s (hb.trans hs), fun s hs => h.ordered s (hb.trans hs)⟩

/-- What is under a node covers octets of the node only. -/
theorem range_under (h : Laid a) {s n : Spot} (hs : a.Under s) (hn : s.Under n) :
    s.start ≤ n.start ∧ n.stop ≤ s.stop := by
  induction hn with
  | self => exact ⟨Nat.le_refl _, Nat.le_refl _⟩
  | step hm hc ih =>
      obtain ⟨hstart, hstop⟩ := h.inside _ (hs.trans hm) _ (List.mem_of_getElem? hc)
      exact ⟨Nat.le_trans ih.1 hstart, Nat.le_trans hstop ih.2⟩

/-- What is under a child ends before what is under a later one starts. -/
theorem stop_le_start (h : Laid a) {s n m : Spot} {i j : Nat} {c e : Tree} (hs : a.Under s)
    (hij : i < j) (hc : s.tree.children[i]? = some c) (he : s.tree.children[j]? = some e)
    (hn : (s.below c i).Under n) (hm : (s.below e j).Under m) : n.stop ≤ m.start := by
  obtain ⟨hi, rfl⟩ := List.getElem?_eq_some_iff.1 hc
  obtain ⟨hj, rfl⟩ := List.getElem?_eq_some_iff.1 he
  have hord := List.pairwise_iff_getElem.1 (h.ordered s hs) i j hi hj hij
  exact Nat.le_trans (h.range_under (hs.step hc) hn).2
    (Nat.le_trans hord (h.range_under (hs.step he) hm).1)

/-- Two different children of a node are apart, with all that is under them. -/
theorem apart_of_ne (h : Laid a) {s n m : Spot} {i j : Nat} {c e : Tree} (hs : a.Under s)
    (hc : s.tree.children[i]? = some c) (he : s.tree.children[j]? = some e) (hij : i ≠ j)
    (hn : (s.below c i).Under n) (hm : (s.below e j).Under m) :
    n.stop ≤ m.start ∨ m.stop ≤ n.start :=
  (Nat.lt_or_gt_of_ne hij).imp (fun hlt => h.stop_le_start hs hlt hc he hn hm)
    fun hgt => h.stop_le_start hs hgt he hc hm hn

/-- Of two spots one is under the other or they are apart. -/
theorem under_or_apart (h : Laid a) {n m : Spot} (hn : a.Under n) (hm : a.Under m) :
    n.Under m ∨ m.Under n ∨ n.stop ≤ m.start ∨ m.stop ≤ n.start := by
  induction hn with
  | self => exact Or.inl hm
  | @step s i c hs hc ih =>
      rcases ih with hunder | hover | hapart
      · rcases hunder.eq_or_under_child with rfl | ⟨j, e, he, hunder⟩
        · exact Or.inr (Or.inl (Spot.Under.self.step hc))
        · by_cases hij : i = j
          · subst hij
            rw [hc] at he
            cases he
            exact Or.inl hunder
          · exact Or.inr (Or.inr (h.apart_of_ne hs hc he hij .self hunder))
      · exact Or.inr (Or.inl (hover.step hc))
      · obtain ⟨hstart, hstop⟩ := h.inside s hs c (List.mem_of_getElem? hc)
        rcases hapart with hleft | hright
        · exact Or.inr (Or.inr (Or.inl (Nat.le_trans hstop hleft)))
        · exact Or.inr (Or.inr (Or.inr (Nat.le_trans hright hstart)))

/-- Two leaves are one or apart. -/
theorem eq_or_apart (h : Laid a) {n m : Spot} (hn : a.Under n) (hm : a.Under m)
    (hnleaf : n.tree.children = []) (hmleaf : m.tree.children = []) :
    n = m ∨ n.stop ≤ m.start ∨ m.stop ≤ n.start := by
  rcases h.under_or_apart hn hm with hunder | hover | hapart
  · rcases hunder.eq_or_under_child with rfl | ⟨j, e, he, -⟩
    · exact Or.inl rfl
    · simp [hnleaf] at he
  · rcases hover.eq_or_under_child with rfl | ⟨j, e, he, -⟩
    · exact Or.inl rfl
    · simp [hmleaf] at he
  · exact Or.inr hapart

end Laid

end Tree

end Redline
