import Mathlib.Data.List.Nodup
import Redline.Proofs.Tree.WellFormed

/-!
# Checking that a file is well formed

`Tree.spotsIn` lists the spots under a spot, so whether a file is well formed and lexical can be
decided.
-/

namespace Redline

namespace Tree

mutual

/-- The spots under the one of a tree in a place, in preorder. -/
def spotsIn (above : List Tree) (address : Address) : Tree → List Spot
  | .node label children =>
    Spot.at (.node label children) above address
      :: spotsAmong (.node label children :: above) address 0 children

/-- The spots under those of some siblings. -/
def spotsAmong (above : List Tree) (address : Address) (number : Nat) : List Tree → List Spot
  | [] => []
  | t :: ts => spotsIn above (number :: address) t ++ spotsAmong above address (number + 1) ts

end

/-- The spots of a tree. -/
def spots (t : Tree) : List Spot :=
  spotsIn [] [] t

mutual

theorem under_of_mem_spotsIn {n : Spot} (above : List Tree) (address : Address) (t : Tree)
    (h : n ∈ spotsIn above address t) : (Spot.at t above address).Under n := by
  match t with
  | .node label children =>
      rw [spotsIn] at h
      rcases List.mem_cons.1 h with rfl | h
      · exact .self
      · obtain ⟨i, child, hc, hn⟩ := under_of_mem_spotsAmong _ _ 0 children h
        rw [Nat.zero_add] at hn
        exact hn.of_child hc

theorem under_of_mem_spotsAmong {n : Spot} (above : List Tree) (address : Address) (number : Nat)
    (ts : List Tree) (h : n ∈ spotsAmong above address number ts) :
    ∃ (i : Nat) (child : Tree), ts[i]? = some child ∧
      (Spot.at child above ((number + i) :: address)).Under n := by
  match ts with
  | [] =>
      rw [spotsAmong] at h
      cases h
  | t :: ts =>
      rw [spotsAmong] at h
      rcases List.mem_append.1 h with h | h
      · exact ⟨0, t, rfl, under_of_mem_spotsIn _ _ t h⟩
      · obtain ⟨i, child, hc, hn⟩ := under_of_mem_spotsAmong _ _ (number + 1) ts h
        refine ⟨i + 1, child, hc, ?_⟩
        rwa [Nat.add_assoc, Nat.add_comm 1] at hn

end

mutual

theorem mem_spotsIn_of_under {n : Spot} (above : List Tree) (address : Address) (t : Tree)
    (h : (Spot.at t above address).Under n) : n ∈ spotsIn above address t := by
  match t with
  | .node label children =>
      rw [spotsIn]
      rcases h.eq_or_under_child with rfl | ⟨i, child, hc, hn⟩
      · exact List.mem_cons_self
      · refine List.mem_cons_of_mem _ (mem_spotsAmong_of_under _ _ 0 children hc ?_)
        rwa [Nat.zero_add]

theorem mem_spotsAmong_of_under {n : Spot} {i : Nat} {child : Tree} (above : List Tree)
    (address : Address) (number : Nat) (ts : List Tree) (hc : ts[i]? = some child)
    (h : (Spot.at child above ((number + i) :: address)).Under n) :
    n ∈ spotsAmong above address number ts := by
  match ts, i with
  | [], _ => cases hc
  | t :: ts, 0 =>
      cases hc
      rw [spotsAmong]
      exact List.mem_append_left _ (mem_spotsIn_of_under _ _ child h)
  | t :: ts, i + 1 =>
      rw [spotsAmong]
      refine List.mem_append_right _ (mem_spotsAmong_of_under (i := i) _ _ (number + 1) ts hc ?_)
      rwa [Nat.add_assoc, Nat.add_comm 1]

end

theorem mem_spots {t : Tree} {n : Spot} : n ∈ t.spots ↔ (Spot.root t).Under n :=
  ⟨under_of_mem_spotsIn _ _ t, mem_spotsIn_of_under _ _ t⟩

theorem spotsAmong_eq (above : List Tree) (address : Address) (number : Nat) (ts : List Tree) :
    spotsAmong above address number ts =
      (ts.mapIdx fun i t => Spot.at t above ((number + i) :: address)).flatMap
        fun c => spotsIn c.above c.address c.tree := by
  induction ts generalizing number with
  | nil => rfl
  | cons t ts ih =>
      rw [spotsAmong, List.mapIdx_cons, List.flatMap_cons, ih]
      simp only [Nat.add_assoc, Nat.add_comm 1, Nat.add_zero]

/-- The spots under a spot: itself, then those under its children in turn. -/
theorem spotsIn_eq (s : Spot) :
    spotsIn s.above s.address s.tree =
      s :: s.children.flatMap fun c => spotsIn c.above c.address c.tree := by
  obtain ⟨⟨label, children⟩, above, address⟩ := s
  rw [spotsIn, spotsAmong_eq, Spot.children]
  simp only [Nat.zero_add]
  rfl

/-- The nodes under a spot are listed once each. -/
theorem nodup_spotsIn (s : Spot) : (spotsIn s.above s.address s.tree).Nodup := by
  rw [spotsIn_eq, List.nodup_cons, List.nodup_flatMap]
  refine ⟨fun h => ?_, fun c hc => nodup_spotsIn c, ?_⟩
  · obtain ⟨c, hc, hs⟩ := List.mem_flatMap.1 h
    exact Spot.not_under_of_mem_children hc (under_of_mem_spotsIn _ _ _ hs)
  · refine Spot.pairwise_children fun i j c e hij hc he => ?_
    refine List.disjoint_left.2 fun n hn hn' => ?_
    have heq := Spot.eq_of_under_children (Spot.mem_children.2 ⟨i, c, hc, rfl⟩)
      (Spot.mem_children.2 ⟨j, e, he, rfl⟩) (under_of_mem_spotsIn _ _ _ hn)
      (under_of_mem_spotsIn _ _ _ hn')
    have haddress := congrArg Spot.address heq
    rw [Spot.address_below, Spot.address_below, List.cons.injEq] at haddress
    omega
termination_by sizeOf s.tree
decreasing_by exact Spot.sizeOf_tree_lt_of_mem_children hc

/-- A node that is in no field. -/
def ofKind (kind : String) (start stop : Nat) (children : List Tree) : Tree :=
  .node { kind, isNamed := true, field := none, start, stop } children

/-- A node in a field of the one above. -/
def inField (field kind : String) (start stop : Nat) (children : List Tree) : Tree :=
  .node { kind, isNamed := true, field := some field, start, stop } children

/-- A token. -/
def token (kind : String) (start stop : Nat) (field : Option String) : Tree :=
  .node { kind, isNamed := false, field, start, stop } []

end Tree

namespace Source

/-- The identifiers of a file. -/
def identifiers (s : Source) : List Spot :=
  s.tree.spots.filter fun n => NodeKind.isIdentifier n.kind

theorem mem_identifiers {s : Source} {n : Spot} : n ∈ s.identifiers ↔ s.Identifier n := by
  rw [identifiers, List.mem_filter, Tree.mem_spots]
  exact ⟨fun h => ⟨h.1, h.2⟩, fun h => ⟨h.under, h.kind⟩⟩

instance (s : Source) (n : Nat) : Decidable (s.IsBoundary n) :=
  decidable_of_iff (((List.range (s.text.length + 1)).any fun c =>
      n == Text.Utf8.width (s.text.take c)) = true) <| by
    simp only [List.any_eq_true, List.mem_range, beq_iff_eq, Nat.lt_succ_iff, IsBoundary, Marks]

theorem wellFormed_iff {s : Source} :
    s.WellFormed ↔
      (∀ n ∈ s.tree.spots, (∀ c ∈ n.tree.children, n.start ≤ c.start ∧ c.stop ≤ n.stop) ∧
        (n.tree.children.Pairwise fun b c => b.stop ≤ c.start) ∧
        ∀ field ∈ NodeKind.nameFields n.kind, ∀ c ∈ (n.child? field).toList,
          NodeKind.isIdentifier c.kind = true) ∧
      ∀ n ∈ s.identifiers, n.tree.children.isEmpty = true ∧ n.start < n.stop ∧
        s.IsBoundary n.start ∧ s.IsBoundary n.stop := by
  constructor
  · intro h
    refine ⟨fun n hn => ?_, fun n hn => ?_⟩
    · rw [Tree.mem_spots] at hn
      exact ⟨h.laid.inside n hn, h.laid.ordered n hn, fun field hfield c hc =>
        h.names n hn field hfield c (Option.mem_toList.1 hc)⟩
    · rw [mem_identifiers] at hn
      exact ⟨by rw [h.leaf n hn]; rfl, h.nonempty n hn, h.boundary n hn⟩
  · rintro ⟨hspots, hids⟩
    refine ⟨⟨fun n hn => (hspots n (Tree.mem_spots.2 hn)).1,
      fun n hn => (hspots n (Tree.mem_spots.2 hn)).2.1⟩, fun n hn => ?_, fun n hn => ?_,
      fun n hn => ?_, fun n hn field hfield c hc => ?_⟩
    · exact List.isEmpty_iff.1 (hids n (mem_identifiers.2 hn)).1
    · exact (hids n (mem_identifiers.2 hn)).2.1
    · exact (hids n (mem_identifiers.2 hn)).2.2
    · exact (hspots n (Tree.mem_spots.2 hn)).2.2 field hfield c (Option.mem_toList.2 hc)

instance (s : Source) : Decidable s.WellFormed :=
  decidable_of_iff _ wellFormed_iff.symm

-- `List.all`: a quantifier over characters may be decided by running through all characters
theorem lexical_iff {s : Source} :
    s.Lexical ↔
      (∀ n ∈ s.identifiers, ((s.textOf n.tree).toList.all fun c =>
        !([':', '\x27', '"', '\x60'].contains c)) = true) ∧
      ∀ p ∈ s.tree.spots,
        (p.kind = "import_specifier" → ∀ n ∈ (p.child? "name").toList,
          NodeKind.isProperty n.kind = false) ∧
        (p.kind = "member_expression" → ∀ n ∈ (p.child? "property").toList,
          NodeKind.isReference n.kind = false) := by
  have htext : ∀ n : Spot, ((s.textOf n.tree).toList.all fun c =>
        !([':', '\x27', '"', '\x60'].contains c)) = true ↔
      ∀ c ∈ (s.textOf n.tree).toList, c ∉ [':', '\x27', '"', '\x60'] := by
    intro n
    simp only [List.all_eq_true, Bool.not_eq_eq_eq_not, Bool.not_true, List.contains_eq_mem,
      decide_eq_false_iff_not]
  simp only [htext]
  constructor
  · intro h
    refine ⟨fun n hn => h.text n (mem_identifiers.1 hn), fun p hp => ?_⟩
    rw [Tree.mem_spots] at hp
    exact ⟨fun hkind n hn => h.imported p hp hkind n (Option.mem_toList.1 hn),
      fun hkind n hn => h.member p hp hkind n (Option.mem_toList.1 hn)⟩
  · rintro ⟨htext, hspots⟩
    refine ⟨fun n hn => htext n (mem_identifiers.2 hn), fun p hp hkind n hn => ?_,
      fun p hp hkind n hn => ?_⟩
    · exact (hspots p (Tree.mem_spots.2 hp)).1 hkind n (Option.mem_toList.2 hn)
    · exact (hspots p (Tree.mem_spots.2 hp)).2 hkind n (Option.mem_toList.2 hn)

instance (s : Source) : Decidable s.Lexical :=
  decidable_of_iff _ lexical_iff.symm

end Source

end Redline
