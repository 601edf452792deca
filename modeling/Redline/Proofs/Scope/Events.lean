import Redline.Proofs.Tree.Spots
import Redline.Scope.Walk

/-!
# Where events come from

The walk visits the spots of a tree: every event is one of the identifier at a spot, or one of what
the node there declares and exports. The names that a pattern binds are identifiers under it.
-/

namespace Redline

namespace Scope

/-- The walk from a spot comes to a spot under it, with these scopes around. -/
inductive Reaches (source : Source) (a : Spot) (outer : List Scope) : Spot → List Scope → Prop where
  | self : Reaches source a outer a outer
  | step {s : Spot} {around : List Scope} {number : Nat} {child : Tree}
      (hs : Reaches source a outer s around) (hc : s.tree.children[number]? = some child) :
      Reaches source a outer (s.below child number) (visit source around s).2

namespace Reaches

variable {source : Source} {a b s n : Spot} {outer inner around around' : List Scope} {t : Tree}

theorem under (h : Reaches source a outer s around) : a.Under s := by
  induction h with
  | self => exact .self
  | step _ hc ih => exact ih.step hc

theorem trans (hab : Reaches source a outer b inner) (hbs : Reaches source b inner s around) :
    Reaches source a outer s around := by
  induction hbs with
  | self => exact hab
  | step _ hc ih => exact ih.step hc

/-- What is reached from a child is reached from the node. -/
theorem of_child {label : Label} {children : List Tree} {above : List Tree} {address : Address}
    {number : Nat} {child : Tree} (hc : children[number]? = some child)
    (h : Reaches source (Spot.at child (.node label children :: above) (number :: address))
      (visit source outer (Spot.at (.node label children) above address)).2 s around) :
    Reaches source (Spot.at (.node label children) above address) outer s around :=
  (self.step (s := Spot.at (.node label children) above address) hc).trans h

/-- The walk of a tree comes to a spot with one list of scopes only. -/
theorem unique (hs : Reaches source (Spot.root t) outer s around)
    (hn : Reaches source (Spot.root t) outer n around') (h : s = n) : around = around' := by
  induction hs generalizing n around' with
  | self =>
      cases hn with
      | self => rfl
      | step _ _ => cases congrArg Spot.address h
  | step hs _ ih =>
      cases hn with
      | self => cases congrArg Spot.address h
      | step hn _ =>
          have haddress := congrArg Spot.address h
          rw [Spot.address_below, Spot.address_below, List.cons.injEq] at haddress
          obtain rfl := Spot.eq_of_address_eq hs.under hn.under haddress.2
          rw [ih hn rfl]

end Reaches

mutual

/-- An event comes from a spot that was visited. -/
theorem exists_spot_of_mem_eventsIn {source : Source} {e : Event} (around : List Scope)
    (above : List Tree) (address : Address) (t : Tree)
    (h : e ∈ eventsIn source around above address t) :
    ∃ s around', Reaches source (Spot.at t above address) around s around' ∧
      (e ∈ identifierEvents source around' s ∨ e ∈ (visit source around' s).1) := by
  match t with
  | .node label children =>
      rw [eventsIn] at h
      rcases List.mem_append.1 h with h | h
      · rcases List.mem_append.1 h with h | h
        · exact ⟨_, around, .self, Or.inl h⟩
        · exact ⟨_, around, .self, Or.inr h⟩
      · obtain ⟨i, child, s, around', hc, hs, he⟩ :=
          exists_spot_of_mem_eventsAmong _ _ _ 0 children h
        rw [Nat.zero_add] at hs
        exact ⟨s, around', hs.of_child hc, he⟩

theorem exists_spot_of_mem_eventsAmong {source : Source} {e : Event} (around : List Scope)
    (above : List Tree) (address : Address) (number : Nat) (ts : List Tree)
    (h : e ∈ eventsAmong source around above address number ts) :
    ∃ (i : Nat) (child : Tree) (s : Spot) (around' : List Scope), ts[i]? = some child ∧
      Reaches source (Spot.at child above ((number + i) :: address)) around s around' ∧
      (e ∈ identifierEvents source around' s ∨ e ∈ (visit source around' s).1) := by
  match ts with
  | [] =>
      rw [eventsAmong] at h
      cases h
  | t :: ts =>
      rw [eventsAmong] at h
      rcases List.mem_append.1 h with h | h
      · obtain ⟨s, around', hs, he⟩ := exists_spot_of_mem_eventsIn _ _ _ t h
        exact ⟨0, t, s, around', rfl, hs, he⟩
      · obtain ⟨i, child, s, around', hc, hs, he⟩ :=
          exists_spot_of_mem_eventsAmong _ _ _ (number + 1) ts h
        refine ⟨i + 1, child, s, around', hc, ?_, he⟩
        rwa [Nat.add_assoc, Nat.add_comm 1] at hs

end

/-- The walk of a file comes to a spot with these scopes around. -/
def Walks (source : Source) (s : Spot) (around : List Scope) : Prop :=
  Reaches source (Spot.root source.tree) [file] s around

theorem Walks.under {source : Source} {s : Spot} {around : List Scope}
    (h : Walks source s around) : (Spot.root source.tree).Under s :=
  Reaches.under h

theorem exists_spot_of_mem_events {source : Source} {e : Event} (h : e ∈ events source) :
    ∃ s around, Walks source s around ∧
      (e ∈ identifierEvents source around s ∨ e ∈ (visit source around s).1) :=
  exists_spot_of_mem_eventsIn _ _ _ _ h

/-- The kinds of names that a pattern binds. -/
def isBoundName (kind : String) : Bool :=
  ["identifier", "shorthand_property_identifier_pattern"].contains kind

/-- The kinds of the parts of a pattern around its names. -/
def isPattern (kind : String) : Bool :=
  ["pair_pattern", "object_assignment_pattern", "assignment_pattern", "object_pattern",
    "array_pattern", "rest_pattern"].contains kind

/-- A spot, or one below it with nothing but patterns from there up to it. -/
inductive UnderPatterns (a : Spot) : Spot → Prop where
  | self : UnderPatterns a a
  | step {s : Spot} {number : Nat} {child : Tree} (hs : UnderPatterns a s)
      (hkind : isPattern s.kind = true) (hc : s.tree.children[number]? = some child) :
      UnderPatterns a (s.below child number)

theorem UnderPatterns.under {a n : Spot} (h : UnderPatterns a n) : a.Under n := by
  induction h with
  | self => exact .self
  | step _ _ hc ih => exact ih.step hc

theorem UnderPatterns.trans {a b n : Spot} (hab : UnderPatterns a b) (hbn : UnderPatterns b n) :
    UnderPatterns a n := by
  induction hbn with
  | self => exact hab
  | step _ hkind hc ih => exact ih.step hkind hc

theorem UnderPatterns.of_child {label : Label} {children : List Tree} {above : List Tree}
    {address : Address} {number : Nat} {child : Tree} {n : Spot}
    (hkind : isPattern label.kind = true) (hc : children[number]? = some child)
    (hn : UnderPatterns (Spot.at child (.node label children :: above) (number :: address)) n) :
    UnderPatterns (Spot.at (.node label children) above address) n :=
  (self.step (s := Spot.at (.node label children) above address) hkind hc).trans hn

theorem isPattern_of_mem {kind : String} {kinds : List String} (h : kinds.contains kind = true)
    (hkinds : ∀ k ∈ kinds, isPattern k = true) : isPattern kind = true :=
  hkinds kind (by simpa using h)

mutual

/-- A name that a pattern binds is in it, with patterns around. -/
theorem under_of_mem_patternNames {n : Spot} (above : List Tree) (address : Address) (t : Tree)
    (h : n ∈ patternNames above address t) :
    UnderPatterns (Spot.at t above address) n ∧ isBoundName n.kind = true := by
  match t with
  | .node label children =>
      rw [patternNames] at h
      split_ifs at h with hname hpair hassign hlist
      · rw [List.mem_singleton] at h
        subst h
        exact ⟨.self, hname⟩
      · obtain ⟨i, child, hc, hs, hkind⟩ := under_of_mem_namesInField _ _ _ 0 children h
        rw [Nat.zero_add] at hs
        exact ⟨hs.of_child (by rw [hpair]; decide) hc, hkind⟩
      · obtain ⟨i, child, hc, hs, hkind⟩ := under_of_mem_namesInField _ _ _ 0 children h
        rw [Nat.zero_add] at hs
        exact ⟨hs.of_child (isPattern_of_mem hassign (by decide)) hc, hkind⟩
      · obtain ⟨i, child, hc, hs, hkind⟩ := under_of_mem_namesInNamed _ _ 0 children h
        rw [Nat.zero_add] at hs
        exact ⟨hs.of_child (isPattern_of_mem hlist (by decide)) hc, hkind⟩
      · cases h

theorem under_of_mem_namesInField {n : Spot} (field : String) (above : List Tree)
    (address : Address) (number : Nat) (ts : List Tree)
    (h : n ∈ namesInField field above address number ts) :
    ∃ i child, ts[i]? = some child ∧
      UnderPatterns (Spot.at child above ((number + i) :: address)) n ∧
      isBoundName n.kind = true := by
  match ts with
  | [] =>
      rw [namesInField] at h
      cases h
  | t :: ts =>
      rw [namesInField] at h
      split_ifs at h with hfield
      · exact ⟨0, t, rfl, under_of_mem_patternNames _ _ t h⟩
      · obtain ⟨i, child, hc, hs, hkind⟩ := under_of_mem_namesInField _ _ _ (number + 1) ts h
        refine ⟨i + 1, child, hc, ?_, hkind⟩
        rwa [Nat.add_assoc, Nat.add_comm 1] at hs

theorem under_of_mem_namesInNamed {n : Spot} (above : List Tree) (address : Address)
    (number : Nat) (ts : List Tree) (h : n ∈ namesInNamed above address number ts) :
    ∃ i child, ts[i]? = some child ∧
      UnderPatterns (Spot.at child above ((number + i) :: address)) n ∧
      isBoundName n.kind = true := by
  match ts with
  | [] =>
      rw [namesInNamed] at h
      cases h
  | t :: ts =>
      rw [namesInNamed] at h
      rcases List.mem_append.1 h with h | h
      · split_ifs at h with hnamed
        · exact ⟨0, t, rfl, under_of_mem_patternNames _ _ t h⟩
        · cases h
      · obtain ⟨i, child, hc, hs, hkind⟩ := under_of_mem_namesInNamed _ _ (number + 1) ts h
        refine ⟨i + 1, child, hc, ?_, hkind⟩
        rwa [Nat.add_assoc, Nat.add_comm 1] at hs

end

theorem exists_of_mem_namesBound {s n : Spot} {field : String} (h : n ∈ namesBound s field) :
    ∃ a, s.child? field = some a ∧ UnderPatterns a n ∧ isBoundName n.kind = true := by
  rw [namesBound] at h
  cases hp : s.child? field with
  | none =>
      rw [hp] at h
      cases h
  | some p =>
      rw [hp] at h
      exact ⟨p, rfl, under_of_mem_patternNames _ _ _ h⟩

theorem under_of_mem_namesBound {s n : Spot} {field : String} (h : n ∈ namesBound s field) :
    s.Under n ∧ isBoundName n.kind = true := by
  obtain ⟨a, ha, hunder, hkind⟩ := exists_of_mem_namesBound h
  exact ⟨(Spot.under_of_child? .self ha).trans hunder.under, hkind⟩

end Scope

end Redline
