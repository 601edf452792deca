import Redline.Proofs.Tree.Spots

/-!
# Trees whose octets move

`Tree.moved f` is a tree with the ranges of its nodes taken to other octets and nothing else
changed. A spot of the moved tree is a moved spot of the tree, with the same address, and what is
found from a spot by kinds, fields and numbers is found from the moved spot too, moved.
-/

namespace Redline

/-- What a node is, at other octets. -/
def Label.moved (f : Nat → Nat) (l : Label) : Label :=
  { l with start := f l.start, stop := f l.stop }

@[simp] theorem Label.kind_moved (f : Nat → Nat) (l : Label) : (l.moved f).kind = l.kind := rfl

namespace Tree

variable (f : Nat → Nat)

mutual

/-- A tree with the octets of its nodes moved. -/
def moved : Tree → Tree
  | .node label children => .node (label.moved f) (movedAll children)

/-- Trees with the octets of their nodes moved. -/
def movedAll : List Tree → List Tree
  | [] => []
  | t :: ts => moved t :: movedAll ts

end

theorem movedAll_eq_map (ts : List Tree) : movedAll f ts = ts.map (moved f) := by
  induction ts with
  | nil => rfl
  | cons t ts ih => rw [movedAll, ih, List.map_cons]

@[simp] theorem moved_node (label : Label) (children : List Tree) :
    moved f (.node label children) = .node (label.moved f) (children.map (moved f)) := by
  rw [moved, movedAll_eq_map]

@[simp] theorem label_moved (t : Tree) : (t.moved f).label = t.label.moved f := by
  cases t
  rw [moved_node]
  rfl

@[simp] theorem children_moved (t : Tree) :
    (t.moved f).children = t.children.map (moved f) := by
  cases t
  rw [moved_node]
  rfl

@[simp] theorem kind_moved (t : Tree) : (t.moved f).kind = t.kind := by
  rw [kind, label_moved]
  rfl

@[simp] theorem start_moved (t : Tree) : (t.moved f).start = f t.start := by
  rw [start, label_moved]
  rfl

@[simp] theorem stop_moved (t : Tree) : (t.moved f).stop = f t.stop := by
  rw [stop, label_moved]
  rfl

theorem field_moved (t : Tree) : (t.moved f).label.field = t.label.field := by
  rw [label_moved]
  rfl

theorem isNamed_moved (t : Tree) : (t.moved f).label.isNamed = t.label.isNamed := by
  rw [label_moved]
  rfl

theorem child?_moved (t : Tree) (field : String) :
    (t.moved f).child? field = (t.child? field).map (moved f) := by
  rw [child?, children_moved, List.find?_map, child?]
  congr 2
  funext c
  exact congrArg (· == some field) (field_moved f c)

end Tree

namespace Spot

variable (f : Nat → Nat)

/-- A spot of a tree, in the moved tree. -/
def moved (s : Spot) : Spot :=
  { tree := s.tree.moved f, above := s.above.map (Tree.moved f), address := s.address }

@[simp] theorem tree_moved (s : Spot) : (s.moved f).tree = s.tree.moved f := rfl

@[simp] theorem above_moved (s : Spot) : (s.moved f).above = s.above.map (Tree.moved f) := rfl

@[simp] theorem address_moved (s : Spot) : (s.moved f).address = s.address := rfl

@[simp] theorem kind_moved (s : Spot) : (s.moved f).kind = s.kind :=
  Tree.kind_moved f s.tree

@[simp] theorem start_moved (s : Spot) : (s.moved f).start = f s.start :=
  Tree.start_moved f s.tree

@[simp] theorem stop_moved (s : Spot) : (s.moved f).stop = f s.stop :=
  Tree.stop_moved f s.tree

theorem moved_root (t : Tree) : (root t).moved f = root (t.moved f) := rfl

theorem moved_below (s : Spot) (child : Tree) (number : Nat) :
    (s.below child number).moved f = (s.moved f).below (child.moved f) number := rfl

@[simp] theorem parent?_moved (s : Spot) :
    (s.moved f).parent? = s.parent?.map (Tree.moved f) := by
  rw [parent?, parent?, above_moved, List.head?_map]

@[simp] theorem parentAddress?_moved (s : Spot) :
    (s.moved f).parentAddress? = s.parentAddress? := by
  rw [parentAddress?, parent?_moved, Option.map_map, address_moved]
  rfl

@[simp] theorem children_moved (s : Spot) :
    (s.moved f).children = s.children.map (moved f) := by
  refine List.ext_getElem? fun i => ?_
  rw [children, children, tree_moved, Tree.children_moved, List.getElem?_mapIdx, List.getElem?_map,
    List.getElem?_map, List.getElem?_mapIdx]
  cases s.tree.children[i]? <;> rfl

@[simp] theorem namedChildren_moved (s : Spot) :
    (s.moved f).namedChildren = s.namedChildren.map (moved f) := by
  rw [namedChildren, children_moved, List.filter_map, namedChildren]
  congr 2
  funext c
  exact Tree.isNamed_moved f c.tree

@[simp] theorem child?_moved (s : Spot) (field : String) :
    (s.moved f).child? field = (s.child? field).map (moved f) := by
  rw [child?, children_moved, List.find?_map, child?]
  congr 2
  funext c
  exact congrArg (· == some field) (Tree.field_moved f c.tree)

variable {f}

/-- The spots under a moved spot are those under the spot, moved. -/
theorem Under.moved {a s : Spot} (h : a.Under s) : (a.moved f).Under (s.moved f) := by
  induction h with
  | self => exact .self
  | @step s number child hs hc ih =>
      rw [moved_below]
      refine ih.step ?_
      rw [tree_moved, Tree.children_moved, List.getElem?_map, hc, Option.map_some]

theorem Under.exists_of_moved {a s : Spot} (h : (a.moved f).Under s) :
    ∃ n, a.Under n ∧ s = n.moved f := by
  induction h with
  | self => exact ⟨a, .self, rfl⟩
  | @step s number child hs hc ih =>
      obtain ⟨n, hn, rfl⟩ := ih
      rw [tree_moved, Tree.children_moved, List.getElem?_map, Option.map_eq_some_iff] at hc
      obtain ⟨c, hc, rfl⟩ := hc
      exact ⟨n.below c number, hn.step hc, (moved_below f n c number).symm⟩

end Spot

namespace Tree

theorem moved_congr_at {f g : Nat → Nat} (above : List Tree) (address : Address) (t : Tree)
    (h : ∀ n, (Spot.at t above address).Under n → f n.start = g n.start ∧ f n.stop = g n.stop) :
    t.moved f = t.moved g := by
  match t with
  | .node label children =>
      obtain ⟨hstart, hstop⟩ := h _ .self
      have hlabel : label.moved f = label.moved g := by
        rw [Label.moved, Label.moved, show f label.start = g label.start from hstart,
          show f label.stop = g label.stop from hstop]
      have hchildren : children.map (moved f) = children.map (moved g) := by
        refine List.map_congr_left fun child hchild => ?_
        obtain ⟨i, hi⟩ := List.getElem?_of_mem hchild
        exact moved_congr_at _ _ child fun n hn => h n (hn.of_child hi)
      rw [moved_node, moved_node, hlabel, hchildren]
termination_by t
decreasing_by
  have := List.sizeOf_lt_of_mem hchild
  simp_wf
  omega

/-- Where the ends of nodes are moved alike the trees are the same. -/
theorem moved_congr {f g : Nat → Nat} {t : Tree}
    (h : ∀ n, (Spot.root t).Under n → f n.start = g n.start ∧ f n.stop = g n.stop) :
    t.moved f = t.moved g :=
  moved_congr_at [] [] t h

end Tree

end Redline
