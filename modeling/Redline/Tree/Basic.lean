import Redline.Text.Utf8

/-!
# Parse trees

A tree is a node with its children; a node covers a range of octets of the file that was parsed.
A `Spot` is a tree in its place: with the trees around it, nearest first, and its address, the
numbers of the children that lead to it from the root, the last first. Two spots of one tree are the
same if they have the same address.
-/

namespace Redline

/-- What a node is: its kind, whether it is named rather than a token, its field in the node above,
and the range of octets it covers. -/
structure Label where
  kind : String
  isNamed : Bool
  field : Option String
  start : Nat
  stop : Nat
  deriving DecidableEq, Repr, Inhabited

/-- A parse tree. -/
inductive Tree where
  | node (label : Label) (children : List Tree)
  deriving Repr, Inhabited

namespace Tree

/-- What the node at the top is. -/
def label : Tree → Label
  | node l _ => l

/-- The trees directly below. -/
def children : Tree → List Tree
  | node _ ts => ts

/-- The kind of the node at the top. -/
def kind (t : Tree) : String :=
  t.label.kind

/-- The first octet that the tree covers. -/
def start (t : Tree) : Nat :=
  t.label.start

/-- The octet after the last one that the tree covers. -/
def stop (t : Tree) : Nat :=
  t.label.stop

/-- The children that are not tokens. -/
def namedChildren (t : Tree) : List Tree :=
  t.children.filter (·.label.isNamed)

/-- The first child in a field. -/
def child? (t : Tree) (field : String) : Option Tree :=
  t.children.find? (·.label.field == some field)

end Tree

/-- Where a node is in its tree. -/
abbrev Address := List Nat

/-- A tree in its place. -/
structure Spot where
  tree : Tree
  above : List Tree
  address : Address
  deriving Repr, Inhabited

namespace Spot

/-- The root of a tree. -/
def root (t : Tree) : Spot :=
  { tree := t, above := [], address := [] }

/-- The child with a number. -/
def below (s : Spot) (child : Tree) (number : Nat) : Spot :=
  { tree := child, above := s.tree :: s.above, address := number :: s.address }

/-- The spots directly below. -/
def children (s : Spot) : List Spot :=
  s.tree.children.mapIdx fun i t => s.below t i

/-- The spots directly below that are not tokens. -/
def namedChildren (s : Spot) : List Spot :=
  s.children.filter (·.tree.label.isNamed)

/-- The first spot directly below in a field. -/
def child? (s : Spot) (field : String) : Option Spot :=
  s.children.find? (·.tree.label.field == some field)

/-- The kind of the node. -/
def kind (s : Spot) : String :=
  s.tree.kind

/-- The first octet that the node covers. -/
def start (s : Spot) : Nat :=
  s.tree.start

/-- The octet after the last one that the node covers. -/
def stop (s : Spot) : Nat :=
  s.tree.stop

/-- The tree that the node is a child of. -/
def parent? (s : Spot) : Option Tree :=
  s.above.head?

/-- The address of the tree that the node is a child of. -/
def parentAddress? (s : Spot) : Option Address :=
  s.parent?.map fun _ => s.address.tail

end Spot

namespace Tree

/-- The nodes of a tree in preorder, each with the number of its children. -/
abbrev Listing := List (Label × Nat)

mutual

/-- Reads `count` trees off a listing and gives what is left; `fuel` bounds the nodes read. -/
def readMany (fuel count : Nat) (nodes : Listing) : List Tree × Listing :=
  match fuel, count with
  | 0, _ => ([], nodes)
  | _ + 1, 0 => ([], nodes)
  | fuel + 1, count + 1 =>
    match readOne fuel nodes with
    | (none, rest) => ([], rest)
    | (some t, rest) =>
      let (ts, rest) := readMany fuel count rest
      (t :: ts, rest)

/-- Reads one tree off a listing and gives what is left. -/
def readOne (fuel : Nat) (nodes : Listing) : Option Tree × Listing :=
  match fuel, nodes with
  | 0, nodes => (none, nodes)
  | _ + 1, [] => (none, [])
  | fuel + 1, (label, count) :: rest =>
    let (ts, rest) := readMany fuel count rest
    (some (node label ts), rest)

end

/-- The tree whose nodes are listed in preorder. Every node takes two steps down. -/
def ofListing? (nodes : Listing) : Option Tree :=
  (readOne (2 * nodes.length + 2) nodes).1

end Tree

end Redline
