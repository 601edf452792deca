import Redline.Proofs.Tree.Positions
import Redline.Proofs.Tree.Spots
import Redline.Scope.Basic

/-!
# Well-formed source files

What a parser gives for a file of UTF-8 text: nodes are laid out one inside the other, identifiers
are leaves that cover whole characters, at least one, and names stand where declarations, the parts
of imports and exports, and member accesses have them. Two identifiers are then one or apart, and an
identifier covers a text between two characters. A `Lexical` file has names as the language has
them, in texts and in kinds.
-/

namespace Redline

namespace NodeKind

/-- The fields of a node that hold names: of what it declares, imports, exports or accesses. -/
def nameFields (kind : String) : List String :=
  if kind = "import_specifier" then ["name", "alias"]
  else if kind = "export_specifier" then ["name"]
  else if kind = "member_expression" then ["property"]
  else if (isFunction kind && kind != "method_definition") || isClassDeclaration kind
      || ["class", "interface_declaration", "type_alias_declaration", "enum_declaration",
        "type_parameter"].contains kind then ["name"]
  else []

end NodeKind

namespace Source

/-- A spot of an identifier in a file. -/
structure Identifier (s : Source) (n : Spot) : Prop where
  under : (Spot.root s.tree).Under n
  kind : NodeKind.isIdentifier n.kind = true

/-- A file as a parser gives it. -/
structure WellFormed (s : Source) : Prop where
  laid : Tree.Laid (Spot.root s.tree)
  leaf : ∀ n, s.Identifier n → n.tree.children = []
  nonempty : ∀ n, s.Identifier n → n.start < n.stop
  boundary : ∀ n, s.Identifier n → s.IsBoundary n.start ∧ s.IsBoundary n.stop
  names : ∀ n, (Spot.root s.tree).Under n → ∀ field ∈ NodeKind.nameFields n.kind,
    ∀ c, n.child? field = some c → NodeKind.isIdentifier c.kind = true

/-- Names as the language has them: without colons and quotes, what is imported no property, and a
member of an access nothing that is looked up. -/
structure Lexical (s : Source) : Prop where
  text : ∀ n, s.Identifier n → ∀ c ∈ (s.textOf n.tree).toList, c ∉ [':', '\x27', '"', '\x60']
  imported : ∀ p, (Spot.root s.tree).Under p → p.kind = "import_specifier" →
    ∀ n, p.child? "name" = some n → NodeKind.isProperty n.kind = false
  member : ∀ p, (Spot.root s.tree).Under p → p.kind = "member_expression" →
    ∀ n, p.child? "property" = some n → NodeKind.isReference n.kind = false

namespace WellFormed

variable {s : Source}

theorem identifier_of_child? (h : s.WellFormed) {n c : Spot} {field : String}
    (hn : (Spot.root s.tree).Under n) (hfield : field ∈ NodeKind.nameFields n.kind)
    (hc : n.child? field = some c) : s.Identifier c :=
  ⟨Spot.under_of_child? hn hc, h.names n hn field hfield c hc⟩

/-- Two identifiers are one or apart. -/
theorem eq_or_apart (h : s.WellFormed) {n m : Spot} (hn : s.Identifier n) (hm : s.Identifier m) :
    n = m ∨ n.stop ≤ m.start ∨ m.stop ≤ n.start :=
  h.laid.eq_or_apart hn.under hm.under (h.leaf n hn) (h.leaf m hm)

/-- Two identifiers that start at one octet are one. -/
theorem eq_of_start_eq (h : s.WellFormed) {n m : Spot} (hn : s.Identifier n)
    (hm : s.Identifier m) (hstart : n.start = m.start) : n = m := by
  rcases h.eq_or_apart hn hm with rfl | hleft | hright
  · rfl
  · have := h.nonempty n hn
    omega
  · have := h.nonempty m hm
    omega

/-- An identifier covers the text between two characters. -/
theorem exists_marks (h : s.WellFormed) (hs : s.IsUtf8) {n : Spot} (hn : s.Identifier n) :
    ∃ c e, s.Marks n.start c ∧ s.Marks n.stop e ∧ c < e ∧
      s.textOf n.tree = String.ofList ((s.text.take e).drop c) := by
  obtain ⟨⟨c, hc⟩, ⟨e, he⟩⟩ := h.boundary n hn
  have hlt := h.nonempty n hn
  exact ⟨c, e, hc, he, (hc.lt_iff he).1 hlt, textOf_eq hs hc he (Nat.le_of_lt hlt)⟩

end WellFormed

end Source

/-!
## Finding an identifier by its position

On the way down to an octet the first child that covers it is the only one in a tree that is laid
out, so the way leads through every node that covers the octet. It ends at an identifier when the
octet is in one; and the line and column of an identifier lead to its first octet.
-/

namespace Source

variable {wanted : String → Bool} {target : Int}

theorem covers_iff {t : Tree} :
    covers target t = true ↔ (t.start : Int) ≤ target ∧ target < t.stop := by
  rw [covers, Bool.and_eq_true, decide_eq_true_eq, decide_eq_true_eq]

/-- Among siblings the way leads into the first that covers the octet. -/
theorem innermostAmong_of_covers (found : Option Spot) (above : List Tree) (address : Address)
    (number : Nat) {ts : List Tree} {i : Nat} {child : Tree} (hchild : ts[i]? = some child)
    (hbefore : ∀ j < i, ∀ t, ts[j]? = some t → covers target t = false)
    (hcovers : covers target child = true) :
    innermostAmong wanted target found above address number ts =
      innermost wanted target found above ((number + i) :: address) child := by
  induction ts generalizing i number with
  | nil => cases hchild
  | cons t ts ih =>
      rw [innermostAmong]
      cases i with
      | zero =>
          cases hchild
          rw [if_pos hcovers]
          rfl
      | succ i =>
          rw [if_neg (by rw [hbefore 0 (Nat.succ_pos i) t rfl]; simp),
            ih (number + 1) hchild fun j hj t ht => hbefore (j + 1) (Nat.succ_lt_succ hj) t ht,
            Nat.add_assoc, Nat.add_comm 1]

/-- The way down to an octet leads through every node that covers it. -/
theorem exists_innermost_eq (wanted : String → Bool) {a s : Spot} (hlaid : Tree.Laid a)
    (hs : a.Under s) (hcovers : covers target s.tree = true) (found : Option Spot) :
    ∃ found', innermost wanted target found a.above a.address a.tree =
      innermost wanted target found' s.above s.address s.tree := by
  induction hs with
  | self => exact ⟨found, rfl⟩
  | @step s number child hs hc ih =>
      obtain ⟨hstart, hstop⟩ := covers_iff.1 hcovers
      obtain ⟨hinside, hinside'⟩ := hlaid.inside s hs child (List.mem_of_getElem? hc)
      have hstart : (child.start : Int) ≤ target := hstart
      have hstop : target < (child.stop : Int) := hstop
      obtain ⟨found', hfound⟩ := ih (covers_iff.2
        ⟨by show (s.start : Int) ≤ target; omega, by show target < (s.stop : Int); omega⟩)
      have hbefore : ∀ j < number, ∀ t, s.tree.children[j]? = some t → covers target t = false := by
        intro j hj t ht
        obtain ⟨hjlt, rfl⟩ := List.getElem?_eq_some_iff.1 ht
        obtain ⟨hlt, rfl⟩ := List.getElem?_eq_some_iff.1 hc
        have hord := List.pairwise_iff_getElem.1 (hlaid.ordered s hs) j number hjlt hlt hj
        rw [Bool.eq_false_iff]
        intro htrue
        have := (covers_iff.1 htrue).2
        omega
      rw [hfound]
      obtain ⟨⟨label, children⟩, above, address⟩ := s
      refine ⟨if wanted label.kind then some ⟨.node label children, above, address⟩ else found', ?_⟩
      show innermost wanted target found' above address (.node label children) = _
      have hchildren : children[number]? = some child := hc
      rw [innermost, innermostAmong_of_covers _ _ _ 0 hchildren hbefore hcovers, Nat.zero_add]
      rfl

/-- The innermost node at an octet of a leaf is the leaf, if it is wanted. -/
theorem innermost_of_leaf {a n : Spot} (hlaid : Tree.Laid a) (hn : a.Under n)
    (hleaf : n.tree.children = []) (hwanted : wanted n.kind = true)
    (hcovers : covers target n.tree = true) :
    innermost wanted target none a.above a.address a.tree = some n := by
  obtain ⟨found, hfound⟩ := exists_innermost_eq wanted hlaid hn hcovers none
  rw [hfound]
  obtain ⟨⟨label, children⟩, above, address⟩ := n
  cases hleaf
  show innermost wanted target found above address (.node label []) = _
  rw [innermost, innermostAmong]
  exact if_pos hwanted

mutual

/-- The way down to an octet ends at a wanted node under the tree, or at what was found above. -/
theorem eq_or_under_of_innermost {found : Option Spot} {n : Spot} (above : List Tree)
    (address : Address) (t : Tree) (h : innermost wanted target found above address t = some n) :
    found = some n ∨ (Spot.at t above address).Under n ∧ wanted n.kind = true := by
  match t with
  | .node label children =>
      rw [innermost] at h
      rcases eq_or_under_of_innermostAmong _ _ 0 children h with hhere | ⟨i, c, hc, hn, hkind⟩
      · split_ifs at hhere with hwanted
        · cases hhere
          exact Or.inr ⟨.self, hwanted⟩
        · exact Or.inl hhere
      · rw [Nat.zero_add] at hn
        exact Or.inr ⟨hn.of_child hc, hkind⟩

theorem eq_or_under_of_innermostAmong {found : Option Spot} {n : Spot} (above : List Tree)
    (address : Address) (number : Nat) (ts : List Tree)
    (h : innermostAmong wanted target found above address number ts = some n) :
    found = some n ∨ ∃ (i : Nat) (child : Tree), ts[i]? = some child ∧
      (Spot.at child above ((number + i) :: address)).Under n ∧ wanted n.kind = true := by
  match ts with
  | [] => exact Or.inl h
  | t :: ts =>
      rw [innermostAmong] at h
      split_ifs at h
      · exact (eq_or_under_of_innermost _ _ t h).imp_right fun hn => ⟨0, t, rfl, hn⟩
      · refine (eq_or_under_of_innermostAmong _ _ (number + 1) ts h).imp_right ?_
        rintro ⟨i, child, hc, hn, hkind⟩
        refine ⟨i + 1, child, hc, ?_, hkind⟩
        rwa [Nat.add_assoc, Nat.add_comm 1] at hn

end

variable {s : Source}

/-- What is found at a position is an identifier. -/
theorem identifier_of_spotAt? {line column : Int} {n : Spot}
    (h : s.spotAt? NodeKind.isIdentifier line column = some n) : s.Identifier n := by
  rw [spotAt?] at h
  split at h
  · cases h
  · split_ifs at h
    rcases eq_or_under_of_innermost [] [] s.tree h with hnone | ⟨hunder, hkind⟩
    · cases hnone
    · exact ⟨hunder, hkind⟩

theorem rangeOf_of_marks {t : Tree} {start stop : Nat} (hutf8 : s.IsUtf8)
    (hstart : s.Marks t.start start) (hstop : s.Marks t.stop stop) :
    s.rangeOf t =
      { startLine := (s.lineColumn start).1
        startColumn := (s.lineColumn start).2
        endLine := (s.lineColumn stop).1
        endColumn := (s.lineColumn stop).2 } := by
  rw [rangeOf, hstart.charOffset_eq hutf8, hstop.charOffset_eq hutf8]

/-- An identifier is found at its line and column. -/
theorem WellFormed.spotAt?_rangeOf (hw : s.WellFormed) (hutf8 : s.IsUtf8) {n : Spot}
    (hn : s.Identifier n) :
    s.spotAt? NodeKind.isIdentifier (s.rangeOf n.tree).startLine (s.rangeOf n.tree).startColumn =
      some n := by
  obtain ⟨c, e, hc, he, hlt, -⟩ := hw.exists_marks hutf8 hn
  have hnonempty := hw.nonempty n hn
  rw [rangeOf_of_marks hutf8 hc he, spotAt?]
  dsimp only
  rw [s.offset?_lineColumn (Int.natCast_nonneg c)]
  dsimp only
  rw [if_neg (by have := hc.1; omega), hc.byteOffset_eq hutf8]
  refine innermost_of_leaf hw.laid hn.under (hw.leaf n hn) hn.kind (covers_iff.2 ⟨?_, ?_⟩)
  · exact Int.le_refl _
  · exact Int.ofNat_lt.2 hnonempty

/-- Identifiers that start at one line and column are one. -/
theorem WellFormed.eq_of_rangeOf (hw : s.WellFormed) (hutf8 : s.IsUtf8) {n n' : Spot}
    (hn : s.Identifier n) (hn' : s.Identifier n')
    (hline : (s.rangeOf n.tree).startLine = (s.rangeOf n'.tree).startLine)
    (hcolumn : (s.rangeOf n.tree).startColumn = (s.rangeOf n'.tree).startColumn) : n = n' := by
  have hfound := hw.spotAt?_rangeOf hutf8 hn
  rw [hline, hcolumn, hw.spotAt?_rangeOf hutf8 hn'] at hfound
  exact (Option.some.inj hfound).symm

/-- The text in a range. -/
def textIn (s : Source) (r : Range) : String :=
  match s.offset? r.startLine r.startColumn, s.offset? r.endLine r.endColumn with
  | some start, some stop => String.ofList (Text.between s.text start stop)
  | _, _ => ""

/-- The text in the range of an identifier is the text it covers. -/
theorem WellFormed.textIn_rangeOf (hw : s.WellFormed) (hutf8 : s.IsUtf8) {n : Spot}
    (hn : s.Identifier n) : s.textIn (s.rangeOf n.tree) = s.textOf n.tree := by
  obtain ⟨c, e, hc, he, -, htext⟩ := hw.exists_marks hutf8 hn
  rw [rangeOf_of_marks hutf8 hc he, textIn]
  dsimp only
  rw [s.offset?_lineColumn (Int.natCast_nonneg c), s.offset?_lineColumn (Int.natCast_nonneg e)]
  dsimp only
  rw [Text.between_natCast hc.1, htext]

end Source

end Redline
