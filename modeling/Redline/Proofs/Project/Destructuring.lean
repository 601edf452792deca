import Mathlib.Data.List.Flatten
import Redline.Proofs.Project.Discovery

/-!
# The names that destructuring binds

A pattern nests objects, arrays and rests, pairs of a key and a pattern, and patterns with a
default. It binds the identifiers in it that stand neither in a key nor in a default, in the order of
the text. So what it declares is named by a single identifier, and so is everything that a search
for symbols lists.
-/

namespace Redline

namespace Scope

/-! ### Patterns -/

/-- What a node of a pattern leaves out: the key of a pair, which may be computed, and the default
of a name or of a pattern. -/
inductive LeavesOut (s c : Spot) : Prop where
  | key (hkind : s.kind = "pair_pattern") (hfield : c.tree.label.field = some "key")
  | default (hkind : s.kind = "object_assignment_pattern" ∨ s.kind = "assignment_pattern")
      (hfield : c.tree.label.field = some "right")

/-- A node in a pattern stands in a key or in a default. -/
def Aside (p n : Spot) : Prop :=
  ∃ s c, p.Under s ∧ c ∈ s.children ∧ LeavesOut s c ∧ c.Under n

/-- A token or a comment: a leaf that is no name. -/
structure Plain (c : Spot) : Prop where
  leaf : c.tree.children = []
  other : isBoundName c.kind = false

/-- A pattern as the language has it. Keys and defaults are anything at all. -/
inductive IsPattern : Spot → Prop where
  | name {p : Spot} (hkind : isBoundName p.kind = true) (hleaf : p.tree.children = []) : IsPattern p
  | pair {p v : Spot} (hkind : p.kind = "pair_pattern") (hv : p.child? "value" = some v)
      (hpattern : IsPattern v)
      (hrest : ∀ c ∈ p.children, c = v ∨ c.tree.label.field = some "key" ∨ Plain c) : IsPattern p
  | default {p v : Spot}
      (hkind : p.kind = "object_assignment_pattern" ∨ p.kind = "assignment_pattern")
      (hv : p.child? "left" = some v) (hpattern : IsPattern v)
      (hrest : ∀ c ∈ p.children, c = v ∨ c.tree.label.field = some "right" ∨ Plain c) : IsPattern p
  | list {p : Spot}
      (hkind : p.kind = "object_pattern" ∨ p.kind = "array_pattern" ∨ p.kind = "rest_pattern")
      (hnamed : ∀ c ∈ p.children, ¬ Plain c → c.tree.label.isNamed = true)
      (hparts : ∀ c ∈ p.children, ¬ Plain c → IsPattern c) : IsPattern p

section

variable {p v n : Spot}

theorem IsPattern.of_list
    (hkind : p.kind = "object_pattern" ∨ p.kind = "array_pattern" ∨ p.kind = "rest_pattern")
    (hparts : ∀ c ∈ p.children, Plain c ∨ c.tree.label.isNamed = true ∧ IsPattern c) :
    IsPattern p :=
  .list hkind (fun c hc hplain => ((hparts c hc).resolve_left hplain).1)
    fun c hc hplain => ((hparts c hc).resolve_left hplain).2

theorem PatternBinds.under (h : PatternBinds p n) : p.Under n := by
  induction h with
  | name => exact .self
  | value _ hv _ ih | left _ hv _ ih => exact (Spot.under_of_child? .self hv).trans ih
  | part _ hv _ ih => exact (Spot.under_of_mem_namedChildren .self hv).trans ih

theorem PatternBinds.isBoundName (h : PatternBinds p n) : isBoundName n.kind = true := by
  induction h with
  | name hkind => exact hkind
  | value _ _ _ ih | left _ _ _ ih | part _ _ _ ih => exact ih

/-- What stands aside in a part that is bound, or in nothing that the pattern leaves out, is judged
by the part. -/
theorem aside_of_child (hv : v ∈ p.children) (hn : v.Under n) (h : Aside p n) :
    LeavesOut p v ∨ Aside v n := by
  obtain ⟨s, c, hs, hc, hout, hcn⟩ := h
  rcases hs.eq_or_exists_child with rfl | ⟨w, hw, hws⟩
  · obtain rfl := Spot.eq_of_under_children hc hv hcn hn
    exact Or.inl hout
  · have hwn := hws.trans (Spot.under_of_mem_children .self hc |>.trans hcn)
    obtain rfl := Spot.eq_of_under_children hw hv hwn hn
    exact Or.inr ⟨s, c, hws, hc, hout, hcn⟩

theorem Aside.of_child (hv : v ∈ p.children) (h : Aside v n) : Aside p n := by
  obtain ⟨s, c, hs, hrest⟩ := h
  exact ⟨s, c, (Spot.under_of_mem_children .self hv).trans hs, hrest⟩

/-- Nothing that a pattern binds stands in a key or in a default. -/
theorem PatternBinds.not_aside (h : PatternBinds p n) : ¬ Aside p n := by
  induction h with
  | @name n hkind =>
      rintro ⟨s, c, hs, hc, -, hcn⟩
      exact Spot.not_under_of_mem_children hc (hcn.trans hs)
  | value hkind hv hn ih =>
      intro haside
      rcases aside_of_child (Spot.mem_children_of_child? hv) hn.under haside with hout | haside
      · have hfield := Spot.field_of_child? hv
        cases hout with
        | key _ hkey => simp [hfield] at hkey
        | default hkind' => simp [hkind] at hkind'
      · exact ih haside
  | left hkind hv hn ih =>
      intro haside
      rcases aside_of_child (Spot.mem_children_of_child? hv) hn.under haside with hout | haside
      · have hfield := Spot.field_of_child? hv
        cases hout with
        | key hkind' => simp [hkind'] at hkind
        | default _ hright => simp [hfield] at hright
      · exact ih haside
  | part hkind hv hn ih =>
      intro haside
      have hmem := mem_children_of_mem_namedChildren hv
      rcases aside_of_child hmem hn.under haside with hout | haside
      · cases hout with
        | key hkind' => simp [hkind'] at hkind
        | default hkind' => rcases hkind' with hkind' | hkind' <;> simp [hkind'] at hkind
      · exact ih haside

/-- In a pattern, every name that stands in no key and in no default is bound. -/
theorem IsPattern.binds (h : IsPattern p) (hn : p.Under n) (hname : isBoundName n.kind = true)
    (haside : ¬ Aside p n) : PatternBinds p n := by
  -- a name below a pattern that is none is below one of its children
  have hchild : ∀ {p : Spot}, p.Under n → isBoundName p.kind = false →
      ∃ c ∈ p.children, c.Under n := fun hn hkind =>
    hn.eq_or_exists_child.resolve_left fun heq => by rw [heq, hkind] at hname; cases hname
  have hplain : ∀ {c : Spot}, Plain c → ¬ c.Under n := fun hc hcn => by
    rcases hcn.eq_or_under_child with rfl | ⟨i, child, hi, -⟩
    · rw [hc.other] at hname
      cases hname
    · simp [hc.leaf] at hi
  induction h with
  | name hkind hleaf =>
      rcases hn.eq_or_under_child with rfl | ⟨i, child, hi, -⟩
      · exact .name hkind
      · simp [hleaf] at hi
  | pair hkind hv hpattern hrest ih =>
      obtain ⟨c, hc, hcn⟩ := hchild hn (by rw [hkind]; decide)
      rcases hrest c hc with rfl | hkey | hc'
      · exact .value hkind hv (ih hcn fun h => haside (h.of_child hc))
      · exact absurd ⟨_, c, .self, hc, .key hkind hkey, hcn⟩ haside
      · exact absurd hcn (hplain hc')
  | default hkind hv hpattern hrest ih =>
      obtain ⟨c, hc, hcn⟩ := hchild hn (by rcases hkind with h | h <;> rw [h] <;> decide)
      rcases hrest c hc with rfl | hright | hc'
      · exact .left hkind hv (ih hcn fun h => haside (h.of_child hc))
      · exact absurd ⟨_, c, .self, hc, .default hkind hright, hcn⟩ haside
      · exact absurd hcn (hplain hc')
  | list hkind hnamed hparts ih =>
      obtain ⟨c, hc, hcn⟩ := hchild hn (by rcases hkind with h | h | h <;> rw [h] <;> decide)
      have hc' : ¬ Plain c := fun hc' => hplain hc' hcn
      exact .part hkind (List.mem_filter.2 ⟨hc, hnamed c hc hc'⟩)
        (ih c hc hc' hcn fun h => haside (h.of_child hc))

/-! ### The names in order -/

/-- The names of a pattern are some of the nodes in it, in the order of the tree. -/
theorem patternNames_sublist (p : Spot) :
    (patternNames p.above p.address p.tree).Sublist (Tree.spotsIn p.above p.address p.tree) := by
  have hfield : ∀ field, (∀ c ∈ p.children, (patternNames c.above c.address c.tree).Sublist
      (Tree.spotsIn c.above c.address c.tree)) → (namesBound p field).Sublist
        (p :: p.children.flatMap fun c => Tree.spotsIn c.above c.address c.tree) := by
    intro field hparts
    rw [namesBound]
    cases hv : p.child? field with
    | none => exact List.nil_sublist _
    | some v =>
        have hv := Spot.mem_children_of_child? hv
        refine ((hparts v hv).trans (List.sublist_flatten_of_mem ?_)).cons _
        exact List.mem_map.2 ⟨v, hv, rfl⟩
  have hparts : ∀ c ∈ p.children, (patternNames c.above c.address c.tree).Sublist
      (Tree.spotsIn c.above c.address c.tree) := fun c hc => patternNames_sublist c
  rw [patternNames_eq, Tree.spotsIn_eq]
  split_ifs
  · exact List.singleton_sublist.2 List.mem_cons_self
  · exact hfield _ hparts
  · exact hfield _ hparts
  · exact ((List.filter_sublist.flatMap _).trans (List.Sublist.flatMap_right _ hparts)).cons _
  · exact List.nil_sublist _
termination_by sizeOf p.tree
decreasing_by exact Spot.sizeOf_tree_lt_of_mem_children hc

/-- Where the nodes are laid out, each name ends before the next one starts. -/
theorem pairwise_patternNames (p : Spot) (h : Tree.Laid p) :
    (patternNames p.above p.address p.tree).Pairwise fun a b => a.stop ≤ b.start := by
  have hparts : ∀ c ∈ p.children, (patternNames c.above c.address c.tree).Pairwise
      fun a b => a.stop ≤ b.start := fun c hc =>
    pairwise_patternNames c (h.of_under (Spot.under_of_mem_children .self hc))
  have hfield : ∀ field, (namesBound p field).Pairwise fun a b => a.stop ≤ b.start := by
    intro field
    rw [namesBound]
    cases hv : p.child? field with
    | none => exact .nil
    | some v => exact hparts v (Spot.mem_children_of_child? hv)
  rw [patternNames_eq]
  split_ifs
  · exact List.pairwise_singleton _ _
  · exact hfield _
  · exact hfield _
  · refine List.pairwise_flatMap.2 ⟨fun c hc => hparts c (mem_children_of_mem_namedChildren hc), ?_⟩
    refine List.Pairwise.filter _ (Spot.pairwise_children fun i j c e hij hc he => ?_)
    intro a ha b hb
    exact h.stop_le_start .self hij hc he (patternBinds_of_mem _ ha).under
      (patternBinds_of_mem _ hb).under
  · exact .nil
termination_by sizeOf p.tree
decreasing_by exact Spot.sizeOf_tree_lt_of_mem_children hc

end

/-- Names are declared one by one, each by the text of its node. -/
theorem exists_declared (source : Source) (m : Manner) (names : List Spot) :
    ∃ declared : List Declaration, names.map (declare source m) = declared.map .declares ∧
      declared.map Declaration.spot = names ∧ ∀ d ∈ declared, d.name = source.textOf d.spot.tree := by
  induction names with
  | nil => exact ⟨[], rfl, rfl, by simp⟩
  | cons n names ih =>
      obtain ⟨declared, hdeclared, hspots, htexts⟩ := ih
      obtain ⟨d, hd, hspot, htext⟩ : ∃ d, declare source m n = .declares d ∧ d.spot = n ∧
          d.name = source.textOf d.spot.tree := ⟨_, rfl, rfl, rfl⟩
      refine ⟨d :: declared, ?_, ?_, List.forall_mem_cons.2 ⟨htext, htexts⟩⟩
      · rw [List.map_cons, List.map_cons, hdeclared, hd]
      · rw [List.map_cons, hspots, hspot]

/-- What a pattern binds, in a list of names. -/
structure Binds (p : Spot) (names : List Spot) : Prop where
  /-- The names are those in binding position. -/
  exactly : ∀ n, n ∈ names ↔ PatternBinds p n
  /-- Each of them is one identifier, which is in the pattern and in no key or default. -/
  plain : ∀ n ∈ names, p.Under n ∧ isBoundName n.kind = true ∧ ¬ Aside p n
  /-- In a pattern as the language has it no other identifier is left out. -/
  all : IsPattern p → ∀ n, p.Under n → isBoundName n.kind = true → ¬ Aside p n → n ∈ names
  /-- They come once each and in the order of the nodes of the pattern. -/
  inOrder : names.Sublist (Tree.spotsIn p.above p.address p.tree)
  nodup : names.Nodup
  /-- Where the nodes are laid out, this is the order of the text. -/
  apart : Tree.Laid p → names.Pairwise fun a b => a.stop ≤ b.start

theorem binds_patternNames (p : Spot) : Binds p (patternNames p.above p.address p.tree) where
  exactly _ := ⟨patternBinds_of_mem p, mem_of_patternBinds⟩
  plain _ hn :=
    have hbinds := patternBinds_of_mem p hn
    ⟨hbinds.under, hbinds.isBoundName, hbinds.not_aside⟩
  all h _ hn hname haside := mem_of_patternBinds (h.binds hn hname haside)
  inOrder := patternNames_sublist p
  nodup := (Tree.nodup_spotsIn p).sublist (patternNames_sublist p)
  apart := pairwise_patternNames p

end Scope

namespace Project

open Scope

/-- What destructuring binds. The pattern in a field of a node, of any shape and depth, declares
exactly the identifiers in binding position, each once and in the order of the text, and nothing
that stands in a key or in a default; the name of each is the text of that identifier. So in a
project of well-formed files every symbol that a search lists shows the text of one identifier,
which has no parts, and no character that no identifier has, such as those around and between the
parts of a pattern. -/
theorem destructuring_binds_identifiers :
    (∀ (source : Source) (m : Manner) (s p : Spot) (field : String), s.child? field = some p →
      ∃ declared : List Declaration,
        (namesBound s field).map (declare source m) = declared.map .declares ∧
        Binds p (declared.map Declaration.spot) ∧
        ∀ d ∈ declared, d.name = source.textOf d.spot.tree) ∧
    ∀ (p : Project) (d : Disk), p.Readable d → (∀ s ∈ p.sourcesOn d, s.WellFormed) →
      ∀ pattern, ∃ ms, p.Answers d (find pattern) (.ok ms) ∧ ∀ m ∈ ms,
        (∃ s ∈ p.sourcesOn d, ∃ n, s.Identifier n ∧ n.tree.children = [] ∧
          m.symbol.name = s.textOf n.tree ∧ m.symbol.key = keyAt s n) ∧
        ∀ c, (∀ s ∈ p.sourcesOn d, ∀ n, s.Identifier n → c ∉ (s.textOf n.tree).toList) →
          c ∉ m.symbol.name.toList := by
  refine ⟨fun source m s p field hp => ?_, fun p d hread hwell pattern => ?_⟩
  · obtain ⟨declared, hdeclared, hspots, htexts⟩ :=
      exists_declared source m (namesBound s field)
    refine ⟨declared, hdeclared, ?_, htexts⟩
    rw [hspots, namesBound, hp]
    exact binds_patternNames p
  · refine ⟨_, answers_find hread pattern, fun m hm => ?_⟩
    obtain ⟨s, n, t, name, hmem, -, rfl⟩ := mem_matchesIn.1 hm
    have hs := (Index.text_of_mem_symbols hmem).1
    obtain ⟨-, -, hid, -⟩ := Index.presents_of_mem_symbols hwell hmem
    exact ⟨⟨s, hs, n, hid, (hwell s hs).leaf n hid, rfl, rfl⟩, fun c hc => hc s hs n hid⟩

/-! ### A pattern with a computed key and a default -/

/-- The pattern of the constants in a line of script. -/
def nestedPattern : Tree :=
  .inField "name" "object_pattern" 6 24 [.token "\x7b" 6 7 none,
    .ofKind "shorthand_property_identifier_pattern" 7 8 [], .token "," 8 9 none,
    .ofKind "pair_pattern" 9 23 [
      .inField "key" "computed_property_name" 9 12 [.token "[" 9 10 none,
        .ofKind "identifier" 10 11 [], .token "]" 11 12 none],
      .token ":" 12 13 none,
      .inField "value" "array_pattern" 13 23 [.token "[" 13 14 none,
        .ofKind "assignment_pattern" 14 17 [.inField "left" "identifier" 14 15 [],
          .token "=" 15 16 none, .inField "right" "identifier" 16 17 []],
        .token "," 17 18 none,
        .ofKind "rest_pattern" 18 22 [.token "..." 18 21 none, .ofKind "identifier" 21 22 []],
        .token "]" 22 23 none]],
    .token "\x7d" 23 24 none]

/-- The declarator of these constants. -/
def nestedDeclarator : Tree :=
  .ofKind "variable_declarator" 6 26 [nestedPattern, .token "=" 24 25 none,
    .inField "value" "identifier" 25 26 []]

/-- The trees of the constants and of a use of their source. -/
def nestedParser : Parser :=
  fun _ bytes =>
    if bytes.length = 28 then
      .ofKind "program" 0 28 [.ofKind "lexical_declaration" 0 27
        [.token "const" 0 5 (some "kind"), nestedDeclarator, .token ";" 26 27 none]]
    else
      .ofKind "program" 0 3 [.ofKind "expression_statement" 0 2 [.ofKind "identifier" 0 1 [],
        .token ";" 1 2 none]]

/-- The project of two such files. -/
def nested : Project :=
  pair "const \x7ba,[k]:[b=c,...d]\x7d=o;\n" "o;\n" nestedParser

/-- The disk of this project. -/
def nestedDisk : Disk :=
  pairDisk "const \x7ba,[k]:[b=c,...d]\x7d=o;\n" "o;\n"

/-- The file with the constants. -/
def nesting : Source :=
  script nestedParser "a.ts" "const \x7ba,[k]:[b=c,...d]\x7d=o;\n"

theorem isPattern_nested (above : List Tree) (address : Address) :
    IsPattern (Spot.at nestedPattern above address) := by
  refine .of_list (Or.inl rfl) (Spot.forall_children ?_)
  rintro (_ | _ | _ | _ | _ | i) t ht <;> cases ht
  · exact Or.inl ⟨rfl, rfl⟩
  · exact Or.inr ⟨rfl, .name rfl rfl⟩
  · exact Or.inl ⟨rfl, rfl⟩
  · refine Or.inr ⟨rfl, .pair rfl rfl ?_ (Spot.forall_children ?_)⟩
    · refine .of_list (Or.inr (Or.inl rfl)) (Spot.forall_children ?_)
      rintro (_ | _ | _ | _ | _ | i) t ht <;> cases ht
      · exact Or.inl ⟨rfl, rfl⟩
      · refine Or.inr ⟨rfl, .default (Or.inr rfl) rfl (.name rfl rfl) (Spot.forall_children ?_)⟩
        rintro (_ | _ | _ | i) t ht <;> cases ht
        · exact Or.inl rfl
        · exact Or.inr (Or.inr ⟨rfl, rfl⟩)
        · exact Or.inr (Or.inl rfl)
      · exact Or.inl ⟨rfl, rfl⟩
      · refine Or.inr ⟨rfl, .of_list (Or.inr (Or.inr rfl)) (Spot.forall_children ?_)⟩
        rintro (_ | _ | i) t ht <;> cases ht
        · exact Or.inl ⟨rfl, rfl⟩
        · exact Or.inr ⟨rfl, .name rfl rfl⟩
      · exact Or.inl ⟨rfl, rfl⟩
    · rintro (_ | _ | _ | i) t ht <;> cases ht
      · exact Or.inr (Or.inl rfl)
      · exact Or.inr (Or.inr ⟨rfl, rfl⟩)
      · exact Or.inl rfl
  · exact Or.inl ⟨rfl, rfl⟩

/-- The constants are `a`, `b` and `d`, and no symbol has a bracket in its name. -/
theorem destructuring_binds_nested :
    ∃ s p, s.child? "name" = some p ∧ IsPattern p ∧
      ((namesBound s "name").map fun n => nesting.textOf n.tree) = ["a", "b", "d"] ∧
      (∀ m, ∃ declared : List Declaration,
        (namesBound s "name").map (declare nesting m) = declared.map .declares ∧
        Binds p (declared.map Declaration.spot)) ∧
      nested.Readable nestedDisk ∧ (∀ s ∈ nested.sourcesOn nestedDisk, s.WellFormed) ∧
      ∀ pattern, ∃ ms, nested.Answers nestedDisk (find pattern) (.ok ms) ∧ ∀ m ∈ ms,
        '[' ∉ m.symbol.name.toList := by
  have hsources : nested.sourcesOn nestedDisk =
      [nesting, script nestedParser "b.ts" "o;\n"] := sourcesOn_pair _ _ _
  have hwell : ∀ s ∈ nested.sourcesOn nestedDisk, s.WellFormed := by
    rw [hsources]
    decide +kernel
  have hplain : ∀ s ∈ nested.sourcesOn nestedDisk, ∀ n, s.Identifier n →
      '[' ∉ (s.textOf n.tree).toList := by
    have hall : ∀ s ∈ [nesting, script nestedParser "b.ts" "o;\n"], ∀ n ∈ s.identifiers,
        '[' ∉ (s.textOf n.tree).toList := by
      decide +kernel
    rw [hsources]
    exact fun s hs n hn => hall s hs n (Source.mem_identifiers.2 hn)
  have hread : nested.Readable nestedDisk := readable_pair _ _ _
  refine ⟨Spot.root nestedDeclarator, Spot.at nestedPattern [nestedDeclarator] [0], rfl,
    isPattern_nested _ _, by decide +kernel, fun m => ?_, hread, hwell, fun pattern => ?_⟩
  · obtain ⟨declared, hdeclared, hbinds, -⟩ := destructuring_binds_identifiers.1 nesting m
      (Spot.root nestedDeclarator) (Spot.at nestedPattern [nestedDeclarator] [0]) "name" rfl
    exact ⟨declared, hdeclared, hbinds⟩
  · obtain ⟨ms, hms, hall⟩ :=
      destructuring_binds_identifiers.2 nested nestedDisk hread hwell pattern
    exact ⟨ms, hms, fun m hm => (hall m hm).2 '[' hplain⟩

end Project

end Redline
