import Redline.Proofs.Scope.Declared
import Redline.Proofs.Scope.Introduced
import Redline.Proofs.Scope.Mentions
import Redline.Proofs.Symbol.Partition
import Redline.Proofs.Symbol.Places

/-!
# The symbols that can be searched for

A search lists the bindings that are symbols and the members of interfaces, each with the name that
its node shows.
-/

namespace Redline

namespace Scope

variable {source : Source}

/-- A member of an interface is told at the name of its signature. -/
theorem exists_signature_of_mem_membersOf {s n : Spot} {text : String}
    (h : .member n text ∈ membersOf source s) :
    (∃ m : Spot, m.kind = "property_signature" ∧ n ∈ m.children) ∧
      n.kind = "property_identifier" ∧ text = source.textOf n.tree := by
  rw [membersOf] at h
  split at h
  · cases h
  · obtain ⟨m, hm, hname⟩ := List.mem_filterMap.1 h
    have hkind := (List.mem_filter.1 hm).2
    split at hname
    · rename_i name hchild
      split_ifs at hname with hidentifier
      cases hname
      exact ⟨⟨m, by simpa using hkind, Spot.mem_children_of_child? hchild⟩, hidentifier, rfl⟩
    · cases hname

/-- A visit tells of members only where an interface has them. -/
theorem mem_membersOf_of_mem_visit {around : List Scope} {s n : Spot} {text : String}
    (h : .member n text ∈ (visit source around s).1) : .member n text ∈ membersOf source s := by
  have hno : ∀ {names : List Spot} {m : Manner},
      Event.member n text ∉ names.map (declare source m) := fun h => by
    obtain ⟨_, heq⟩ := eq_declares_of_mem_map_declare h
    cases heq
  have hvisit := visited source around s
  generalize (visit source around s).1 = es at h hvisit
  cases hvisit with
  | nothing => cases h
  | function hkind =>
      rw [functionEvents] at h
      rcases List.mem_append.1 h with h | h
      · split_ifs at h
        · exact absurd h hno
        · cases h
        · exact absurd h hno
      · exact absurd h hno
  | named m hkind => exact absurd h hno
  | interface m hkind =>
      exact (List.mem_append.1 h).resolve_left hno
  | loop hkind =>
      rw [loopEvents] at h
      split at h
      · cases h
      · exact absurd h hno
  | bound m field hkind => exact absurd h hno
  | imports scope hkind =>
      obtain ⟨_, heq⟩ := eq_declares_of_mem_importsOf h
      cases heq
  | exports hkind => cases List.mem_singleton.1 h

/-- A member of an interface stands as a property does, and goes by its text. -/
theorem exists_signature_of_mem_events {n : Spot} {text : String}
    (h : .member n text ∈ events source) :
    (∃ m : Spot, m.kind = "property_signature" ∧ n ∈ m.children) ∧
      n.kind = "property_identifier" ∧ text = source.textOf n.tree := by
  obtain ⟨s, around, -, h | h⟩ := exists_spot_of_mem_events h
  · rw [identifierEvents] at h
    rcases List.mem_append.1 h with h | h <;> split_ifs at h <;> simp at h
  · exact exists_signature_of_mem_membersOf (mem_membersOf_of_mem_visit h)

theorem mem_of_member_mem_listedFrom {seen : List Declaration} {es : List Event} {n : Spot}
    {name : String} (h : .member n name ∈ listedFrom seen es) : .member n name ∈ es := by
  induction es generalizing seen with
  | nil => cases h
  | cons e es ih =>
      cases e with
      | declares d =>
          rw [listedFrom] at h
          split_ifs at h
          · exact List.mem_cons_of_mem _ (ih h)
          · exact List.mem_cons_of_mem _ (ih (by simpa using h))
          · exact List.mem_cons_of_mem _ (ih (by simpa using h))
      | member spot name' =>
          rw [listedFrom] at h
          rcases List.mem_cons.1 h with heq | h
          · cases heq
            exact List.mem_cons_self
          · exact List.mem_cons_of_mem _ (ih h)
      | uses => exact List.mem_cons_of_mem _ (ih h)
      | property => exact List.mem_cons_of_mem _ (ih h)
      | exports => exact List.mem_cons_of_mem _ (ih h)

end Scope

namespace Scopes

/-- The binding with this number can be searched for. -/
def lists (sc : Scopes) (k : Nat) : Bool :=
  sc.listed.any fun
    | .binding number => number == k
    | .member _ _ => false

theorem mem_listed_of_lists {sc : Scopes} {k : Nat} (h : sc.lists k = true) :
    .binding k ∈ sc.listed := by
  obtain ⟨l, hl, hk⟩ := List.any_eq_true.1 h
  cases l with
  | binding number =>
      obtain rfl := beq_iff_eq.1 hk
      exact hl
  | member => cases hk

end Scopes

namespace Index

/-- A symbol that can be searched for goes by its text. -/
theorem text_of_mem_symbols {sources : List Source} {s : Source} {n : Spot} {t : Target}
    {name : String} (h : (s, n, t, name) ∈ (ofSources sources).symbols) :
    s ∈ sources ∧ name = s.textOf n.tree := by
  obtain ⟨f, hf, h⟩ := List.mem_flatMap.1 h
  obtain ⟨s', hs', -, hsc⟩ := exists_source_of_mem_files (List.mem_mergeSort.1 hf)
  obtain ⟨l, hl, h⟩ := List.mem_filterMap.1 h
  rw [hsc] at hl h
  cases l with
  | binding number =>
      obtain ⟨d, hd, heq⟩ := Option.map_eq_some_iff.1 h
      cases heq
      exact ⟨hs', Scope.name_of_declares_mem_events
        (Scope.mem_declarations.1 (Scopes.mem_declarations_of_binding? hd))⟩
  | member spot name' =>
      cases h
      exact ⟨hs', (Scope.exists_signature_of_mem_events (Scope.mem_of_member_mem_listedFrom hl)).2.2⟩

/-- A binding that is listed in a file can be searched for. -/
theorem mem_symbols_of_mem_listed {x : Index} {s : Source} {k : Nat} {d : Declaration}
    (hsc : x.modules.scopes? s.path = some (Scopes.ofSource s))
    (hk : .binding k ∈ (Scopes.ofSource s).listed)
    (hd : (Scopes.ofSource s).binding? k = some d) :
    (s, d.spot, .binding ⟨s.path, k⟩, d.name) ∈ x.symbols := by
  refine List.mem_flatMap.2 ⟨_, List.mem_mergeSort.2 (Assoc.mem_of_lookup hsc), ?_⟩
  refine List.mem_filterMap.2 ⟨.binding k, hk, ?_⟩
  dsimp only
  rw [hd]
  rfl

/-- A symbol that can be searched for is listed in one of the files. -/
theorem mem_listed_of_mem_symbols {x : Index} {q : Source × Spot × Target × String}
    (h : q ∈ x.symbols) : q ∈ x.modules.files.flatMap listed := by
  obtain ⟨f, hf, hq⟩ := List.mem_flatMap.1 h
  exact List.mem_flatMap.2 ⟨f, List.mem_mergeSort.1 hf, hq⟩

end Index

/-!
## A listed symbol is found where it stands

A search starts from what the walk of a file told; a position leads down the tree to an identifier,
and from there to what it belongs to. Both meet: a binding is listed at its first declaration, which
belongs to it, and a member of an interface at its name, which belongs to no binding and stands for
none. What is imported is not listed, so a symbol is among its own places.
-/

namespace Scope

variable {source : Source}

/-- The names that are declared, those of members of interfaces included. -/
def declaredNames (es : List Event) : List String :=
  es.filterMap fun
    | .declares d => some d.name
    | .member _ name => some name
    | _ => none

theorem isSymbol_of_mem_importsOf {scope : Scope} {s : Spot} {d : Declaration}
    (h : .declares d ∈ importsOf source scope s) : d.isSymbol = false := by
  obtain ⟨clause, -, h⟩ := List.mem_flatMap.1 h
  obtain ⟨part, -, h⟩ := List.mem_flatMap.1 h
  rw [importEvents] at h
  split_ifs at h
  · cases List.mem_singleton.1 h
    rfl
  · obtain ⟨name, -, heq⟩ := List.mem_map.1 h
    cases heq
    rfl
  · obtain ⟨spec, -, hsome⟩ := List.mem_filterMap.1 h
    obtain ⟨name, -, heq⟩ := Option.map_eq_some_iff.1 hsome
    cases heq
    rfl
  · cases h

/-- What is declared as a symbol is no import. -/
theorem origin_eq_none_of_isSymbol {d : Declaration} (h : .declares d ∈ events source)
    (hsymbol : d.isSymbol = true) : d.origin = none := by
  obtain ⟨s, around, -, h⟩ := exists_of_declares_mem_events h
  have himport : s.kind ≠ "import_statement" := by
    intro hkind
    have houtcome : Outcome source around s _ := .imports hkind
    rw [houtcome.spec.1] at h
    rw [isSymbol_of_mem_importsOf h] at hsymbol
    cases hsymbol
  cases (declares_of_mem_visit h).1 with
  | bound hkind ha hn horigin => exact horigin
  | default hkind | whole hkind | named hkind => exact absurd hkind himport

/-- A binding that is listed was first declared as a symbol. -/
theorem isSymbol_of_mem_listedFrom {seen : List Declaration} {es : List Event} {k : Nat}
    (h : .binding k ∈ listedFrom seen es) :
    ∃ d, (bindingsFrom seen (declarations es))[k]? = some d ∧ d.isSymbol = true := by
  induction es generalizing seen with
  | nil => cases h
  | cons e es ih =>
      cases e with
      | declares d =>
          rw [show declarations (.declares d :: es) = d :: declarations es from rfl, bindingsFrom]
          rw [listedFrom] at h
          split_ifs at h ⊢ with hany hsymbol
          · exact ih h
          · rcases List.mem_append.1 h with h | h
            · cases List.mem_singleton.1 h
              refine ⟨d, ?_, hsymbol⟩
              rw [getElem?_bindingsFrom (by simp), List.getElem?_concat_length]
            · exact ih h
          · exact ih h
      | member spot name =>
          rw [listedFrom] at h
          exact ih ((List.mem_cons.1 h).resolve_left (by rintro ⟨⟩))
      | uses | property | exports => exact ih h

end Scope

namespace Source

/-- The names that a file declares have no colon. -/
def PlainNames (s : Source) : Prop :=
  ∀ name ∈ Scope.declaredNames (Scope.events s), ':' ∉ name.toList

instance (s : Source) : Decidable s.PlainNames :=
  inferInstanceAs (Decidable (∀ name ∈ Scope.declaredNames (Scope.events s), ':' ∉ name.toList))

/-- How a symbol that can be searched for stands in its file: a binding that is no import where it
is first declared, or a member of an interface at the name of its signature. -/
inductive Presents (s : Source) : Spot → Target → Prop where
  | declared {k : Nat} {c : Declaration} (hc : (Scopes.ofSource s).binding? k = some c)
      (hplain : c.origin = none) : Presents s c.spot (.binding { file := s.path, number := k })
  | member {p n : Spot} (hn : n ∈ p.children) (hp : p.kind = "property_signature")
      (hkind : n.kind = "property_identifier") : Presents s n (.property (s.textOf n.tree))

end Source

namespace Index

variable {sources : List Source} {s : Source} {n : Spot} {t : Target} {name : String}

/-- A symbol that can be searched for stands in its file as an identifier that shows its name. -/
theorem presents_of_mem_symbols (hw : ∀ s ∈ sources, s.WellFormed)
    (h : (s, n, t, name) ∈ (ofSources sources).symbols) :
    (ofSources sources).modules.scopes? s.path = some (Scopes.ofSource s) ∧ s.Presents n t ∧
      s.Identifier n ∧ name ∈ Scope.declaredNames (Scope.events s) := by
  obtain ⟨f, hf, h⟩ := List.mem_flatMap.1 h
  have hf := List.mem_mergeSort.1 hf
  have hfile := scopes?_of_mem_files hf
  obtain ⟨s', hs', hpath, hsc⟩ := exists_source_of_mem_files hf
  obtain ⟨l, hl, h⟩ := List.mem_filterMap.1 h
  rw [hsc] at hl h hfile
  rw [← hpath] at hfile h
  cases l with
  | binding k =>
      obtain ⟨c, hc, heq⟩ := Option.map_eq_some_iff.1 h
      cases heq
      have hdeclares := Scope.mem_declarations.1 (Scopes.mem_declarations_of_binding? hc)
      obtain ⟨c', hc', hsymbol⟩ := Scope.isSymbol_of_mem_listedFrom hl
      obtain rfl : c = c' := Option.some.inj (hc.symm.trans hc')
      refine ⟨hfile, .declared hc (Scope.origin_eq_none_of_isSymbol hdeclares hsymbol), ?_, ?_⟩
      · exact Scope.identifier_of_mem_events (hw s' hs') hdeclares _ List.mem_cons_self
      · exact List.mem_filterMap.2 ⟨_, hdeclares, rfl⟩
  | member spot text =>
      cases h
      have hmember := Scope.mem_of_member_mem_listedFrom hl
      obtain ⟨⟨p, hp, hchild⟩, hkind, rfl⟩ := Scope.exists_signature_of_mem_events hmember
      refine ⟨hfile, .member hchild hp hkind, ?_, List.mem_filterMap.2 ⟨_, hmember, rfl⟩⟩
      exact Scope.identifier_of_mem_events (hw s' hs') hmember _ List.mem_cons_self

/-- At a symbol that can be searched for, this symbol is found. -/
theorem targetOf?_of_presents (hw : ∀ s ∈ sources, s.WellFormed)
    (hsc : (ofSources sources).modules.scopes? s.path = some (Scopes.ofSource s))
    (hid : s.Identifier n) (h : s.Presents n t) : (ofSources sources).targetOf? s n = some t := by
  obtain ⟨s', hs, -, hsame⟩ := exists_source_of_scopes? hsc
  obtain rfl : s = s' := congrArg Scopes.source hsame
  rw [targetOf?, bindingAt?, hsc]
  cases h with
  | declared hc hplain =>
      have hspot := Scopes.mem_spotsOf.2 (Scopes.mem_mentions_of_binding? hc)
      dsimp only
      rw [Scopes.at?_of_mem_spotsOf (hw s hs) hspot]
  | member hn hp hkind =>
      have hat := Scopes.at?_child_eq_none (hw s hs) hid hn (by rw [hp]; decide)
        (by rw [hkind]; decide)
      have hnamed : (ofSources sources).links.named.lookup (s.path, n.start) = none := by
        cases hlookup : (ofSources sources).links.named.lookup (s.path, n.start) with
        | none => rfl
        | some b =>
            obtain ⟨place, hstands, hkey⟩ := mem_named_iff.1 (Assoc.mem_of_lookup hlookup)
            rw [Prod.mk.injEq] at hkey
            obtain rfl := eq_of_start_eq hw (holds_of_scopes? hsc hid)
              (holds_of_stands hw hstands) hkey.1 hkey.2
            obtain ⟨q, hq, hqkind⟩ := exists_parent_of_stands hstands
            rw [Scope.eq_of_mem_children hq hn, hp] at hqkind
            exact absurd hqkind (by decide)
      dsimp only
      rw [hat]
      dsimp only
      rw [hnamed, hkind]
      rfl

/-- A symbol that can be searched for is one of its places. -/
theorem mem_places_of_presents (hw : ∀ s ∈ sources, s.WellFormed)
    (hsc : (ofSources sources).modules.scopes? s.path = some (Scopes.ofSource s))
    (hid : s.Identifier n) (h : s.Presents n t) :
    { file := s.path, spot := n } ∈ (ofSources sources).places t := by
  cases h with
  | @declared k c hc hplain =>
      have hdeclaration : (ofSources sources).modules.declaration? ⟨s.path, k⟩ = some c := by
        rw [Modules.declaration?, hsc]
        exact hc
      exact declared_mem_bindingPlaces hw hdeclaration hplain
  | member hn hp hkind =>
      have hproperty : .property n (s.textOf n.tree) ∈ Scope.events s := by
        refine Scope.mem_events.2 ⟨n, hid.under, Or.inl (List.mem_append_left _ ?_)⟩
        rw [if_pos (by rw [hkind]; decide)]
        exact List.mem_singleton_self _
      refine List.mem_flatMap.2 ⟨_, List.mem_mergeSort.2 (Assoc.mem_of_lookup hsc), ?_⟩
      refine List.mem_map.2 ⟨(s.textOf n.tree, n), List.mem_filter.2 ⟨?_, by simp⟩, rfl⟩
      exact Scope.mem_properties.2 hproperty

end Index

end Redline
