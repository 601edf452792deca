import Redline.Proofs.Link.Chains
import Redline.Proofs.Scope.Mentions

/-!
# Names that stand for bindings of other modules

After the imports only names are noted, so ties and canonical bindings stay. A name that is noted is
one of an export clause that passes on a binding, or a member of a namespace that is imported; what
it stands for can be told from its place.
-/

namespace Redline

namespace Links

variable {m : Modules} {l l' : Links}

theorem follow_congr (h : l.targets = l'.targets) (fuel : Nat) (b : BindingId) :
    l.follow m fuel b = l'.follow m fuel b := by
  induction fuel generalizing b with
  | zero => rfl
  | succ fuel ih =>
      rw [follow, follow, h]
      split
      · rw [ih]
      · rfl

theorem canonical_congr (h : l.targets = l'.targets) : l.canonical m = l'.canonical m := by
  funext b
  rw [canonical, canonical, h, follow_congr h]

theorem exported?_congr (h : l.targets = l'.targets) (module_ name : String) :
    l.exported? m module_ name = l'.exported? m module_ name := by
  rw [exported?, exported?, canonical_congr h]

/-- The name at a place stands for a binding that another module exports. -/
inductive Shows (m : Modules) (l : Links) : Place → BindingId → Prop where
  | passed {file module_ name from_ imported : String} {sc : Scopes} {spot : Spot} {b : BindingId}
      (hsc : m.scopes? file = some sc)
      (he : (name, Export.passed from_ imported spot) ∈ sc.exports.names)
      (hmodule : m.resolve? file from_ = some module_)
      (hb : l.exported? m module_ imported = some b) : Shows m l { file, spot } b
  | member {file module_ : String} {sc : Scopes} {number : Nat} {use p object member : Spot}
      {b : BindingId} (hsc : m.scopes? file = some sc) (huse : use ∈ sc.spotsOf number)
      (hspace : l.namespaces.lookup { file, number } = some module_)
      (hp : use.above = p.tree :: p.above) (haddress : use.address.tail = p.address)
      (hkind : p.kind = "member_expression") (hobject : p.child? "object" = some object)
      (hstart : object.start = use.start) (hmember : p.child? "property" = some member)
      (hb : l.exported? m module_ (sc.source.textOf member.tree) = some b) :
      Shows m l { file, spot := member } b

/-- Links with names noted, after the links `l₀` of the imports. -/
structure Noted (m : Modules) (l₀ l : Links) : Prop where
  targets : l.targets = l₀.targets
  namespaces : l.namespaces = l₀.namespaces
  importers : l.importers = l₀.importers
  nodes : ∀ t place, (t, place) ∈ l.nodes → Shows m l₀ place t
  named : ∀ key t, (key, t) ∈ l.named ↔
    (key, t) ∈ l₀.named ∨ ∃ place, (t, place) ∈ l.nodes ∧ key = (place.file, place.spot.start)

variable {l₀ : Links}

theorem Noted.linkNode (h : Noted m l₀ l) {t : BindingId} {place : Place}
    (hshows : Shows m l₀ place t) : Noted m l₀ (l.linkNode t place) := by
  refine ⟨h.targets, h.namespaces, h.importers, ?_, ?_⟩
  · intro t' place' hmem
    rcases List.mem_append.1 hmem with hmem | hmem
    · exact h.nodes t' place' hmem
    · cases List.mem_singleton.1 hmem
      exact hshows
  · intro key t'
    show (key, t') ∈ ((place.file, place.spot.start), t) :: l.named ↔ (key, t') ∈ l₀.named ∨
      ∃ place', (t', place') ∈ l.nodes ++ [(t, place)] ∧ key = (place'.file, place'.spot.start)
    rw [List.mem_cons, h.named]
    constructor
    · rintro (heq | hold | ⟨place', hmem, hkey⟩)
      · cases heq
        exact Or.inr ⟨place, by simp, rfl⟩
      · exact Or.inl hold
      · exact Or.inr ⟨place', List.mem_append_left _ hmem, hkey⟩
    · rintro (hold | ⟨place', hmem, hkey⟩)
      · exact Or.inr (Or.inl hold)
      · rcases List.mem_append.1 hmem with hmem | hmem
        · exact Or.inr (Or.inr ⟨place', hmem, hkey⟩)
        · cases List.mem_singleton.1 hmem
          exact Or.inl (by rw [hkey])

theorem Noted.linkName (h : Noted m l₀ l) {module_ name : String} {place : Place}
    (hshows : ∀ t, l₀.exported? m module_ name = some t → Shows m l₀ place t) :
    Noted m l₀ (linkName m l module_ name place) := by
  rw [Links.linkName, exported?_congr h.targets]
  cases ht : l₀.exported? m module_ name with
  | none => exact h
  | some t =>
      dsimp only
      split_ifs
      · exact h.linkNode (hshows t ht)
      · exact h

theorem Noted.linkExport (h : Noted m l₀ l) {file name : String} {sc : Scopes} {e : Export}
    (hsc : m.scopes? file = some sc) (he : (name, e) ∈ sc.exports.names) :
    Noted m l₀ (linkExport m file l e) := by
  cases e with
  | own number => exact h
  | passed from_ imported spot =>
      rw [Links.linkExport]
      cases hmodule : m.resolve? file from_ with
      | none => exact h
      | some module_ => exact h.linkName fun t ht => .passed hsc he hmodule ht

theorem Noted.linkMember (h : Noted m l₀ l) {file module_ : String} {sc : Scopes} {number : Nat}
    {use : Spot} (hsc : m.scopes? file = some sc) (huse : use ∈ sc.spotsOf number)
    (hspace : l₀.namespaces.lookup { file, number } = some module_) :
    Noted m l₀ (linkMember m file sc.source module_ l use) := by
  rw [Links.linkMember]
  split
  · rename_i parent above i address habove haddress
    dsimp only
    split
    · rename_i object member hobject hmember
      split_ifs with hcond
      · exact h.linkName fun t ht => .member (p := { tree := parent, above, address }) hsc huse
          hspace habove (by rw [haddress]; rfl) hcond.1 hobject hcond.2 hmember ht
      · exact h
    · exact h
  · exact h

theorem Noted.linkFile (h : Noted m l₀ l) {f : String × Scopes} (hf : m.scopes? f.1 = some f.2) :
    Noted m l₀ (linkFile m l f) := by
  rw [Links.linkFile]
  refine List.foldlRecOn _ _ (List.foldlRecOn _ _ h ?_) ?_
  · intro l hl e he
    obtain ⟨⟨name, e'⟩, hmem, rfl⟩ := List.mem_map.1 he
    exact hl.linkExport hf hmem
  · intro l hl b hb
    obtain ⟨d, -, rfl⟩ := List.mem_map.1 hb
    rw [linkMembers, hl.namespaces]
    cases hspace : l₀.namespaces.lookup { file := f.1, number := d.2 } with
    | none => exact hl
    | some module_ =>
        exact List.foldlRecOn _ _ hl fun l hl use huse =>
          hl.linkMember hf (List.mem_of_mem_tail huse) hspace

/-- The links of a project are those of its imports with names noted. -/
theorem noted_ofModules (hm : ∀ f ∈ m.files, m.scopes? f.1 = some f.2) :
    Noted m (m.imports.foldl (linkImport m) none) (ofModules m) := by
  have hstart : Noted m (m.imports.foldl (linkImport m) none)
      (m.imports.foldl (linkImport m) none) := by
    have hnodes := (coherent_imports m).2
    refine ⟨rfl, rfl, rfl, fun t place hmem => ?_, fun key t => ?_⟩
    · rw [hnodes] at hmem
      cases hmem
    · rw [hnodes]
      simp
  exact List.foldlRecOn _ _ hstart fun l hl f hf => hl.linkFile (hm f hf)

end Links

end Redline
