import Redline.Proofs.Yaml.Overlay
import Redline.Yaml.Reader

/-!
# Reading gives every key once

Of several pairs with one key the last counts, so the mappings that are read have every key once,
those inside others and under names included.
-/

namespace Redline.Yaml

/-- The node has no mapping with a key twice. -/
def Node.Keyed : Node → Prop
  | .value v => v.Keyed
  | .merge | .equals | .broken _ => True

/-- None of the named values has a mapping with a key twice. -/
def Names.Keyed (names : Names) : Prop :=
  ∀ e ∈ names, e.2.Keyed

/-! ### What is made of nodes -/

theorem keyed_of_value? {n : Node} {v : Yaml} (hn : n.Keyed)
    (h : n.value?.run = some (.ok v)) : v.Keyed := by
  cases n with
  | value w =>
      cases h
      exact hn
  | merge => cases h
  | equals => cases h
  | broken reason => cases h

theorem keyed_ofMade? {m : Made Yaml} {n : Node} (h : Node.ofMade? m = some n)
    (hm : ∀ v, m.run = some (.ok v) → v.Keyed) : n.Keyed := by
  rw [Node.ofMade?, Option.map_eq_some_iff] at h
  obtain ⟨o, ho, rfl⟩ := h
  cases o with
  | ok v => exact hm v ho
  | error reason => trivial

/-- What a step of making gave before it went on. -/
theorem made_bind_eq_ok {α β : Type} {m : Made α} {f : α → Made β} {b : β}
    (h : (m >>= f).run = some (.ok b)) : ∃ a, m.run = some (.ok a) ∧ (f a).run = some (.ok b) := by
  rw [ExceptT.run_bind] at h
  obtain ⟨o, ho, h⟩ := Option.bind_eq_some_iff.1 h
  cases o with
  | ok a => exact ⟨a, ho, h⟩
  | error reason => cases h

theorem keyed_foldl_put {below : List (Scalar × Yaml)} (hbelow : Yaml.Keyed (.map below))
    {entries : List (Scalar × Yaml)} (h : ∀ e ∈ entries, e.2.Keyed) :
    Yaml.Keyed (.map (entries.foldl (fun es e => Assoc.put es e.1 e.2) below)) := by
  induction entries generalizing below with
  | nil => exact hbelow
  | cons e rest ih =>
      obtain ⟨he, hrest⟩ := List.forall_mem_cons.1 h
      exact ih (hbelow.put e.1 he) hrest

theorem keyed_ofNodes? {nodes : List Node} {n : Node} (h : ofNodes? nodes = some n)
    (hnodes : ∀ m ∈ nodes, m.Keyed) : n.Keyed := by
  refine keyed_ofMade? h fun v hv => ?_
  obtain ⟨items, hitems, hmade⟩ := made_bind_eq_ok hv
  cases hmade
  clear h hv
  refine .seq ?_
  induction nodes generalizing items with
  | nil =>
      cases hitems
      nofun
  | cons m nodes ih =>
      rw [List.mapM_cons] at hitems
      obtain ⟨v, hv, hitems⟩ := made_bind_eq_ok hitems
      obtain ⟨rest, hrest, hitems⟩ := made_bind_eq_ok hitems
      cases hitems
      obtain ⟨hm, hnodes⟩ := List.forall_mem_cons.1 hnodes
      exact List.forall_mem_cons.2 ⟨keyed_of_value? hm hv, ih hnodes rest hrest⟩

theorem keyed_of_mapEntries? {v : Yaml} {entries : List (Scalar × Yaml)} (hv : v.Keyed)
    (h : mapEntries? v = some entries) : ∀ e ∈ entries, e.2.Keyed := by
  rw [mapEntries?.eq_def] at h
  split at h
  · cases h
    exact (keyed_map_iff.1 hv).2
  · cases h

theorem keyed_of_mapM_mapEntries? {items : List Yaml} {groups : List (List (Scalar × Yaml))}
    (hitems : ∀ v ∈ items, v.Keyed) (h : items.mapM mapEntries? = some groups) :
    ∀ e ∈ groups.flatten, e.2.Keyed := by
  induction items generalizing groups with
  | nil =>
      cases h
      nofun
  | cons v items ih =>
      rw [List.mapM_cons] at h
      obtain ⟨entries, hentries, h⟩ := Option.bind_eq_some_iff.1 h
      obtain ⟨rest, hrest, h⟩ := Option.bind_eq_some_iff.1 h
      cases h
      obtain ⟨hv, hitems⟩ := List.forall_mem_cons.1 hitems
      rw [List.flatten_cons, List.forall_mem_append]
      exact ⟨keyed_of_mapEntries? hv hentries, ih hitems hrest⟩

theorem keyed_of_mergedEntries? {v : Yaml} {entries : List (Scalar × Yaml)} (hv : v.Keyed)
    (h : mergedEntries? v = some entries) : ∀ e ∈ entries, e.2.Keyed := by
  rw [mergedEntries?.eq_def] at h
  split at h
  · obtain ⟨groups, hgroups, rfl⟩ := Option.map_eq_some_iff.1 h
    exact keyed_of_mapM_mapEntries? (fun v hv' => keyed_seq_iff.1 hv v (List.mem_reverse.1 hv'))
      hgroups
  · exact keyed_of_mapEntries? hv h

theorem keyed_of_entries? {pairs : List (Node × Node)} {merged own : List (Scalar × Yaml)}
    (hpairs : ∀ p ∈ pairs, p.2.Keyed) (h : (entries? pairs).run = some (.ok (merged, own))) :
    (∀ e ∈ merged, e.2.Keyed) ∧ ∀ e ∈ own, e.2.Keyed := by
  induction pairs generalizing merged own with
  | nil =>
      cases h
      exact ⟨nofun, nofun⟩
  | cons p rest ih =>
      obtain ⟨key, n⟩ := p
      obtain ⟨hn, hrest⟩ := List.forall_mem_cons.1 hpairs
      rw [entries?] at h
      obtain ⟨v, hv, h⟩ := made_bind_eq_ok h
      obtain ⟨⟨merged', own'⟩, hentries, h⟩ := made_bind_eq_ok h
      obtain ⟨hmerged, hown⟩ := ih hrest hentries
      have hv : v.Keyed := keyed_of_value? hn hv
      dsimp only at h
      split at h
      · obtain ⟨more, hmore, h⟩ := made_bind_eq_ok h
        cases h
        refine ⟨?_, hown⟩
        rw [List.forall_mem_append]
        refine ⟨keyed_of_mergedEntries? hv ?_, hmerged⟩
        cases hm : mergedEntries? v with
        | none =>
            rw [hm] at hmore
            cases hmore
        | some found =>
            rw [hm] at hmore
            cases hmore
            rfl
      · cases h
        exact ⟨hmerged, List.forall_mem_cons.2 ⟨hv, hown⟩⟩
      · cases h
        exact ⟨hmerged, List.forall_mem_cons.2 ⟨hv, hown⟩⟩
      · cases h
      · cases h

theorem keyed_ofPairs? {pairs : List (Node × Node)} {n : Node} (h : ofPairs? pairs = some n)
    (hpairs : ∀ p ∈ pairs, p.2.Keyed) : n.Keyed := by
  refine keyed_ofMade? h fun v hv => ?_
  obtain ⟨⟨merged, own⟩, hentries, hmade⟩ := made_bind_eq_ok hv
  cases hmade
  obtain ⟨hmerged, hown⟩ := keyed_of_entries? hpairs hentries
  exact keyed_foldl_put keyed_nil (List.forall_mem_append.2 ⟨hmerged, hown⟩)

theorem keyed_ofPlain? {text : String} {n : Node} (h : Node.ofPlain? text = some n) :
    n.Keyed := by
  rw [Node.ofPlain?.eq_def] at h
  split at h <;> cases h
  · exact .scalar _
  · trivial
  · trivial
  · trivial

theorem keyed_scalarNode? {tag : Option String} {text : String} {isPlain : Bool} {n : Node}
    (h : scalarNode? tag text isPlain = some n) : n.Keyed := by
  rw [scalarNode?.eq_def] at h
  split at h
  · split at h
    · exact keyed_ofPlain? h
    · cases h
      exact .scalar _
  · exact keyed_ofPlain? h
  · split at h
    · cases h
      exact .scalar _
    · cases h

/-! ### Readers -/

/-- What a reader gives has the property, and the names stay keyed. -/
def Gives {α : Type} (P : α → Prop) (o : Option (Taken α)) : Prop :=
  ∀ a names rest, o = some (a, names, rest) → P a ∧ Names.Keyed names

section

variable {α β : Type} {P : α → Prop} {Q : β → Prop}

theorem gives_none : Gives P none := by
  rintro _ _ _ ⟨⟩

theorem gives_some {a : α} {names : Names} {rest : List Token} (ha : P a)
    (hnames : Names.Keyed names) : Gives P (some (a, names, rest)) := by
  rintro _ _ _ ⟨⟩
  exact ⟨ha, hnames⟩

theorem Gives.bind {o : Option (Taken α)} {f : Taken α → Option (Taken β)} (ho : Gives P o)
    (hf : ∀ a names rest, P a → Names.Keyed names → Gives Q (f (a, names, rest))) :
    Gives Q (o >>= f) := by
  cases o with
  | none => exact gives_none
  | some taken =>
      obtain ⟨a, names, rest⟩ := taken
      obtain ⟨ha, hnames⟩ := ho a names rest rfl
      exact hf a names rest ha hnames

theorem gives_bind {γ : Type} {o : Option γ} {f : γ → Option (Taken β)}
    (hf : ∀ c, o = some c → Gives Q (f c)) : Gives Q (o >>= f) := by
  cases o with
  | none => exact gives_none
  | some c => exact hf c rfl

/-- What is put in front of what a reader gives. -/
theorem Gives.cons {a : α} {o : Option (Taken (List α))} (ha : P a)
    (ho : Gives (∀ x ∈ ·, P x) o) : Gives (∀ x ∈ ·, P x) (do
      let (more, names, rest) ← o
      return (a :: more, names, rest)) :=
  ho.bind fun _ _ _ hmore hnames => gives_some (List.forall_mem_cons.2 ⟨ha, hmore⟩) hnames

end

theorem gives_list {tag : Option String} {o : Option (Taken (List Node))}
    (ho : Gives (∀ n ∈ ·, n.Keyed) o) : Gives Node.Keyed (do
      let (nodes, names, rest) ← o
      if fitsTag tag "!!seq" then return (← ofNodes? nodes, names, rest) else none) := by
  refine ho.bind fun nodes names rest hnodes hnames => ?_
  dsimp only
  split
  · exact gives_bind fun n hn => gives_some (keyed_ofNodes? hn hnodes) hnames
  · exact gives_none

theorem gives_mapping {tag : Option String} {o : Option (Taken (List (Node × Node)))}
    (ho : Gives (∀ p ∈ ·, p.2.Keyed) o) : Gives Node.Keyed (do
      let (pairs, names, rest) ← o
      if fitsTag tag "!!map" then return (← ofPairs? pairs, names, rest) else none) := by
  refine ho.bind fun pairs names rest hpairs hnames => ?_
  dsimp only
  split
  · exact gives_bind fun n hn => gives_some (keyed_ofPairs? hn hpairs) hnames
  · exact gives_none

/-- What the readers give with some fuel is keyed. -/
structure ReadsKeyed (fuel : Nat) : Prop where
  node : ∀ inBlock bare {names : Names} ts, names.Keyed →
    Gives Node.Keyed (node fuel inBlock bare names ts)
  content : ∀ inBlock bare tag mayBeEmpty {names : Names} ts, names.Keyed →
    Gives Node.Keyed (content fuel inBlock bare tag mayBeEmpty names ts)
  entries : ∀ {names : Names} ts, names.Keyed →
    Gives (∀ n ∈ ·, n.Keyed) (entries fuel names ts)
  bareEntries : ∀ {names : Names} ts, names.Keyed →
    Gives (∀ n ∈ ·, n.Keyed) (bareEntries fuel names ts)
  blockPart : ∀ {names : Names} ts, names.Keyed → Gives Node.Keyed (blockPart fuel names ts)
  blockPairs : ∀ {names : Names} ts, names.Keyed →
    Gives (∀ p ∈ ·, p.2.Keyed) (blockPairs fuel names ts)
  listItems : ∀ first {names : Names} ts, names.Keyed →
    Gives (∀ n ∈ ·, n.Keyed) (listItems fuel first names ts)
  mappingItems : ∀ first {names : Names} ts, names.Keyed →
    Gives (∀ p ∈ ·, p.2.Keyed) (mappingItems fuel first names ts)

variable {fuel : Nat} {names : Names}

theorem keyed_empty : Node.empty.Keyed :=
  .scalar _

theorem ReadsKeyed.node_succ (h : ReadsKeyed fuel) (inBlock bare : Bool) (ts : List Token)
    (hnames : names.Keyed) :
    Gives Node.Keyed (Yaml.node (fuel + 1) inBlock bare names ts) := by
  rw [Yaml.node.eq_def]
  dsimp only
  split
  · rename_i name rest
    cases hlookup : names.lookup name with
    | none => exact gives_none
    | some n => exact gives_some (hnames _ (Assoc.mem_of_lookup hlookup)) hnames
  · split
    · exact gives_none
    · refine (h.content _ _ _ _ _ hnames).bind fun n names' rest hn hnames' => ?_
      refine gives_some hn ?_
      split
      · exact List.forall_mem_cons.2 ⟨hn, hnames'⟩
      · exact hnames'

theorem ReadsKeyed.content_succ (h : ReadsKeyed fuel) (inBlock bare : Bool) (tag : Option String)
    (mayBeEmpty : Bool) (ts : List Token) (hnames : names.Keyed) :
    Gives Node.Keyed (Yaml.content (fuel + 1) inBlock bare tag mayBeEmpty names ts) := by
  have hother : Gives Node.Keyed (do
      if mayBeEmpty then return (← scalarNode? tag "" (tag = none), names, ts) else none) := by
    split
    · exact gives_bind fun n hn => gives_some (keyed_scalarNode? hn) hnames
    · exact gives_none
  rw [Yaml.content.eq_def]
  dsimp only
  split
  · split
    · exact gives_list (h.bareEntries _ hnames)
    · exact hother
  · exact gives_bind fun n hn => gives_some (keyed_scalarNode? hn) hnames
  · exact gives_list (h.listItems _ _ hnames)
  · exact gives_mapping (h.mappingItems _ _ hnames)
  · split
    · exact gives_list (h.entries _ hnames)
    · exact hother
  · split
    · exact gives_mapping (h.blockPairs _ hnames)
    · exact hother
  · exact hother

theorem ReadsKeyed.entries_succ (h : ReadsKeyed fuel) (ts : List Token)
    (hnames : names.Keyed) : Gives (∀ n ∈ ·, n.Keyed) (Yaml.entries (fuel + 1) names ts) := by
  rw [Yaml.entries.eq_def]
  dsimp only
  split
  · exact gives_some (List.forall_mem_nil _) hnames
  · split
    · exact .cons keyed_empty (h.entries _ hnames)
    · exact .cons keyed_empty (h.entries _ hnames)
    · exact (h.node _ _ _ hnames).bind fun n _ rest hn hnames => .cons hn (h.entries rest hnames)
  · exact gives_none

theorem ReadsKeyed.bareEntries_succ (h : ReadsKeyed fuel) (ts : List Token)
    (hnames : names.Keyed) : Gives (∀ n ∈ ·, n.Keyed) (Yaml.bareEntries (fuel + 1) names ts) := by
  rw [Yaml.bareEntries.eq_def]
  dsimp only
  split
  · split
    · exact .cons keyed_empty (h.bareEntries _ hnames)
    · exact .cons keyed_empty (h.bareEntries _ hnames)
    · exact .cons keyed_empty (h.bareEntries _ hnames)
    · exact .cons keyed_empty (h.bareEntries _ hnames)
    · exact (h.node _ _ _ hnames).bind fun n _ rest hn hnames =>
        .cons hn (h.bareEntries rest hnames)
  · exact gives_some (List.forall_mem_nil _) hnames

theorem ReadsKeyed.blockPart_succ (h : ReadsKeyed fuel) (ts : List Token)
    (hnames : names.Keyed) : Gives Node.Keyed (Yaml.blockPart (fuel + 1) names ts) := by
  rw [Yaml.blockPart.eq_def]
  dsimp only
  split
  · exact gives_some keyed_empty hnames
  · exact gives_some keyed_empty hnames
  · exact gives_some keyed_empty hnames
  · exact h.node _ _ _ hnames

theorem ReadsKeyed.blockPairs_succ (h : ReadsKeyed fuel) (ts : List Token)
    (hnames : names.Keyed) : Gives (∀ p ∈ ·, p.2.Keyed) (Yaml.blockPairs (fuel + 1) names ts) := by
  have hrest (key : Node) {v : Node} {names : Names} (rest : List Token) (hv : v.Keyed)
      (hnames : names.Keyed) := Gives.cons (P := fun p : Node × Node => p.2.Keyed) (a := (key, v))
        hv (h.blockPairs rest hnames)
  rw [Yaml.blockPairs.eq_def]
  dsimp only
  split
  · exact gives_some (List.forall_mem_nil _) hnames
  · refine (h.blockPart _ hnames).bind fun key names rest hkey hnames => ?_
    dsimp only
    split
    · exact (h.blockPart _ hnames).bind fun v _ rest hv hnames => hrest key rest hv hnames
    · exact hrest key _ keyed_empty hnames
  · exact gives_none

/-- A reader of items that has read the comma goes on as before the first item. -/
theorem listItems_first (first : Bool) (names : Names) (ts : List Token) :
    listItems (fuel + 1) first names ts = none ∨
      ∃ ts', listItems (fuel + 1) first names ts = listItems (fuel + 1) true names ts' := by
  cases first with
  | true => exact .inr ⟨ts, rfl⟩
  | false =>
      rw [listItems.eq_def]
      dsimp only
      split
      · rename_i rest _
        exact .inr ⟨rest, (listItems.eq_def (fuel + 1) true names rest).symm⟩
      · rename_i rest _
        exact .inr ⟨_ :: rest, (listItems.eq_def (fuel + 1) true names (_ :: rest)).symm⟩
      · exact .inl rfl
      · contradiction

theorem mappingItems_first (first : Bool) (names : Names) (ts : List Token) :
    mappingItems (fuel + 1) first names ts = none ∨
      ∃ ts', mappingItems (fuel + 1) first names ts = mappingItems (fuel + 1) true names ts' := by
  cases first with
  | true => exact .inr ⟨ts, rfl⟩
  | false =>
      rw [mappingItems.eq_def]
      dsimp only
      split
      · rename_i rest _
        exact .inr ⟨rest, (mappingItems.eq_def (fuel + 1) true names rest).symm⟩
      · rename_i rest _
        exact .inr ⟨_ :: rest, (mappingItems.eq_def (fuel + 1) true names (_ :: rest)).symm⟩
      · exact .inl rfl
      · contradiction

/-- The rest of the items after the key of a single pair. -/
theorem ReadsKeyed.listItems_of_key (h : ReadsKeyed fuel) (key : Node) (rest : List Token)
    (hnames : names.Keyed) : Gives (∀ n ∈ ·, n.Keyed) (do
      let (v, names, rest) ←
        match rest with
        | .value :: .comma :: _ | .value :: .closeList :: _ =>
          some (Node.empty, names, rest.drop 1)
        | .value :: rest => Yaml.node fuel false false names rest
        | _ => some (Node.empty, names, rest)
      let pair ← ofPairs? [(key, v)]
      let (more, names, rest) ← Yaml.listItems fuel false names rest
      return (pair :: more, names, rest)) := by
  have hrest {v : Node} {names : Names} (rest : List Token) (hv : v.Keyed) (hnames : names.Keyed)
      (pair : Node) (hpair : ofPairs? [(key, v)] = some pair) :=
    Gives.cons (P := Node.Keyed) (keyed_ofPairs? hpair (List.forall_mem_singleton.2 hv))
      (h.listItems false rest hnames)
  have hempty (rest : List Token) : Gives Node.Keyed (some (Node.empty, names, rest)) :=
    gives_some keyed_empty hnames
  split
  · exact (hempty _).bind fun _ _ rest hv hnames => gives_bind (hrest rest hv hnames)
  · exact (hempty _).bind fun _ _ rest hv hnames => gives_bind (hrest rest hv hnames)
  · exact (h.node _ _ _ hnames).bind fun _ _ rest hv hnames => gives_bind (hrest rest hv hnames)
  · exact (hempty _).bind fun _ _ rest hv hnames => gives_bind (hrest rest hv hnames)

theorem ReadsKeyed.listItems_succ (h : ReadsKeyed fuel) (first : Bool) (ts : List Token)
    (hnames : names.Keyed) :
    Gives (∀ n ∈ ·, n.Keyed) (Yaml.listItems (fuel + 1) first names ts) := by
  obtain hnone | ⟨ts, hts⟩ := listItems_first first names ts
  · exact hnone ▸ gives_none
  rw [hts, Yaml.listItems.eq_def]
  refine gives_bind fun ts _ => ?_
  dsimp only
  split
  · exact gives_some (List.forall_mem_nil _) hnames
  · split
    · exact h.listItems_of_key .empty (.value :: _) hnames
    · exact h.listItems_of_key .empty (.comma :: _) hnames
    · exact h.listItems_of_key .empty (.closeList :: _) hnames
    · exact (h.node _ _ _ hnames).bind fun key _ rest _ hnames =>
        h.listItems_of_key key rest hnames
  · exact (h.node _ _ _ hnames).bind fun n _ rest hn hnames =>
      .cons hn (h.listItems false rest hnames)

/-- The rest of the pairs after the key of one. -/
theorem ReadsKeyed.mappingItems_of_key (h : ReadsKeyed fuel) (key : Node) (rest : List Token)
    (hnames : names.Keyed) : Gives (∀ p ∈ ·, p.2.Keyed) (do
      let (v, names, rest) ←
        match rest with
        | .value :: .comma :: _ | .value :: .closeMapping :: _ =>
          some (Node.empty, names, rest.drop 1)
        | .value :: rest => Yaml.node fuel false false names rest
        | _ => some (Node.empty, names, rest)
      let (more, names, rest) ← Yaml.mappingItems fuel false names rest
      return ((key, v) :: more, names, rest)) := by
  have hrest {v : Node} {names : Names} (rest : List Token) (hv : v.Keyed)
      (hnames : names.Keyed) := Gives.cons (P := fun p : Node × Node => p.2.Keyed) (a := (key, v))
        hv (h.mappingItems false rest hnames)
  split
  · exact hrest _ keyed_empty hnames
  · exact hrest _ keyed_empty hnames
  · exact (h.node _ _ _ hnames).bind fun _ _ rest hv hnames => hrest rest hv hnames
  · exact hrest _ keyed_empty hnames

theorem ReadsKeyed.mappingItems_succ (h : ReadsKeyed fuel) (first : Bool) (ts : List Token)
    (hnames : names.Keyed) :
    Gives (∀ p ∈ ·, p.2.Keyed) (Yaml.mappingItems (fuel + 1) first names ts) := by
  obtain hnone | ⟨ts, hts⟩ := mappingItems_first first names ts
  · exact hnone ▸ gives_none
  rw [hts, Yaml.mappingItems.eq_def]
  refine gives_bind fun ts _ => ?_
  dsimp only
  split
  · exact gives_some (List.forall_mem_nil _) hnames
  · split
    · exact h.mappingItems_of_key .empty (.value :: _) hnames
    · exact h.mappingItems_of_key .empty (.comma :: _) hnames
    · exact h.mappingItems_of_key .empty (.closeMapping :: _) hnames
    · exact (h.node _ _ _ hnames).bind fun key _ rest _ hnames =>
        h.mappingItems_of_key key rest hnames
  · exact (h.node _ _ _ hnames).bind fun key _ rest _ hnames =>
      Gives.cons (P := fun p : Node × Node => p.2.Keyed) (a := (key, .empty)) keyed_empty
        (h.mappingItems false rest hnames)

theorem readsKeyed (fuel : Nat) : ReadsKeyed fuel := by
  induction fuel with
  | zero =>
      constructor <;> intros <;> exact gives_none
  | succ fuel ih =>
      exact {
        node := fun _ _ {_} ts => ih.node_succ _ _ ts
        content := fun _ _ _ _ {_} ts => ih.content_succ _ _ _ _ ts
        entries := ih.entries_succ
        bareEntries := ih.bareEntries_succ
        blockPart := ih.blockPart_succ
        blockPairs := ih.blockPairs_succ
        listItems := fun _ {_} ts => ih.listItems_succ _ ts
        mappingItems := fun _ {_} ts => ih.mappingItems_succ _ ts }

/-! ### Documents -/

/-- The node of a document is keyed. -/
def GivesNode (o : Option (Node × List Token)) : Prop :=
  ∀ n rest, o = some (n, rest) → n.Keyed

theorem givesNode_none : GivesNode none := by
  rintro _ _ ⟨⟩

theorem givesNode_empty (rest : List Token) : GivesNode (some (Node.empty, rest)) := by
  rintro _ _ ⟨⟩
  exact keyed_empty

theorem givesNode_node (fuel : Nat) (ts : List Token) :
    GivesNode ((node fuel true false [] ts).map fun r => (r.1, r.2.2)) := by
  intro n rest h
  obtain ⟨⟨n, names, rest⟩, hnode, hread⟩ := Option.map_eq_some_iff.1 h
  cases hread
  exact ((readsKeyed fuel).node _ _ _ (List.forall_mem_nil _) n names rest hnode).1

theorem GivesNode.keyed {o : Option (Node × List Token)} (ho : GivesNode o) {v : Yaml}
    (h : (do
      let (n, rest) ← o
      if rest.all (· == .documentEnd) then n.value?.run else none) = some (.ok v)) : v.Keyed := by
  obtain ⟨⟨n, rest⟩, hn, h⟩ := Option.bind_eq_some_iff.1 h
  dsimp only at h
  split at h
  · exact keyed_of_value? (ho n rest hn) h
  · cases h

theorem keyed_ofTokens? {ts : List Token} {v : Yaml} (h : ofTokens? ts = some (.ok v)) :
    v.Keyed := by
  rw [ofTokens?.eq_def] at h
  dsimp only at h
  split at h
  · exact (givesNode_empty []).keyed h
  · refine GivesNode.keyed ?_ h
    split
    · split
      · exact givesNode_empty _
      · exact givesNode_empty _
      · exact givesNode_empty _
      · exact givesNode_empty _
      · exact givesNode_node _ _
    · exact givesNode_none
  · refine GivesNode.keyed ?_ h
    dsimp only
    split
    · exact givesNode_empty _
    · exact givesNode_empty _
    · exact givesNode_empty _
    · exact givesNode_empty _
    · exact givesNode_node _ _
  · exact (givesNode_node _ _).keyed h

/-- The value of a text has every key once. -/
theorem keyed_ofText? {text : String} {v : Yaml} (h : ofText? text = some (.ok v)) :
    v.Keyed := by
  obtain ⟨ts, -, h⟩ := Option.bind_eq_some_iff.1 h
  exact keyed_ofTokens? h

end Redline.Yaml
