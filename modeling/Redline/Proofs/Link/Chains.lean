import Mathlib.Tactic.Common
import Redline.Link.Links

/-!
# Where chains of imports end

Ties are `Chained` when each was made to a binding where the chains made before end. Then following
ties comes to an end within as many steps as there are ties, at a binding that is `Final`, and all
of a chain ends at the same one.
-/

namespace Redline

namespace Links

variable {m : Modules} {ties : List (BindingId × BindingId)} {b c t : BindingId}

/-- A binding that ties are not followed from: it is an alias or has no tie. -/
def Final (m : Modules) (ties : List (BindingId × BindingId)) (b : BindingId) : Prop :=
  m.isAlias b = true ∨ b ∉ ties.map Prod.fst

/-- Ties, the latest first, each of another import and to another binding that was final then. -/
inductive Chained (m : Modules) : List (BindingId × BindingId) → Prop where
  | nil : Chained m []
  | tie {older : List (BindingId × BindingId)} {b t : BindingId} (h : Chained m older)
      (hb : b ∉ older.map Prod.fst) (hne : t ≠ b) (ht : Final m older t) :
      Chained m ((b, t) :: older)

/-- Where following ties from a binding ends. A tie changes that for the chains that ended at its
import. -/
def lead (m : Modules) : List (BindingId × BindingId) → BindingId → BindingId
  | [], c => c
  | (b, t) :: older, c => if lead m older c = b ∧ m.isAlias b = false then t else lead m older c

/-- The number of ties followed from a binding. -/
def steps (m : Modules) : List (BindingId × BindingId) → BindingId → Nat
  | [], _ => 0
  | (b, _) :: older, c =>
    if lead m older c = b ∧ m.isAlias b = false then steps m older c + 1 else steps m older c

theorem Final.of_cons {e : BindingId × BindingId} (h : Final m (e :: ties) c) :
    Final m ties c := by
  refine h.imp_right fun hno hmem => hno ?_
  rw [List.map_cons]
  exact List.mem_cons_of_mem _ hmem

theorem Final.not_tied (h : Final m ((b, t) :: ties) c) : ¬(c = b ∧ m.isAlias b = false) := by
  rintro ⟨rfl, hfalse⟩
  rcases h with htrue | hno
  · rw [htrue] at hfalse
    cases hfalse
  · exact hno (by simp)

theorem lead_of_final (h : Final m ties c) : lead m ties c = c ∧ steps m ties c = 0 := by
  induction ties with
  | nil => exact ⟨rfl, rfl⟩
  | cons e older ih =>
      obtain ⟨b, t⟩ := e
      obtain ⟨hlead, hsteps⟩ := ih h.of_cons
      rw [lead, steps, hlead, if_neg h.not_tied, if_neg h.not_tied]
      exact ⟨rfl, hsteps⟩

theorem Chained.final_of_tie (hne : t ≠ b) (ht : Final m ties t) : Final m ((b, t) :: ties) t := by
  refine ht.imp_right fun hno hmem => ?_
  rw [List.map_cons] at hmem
  rcases List.mem_cons.1 hmem with heq | hmem
  · exact hne heq
  · exact hno hmem

/-- Chains end at bindings that are final. -/
theorem Chained.final_lead (h : Chained m ties) (c : BindingId) : Final m ties (lead m ties c) := by
  induction h with
  | nil => exact Or.inr (by simp)
  | @tie older b t _ hb hne ht ih =>
      rw [lead]
      split_ifs with htied
      · exact final_of_tie hne ht
      · rcases ih with halias | hno
        · exact Or.inl halias
        · by_cases heq : lead m older c = b
          · rw [heq]
            exact Or.inl (by_contra fun hno => htied ⟨heq, Bool.eq_false_iff.2 hno⟩)
          · right
            rw [List.map_cons, List.mem_cons, not_or]
            exact ⟨heq, hno⟩

/-- A tie that is followed is one step of the chain. -/
theorem Chained.lead_of_mem (h : Chained m ties) (hmem : (c, t) ∈ ties)
    (halias : m.isAlias c = false) :
    lead m ties c = lead m ties t ∧ steps m ties c = steps m ties t + 1 := by
  induction h with
  | nil => cases hmem
  | @tie older b t' _ hb hne ht ih =>
      rcases List.mem_cons.1 hmem with heq | hmem
      · cases heq
        have hfinal : Final m older c := Or.inr hb
        obtain ⟨hlead, hsteps⟩ := lead_of_final hfinal
        obtain ⟨hlead', hsteps'⟩ := lead_of_final ht
        have hnot : ¬(t = c ∧ m.isAlias c = false) := fun hand => hne hand.1
        rw [lead, lead, steps, steps, hlead, hlead', if_pos ⟨rfl, halias⟩, if_neg hnot,
          if_pos ⟨rfl, halias⟩, if_neg hnot, hsteps, hsteps']
        exact ⟨rfl, rfl⟩
      · obtain ⟨hlead, hsteps⟩ := ih hmem
        rw [lead, lead, steps, steps, hlead, hsteps]
        split_ifs <;> exact ⟨rfl, rfl⟩

/-- An import is tied once. -/
theorem Chained.eq_of_mem {t' : BindingId} (h : Chained m ties) (hmem : (c, t) ∈ ties)
    (hmem' : (c, t') ∈ ties) : t = t' := by
  induction h with
  | nil => cases hmem
  | tie _ hb _ _ ih =>
      rcases List.mem_cons.1 hmem with heq | hold <;> rcases List.mem_cons.1 hmem' with heq' | hold'
      · cases heq
        cases heq'
        rfl
      · cases heq
        exact absurd (List.mem_map.2 ⟨_, hold', rfl⟩) hb
      · cases heq'
        exact absurd (List.mem_map.2 ⟨_, hold, rfl⟩) hb
      · exact ih hold hold'

theorem steps_le_length (m : Modules) (ties : List (BindingId × BindingId)) (c : BindingId) :
    steps m ties c ≤ ties.length := by
  induction ties with
  | nil => exact Nat.le_refl 0
  | cons e older ih =>
      obtain ⟨b, t⟩ := e
      rw [steps, List.length_cons]
      split_ifs <;> omega

theorem follow_eq_lead {l : Links} (h : Chained m l.targets) {fuel : Nat} {c : BindingId}
    (hfuel : steps m l.targets c ≤ fuel) : l.follow m fuel c = lead m l.targets c := by
  induction fuel generalizing c with
  | zero =>
      rw [follow]
      by_cases hfinal : Final m l.targets c
      · exact (lead_of_final hfinal).1.symm
      · rw [Final, not_or, not_not, Bool.not_eq_true] at hfinal
        obtain ⟨⟨c', t⟩, hmem, heq⟩ := List.mem_map.1 hfinal.2
        cases heq
        rw [(h.lead_of_mem hmem hfinal.1).2] at hfuel
        exact absurd hfuel (Nat.not_succ_le_zero _)
  | succ fuel ih =>
      rw [follow]
      cases hlookup : l.targets.lookup c with
      | none =>
          refine (lead_of_final (Or.inr fun hmem => ?_)).1.symm
          obtain ⟨⟨c', t⟩, hmem, heq⟩ := List.mem_map.1 hmem
          cases heq
          have hno := List.lookup_eq_none_iff.1 hlookup _ hmem
          simp at hno
      | some t =>
          dsimp only
          split_ifs with halias
          · exact (lead_of_final (Or.inl halias)).1.symm
          · obtain ⟨hlead, hsteps⟩ :=
              h.lead_of_mem (Assoc.mem_of_lookup hlookup) (Bool.eq_false_iff.2 halias)
            rw [hlead]
            exact ih (by omega)

theorem canonical_eq_lead {l : Links} (h : Chained m l.targets) (c : BindingId) :
    l.canonical m c = lead m l.targets c :=
  follow_eq_lead h (steps_le_length m l.targets c)

theorem final_canonical {l : Links} (h : Chained m l.targets) (c : BindingId) :
    Final m l.targets (l.canonical m c) := by
  rw [canonical_eq_lead h]
  exact h.final_lead c

/-- The canonical binding of a final one is itself. -/
theorem canonical_of_final {l : Links} (h : Chained m l.targets) (hc : Final m l.targets c) :
    l.canonical m c = c := by
  rw [canonical_eq_lead h]
  exact (lead_of_final hc).1

theorem canonical_canonical {l : Links} (h : Chained m l.targets) (c : BindingId) :
    l.canonical m (l.canonical m c) = l.canonical m c :=
  canonical_of_final h (final_canonical h c)

/-- An import without a name of its own has the canonical binding of what it is tied to. -/
theorem canonical_of_tie {l : Links} (h : Chained m l.targets) (hmem : (c, t) ∈ l.targets)
    (halias : m.isAlias c = false) : l.canonical m c = l.canonical m t := by
  rw [canonical_eq_lead h, canonical_eq_lead h]
  exact (h.lead_of_mem hmem halias).1

end Links

/-!
## The ties of imports

Linking an import keeps the links `Coherent`: the ties are chained and of imports whose linking was
begun, importers are the ties read backwards, and the names of imports that give another name stand
for what these are tied to. An import is tied at most once, since its linking is begun once.
-/

namespace Links

variable {m : Modules}

/-- The name of what an import under another name imports, with what the import is tied to. -/
def Names (m : Modules) (ties : List (BindingId × BindingId)) (key : String × Nat)
    (t : BindingId) : Prop :=
  ∃ b d i n, (b, t) ∈ ties ∧ m.declaration? b = some d ∧ d.origin = some i ∧
    i.nameSpot = some n ∧ d.isAlias = true ∧ key = (b.file, n.start)

/-- Links that fit together, as far as imports were linked. -/
structure Coherent (m : Modules) (l : Links) : Prop where
  chained : Chained m l.targets
  begun : ∀ b t, (b, t) ∈ l.targets → b ∈ l.begun
  imports : ∀ b t, (b, t) ∈ l.targets → ∃ d i, m.declaration? b = some d ∧ d.origin = some i
  importers : ∀ b t, (t, b) ∈ l.importers ↔ (b, t) ∈ l.targets
  named : ∀ key t, (key, t) ∈ l.named ↔ Names m l.targets key t

theorem coherent_none (m : Modules) : Coherent m none := by
  refine ⟨.nil, ?_, ?_, ?_, ?_⟩
  · intro b t hmem
    cases hmem
  · intro b t hmem
    cases hmem
  · intro b t
    simp [none]
  · intro key t
    simp [none, Names]

theorem Coherent.begin {l : Links} (h : l.Coherent m) (b : BindingId) :
    Coherent m { l with begun := b :: l.begun } :=
  ⟨h.chained, fun c t hmem => List.mem_cons_of_mem _ (h.begun c t hmem), h.imports, h.importers,
    h.named⟩

/-- A tie of an import that was not tied before, to a binding that is final, keeps links
coherent. -/
theorem Coherent.tie {l : Links} (h : l.Coherent m) {b t : BindingId} {d : Declaration}
    {i : Import} (hd : m.declaration? b = some d) (hi : d.origin = some i) (hbegun : b ∈ l.begun)
    (hb : b ∉ l.targets.map Prod.fst) (hne : t ≠ b) (ht : Final m l.targets t) :
    (l.tie b d i t).Coherent m := by
  constructor
  · exact .tie h.chained hb hne ht
  · intro c t' hmem
    rcases List.mem_cons.1 hmem with heq | hmem
    · cases heq
      exact hbegun
    · exact h.begun c t' hmem
  · intro c t' hmem
    rcases List.mem_cons.1 hmem with heq | hmem
    · cases heq
      exact ⟨d, i, hd, hi⟩
    · exact h.imports c t' hmem
  · intro c t'
    show (t', c) ∈ l.importers ++ [(t, b)] ↔ (c, t') ∈ (b, t) :: l.targets
    rw [List.mem_append, List.mem_singleton, List.mem_cons, h.importers, Prod.mk.injEq,
      Prod.mk.injEq, or_comm, and_comm]
  · intro key t'
    have hnames : Names m (l.tie b d i t).targets key t' ↔
        (∃ n, i.nameSpot = some n ∧ d.isAlias = true ∧ key = (b.file, n.start) ∧ t' = t) ∨
          Names m l.targets key t' := by
      constructor
      · rintro ⟨c, d', i', n, hmem, hd', hi', hn, halias, hkey⟩
        rcases List.mem_cons.1 hmem with heq | hmem
        · cases heq
          rw [hd] at hd'
          cases hd'
          rw [hi] at hi'
          cases hi'
          exact Or.inl ⟨n, hn, halias, hkey, rfl⟩
        · exact Or.inr ⟨c, d', i', n, hmem, hd', hi', hn, halias, hkey⟩
      · rintro (⟨n, hn, halias, hkey, rfl⟩ | ⟨c, d', i', n, hmem, hrest⟩)
        · exact ⟨b, d, i, n, List.mem_cons_self, hd, hi, hn, halias, hkey⟩
        · exact ⟨c, d', i', n, List.mem_cons_of_mem _ hmem, hrest⟩
    rw [hnames, ← h.named]
    cases hn : i.nameSpot with
    | none => simp [Links.tie, hn]
    | some n =>
        by_cases halias : d.isAlias = true
        · simp [Links.tie, hn, halias]
        · simp [Links.tie, hn, halias]

/-- Links after some imports were linked: coherent, with no import tied whose linking was begun
before. -/
structure Extends (m : Modules) (l l' : Links) : Prop where
  coherent : l'.Coherent m
  begun : ∀ b ∈ l.begun, b ∈ l'.begun
  fresh : ∀ b t, (b, t) ∈ l'.targets → b ∈ l.begun → (b, t) ∈ l.targets
  nodes : l'.nodes = l.nodes

theorem Coherent.extends_self {l : Links} (h : l.Coherent m) : Extends m l l :=
  ⟨h, fun _ hb => hb, fun _ _ hmem _ => hmem, rfl⟩

theorem Coherent.extends_begin {l : Links} (h : l.Coherent m) (b : BindingId) :
    Extends m l { l with begun := b :: l.begun } :=
  ⟨h.begin b, fun _ hmem => List.mem_cons_of_mem _ hmem, fun _ _ hmem _ => hmem, rfl⟩

theorem Coherent.not_tied {l : Links} (h : l.Coherent m) {b : BindingId} (hb : b ∉ l.begun) :
    b ∉ l.targets.map Prod.fst := by
  intro hmem
  obtain ⟨⟨c, t⟩, ht, rfl⟩ := List.mem_map.1 hmem
  exact hb (h.begun c t ht)

theorem Extends.trans {l l' l'' : Links} (h : Extends m l l') (h' : Extends m l' l'') :
    Extends m l l'' :=
  ⟨h'.coherent, fun b hb => h'.begun b (h.begun b hb),
    fun b t hmem hb => h.fresh b t (h'.fresh b t hmem (h.begun b hb)) hb, h'.nodes.trans h.nodes⟩

/-- An import whose linking was begun, but that was not tied, is not tied by the linking of
others. -/
theorem Extends.not_tied {l l' : Links} (h : Extends m l l') {b : BindingId}
    (hbegun : b ∈ l.begun) (hb : b ∉ l.targets.map Prod.fst) :
    b ∉ l'.targets.map Prod.fst := by
  intro hmem
  obtain ⟨⟨c, t⟩, ht, rfl⟩ := List.mem_map.1 hmem
  exact hb (List.mem_map_of_mem (h.fresh c t ht hbegun))

/-- The tie of an import whose linking was begun in between extends links. -/
theorem Extends.tie {l l' : Links} (h : Extends m l l') {b t : BindingId} {d : Declaration}
    {i : Import} (hd : m.declaration? b = some d) (hi : d.origin = some i) (hnew : b ∉ l.begun)
    (hbegun : b ∈ l'.begun) (hb : b ∉ l'.targets.map Prod.fst) (hne : t ≠ b)
    (ht : Final m l'.targets t) : Extends m l (l'.tie b d i t) := by
  refine ⟨h.coherent.tie hd hi hbegun hb hne ht, h.begun, fun c t' hmem hc => ?_, h.nodes⟩
  rcases List.mem_cons.1 hmem with heq | hmem
  · cases heq
    exact absurd hc hnew
  · exact h.fresh c t' hmem hc

theorem Coherent.linkWithin {l : Links} (h : l.Coherent m) (fuel : Nat) (b : BindingId) :
    Extends m l (l.linkWithin m fuel b) := by
  induction fuel generalizing l b with
  | zero => exact h.extends_self
  | succ fuel ih =>
      rw [Links.linkWithin]
      by_cases hbegun : l.begun.contains b
      · rw [if_pos hbegun]
        exact h.extends_self
      rw [if_neg hbegun]
      have hnew : b ∉ l.begun := by simpa using hbegun
      cases hd : m.declaration? b with
      | none => exact h.extends_self
      | some d =>
          dsimp only
          cases hi : d.origin with
          | none => exact h.extends_self
          | some i =>
              dsimp only
              have hstart := h.extends_begin b
              cases m.resolve? b.file i.source with
              | none => exact hstart
              | some file =>
                  dsimp only
                  split_ifs with hwhole
                  · have hbegin := hstart.coherent
                    exact ⟨⟨hbegin.chained, hbegin.begun, hbegin.imports, hbegin.importers,
                      hbegin.named⟩, hstart.begun, hstart.fresh, rfl⟩
                  · cases m.exportOf? file i.imported with
                    | none => exact hstart
                    | some behind =>
                        dsimp only
                        have hbehind := ih hstart.coherent behind
                        have htied := hbehind.not_tied List.mem_cons_self (h.not_tied hnew)
                        split_ifs with hself
                        · exact hstart.trans hbehind
                        · exact (hstart.trans hbehind).tie hd hi hnew
                            (hbehind.begun b List.mem_cons_self) htied hself
                            (final_canonical hbehind.coherent.chained behind)

/-- The links of all imports are coherent, and there are no others yet. -/
theorem coherent_imports (m : Modules) :
    (m.imports.foldl (linkImport m) none).Coherent m ∧
      (m.imports.foldl (linkImport m) none).nodes = [] := by
  refine List.foldlRecOn (motive := fun l => Coherent m l ∧ l.nodes = []) _ _
    ⟨coherent_none m, rfl⟩ fun l hl b _ => ?_
  have hextends := hl.1.linkWithin (m.imports.length + 1) b
  exact ⟨hextends.coherent, hextends.nodes.trans hl.2⟩

end Links

end Redline
