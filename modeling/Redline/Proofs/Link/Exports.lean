import Redline.Proofs.Link.Termination

/-!
# What an exported name leads to

Modules with their names make a graph: a name of a module is bound there, or leads on to names of
other modules. `Modules.First` is the depth-first search of this graph that remembers the way it
took and nothing else. The search that shares what it has looked at between all ways finds the same:
names looked at in vain are `Dead`, since every name they lead on to was looked at too. So a binding
is found for a name just when one can be reached from it, whatever cycles the modules make.
-/

namespace Redline

namespace Modules

variable {m : Modules} {p q : String × String} {b c : BindingId} {way seen : Seen}

/-- A module has a binding of its own under a name. -/
def Binds (m : Modules) (p : String × String) (b : BindingId) : Prop :=
  ∃ s number, m.scopes? p.1 = some s ∧ s.exports.names.lookup p.2 = some (.own number) ∧
    b = { file := p.1, number }

/-- The names that a name leads on to, in order: what it passes on, or else the same name in each
module all of whose names are exported, unless it is the default. -/
def onward (m : Modules) (p : String × String) : List (String × String) :=
  match m.scopes? p.1 with
  | none => []
  | some s =>
    match s.exports.names.lookup p.2 with
    | some (.own _) => []
    | some (.passed source imported _) =>
      (m.resolve? p.1 source).toList.map fun target => (target, imported)
    | none =>
      if p.2 = "default" then []
      else (s.exports.stars.filterMap (m.resolve? p.1)).map fun target => (target, p.2)

/-- A name leads on to another one. -/
def LeadsTo (m : Modules) (p q : String × String) : Prop :=
  q ∈ m.onward p

/-- A binding can be reached from a name by names that are not avoided. -/
inductive Reaches (m : Modules) (avoided : Seen) : String × String → BindingId → Prop where
  | here {p : String × String} {b : BindingId} (hp : p ∉ avoided) (hb : m.Binds p b) :
      Reaches m avoided p b
  | on {p q : String × String} {b : BindingId} (hp : p ∉ avoided) (hq : q ∈ m.onward p)
      (hb : Reaches m avoided q b) : Reaches m avoided p b

/-- The binding that a depth-first search from a name meets first, after a way that it does not
cross: it tries the names that are led on to in order, and goes on with the next one where no
binding can be reached without crossing the way. -/
inductive First (m : Modules) : Seen → String × String → BindingId → Prop where
  | here {way : Seen} {p : String × String} {b : BindingId} (hp : p ∉ way) (hb : m.Binds p b) :
      First m way p b
  | down {way : Seen} {p next : String × String} {before after : List (String × String)}
      {b : BindingId} (hp : p ∉ way) (hnext : m.onward p = before ++ next :: after)
      (hbefore : ∀ q ∈ before, ∀ c, ¬m.Reaches (p :: way) q c) (hb : First m (p :: way) next b) :
      First m way p b

/-! ### The graph of names -/

theorem Binds.unique (hb : m.Binds p b) (hc : m.Binds p c) : b = c := by
  obtain ⟨s, number, hs, hown, rfl⟩ := hb
  obtain ⟨s', number', hs', hown', rfl⟩ := hc
  rw [hs] at hs'
  cases hs'
  rw [hown] at hown'
  cases hown'
  rfl

theorem Binds.onward_eq_nil (hb : m.Binds p b) : m.onward p = [] := by
  obtain ⟨s, number, hs, hown, -⟩ := hb
  rw [onward, hs]
  dsimp only
  rw [hown]

theorem leads_eq {s : Scopes} (hs : m.scopes? p.1 = some s) :
    (∃ b, m.leads p.1 p.2 s = .inl b ∧ m.Binds p b) ∨
      m.leads p.1 p.2 s = .inr (m.onward p) ∧ ∀ b, ¬m.Binds p b := by
  rw [leads, onward, hs]
  dsimp only
  have hfree : (∀ number, s.exports.names.lookup p.2 ≠ some (.own number)) → ∀ b, ¬m.Binds p b := by
    rintro hno b ⟨s', number, hs', hown, -⟩
    rw [hs] at hs'
    cases hs'
    exact hno number hown
  cases hlookup : s.exports.names.lookup p.2 with
  | none =>
      refine Or.inr ⟨?_, hfree (by simp [hlookup])⟩
      dsimp only
      split_ifs <;> rfl
  | some e =>
      cases e with
      | own number => exact Or.inl ⟨_, rfl, s, number, hs, hlookup, rfl⟩
      | passed source imported spot => exact Or.inr ⟨rfl, hfree (by simp [hlookup])⟩

theorem scopes?_of_has {file : String} (h : m.has file = true) : ∃ s, m.scopes? file = some s := by
  obtain ⟨f, hf, heq⟩ := List.any_eq_true.1 h
  refine Option.ne_none_iff_exists'.1 fun hnone => ?_
  have hne := List.lookup_eq_none_iff.1 hnone f hf
  rw [beq_iff_eq] at heq
  simp [heq] at hne

theorem has_of_resolve? {file specifier target : String}
    (h : m.resolve? file specifier = some target) : m.has target = true := by
  rw [resolve?] at h
  split_ifs at h
  exact List.find?_some h

/-- Names lead on to names of modules. -/
theorem exists_scopes?_of_mem_onward (h : q ∈ m.onward p) : ∃ s, m.scopes? q.1 = some s := by
  suffices hhas : m.has q.1 = true from scopes?_of_has hhas
  rw [onward] at h
  split at h
  · cases h
  split at h
  · cases h
  · obtain ⟨target, htarget, rfl⟩ := List.mem_map.1 h
    exact has_of_resolve? (Option.mem_toList.1 htarget)
  · split_ifs at h
    · cases h
    · obtain ⟨target, htarget, rfl⟩ := List.mem_map.1 h
      obtain ⟨source, -, hsource⟩ := List.mem_filterMap.1 htarget
      exact has_of_resolve? hsource

/-! ### Reaching a binding -/

theorem Reaches.mono {way' : Seen} (h : m.Reaches way p b) (hway : way' ⊆ way) :
    m.Reaches way' p b := by
  induction h with
  | here hp hb => exact .here (fun hmem => hp (hway hmem)) hb
  | on hp hq _ ih => exact .on (fun hmem => hp (hway hmem)) hq ih

/-- Without anything to avoid, what can be reached is what is bound at the end of some way. -/
theorem exists_reaches_nil_iff :
    (∃ b, m.Reaches [] p b) ↔ ∃ q b, Relation.ReflTransGen m.LeadsTo p q ∧ m.Binds q b := by
  constructor
  · rintro ⟨b, h⟩
    induction h with
    | @here p b _ hb => exact ⟨p, b, .refl, hb⟩
    | on _ hq _ ih =>
        obtain ⟨end_, b, hway, hb⟩ := ih
        exact ⟨end_, b, .head hq hway, hb⟩
  · rintro ⟨q, b, hway, hb⟩
    refine ⟨b, ?_⟩
    induction hway using Relation.ReflTransGen.head_induction_on with
    | refl => exact .here List.not_mem_nil hb
    | head hq _ ih => exact .on List.not_mem_nil hq ih

theorem First.reaches (h : m.First way p b) : m.Reaches way p b := by
  induction h with
  | here hp hb => exact .here hp hb
  | @down way p next before after b hp hnext _ _ ih =>
      exact .on hp (by simp [hnext]) (ih.mono (List.subset_cons_self _ _))

/-- At most one binding is met first. -/
theorem First.unique (hb : m.First way p b) (hc : m.First way p c) : b = c := by
  induction hb with
  | here _ hb =>
      cases hc with
      | here _ hc => exact hb.unique hc
      | down _ hnext => simp [hb.onward_eq_nil] at hnext
  | @down way p next before after b hp hnext hbefore hb ih =>
      cases hc with
      | here _ hc => simp [hc.onward_eq_nil] at hnext
      | @down _ _ next' before' after' _ _ hnext' hbefore' hc =>
          rw [hnext] at hnext'
          rcases List.append_eq_append_iff.1 hnext' with ⟨more, rfl, heq⟩ | ⟨more, rfl, heq⟩
          · cases more with
            | nil =>
                cases heq
                exact ih hc
            | cons q more =>
                cases heq
                exact absurd hb.reaches (hbefore' _ (by simp) _)
          · cases more with
            | nil =>
                cases heq
                exact ih hc
            | cons q more =>
                cases heq
                exact absurd hc.reaches (hbefore _ (by simp) _)

/-! ### The search that shares what it has looked at -/

/-- All names that were looked at, but for those on the way, are not bound and lead on to nothing
new. -/
def Dead (m : Modules) (way seen : Seen) : Prop :=
  ∀ p ∈ seen, p ∉ way → (∀ b, ¬m.Binds p b) ∧ ∀ q ∈ m.onward p, q ∈ seen

/-- No binding can be reached from a dead name without crossing the way. -/
theorem Dead.not_reaches (h : m.Dead way seen) (hp : p ∈ seen) : ¬m.Reaches way p b := by
  intro hreach
  induction hreach with
  | here hway hb => exact (h _ hp hway).1 _ hb
  | on hway hq _ ih => exact ih ((h _ hp hway).2 _ hq)

theorem Dead.enter (h : m.Dead way seen) (p : String × String) :
    m.Dead (p :: way) (p :: seen) := by
  intro q hq hway
  rw [List.mem_cons, not_or] at hway
  obtain ⟨hno, hon⟩ := h q ((List.mem_cons.1 hq).resolve_left hway.1) hway.2
  exact ⟨hno, fun r hr => List.mem_cons_of_mem _ (hon r hr)⟩

/-- A name that is not bound is dead once all names that it leads on to were looked at. -/
theorem Dead.leave (h : m.Dead (p :: way) seen) (hno : ∀ b, ¬m.Binds p b)
    (hon : ∀ q ∈ m.onward p, q ∈ seen) : m.Dead way seen := by
  intro q hq hway
  by_cases heq : q = p
  · subst heq
    exact ⟨hno, hon⟩
  · exact h q hq (by simp [heq, hway])

/-- What a search answers for a name after a way: the binding that is met first, or none after the
name was looked at, with what was looked at still dead. -/
structure Sought (m : Modules) (way seen : Seen) (p : String × String)
    (r : Option BindingId × Seen) : Prop where
  found : ∀ b, r.1 = some b → m.First way p b
  subset : seen ⊆ r.2
  dead : r.1 = none → m.Dead way r.2 ∧ p ∈ r.2

/-- Names tried in order: the first of them from which a binding can be reached gives it. -/
theorem sought_exportAll {names : List String} {fuel : Nat}
    (hone : ∀ {way seen p}, way ⊆ seen → m.Dead way seen → p.2 ∈ names →
      (∃ s, m.scopes? p.1 = some s) → (m.unseen names seen).card < fuel →
      m.Sought way seen p (m.exportWithin fuel p.1 p.2 seen))
    {todo : List (String × String)} (htodo : ∀ p ∈ todo, p.2 ∈ names ∧ ∃ s, m.scopes? p.1 = some s)
    (hway : way ⊆ seen) (hdead : m.Dead way seen) (hfuel : (m.unseen names seen).card < fuel) :
    (∀ b, (m.exportAll fuel todo seen).1 = some b →
      ∃ before next after, todo = before ++ next :: after ∧
        (∀ q ∈ before, ∀ c, ¬m.Reaches way q c) ∧ m.First way next b) ∧
    ((m.exportAll fuel todo seen).1 = none →
      m.Dead way (m.exportAll fuel todo seen).2 ∧
        ∀ p ∈ todo, p ∈ (m.exportAll fuel todo seen).2) := by
  induction todo generalizing seen with
  | nil => exact ⟨fun b hb => by simp [exportAll] at hb, fun _ => ⟨hdead, by simp⟩⟩
  | cons p todo ih =>
      obtain ⟨hname, hmodule⟩ := htodo p List.mem_cons_self
      have hp := hone hway hdead hname hmodule hfuel
      rw [exportAll_cons]
      generalize m.exportWithin fuel p.1 p.2 seen = r at hp ⊢
      obtain ⟨found, seen'⟩ := r
      cases found with
      | some b =>
          refine ⟨fun c hc => ?_, fun hnone => by simp at hnone⟩
          exact ⟨[], p, todo, rfl, by simp, hp.found c (by simpa using hc)⟩
      | none =>
          obtain ⟨hdead', hmem⟩ := hp.dead rfl
          have hless := lt_of_le_of_lt (card_unseen_le hp.subset) hfuel
          obtain ⟨hfound, hnone⟩ := ih (fun q hq => htodo q (List.mem_cons_of_mem _ hq))
            (List.Subset.trans hway hp.subset) hdead' hless
          have hkept : seen' ⊆ (m.exportAll fuel todo seen').2 :=
            subset_exportAll (subset_exportWithin fuel) todo seen'
          rw [if_pos rfl]
          refine ⟨fun b hb => ?_, fun h => ⟨(hnone h).1, fun q hq => ?_⟩⟩
          · obtain ⟨before, next, after, rfl, hbefore, hb⟩ := hfound b hb
            refine ⟨p :: before, next, after, rfl, fun q hq c => ?_, hb⟩
            rcases List.mem_cons.1 hq with rfl | hq
            · exact hdead'.not_reaches hmem
            · exact hbefore q hq c
          · rcases List.mem_cons.1 hq with rfl | hq
            · exact hkept hmem
            · exact (hnone h).2 q hq

/-- With fuel for the names not looked at, the search answers for a name of a module. -/
theorem sought_exportWithin {names : List String} (hnames : m.reexports ⊆ names) {fuel : Nat}
    (hway : way ⊆ seen) (hdead : m.Dead way seen) (hname : p.2 ∈ names)
    (hmodule : ∃ s, m.scopes? p.1 = some s) (hfuel : (m.unseen names seen).card < fuel) :
    m.Sought way seen p (m.exportWithin fuel p.1 p.2 seen) := by
  induction fuel generalizing way seen p with
  | zero => exact absurd hfuel (Nat.not_lt_zero _)
  | succ fuel ih =>
      have hsubset := subset_exportWithin (m := m) (fuel + 1) p.1 p.2 seen
      obtain ⟨s, hs⟩ := hmodule
      rw [exportWithin_succ] at hsubset ⊢
      by_cases hseen : p ∈ seen
      · rw [if_pos (by simpa using hseen)]
        exact ⟨by simp, List.Subset.refl _, fun _ => ⟨hdead, hseen⟩⟩
      rw [if_neg (by simpa using hseen), hs] at hsubset ⊢
      dsimp only at hsubset ⊢
      have hp : p ∉ way := fun hmem => hseen (hway hmem)
      rcases leads_eq hs with ⟨b, hleads, hb⟩ | ⟨hleads, hno⟩ <;> rw [hleads] at hsubset ⊢
      · refine ⟨fun c hc => ?_, hsubset, fun hnone => by simp at hnone⟩
        cases hc
        exact .here hp hb
      · dsimp only at hsubset ⊢
        have hless : (m.unseen names (p :: seen)).card < (m.unseen names seen).card :=
          card_unseen_lt hs hname hseen
        obtain ⟨hfound, hnone⟩ := sought_exportAll ih
          (fun q hq => ⟨mem_names_of_leads hs hname hnames hleads hq,
            exists_scopes?_of_mem_onward hq⟩)
          (List.cons_subset_cons p hway) (hdead.enter p) (by omega)
        refine ⟨fun b hb => ?_, hsubset, fun h => ?_⟩
        · obtain ⟨before, next, after, hnext, hbefore, hb⟩ := hfound b hb
          exact .down hp hnext hbefore hb
        · obtain ⟨hdead', hon⟩ := hnone h
          exact ⟨hdead'.leave hno hon,
            subset_exportAll (subset_exportWithin fuel) _ _ List.mem_cons_self⟩

/-- A search from a name finds the binding that is met first, and one that can be reached if there
is one. -/
theorem exportOf?_spec (m : Modules) (p : String × String) :
    (∀ b, m.exportOf? p.1 p.2 = some b → m.First [] p b) ∧
      (m.exportOf? p.1 p.2 = none → ∀ b, ¬m.Reaches [] p b) := by
  by_cases hmodule : ∃ s, m.scopes? p.1 = some s
  · have hsought : m.Sought [] [] p _ :=
      sought_exportWithin (List.subset_cons_self p.2 m.reexports) (List.nil_subset _)
        (fun _ h => absurd h List.not_mem_nil) List.mem_cons_self hmodule
        (card_unseen_nil_lt m p.2)
    refine ⟨hsought.found, fun h b => ?_⟩
    obtain ⟨hdead, hmem⟩ := hsought.dead h
    exact hdead.not_reaches hmem
  · have hnone : m.scopes? p.1 = none :=
      Option.eq_none_iff_forall_ne_some.2 fun s hs => hmodule ⟨s, hs⟩
    have hon : m.onward p = [] := by rw [onward, hnone]
    refine ⟨fun b hb => ?_, fun _ b hb => ?_⟩
    · rw [exportOf?, exportWithin_succ, hnone] at hb
      simp at hb
    · cases hb with
      | here _ hb =>
          obtain ⟨s, -, hs, -⟩ := hb
          exact hmodule ⟨s, hs⟩
      | on _ hq => simp [hon] at hq

theorem exportOf?_eq_some_iff : m.exportOf? p.1 p.2 = some b ↔ m.First [] p b := by
  refine ⟨(exportOf?_spec m p).1 b, fun hb => ?_⟩
  obtain ⟨c, hc⟩ := Option.ne_none_iff_exists'.1 fun hnone =>
    (exportOf?_spec m p).2 hnone b hb.reaches
  rw [hc, hb.unique ((exportOf?_spec m p).1 c hc)]

theorem isSome_exportOf?_iff :
    (m.exportOf? p.1 p.2).isSome ↔
      ∃ q b, Relation.ReflTransGen m.LeadsTo p q ∧ m.Binds q b := by
  rw [← exists_reaches_nil_iff, Option.isSome_iff_exists]
  constructor
  · rintro ⟨b, hb⟩
    exact ⟨b, (exportOf?_eq_some_iff.1 hb).reaches⟩
  · rintro ⟨b, hb⟩
    exact Option.ne_none_iff_exists'.1 fun hnone => (exportOf?_spec m p).2 hnone b hb

end Modules

namespace Links

/-- In the links of any modules, a name of a module stands for a binding just when a name with a
binding of its own can be reached from it, and then it stands for the canonical binding of the one
that a depth-first search meets first. -/
theorem exported?_first_reached (m : Modules) (file name : String) :
    (((ofModules m).exported? m file name).isSome ↔
      ∃ q b, Relation.ReflTransGen m.LeadsTo (file, name) q ∧ m.Binds q b) ∧
    ∀ t, (ofModules m).exported? m file name = some t ↔
      ∃ b, m.First [] (file, name) b ∧ (ofModules m).canonical m b = t := by
  rw [exported?, Option.isSome_map]
  refine ⟨Modules.isSome_exportOf?_iff (p := (file, name)), fun t => ?_⟩
  rw [Option.map_eq_some_iff]
  exact exists_congr fun b =>
    and_congr_left' (Modules.exportOf?_eq_some_iff (p := (file, name)))

end Links

end Redline
