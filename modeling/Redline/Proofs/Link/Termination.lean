import Mathlib.Data.Finset.Prod
import Redline.Proofs.Link.Machine
import Redline.Proofs.Link.Names

/-!
# Linking comes to an end

A search looks at each pair of a module and a name once, an import is begun once, and a walk along
chained ties takes fewer steps after each tie. So the machine gets through its tasks for any
modules, however their imports and re-exports lead back to each other, and the links it ends with
are those that `Links.ofModules` computes with its bounds.
-/

namespace Redline

namespace Modules

variable {m : Modules}

/-- The pairs of module and name that were not looked at yet. -/
def unseen (m : Modules) (names : List String) (seen : Seen) : Finset (String × String) :=
  ((m.files.map Prod.fst).toFinset ×ˢ names.toFinset) \ seen.toFinset

theorem mem_files_of_scopes? {file : String} {s : Scopes} (h : m.scopes? file = some s) :
    (file, s) ∈ m.files :=
  Assoc.mem_of_lookup h

theorem card_unseen_lt {names : List String} {seen : Seen} {file name : String} {s : Scopes}
    (hs : m.scopes? file = some s) (hname : name ∈ names) (hnew : (file, name) ∉ seen) :
    (m.unseen names ((file, name) :: seen)).card < (m.unseen names seen).card := by
  have hfile : file ∈ m.files.map Prod.fst := List.mem_map.2 ⟨_, mem_files_of_scopes? hs, rfl⟩
  refine Finset.card_lt_card ((Finset.ssubset_iff_of_subset ?_).2 ⟨(file, name), ?_, ?_⟩)
  · intro p hp
    simp only [unseen, Finset.mem_sdiff, List.mem_toFinset, List.mem_cons, not_or] at hp ⊢
    exact ⟨hp.1, hp.2.2⟩
  · simpa [unseen] using ⟨⟨by simpa using hfile, hname⟩, hnew⟩
  · simp [unseen]

theorem card_unseen_le {names : List String} {seen seen' : Seen} (h : seen ⊆ seen') :
    (m.unseen names seen').card ≤ (m.unseen names seen).card := by
  refine Finset.card_le_card fun p hp => ?_
  simp only [unseen, Finset.mem_sdiff, List.mem_toFinset] at hp ⊢
  exact ⟨hp.1, fun hmem => hp.2 (h hmem)⟩

/-- A search starts with no more pairs than `exportOf?` has fuel for. -/
theorem card_unseen_nil_lt (m : Modules) (name : String) :
    (m.unseen (name :: m.reexports) []).card <
      m.files.length * (m.reexports.length + 1) + 1 := by
  have hfiles : (m.files.map Prod.fst).toFinset.card ≤ m.files.length := by
    simpa using List.toFinset_card_le (m.files.map Prod.fst)
  have hnames : (name :: m.reexports).toFinset.card ≤ m.reexports.length + 1 :=
    List.toFinset_card_le _
  have hall : (m.unseen (name :: m.reexports) []).card =
      (m.files.map Prod.fst).toFinset.card * (name :: m.reexports).toFinset.card := by
    rw [unseen, List.toFinset_nil, Finset.sdiff_empty, Finset.card_product]
  rw [hall]
  exact Nat.lt_succ_of_le (Nat.mul_le_mul hfiles hnames)

/-- The names that a module leads on to are the name itself or re-exported ones. -/
theorem mem_names_of_leads {file name : String} {s : Scopes} {more : List (String × String)}
    {names : List String} (hs : m.scopes? file = some s) (hname : name ∈ names)
    (hnames : m.reexports ⊆ names) (hleads : m.leads file name s = .inr more) {p : String × String}
    (hp : p ∈ more) : p.2 ∈ names := by
  rw [leads] at hleads
  split at hleads
  · cases hleads
  · rename_i source imported spot hlookup
    cases hleads
    obtain ⟨target, -, rfl⟩ := List.mem_map.1 hp
    refine hnames (List.mem_flatMap.2 ⟨_, mem_files_of_scopes? hs, ?_⟩)
    exact List.mem_filterMap.2 ⟨_, Assoc.mem_of_lookup hlookup, rfl⟩
  · split_ifs at hleads
    · cases hleads
      cases hp
    · cases hleads
      obtain ⟨target, -, rfl⟩ := List.mem_map.1 hp
      exact hname

/-- Names looked at one after the other until there is a binding. -/
def exportAll (m : Modules) (fuel : Nat) (todo : List (String × String)) (seen : Seen) :
    Option BindingId × Seen :=
  todo.foldl (fun acc p => if acc.1 = none then m.exportWithin fuel p.1 p.2 acc.2 else acc)
    (none, seen)

theorem exportAll_cons (fuel : Nat) (p : String × String) (todo : List (String × String))
    (seen : Seen) : m.exportAll fuel (p :: todo) seen =
      if (m.exportWithin fuel p.1 p.2 seen).1 = none then
        m.exportAll fuel todo (m.exportWithin fuel p.1 p.2 seen).2
      else m.exportWithin fuel p.1 p.2 seen := by
  have hkeep : ∀ (r : Option BindingId × Seen), r.1 ≠ none →
      todo.foldl (fun acc p => if acc.1 = none then m.exportWithin fuel p.1 p.2 acc.2 else acc) r
        = r := by
    intro r hr
    induction todo with
    | nil => rfl
    | cons p todo ih => rw [List.foldl_cons, if_neg hr, ih]
  rw [exportAll, List.foldl_cons, if_pos rfl]
  dsimp only
  generalize m.exportWithin fuel p.1 p.2 seen = r at hkeep ⊢
  obtain ⟨found, seen'⟩ := r
  cases found with
  | none => rfl
  | some b => exact hkeep _ (by simp)

theorem exportWithin_succ (fuel : Nat) (file name : String) (seen : Seen) :
    m.exportWithin (fuel + 1) file name seen =
      if seen.contains (file, name) then (none, seen)
      else
        match m.scopes? file with
        | none => (none, seen)
        | some s =>
          match m.leads file name s with
          | .inl b => (some b, (file, name) :: seen)
          | .inr more => m.exportAll fuel more ((file, name) :: seen) := by
  rw [exportWithin]
  by_cases hseen : seen.contains (file, name)
  · rw [if_pos hseen, if_pos hseen]
  rw [if_neg hseen, if_neg hseen]
  cases m.scopes? file with
  | none => rfl
  | some s =>
      dsimp only
      rw [leads]
      cases s.exports.names.lookup name with
      | some e =>
          cases e with
          | own number => rfl
          | passed source imported spot =>
              dsimp only
              cases m.resolve? file source <;> rfl
      | none =>
          dsimp only
          by_cases hdefault : name = "default"
          · rw [if_pos hdefault, if_pos hdefault]
            rfl
          rw [if_neg hdefault, if_neg hdefault]
          dsimp only
          rw [exportAll, List.foldl_map, List.foldl_filterMap]
          congr 1
          funext acc source
          obtain ⟨found, seen'⟩ := acc
          cases found <;> cases m.resolve? file source <;> rfl

theorem subset_exportAll {fuel : Nat}
    (hone : ∀ file name seen, seen ⊆ (m.exportWithin fuel file name seen).2)
    (todo : List (String × String)) (seen : Seen) : seen ⊆ (m.exportAll fuel todo seen).2 := by
  induction todo generalizing seen with
  | nil => exact List.Subset.refl _
  | cons p todo ih =>
      rw [exportAll_cons]
      split_ifs
      · exact List.Subset.trans (hone p.1 p.2 seen) (ih _)
      · exact hone p.1 p.2 seen

theorem subset_exportWithin (fuel : Nat) (file name : String) (seen : Seen) :
    seen ⊆ (m.exportWithin fuel file name seen).2 := by
  induction fuel generalizing file name seen with
  | zero => exact List.Subset.refl _
  | succ fuel ih =>
      rw [exportWithin_succ]
      split_ifs
      · exact List.Subset.refl _
      cases m.scopes? file with
      | none => exact List.Subset.refl _
      | some s =>
          dsimp only
          cases m.leads file name s with
          | inl b => exact List.subset_cons_self _ _
          | inr more =>
              exact List.Subset.trans (List.subset_cons_self _ _) (subset_exportAll ih more _)

/-- An import that is declared is among the imports. -/
theorem mem_imports {b : BindingId} {d : Declaration} {i : Import}
    (hd : m.declaration? b = some d) (hi : d.origin = some i) : b ∈ m.imports := by
  obtain ⟨s, hs, hnumber⟩ := Option.bind_eq_some_iff.1 hd
  have hget : s.bindings[b.number]? = some d := by
    rw [Scopes.binding?] at hnumber
    simpa using hnumber
  refine List.mem_flatMap.2 ⟨_, mem_files_of_scopes? hs, List.mem_map.2 ⟨(d, b.number), ?_, rfl⟩⟩
  exact List.mem_filter.2 ⟨List.mk_mem_zipIdx_iff_getElem?.2 hget, by simp [hi]⟩

/-- The imports whose linking was not begun yet. -/
def pending (m : Modules) (begun : List BindingId) : Finset BindingId :=
  m.imports.toFinset \ begun.toFinset

theorem card_pending_lt {begun : List BindingId} {b : BindingId} (hb : b ∈ m.imports)
    (hnew : b ∉ begun) : (m.pending (b :: begun)).card < (m.pending begun).card := by
  refine Finset.card_lt_card ((Finset.ssubset_iff_of_subset ?_).2 ⟨b, ?_, ?_⟩)
  · intro c hc
    simp only [pending, Finset.mem_sdiff, List.mem_toFinset, List.mem_cons, not_or] at hc ⊢
    exact ⟨hc.1, hc.2.2⟩
  · simpa [pending] using ⟨hb, hnew⟩
  · simp [pending]

theorem card_pending_le (m : Modules) (begun : List BindingId) :
    (m.pending begun).card ≤ m.imports.length :=
  (Finset.card_le_card Finset.sdiff_subset).trans (List.toFinset_card_le _)

end Modules

namespace Linking

open Modules

variable {m : Modules} {l : Links} {ts : List Task}

theorem runs_of_step {s : State} {t : Task} {l' : Links} {now : List Task}
    (hstep : step m l t = (l', now)) (h : Runs m (l', now ++ ts) s) : Runs m (l, t :: ts) s := by
  refine .head (.step l t ts) ?_
  rw [hstep]
  exact h

/-! ### One search -/

/-- The tasks after a search: to follow what was found, or to look at the rest. -/
def sequel (asker : Asker) (todo : List (String × String)) :
    Option BindingId × Seen → List Task
  | (some b, _) => [.link b, .walk asker b]
  | (none, seen) => [.search asker seen todo]

theorem runs_searchAll {names : List String} {fuel : Nat} {asker : Asker}
    (hone : ∀ {file name seen todo}, name ∈ names → (m.unseen names seen).card < fuel →
      Runs m (l, .search asker seen ((file, name) :: todo) :: ts)
        (l, sequel asker todo (m.exportWithin fuel file name seen) ++ ts))
    {more todo : List (String × String)} {seen : Seen} (hmore : ∀ p ∈ more, p.2 ∈ names)
    (hfuel : (m.unseen names seen).card < fuel) :
    Runs m (l, .search asker seen (more ++ todo) :: ts)
      (l, sequel asker todo (m.exportAll fuel more seen) ++ ts) := by
  induction more generalizing seen with
  | nil => exact .refl
  | cons p more ih =>
      obtain ⟨file, name⟩ := p
      have hseen := subset_exportWithin (m := m) fuel file name seen
      have hfirst : Runs m (l, .search asker seen ((file, name) :: (more ++ todo)) :: ts)
          (l, sequel asker (more ++ todo) (m.exportWithin fuel file name seen) ++ ts) :=
        hone (hmore _ List.mem_cons_self) hfuel
      rw [exportAll_cons]
      dsimp only
      generalize m.exportWithin fuel file name seen = r at hseen hfirst ⊢
      obtain ⟨found, seen'⟩ := r
      cases found with
      | some b =>
          rw [if_neg (by simp)]
          exact hfirst
      | none =>
          rw [if_pos rfl]
          refine hfirst.trans (ih (fun p hp => hmore p (List.mem_cons_of_mem _ hp)) ?_)
          exact lt_of_le_of_lt (card_unseen_le hseen) hfuel

/-- With fuel for the pairs not looked at, a search runs to what `exportWithin` finds. -/
theorem runs_search {names : List String} {asker : Asker} (hnames : m.reexports ⊆ names)
    {fuel : Nat} {file name : String} {seen : Seen} {todo : List (String × String)}
    (hname : name ∈ names) (hfuel : (m.unseen names seen).card < fuel) :
    Runs m (l, .search asker seen ((file, name) :: todo) :: ts)
      (l, sequel asker todo (m.exportWithin fuel file name seen) ++ ts) := by
  induction fuel generalizing file name seen todo with
  | zero => exact absurd hfuel (Nat.not_lt_zero _)
  | succ fuel ih =>
      rw [exportWithin_succ]
      by_cases hseen : seen.contains (file, name)
      · rw [if_pos hseen]
        exact runs_of_step (by rw [step, if_pos hseen]; rfl) .refl
      rw [if_neg hseen]
      cases hs : m.scopes? file with
      | none => exact runs_of_step (by rw [step, if_neg hseen, hs]; rfl) .refl
      | some s =>
          dsimp only
          cases hleads : m.leads file name s with
          | inl b =>
              have hstep : step m l (.search asker seen ((file, name) :: todo)) =
                  (l, [.link b, .walk asker b]) := by
                rw [step, if_neg hseen, hs]
                dsimp only
                rw [hleads]
              exact runs_of_step hstep .refl
          | inr more =>
              have hstep : step m l (.search asker seen ((file, name) :: todo)) =
                  (l, [.search asker ((file, name) :: seen) (more ++ todo)]) := by
                rw [step, if_neg hseen, hs]
                dsimp only
                rw [hleads]
              have hless := card_unseen_lt hs hname (by simpa using hseen)
              exact runs_of_step hstep <| runs_searchAll ih
                (fun p hp => mem_names_of_leads hs hname hnames hleads hp) (by omega)

/-- The search that is started for a name runs to what `exportOf?` gives. -/
theorem runs_exportOf (m : Modules) (l : Links) (ts : List Task) (asker : Asker)
    (file name : String) : Runs m (l, .search asker [] [(file, name)] :: ts)
      (l, ((m.exportOf? file name).toList.flatMap fun b => [.link b, .walk asker b]) ++ ts) := by
  rw [exportOf?]
  generalize hfuel : m.files.length * (m.reexports.length + 1) + 1 = fuel
  have hsearch : Runs m (l, .search asker [] [(file, name)] :: ts)
      (l, sequel asker [] (m.exportWithin fuel file name []) ++ ts) :=
    runs_search (List.subset_cons_self name m.reexports) List.mem_cons_self
      (hfuel ▸ card_unseen_nil_lt m name)
  generalize m.exportWithin fuel file name [] = r at hsearch ⊢
  obtain ⟨found, seen⟩ := r
  cases found with
  | some b => exact hsearch
  | none => exact hsearch.trans (runs_of_step rfl .refl)

/-! ### One walk -/

/-- Following chained targets ends at the canonical binding, which is answered. -/
theorem runs_walk (h : Links.Chained m l.targets) (asker : Asker) (b : BindingId) :
    Runs m (l, .walk asker b :: ts) (answer m l (l.canonical m b) asker, ts) := by
  generalize hn : Links.steps m l.targets b = n
  induction n using Nat.strong_induction_on generalizing b with
  | h n ih =>
      by_cases hend : l.targets.lookup b = none ∨ m.isAlias b = true
      · rw [Links.canonical_of_final h (final_iff.2 hend)]
        exact runs_of_step (step_walk_of_final hend) .refl
      · rw [not_or, Bool.not_eq_true] at hend
        obtain ⟨t, ht⟩ := Option.ne_none_iff_exists'.1 hend.1
        have hmem := Assoc.mem_of_lookup ht
        have hless := (h.lead_of_mem hmem hend.2).2
        rw [Links.canonical_of_tie h hmem hend.2]
        exact runs_of_step (step_walk ht hend.2) (ih _ (by omega) t rfl)

/-! ### One import -/

/-- With fuel for the imports not begun, linking an import runs to what `linkWithin` computes. -/
theorem runs_link (h : l.Coherent m) {fuel : Nat} {b : BindingId}
    (hfuel : (m.pending l.begun).card < fuel) :
    Runs m (l, .link b :: ts) (l.linkWithin m fuel b, ts) := by
  induction fuel generalizing l b ts with
  | zero => exact absurd hfuel (Nat.not_lt_zero _)
  | succ fuel ih =>
      rw [Links.linkWithin]
      by_cases hbegun : b ∈ l.begun
      · rw [if_pos (by simpa using hbegun)]
        exact runs_of_step (step_link_of_begun hbegun) .refl
      rw [if_neg (by simpa using hbegun)]
      cases hd : m.declaration? b with
      | none => exact runs_of_step (step_link_of_no_import (by simp [hd])) .refl
      | some d =>
          dsimp only
          cases hi : d.origin with
          | none =>
              refine runs_of_step (step_link_of_no_import fun d' i hd' hi' => ?_) .refl
              rw [hd] at hd'
              cases hd'
              rw [hi] at hi'
              cases hi'
          | some i =>
              dsimp only
              have hstep := step_link hbegun hd hi
              cases hfile : m.resolve? b.file i.source with
              | none =>
                  rw [hfile] at hstep
                  exact runs_of_step hstep .refl
              | some file =>
                  rw [hfile] at hstep
                  dsimp only at hstep ⊢
                  by_cases hwhole : i.imported = "*"
                  · rw [if_pos hwhole] at hstep ⊢
                    exact runs_of_step hstep .refl
                  rw [if_neg hwhole] at hstep ⊢
                  refine runs_of_step hstep ((runs_exportOf m _ _ _ _ _).trans ?_)
                  cases m.exportOf? file i.imported with
                  | none => exact .refl
                  | some behind =>
                      have hless := card_pending_lt (mem_imports hd hi) hbegun
                      have hlinked := (h.begin b).linkWithin fuel behind
                      exact (ih (h.begin b) (b := behind) (by dsimp only; omega)).trans
                        (runs_walk hlinked.coherent.chained (.importer b d i) behind)

/-- Linking an import begins it, and no import that was begun is forgotten. -/
theorem begun_linkImport (h : l.Coherent m) {b : BindingId} {d : Declaration} {i : Import}
    (hd : m.declaration? b = some d) (hi : d.origin = some i) :
    b ∈ (Links.linkImport m l b).begun := by
  by_cases hbegun : b ∈ l.begun
  · exact (h.linkWithin _ b).begun b hbegun
  rw [Links.linkImport, Links.linkWithin, if_neg (by simpa using hbegun), hd]
  dsimp only
  rw [hi]
  dsimp only
  cases m.resolve? b.file i.source with
  | none => exact List.mem_cons_self
  | some file =>
      dsimp only
      split_ifs
      · exact List.mem_cons_self
      cases m.exportOf? file i.imported with
      | none => exact List.mem_cons_self
      | some behind =>
          dsimp only
          have hlinked := ((h.begin b).linkWithin m.imports.length behind).begun b
            List.mem_cons_self
          split_ifs <;> exact hlinked

theorem begun_foldl {xs : List BindingId} (h : l.Coherent m) {b : BindingId} {d : Declaration}
    {i : Import} (hd : m.declaration? b = some d) (hi : d.origin = some i)
    (hb : b ∈ l.begun ∨ b ∈ xs) : b ∈ (xs.foldl (Links.linkImport m) l).begun := by
  induction xs generalizing l with
  | nil => exact hb.resolve_right List.not_mem_nil
  | cons c xs ih =>
      have hlinked := h.linkWithin (m.imports.length + 1) c
      refine ih hlinked.coherent ?_
      rcases hb with hb | hb
      · exact Or.inl (hlinked.begun b hb)
      · rcases List.mem_cons.1 hb with rfl | hb
        · exact Or.inl (begun_linkImport h hd hi)
        · exact Or.inr hb

/-! ### All imports, then all names -/

/-- Links whose ties are chained, with all imports begun. -/
structure Settled (m : Modules) (l : Links) : Prop where
  chained : Links.Chained m l.targets
  begun : ∀ b d i, m.declaration? b = some d → d.origin = some i → b ∈ l.begun

theorem settled_imports (m : Modules) :
    Settled m (m.imports.foldl (Links.linkImport m) Links.none) :=
  ⟨(Links.coherent_imports m).1.chained,
    fun _ _ _ hd hi => begun_foldl (Links.coherent_none m) hd hi (Or.inr (mem_imports hd hi))⟩

/-- Once all imports are begun, there is nothing to be linked. -/
theorem Settled.step_link (h : Settled m l) (b : BindingId) : step m l (.link b) = (l, []) := by
  by_cases hbegun : b ∈ l.begun
  · exact step_link_of_begun hbegun
  · exact step_link_of_no_import fun d i hd hi => hbegun (h.begun b d i hd hi)

theorem Settled.runs_linkName (h : Settled m l) (module_ name : String) (place : Place) :
    Runs m (l, .search (.name name place) [] [(module_, name)] :: ts)
      (Links.linkName m l module_ name place, ts) := by
  refine (runs_exportOf m l ts _ module_ name).trans ?_
  rw [Links.linkName, Links.exported?]
  cases m.exportOf? module_ name with
  | none => exact .refl
  | some b => exact runs_of_step (h.step_link b) (runs_walk h.chained (.name name place) b)

theorem Settled.linkName (h : Settled m l) (module_ name : String) (place : Place) :
    Settled m (Links.linkName m l module_ name place) := by
  rw [Links.linkName]
  split
  · split_ifs
    · exact ⟨h.chained, h.begun⟩
    · exact h
  · exact h

theorem Settled.runs_linkExport (h : Settled m l) (file : String) (e : Export) :
    Runs m (l, exportTask m file e ++ ts) (Links.linkExport m file l e, ts) ∧
      Settled m (Links.linkExport m file l e) := by
  cases e with
  | own number => exact ⟨.refl, h⟩
  | passed source imported spot =>
      rw [exportTask, Links.linkExport]
      cases m.resolve? file source with
      | none => exact ⟨.refl, h⟩
      | some target =>
          exact ⟨h.runs_linkName target imported { file, spot }, h.linkName _ _ _⟩

theorem linkMember_eq (m : Modules) (file : String) (source : Source) (module_ : String)
    (l : Links) (use : Spot) : Links.linkMember m file source module_ l use =
      match memberOf? use with
      | some member =>
        Links.linkName m l module_ (source.textOf member.tree) { file, spot := member }
      | none => l := by
  rw [Links.linkMember, memberOf?]
  cases use.above with
  | nil => rfl
  | cons parent above =>
      cases use.address with
      | nil => rfl
      | cons i address =>
          dsimp only
          generalize ({ tree := parent, above, address } : Spot) = p
          cases p.child? "object" with
          | none => rfl
          | some object =>
              cases p.child? "property" with
              | none => rfl
              | some member =>
                  dsimp only
                  split_ifs <;> rfl

theorem Settled.runs_linkMember (h : Settled m l) (file : String) (source : Source)
    (module_ : String) (use : Spot) :
    Runs m (l, memberTask file source module_ use ++ ts)
        (Links.linkMember m file source module_ l use, ts) ∧
      Settled m (Links.linkMember m file source module_ l use) := by
  rw [linkMember_eq, memberTask]
  cases memberOf? use with
  | none => exact ⟨.refl, h⟩
  | some member =>
      exact ⟨h.runs_linkName module_ _ { file, spot := member }, h.linkName _ _ _⟩

/-- What runs task by task runs as a whole. -/
theorem runs_foldl {α : Type} {P : Links → Prop} {f : Links → α → Links} {tasks : α → List Task}
    {xs : List α} (ts : List Task)
    (h : ∀ l ts, P l → ∀ x ∈ xs, Runs m (l, tasks x ++ ts) (f l x, ts) ∧ P (f l x)) (hl : P l) :
    Runs m (l, xs.flatMap tasks ++ ts) (xs.foldl f l, ts) ∧ P (xs.foldl f l) := by
  induction xs generalizing l with
  | nil => exact ⟨.refl, hl⟩
  | cons x xs ih =>
      rw [List.flatMap_cons, List.append_assoc, List.foldl_cons]
      obtain ⟨hfirst, hl'⟩ := h l (xs.flatMap tasks ++ ts) hl x List.mem_cons_self
      obtain ⟨hrest, hend⟩ := ih (fun l ts hl x hx => h l ts hl x (List.mem_cons_of_mem _ hx)) hl'
      exact ⟨hfirst.trans hrest, hend⟩

theorem Settled.runs_linkMembers (h : Settled m l) (file : String) (s : Scopes) (b : BindingId) :
    Runs m (l, .members file s b :: ts) (Links.linkMembers m file s l b, ts) ∧
      Settled m (Links.linkMembers m file s l b) := by
  rw [Links.linkMembers]
  cases hspace : l.namespaces.lookup b with
  | none =>
      have hstep : step m l (.members file s b) = (l, []) := by rw [step, hspace]
      exact ⟨runs_of_step hstep .refl, h⟩
  | some module_ =>
      obtain ⟨hruns, hend⟩ := runs_foldl (P := Settled m) ts
        (fun l ts hl use _ => hl.runs_linkMember file s.source module_ use) h
      exact ⟨runs_of_step (by rw [step, hspace]) hruns, hend⟩

theorem Settled.runs_linkFile (h : Settled m l) (f : String × Scopes) :
    Runs m (l, fileTasks m f ++ ts) (Links.linkFile m l f, ts) ∧
      Settled m (Links.linkFile m l f) := by
  rw [fileTasks, List.append_assoc, Links.linkFile]
  have hmember : ∀ l ts, Settled m l → ∀ b ∈ Modules.importsOf f.1 f.2,
      Runs m (l, [.members f.1 f.2 b] ++ ts) (Links.linkMembers m f.1 f.2 l b, ts) ∧
        Settled m (Links.linkMembers m f.1 f.2 l b) :=
    fun l ts hl b _ => hl.runs_linkMembers f.1 f.2 b
  obtain ⟨hexports, hl⟩ := runs_foldl (P := Settled m) _
    (fun l ts hl e _ => hl.runs_linkExport f.1 e) h
  obtain ⟨hmembers, hend⟩ := runs_foldl ts hmember hl
  rw [← List.map_eq_flatMap] at hmembers
  exact ⟨hexports.trans hmembers, hend⟩

/-- The machine gets through all tasks, and ends with the links of the project. -/
theorem runs_ofModules (m : Modules) : Runs m (start m) (Links.ofModules m, []) := by
  have himport : ∀ l ts, l.Coherent m → ∀ b ∈ m.imports,
      Runs m (l, [.link b] ++ ts) (Links.linkImport m l b, ts) ∧
        (Links.linkImport m l b).Coherent m := fun l ts hl b _ =>
    ⟨runs_link hl (Nat.lt_succ_of_le (card_pending_le m l.begun)), (hl.linkWithin _ b).coherent⟩
  obtain ⟨himports, -⟩ := runs_foldl (m.files.flatMap (fileTasks m)) himport
    (Links.coherent_none m)
  obtain ⟨hfiles, -⟩ := runs_foldl (P := Settled m) []
    (fun l ts hl f (_ : f ∈ m.files) => hl.runs_linkFile f) (settled_imports m)
  rw [← List.map_eq_flatMap] at himports
  rw [List.append_nil] at hfiles
  exact himports.trans hfiles

end Linking

namespace Links

variable {m : Modules} {l : Links}

/-- A link that is followed: the target of an import without another name. -/
def Straight (m : Modules) (l : Links) (b t : BindingId) : Prop :=
  l.targets.lookup b = some t ∧ m.isAlias b = false

theorem Straight.steps (h : Chained m l.targets) {b t : BindingId} (hbt : Straight m l b t) :
    Links.steps m l.targets t < Links.steps m l.targets b := by
  rw [(h.lead_of_mem (Assoc.mem_of_lookup hbt.1) hbt.2).2]
  exact Nat.lt_succ_self _

/-- Straight links make no cycle. -/
theorem not_transGen_straight (h : Chained m l.targets) (b : BindingId) :
    ¬Relation.TransGen (Straight m l) b b := by
  have hless : ∀ {t}, Relation.TransGen (Straight m l) b t →
      Links.steps m l.targets t < Links.steps m l.targets b := by
    intro t ht
    induction ht with
    | single hbt => exact hbt.steps h
    | tail _ hbt ih => exact (hbt.steps h).trans ih
  exact fun hcycle => Nat.lt_irrefl _ (hless hcycle)

/-- Straight links lead from a binding to its canonical one. -/
theorem straight_canonical (h : Chained m l.targets) (b : BindingId) :
    Relation.ReflTransGen (Straight m l) b (l.canonical m b) := by
  generalize hn : Links.steps m l.targets b = n
  induction n using Nat.strong_induction_on generalizing b with
  | h n ih =>
      by_cases hend : l.targets.lookup b = Option.none ∨ m.isAlias b = true
      · rw [canonical_of_final h (Linking.final_iff.2 hend)]
      · rw [not_or, Bool.not_eq_true] at hend
        obtain ⟨t, ht⟩ := Option.ne_none_iff_exists'.1 hend.1
        have hbt : Straight m l b t := ⟨ht, hend.2⟩
        rw [canonical_of_tie h (Assoc.mem_of_lookup ht) hend.2]
        exact .head hbt (ih _ (hn ▸ hbt.steps h) t rfl)

/-- Linking comes to an end for any modules, with the links that `ofModules` computes. At every
moment, while searches and imports are under way and afterwards, straight links make no cycle, and
following them from any binding ends at the canonical one, which is an alias or has no target; so
afterwards the canonical binding of a canonical binding is itself. -/
theorem linking_terminates (m : Modules) :
    Acc (fun s₂ s₁ => Linking.Next m s₁ s₂) (Linking.start m) ∧
      Linking.Runs m (Linking.start m) (ofModules m, []) ∧
      (∀ l ts, Linking.Runs m (Linking.start m) (l, ts) →
        (∀ b, ¬Relation.TransGen (Straight m l) b b) ∧
          ∀ b, Relation.ReflTransGen (Straight m l) b (l.canonical m b) ∧
            (l.targets.lookup (l.canonical m b) = Option.none ∨
              m.isAlias (l.canonical m b) = true)) ∧
      ∀ b, (ofModules m).canonical m ((ofModules m).canonical m b) =
        (ofModules m).canonical m b := by
  have hruns := Linking.runs_ofModules m
  have hchained : ∀ l ts, Linking.Runs m (Linking.start m) (l, ts) → Chained m l.targets :=
    fun l ts h => ((Linking.sound_start m).runs h).chained
  refine ⟨Linking.acc_of_runs hruns, hruns, fun l ts h => ?_, fun b => ?_⟩
  · have hl := hchained l ts h
    exact ⟨not_transGen_straight hl, fun b =>
      ⟨straight_canonical hl b, Linking.final_iff.1 (final_canonical hl b)⟩⟩
  · exact canonical_canonical (hchained _ _ hruns) b

end Links

end Redline
