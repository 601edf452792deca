import Mathlib.Logic.Relation
import Redline.Proofs.Link.Chains

/-!
# Linking step by step

Linking as a machine without a bound on its steps: its state holds the links made so far and the
tasks that are left, the next one first. A task is one of the calls that linking consists of, so the
tasks are the calls under way with what is left of them. An export is searched from a list of pairs
of module and name that are still to be looked at, and the binding that is found is linked before
its targets are followed. At every moment the ties are `Chained`.
-/

namespace Redline

/-- What asks for the binding behind an exported name: an import with its declaration, or a name
that may stand for that binding. -/
inductive Asker where
  | importer (b : BindingId) (d : Declaration) (i : Import)
  | name (text : String) (place : Place)

/-- A call that is under way, or is still to be made. -/
inductive Task where
  /-- An import is to be linked, if it is one. -/
  | link (b : BindingId)
  /-- An exported name is searched, with what was looked at and what is to be looked at. -/
  | search (asker : Asker) (seen : Modules.Seen) (todo : List (String × String))
  /-- Targets are followed from a binding. -/
  | walk (asker : Asker) (b : BindingId)
  /-- The members of a namespace are to be linked, if the binding is one. -/
  | members (file : String) (s : Scopes) (b : BindingId)

namespace Modules

/-- What a module has under a name: a binding, or names of other modules that lead on. -/
def leads (m : Modules) (file name : String) (s : Scopes) : BindingId ⊕ List (String × String) :=
  match s.exports.names.lookup name with
  | some (.own number) => .inl { file, number }
  | some (.passed source imported _) =>
    .inr ((m.resolve? file source).toList.map fun target => (target, imported))
  | none =>
    if name = "default" then .inr []
    else .inr ((s.exports.stars.filterMap (m.resolve? file)).map fun target => (target, name))

end Modules

namespace Linking

variable {m : Modules}

/-- What is done with the binding that was asked for. -/
def answer (m : Modules) (l : Links) (target : BindingId) : Asker → Links
  | .importer b d i => if target = b then l else l.tie b d i target
  | .name text place =>
    if (m.declaration? target).map Declaration.name = some text then l.linkNode target place else l

/-- The search for what an export clause passes on. -/
def exportTask (m : Modules) (file : String) : Export → List Task
  | .own _ => []
  | .passed source imported spot =>
    (m.resolve? file source).toList.map fun target =>
      .search (.name imported { file, spot }) [] [(target, imported)]

/-- The member that a use of a namespace asks for. -/
def memberOf? (use : Spot) : Option Spot :=
  match use.above, use.address with
  | parent :: above, _ :: address =>
    let p : Spot := { tree := parent, above, address }
    match p.child? "object", p.child? "property" with
    | some object, some member =>
      if p.kind = "member_expression" ∧ object.start = use.start then some member else none
    | _, _ => none
  | _, _ => none

/-- The search for the member that a use of a namespace asks for. -/
def memberTask (file : String) (source : Source) (module_ : String) (use : Spot) : List Task :=
  (memberOf? use).toList.map fun member =>
    let text := source.textOf member.tree
    .search (.name text { file, spot := member }) [] [(module_, text)]

/-- The tasks of a file once all imports are linked. -/
def fileTasks (m : Modules) (f : String × Scopes) : List Task :=
  (f.2.exports.names.map Prod.snd).flatMap (exportTask m f.1)
    ++ (Modules.importsOf f.1 f.2).map (.members f.1 f.2)

/-- One step of a task: the links after it, and the tasks that it turns into. -/
def step (m : Modules) (l : Links) : Task → Links × List Task
  | .link b =>
    if l.begun.contains b then (l, [])
    else
      match m.declaration? b with
      | none => (l, [])
      | some d =>
        match d.origin with
        | none => (l, [])
        | some i =>
          let l := { l with begun := b :: l.begun }
          match m.resolve? b.file i.source with
          | none => (l, [])
          | some file =>
            if i.imported = "*" then ({ l with namespaces := (b, file) :: l.namespaces }, [])
            else (l, [.search (.importer b d i) [] [(file, i.imported)]])
  | .search _ _ [] => (l, [])
  | .search asker seen ((file, name) :: todo) =>
    if seen.contains (file, name) then (l, [.search asker seen todo])
    else
      match m.scopes? file with
      | none => (l, [.search asker seen todo])
      | some s =>
        match m.leads file name s with
        | .inl b => (l, [.link b, .walk asker b])
        | .inr more => (l, [.search asker ((file, name) :: seen) (more ++ todo)])
  | .walk asker b =>
    match l.targets.lookup b with
    | some t => if m.isAlias b then (answer m l b asker, []) else (l, [.walk asker t])
    | none => (answer m l b asker, [])
  | .members file s b =>
    match l.namespaces.lookup b with
    | some module_ => (l, (s.spotsOf b.number).tail.flatMap (memberTask file s.source module_))
    | none => (l, [])

theorem step_link_of_begun {l : Links} {b : BindingId} (h : b ∈ l.begun) :
    step m l (.link b) = (l, []) := by
  rw [step, if_pos (by simpa using h)]

/-- A binding that is no import has nothing to be linked. -/
theorem step_link_of_no_import {l : Links} {b : BindingId}
    (h : ∀ d i, m.declaration? b = some d → d.origin ≠ some i) :
    step m l (.link b) = (l, []) := by
  rw [step]
  split_ifs
  · rfl
  cases hd : m.declaration? b with
  | none => rfl
  | some d =>
      cases hi : d.origin with
      | none => simp [hi]
      | some i => exact absurd hi (h d i hd)

/-- An import that was not begun is begun; what it asks for comes next, if there is such a
module. -/
theorem step_link {l : Links} {b : BindingId} {d : Declaration} {i : Import} (h : b ∉ l.begun)
    (hd : m.declaration? b = some d) (hi : d.origin = some i) :
    step m l (.link b) =
      match m.resolve? b.file i.source with
      | none => ({ l with begun := b :: l.begun }, [])
      | some file =>
        if i.imported = "*" then
          ({ l with begun := b :: l.begun, namespaces := (b, file) :: l.namespaces }, [])
        else
          ({ l with begun := b :: l.begun },
            [.search (.importer b d i) [] [(file, i.imported)]]) := by
  rw [step, if_neg (by simpa using h), hd]
  simp only [hi]

/-- A walk ends at a binding that has no target, or is an alias. -/
theorem step_walk_of_final {l : Links} {asker : Asker} {b : BindingId}
    (h : l.targets.lookup b = none ∨ m.isAlias b = true) :
    step m l (.walk asker b) = (answer m l b asker, []) := by
  rw [step]
  cases hlookup : l.targets.lookup b with
  | none => rfl
  | some t => exact if_pos (h.resolve_left (by simp [hlookup]))

theorem step_walk {l : Links} {asker : Asker} {b t : BindingId} (h : l.targets.lookup b = some t)
    (halias : m.isAlias b = false) : step m l (.walk asker b) = (l, [.walk asker t]) := by
  rw [step, h]
  exact if_neg (by simp [halias])

/-- The links made so far, with the tasks that are left. -/
abbrev State := Links × List Task

/-- A step of the whole is a step of the first task. -/
inductive Next (m : Modules) : State → State → Prop where
  | step (l : Links) (t : Task) (ts : List Task) :
      Next m (l, t :: ts) ((step m l t).1, (step m l t).2 ++ ts)

/-- Steps one after the other. -/
abbrev Runs (m : Modules) : State → State → Prop :=
  Relation.ReflTransGen (Next m)

/-- The start: no links, and all imports to be linked before the names in other modules. -/
def start (m : Modules) : State :=
  (Links.none, m.imports.map .link ++ m.files.flatMap (fileTasks m))

theorem Next.eq {s s₁ s₂ : State} (h₁ : Next m s s₁) (h₂ : Next m s s₂) : s₁ = s₂ := by
  cases h₁
  cases h₂
  rfl

theorem not_next_done (l : Links) (s : State) : ¬Next m (l, []) s := by
  intro h
  cases h

/-- The next state is determined, so a run that gets through all tasks leaves no endless one. -/
theorem acc_of_runs {s : State} {l : Links} (h : Runs m s (l, [])) :
    Acc (fun s₂ s₁ => Next m s₁ s₂) s := by
  induction h using Relation.ReflTransGen.head_induction_on with
  | refl => exact ⟨_, fun s hs => absurd hs (not_next_done l s)⟩
  | head hstep _ ih =>
      refine ⟨_, fun s hs => ?_⟩
      rw [hs.eq hstep]
      exact ih

/-! ### Every moment -/

/-- The import that a task waits to tie. -/
def importer? : Task → Option BindingId
  | .search (.importer b _ _) _ _ => some b
  | .walk (.importer b _ _) _ => some b
  | _ => none

/-- The imports that wait for the binding behind them. -/
def waiting (ts : List Task) : List BindingId :=
  ts.filterMap importer?

@[simp]
theorem waiting_append (ts ts' : List Task) : waiting (ts ++ ts') = waiting ts ++ waiting ts' :=
  List.filterMap_append

theorem waiting_eq_nil {ts : List Task} (h : ∀ t ∈ ts, importer? t = none) : waiting ts = [] :=
  List.filterMap_eq_nil_iff.2 h

theorem waiting_memberTask (file : String) (source : Source) (module_ : String) (use : Spot) :
    waiting (memberTask file source module_ use) = [] := by
  refine waiting_eq_nil fun t ht => ?_
  obtain ⟨member, -, rfl⟩ := List.mem_map.1 ht
  rfl

theorem waiting_fileTasks (f : String × Scopes) : waiting (fileTasks m f) = [] := by
  refine waiting_eq_nil fun t ht => ?_
  rcases List.mem_append.1 ht with ht | ht
  · obtain ⟨e, -, ht⟩ := List.mem_flatMap.1 ht
    cases e with
    | own number => cases ht
    | passed source imported spot =>
        obtain ⟨target, -, rfl⟩ := List.mem_map.1 ht
        rfl
  · obtain ⟨b, -, rfl⟩ := List.mem_map.1 ht
    rfl

/-- What holds at every moment: ties are chained, and what is tied or waits was begun; an import
that waits is not tied, and waits once. -/
structure Sound (m : Modules) (s : State) : Prop where
  chained : Links.Chained m s.1.targets
  tied : ∀ b ∈ s.1.targets.map Prod.fst, b ∈ s.1.begun
  begun : ∀ b ∈ waiting s.2, b ∈ s.1.begun
  untied : ∀ b ∈ waiting s.2, b ∉ s.1.targets.map Prod.fst
  once : (waiting s.2).Nodup

theorem sound_start (m : Modules) : Sound m (start m) := by
  have hwaiting : waiting (start m).2 = [] := by
    refine waiting_eq_nil fun t ht => ?_
    rcases List.mem_append.1 ht with ht | ht
    · obtain ⟨b, -, rfl⟩ := List.mem_map.1 ht
      rfl
    · obtain ⟨f, -, ht⟩ := List.mem_flatMap.1 ht
      exact List.filterMap_eq_nil_iff.1 (waiting_fileTasks f) t ht
  refine ⟨.nil, fun b hb => ?_, ?_, ?_, ?_⟩
  · cases hb
  all_goals
    rw [hwaiting]
    simp

variable {l l' : Links} {ts ts' : List Task}

/-- A step that ties nothing and lets no other import wait. -/
theorem Sound.of_sublist (h : Sound m (l, ts)) (htargets : l'.targets = l.targets)
    (hbegun : ∀ b ∈ l.begun, b ∈ l'.begun) (hwaiting : (waiting ts').Sublist (waiting ts)) :
    Sound m (l', ts') := by
  constructor <;> dsimp only
  · rw [htargets]
    exact h.chained
  · rw [htargets]
    exact fun b hb => hbegun b (h.tied b hb)
  · exact fun b hb => hbegun b (h.begun b (hwaiting.subset hb))
  · rw [htargets]
    exact fun b hb => h.untied b (hwaiting.subset hb)
  · exact h.once.sublist hwaiting

/-- An import that is begun waits for what is behind it. -/
theorem Sound.begin {b : BindingId} {d : Declaration} {i : Import} {todo : List (String × String)}
    (h : Sound m (l, ts)) (hb : b ∉ l.begun) :
    Sound m ({ l with begun := b :: l.begun }, .search (.importer b d i) [] todo :: ts) := by
  constructor <;> dsimp only
  · exact h.chained
  · exact fun c hc => List.mem_cons_of_mem _ (h.tied c hc)
  · intro c hc
    rcases List.mem_cons.1 hc with rfl | hc
    · exact List.mem_cons_self
    · exact List.mem_cons_of_mem _ (h.begun c hc)
  · intro c hc
    rcases List.mem_cons.1 hc with rfl | hc
    · exact fun htied => hb (h.tied _ htied)
    · exact h.untied c hc
  · exact List.nodup_cons.2 ⟨fun hwaits => hb (h.begun b hwaits), h.once⟩

/-- The binding that was asked for is final, and the import that waits for it is not tied. -/
theorem Sound.answer {asker : Asker} {c t : BindingId} (h : Sound m (l, .walk asker c :: ts))
    (ht : Links.Final m l.targets t) : Sound m (Linking.answer m l t asker, ts) := by
  have hrest : Sound m (l, ts) :=
    h.of_sublist rfl (fun _ hb => hb) (List.Sublist.filterMap _ (List.sublist_cons_self _ _))
  cases asker with
  | name text place =>
      rw [Linking.answer]
      split_ifs
      · exact hrest.of_sublist rfl (fun _ hb => hb) (.refl _)
      · exact hrest
  | importer b d i =>
      rw [Linking.answer]
      have hwaits : b ∈ waiting (.walk (.importer b d i) c :: ts) := List.mem_cons_self
      have hnot : b ∉ waiting ts := (List.nodup_cons.1 h.once).1
      split_ifs with hself
      · exact hrest
      constructor
      · exact .tie h.chained (h.untied b hwaits) hself ht
      · intro e he
        rcases List.mem_cons.1 he with rfl | he
        · exact h.begun _ hwaits
        · exact h.tied e he
      · exact hrest.begun
      · intro e he htied
        rcases List.mem_cons.1 htied with rfl | htied
        · exact hnot he
        · exact hrest.untied e he htied
      · exact hrest.once

/-- Final bindings, as a walk tells them. -/
theorem final_iff {ties : List (BindingId × BindingId)} {c : BindingId} :
    Links.Final m ties c ↔ ties.lookup c = none ∨ m.isAlias c = true := by
  rw [Links.Final, or_comm, List.lookup_eq_none_iff]
  refine or_congr_left ⟨fun h e he => ?_, fun h hmem => ?_⟩
  · exact bne_iff_ne.2 fun heq => h (List.mem_map.2 ⟨e, he, heq.symm⟩)
  · obtain ⟨e, he, rfl⟩ := List.mem_map.1 hmem
    simpa using h e he

theorem Sound.step {t : Task} (h : Sound m (l, t :: ts)) :
    Sound m ((step m l t).1, (step m l t).2 ++ ts) := by
  have hrest : Sound m (l, ts) :=
    h.of_sublist rfl (fun _ hb => hb) (List.Sublist.filterMap _ (List.sublist_cons_self _ _))
  cases t with
  | link b =>
      by_cases hbegun : b ∈ l.begun
      · rw [step_link_of_begun hbegun]
        exact hrest
      by_cases himport : ∃ d i, m.declaration? b = some d ∧ d.origin = some i
      · obtain ⟨d, i, hd, hi⟩ := himport
        rw [step_link hbegun hd hi]
        cases m.resolve? b.file i.source with
        | none => exact hrest.of_sublist rfl (fun _ hb => List.mem_cons_of_mem _ hb) (.refl _)
        | some file =>
            dsimp only
            split_ifs
            · exact hrest.of_sublist rfl (fun _ hb => List.mem_cons_of_mem _ hb) (.refl _)
            · exact hrest.begin hbegun
      · rw [step_link_of_no_import fun d i hd hi => himport ⟨d, i, hd, hi⟩]
        exact hrest
  | search asker seen todo =>
      cases todo with
      | nil => exact hrest
      | cons p todo =>
          obtain ⟨file, name⟩ := p
          have hkeep : ∀ (l : Links) (seen' : Modules.Seen) todo',
              Sound m (l, .search asker seen ((file, name) :: todo) :: ts) →
                Sound m (l, .search asker seen' todo' :: ts) := by
            intro l seen' todo' h
            cases asker <;> exact h.of_sublist rfl (fun _ hb => hb) (.refl _)
          rw [Linking.step]
          split_ifs
          · exact hkeep l seen todo h
          cases m.scopes? file with
          | none => exact hkeep l seen todo h
          | some s =>
              dsimp only
              cases m.leads file name s with
              | inl b => cases asker <;> exact h.of_sublist rfl (fun _ hb => hb) (.refl _)
              | inr more => exact hkeep l _ _ h
  | walk asker b =>
      by_cases hend : l.targets.lookup b = none ∨ m.isAlias b = true
      · rw [step_walk_of_final hend]
        exact h.answer (final_iff.2 hend)
      · rw [not_or, Bool.not_eq_true] at hend
        obtain ⟨t, ht⟩ := Option.ne_none_iff_exists'.1 hend.1
        rw [step_walk ht hend.2]
        cases asker <;> exact h.of_sublist rfl (fun _ hb => hb) (.refl _)
  | members file s b =>
      rw [Linking.step]
      cases l.namespaces.lookup b with
      | none => exact hrest
      | some module_ =>
          refine hrest.of_sublist rfl (fun _ hb => hb) ?_
          have hnone : waiting ((s.spotsOf b.number).tail.flatMap
              (memberTask file s.source module_)) = [] := by
            refine waiting_eq_nil fun t ht => ?_
            obtain ⟨use, -, ht⟩ := List.mem_flatMap.1 ht
            exact List.filterMap_eq_nil_iff.1 (waiting_memberTask file s.source module_ use) t ht
          rw [waiting_append, hnone]
          exact .refl _

/-- What holds at every moment of a run. -/
theorem Sound.runs {s s' : State} (h : Sound m s) (hruns : Runs m s s') : Sound m s' := by
  induction hruns with
  | refl => exact h
  | tail _ hnext ih =>
      cases hnext
      exact ih.step

end Linking

end Redline
