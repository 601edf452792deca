import Mathlib.Tactic.Common
import Redline.Project.Basic
import Redline.Proofs.Disk.Frame

/-!
# What a project keeps

A project is `Current` with a disk when what it keeps of the files and their index is what reading
the disk now would give. A question is `Settled` when every current state of the project gives it
the same outcome, an answer or a fault of the disk, and is current afterwards. Reading a source and
reading the index are, so everything is that is put together from these.
-/

namespace Redline

/-- The answer to a question and the project after it. -/
def Query.runOn {α : Type} (q : Query α) (d : Disk) (p : Project) : Outcome α × Project :=
  ((q.run d).run).run p

namespace Project

/-- The outcome of reading a source file, without anything kept. -/
def readSource (p : Project) (d : Disk) (name : String) : Outcome (Option Source) :=
  if (p.discover d).contains (tidy name) then (p.parseFile d (tidy name)).map some else .ok none

/-- The outcome of reading all source files and analysing them. -/
def readIndex (p : Project) (d : Disk) : Outcome Index := do
  return Index.ofSources (← (p.discover d).filterMapM (p.readSource d))

/-- What the project keeps is what the disk gives. -/
structure Current (p : Project) (d : Disk) : Prop where
  files : ∀ files, p.files = some files → files = p.discover d
  sources : ∀ file s, p.sources.lookup file = some s →
    file ∈ p.discover d ∧ p.parseFile d file = .ok s
  index : ∀ x, p.index = some x → p.readIndex d = .ok x

/-- Every current state of the project gives a question this outcome and is current afterwards. -/
def Settled {α : Type} (p : Project) (d : Disk) (q : Query α) (o : Outcome α) : Prop :=
  ∀ p₁, p₁.reset = p.reset → p₁.Current d →
    ∃ p₂, p₂.reset = p.reset ∧ p₂.Current d ∧ q.runOn d p₁ = (o, p₂)

section

variable {p : Project} {d : Disk} {α β : Type} {q : Query α} {f : α → Query β}

theorem runOn_bind_ok {p₁ p₂ : Project} {a : α} (h : q.runOn d p₁ = (.ok a, p₂)) :
    (q >>= f).runOn d p₁ = (f a).runOn d p₂ := by
  rw [Query.runOn, ReaderT.run_bind, ExceptT.run_bind, StateT.run_bind]
  rw [Query.runOn] at h
  rw [h]
  rfl

theorem runOn_bind_error {p₁ p₂ : Project} {t : Trouble} (h : q.runOn d p₁ = (.error t, p₂)) :
    (q >>= f).runOn d p₁ = (.error t, p₂) := by
  rw [Query.runOn, ReaderT.run_bind, ExceptT.run_bind, StateT.run_bind]
  rw [Query.runOn] at h
  rw [h]
  rfl

theorem runOn_pure (a : α) (p₁ : Project) :
    (Pure.pure a : Query α).runOn d p₁ = (.ok a, p₁) := rfl

theorem runOn_get_bind (g : Project → Query β) (p₁ : Project) :
    (get >>= g).runOn d p₁ = (g p₁).runOn d p₁ := rfl

theorem runOn_read_bind (g : Disk → Query β) (p₁ : Project) :
    (read >>= g).runOn d p₁ = (g d).runOn d p₁ := rfl

theorem runOn_set_bind (p₁ p₂ : Project) (g : PUnit → Query β) :
    (set p₁ >>= g).runOn d p₂ = (g ⟨⟩).runOn d p₁ := rfl

/-! ### Settings -/

theorem discover_congr {p₁ : Project} (h : p₁.reset = p.reset) : p₁.discover = p.discover := by
  show p₁.reset.discover = p.reset.discover
  rw [h]

theorem parseFile_congr {p₁ : Project} (h : p₁.reset = p.reset) : p₁.parseFile = p.parseFile := by
  show p₁.reset.parseFile = p.reset.parseFile
  rw [h]

theorem readIndex_congr {p₁ : Project} (h : p₁.reset = p.reset) : p₁.readIndex = p.readIndex := by
  show p₁.reset.readIndex = p.reset.readIndex
  rw [h]

/-- Being current, told by a project with the same settings. -/
theorem current_of_reset_eq {p₁ : Project} (h : p₁.reset = p.reset)
    (files : ∀ files, p₁.files = some files → files = p.discover d)
    (sources : ∀ file s, p₁.sources.lookup file = some s →
      file ∈ p.discover d ∧ p.parseFile d file = .ok s)
    (index : ∀ x, p₁.index = some x → p.readIndex d = .ok x) : p₁.Current d := by
  rw [← discover_congr h] at files sources
  rw [← parseFile_congr h] at sources
  rw [← readIndex_congr h] at index
  exact ⟨files, sources, index⟩

theorem Current.of_reset_eq {p₁ : Project} (hp : p₁.Current d) (h : p₁.reset = p.reset) :
    (∀ files, p₁.files = some files → files = p.discover d) ∧
      (∀ file s, p₁.sources.lookup file = some s →
        file ∈ p.discover d ∧ p.parseFile d file = .ok s) ∧
      ∀ x, p₁.index = some x → p.readIndex d = .ok x := by
  rw [← discover_congr h, ← parseFile_congr h, ← readIndex_congr h]
  exact ⟨hp.files, hp.sources, hp.index⟩

theorem current_reset (p : Project) (d : Disk) : p.reset.Current d :=
  ⟨by rintro _ ⟨⟩, by rintro _ _ ⟨⟩, by rintro _ ⟨⟩⟩

/-! ### Steps -/

theorem settled_pure (a : α) : p.Settled d (pure a) (.ok a) :=
  fun p₁ hset hp => ⟨p₁, hset, hp, rfl⟩

theorem settled_lift (o : Outcome α) : p.Settled d (liftM o) o := by
  intro p₁ hset hp
  refine ⟨p₁, hset, hp, ?_⟩
  cases o <;> rfl

theorem Settled.bind {o : Outcome α} {g : α → Outcome β} (hq : p.Settled d q o)
    (hf : ∀ a, p.Settled d (f a) (g a)) : p.Settled d (q >>= f) (o >>= g) := by
  intro p₁ hset hp
  obtain ⟨p₂, hset₂, hp₂, hrun⟩ := hq p₁ hset hp
  cases o with
  | error t => exact ⟨p₂, hset₂, hp₂, runOn_bind_error hrun⟩
  | ok a =>
      rw [runOn_bind_ok hrun]
      exact hf a p₂ hset₂ hp₂

theorem Settled.filterMapM {f : α → Query (Option β)} {g : α → Outcome (Option β)}
    (h : ∀ a, p.Settled d (f a) (g a)) (xs : List α) :
    p.Settled d (xs.filterMapM f) (xs.filterMapM g) := by
  induction xs with
  | nil => exact settled_pure []
  | cons x xs ih =>
      rw [List.filterMapM_cons, List.filterMapM_cons]
      refine (h x).bind fun y => ?_
      cases y with
      | none => exact ih
      | some y => exact ih.bind fun ys => settled_pure (y :: ys)

theorem runOn_listFiles_of_some {p₁ : Project} {files : List String}
    (h : p₁.files = some files) : listFiles.runOn d p₁ = (.ok files, p₁) := by
  rw [listFiles, runOn_get_bind, h]
  dsimp only
  rw [runOn_pure]

theorem runOn_listFiles_of_none {p₁ : Project} (h : p₁.files = none) :
    listFiles.runOn d p₁ = (.ok (p₁.discover d), { p₁ with files := some (p₁.discover d) }) := by
  rw [listFiles, runOn_get_bind, h]
  dsimp only
  rw [runOn_read_bind, runOn_set_bind, runOn_pure]

theorem settled_listFiles (p : Project) (d : Disk) :
    p.Settled d listFiles (.ok (p.discover d)) := by
  intro p₁ hset hp
  obtain ⟨hfiles, hsources, hindex⟩ := hp.of_reset_eq hset
  cases hkept : p₁.files with
  | some files => exact ⟨p₁, hset, hp, hfiles files hkept ▸ runOn_listFiles_of_some hkept⟩
  | none =>
      refine ⟨{ p₁ with files := some (p.discover d) }, hset, ?_, ?_⟩
      · refine current_of_reset_eq hset ?_ hsources hindex
        rintro _ ⟨⟩
        rfl
      · rw [runOn_listFiles_of_none hkept, discover_congr hset]

theorem settled_source? (p : Project) (d : Disk) (name : String) :
    p.Settled d (source? name) (p.readSource d name) := by
  intro p₁ hset hp
  cases hkept : p₁.sources.lookup (tidy name) with
  | some s =>
      obtain ⟨hmem, hparse⟩ := (hp.of_reset_eq hset).2.1 _ _ hkept
      refine ⟨p₁, hset, hp, ?_⟩
      rw [source?, runOn_get_bind, hkept, readSource, if_pos (List.contains_iff_mem.2 hmem), hparse]
      rfl
  | none =>
      obtain ⟨p₂, hset₂, hp₂, hrun⟩ := settled_listFiles p d p₁ hset hp
      have hstart : (source? name).runOn d p₁ = (listFiles >>= fun files =>
          if files.contains (tidy name) then do
            let p ← get
            let s ← liftM (p.parseFile (← read) (tidy name))
            set { p with sources := (tidy name, s) :: p.sources }
            return some s
          else return none : Query (Option Source)).runOn d p₁ := by
        rw [source?, runOn_get_bind, hkept]
      rw [hstart, runOn_bind_ok hrun, readSource]
      by_cases hmem : (p.discover d).contains (tidy name)
      · rw [if_pos hmem, if_pos hmem, runOn_get_bind, runOn_read_bind, parseFile_congr hset₂]
        cases hparse : p.parseFile d (tidy name) with
        | error t => exact ⟨p₂, hset₂, hp₂, rfl⟩
        | ok s =>
            obtain ⟨hfiles, hsources, hindex⟩ := hp₂.of_reset_eq hset₂
            refine ⟨{ p₂ with sources := (tidy name, s) :: p₂.sources }, hset₂,
              current_of_reset_eq hset₂ hfiles (fun file s' hs' => ?_) hindex, rfl⟩
            rw [List.lookup_cons] at hs'
            by_cases heq : file = tidy name
            · subst heq
              rw [beq_self_eq_true] at hs'
              cases hs'
              exact ⟨List.contains_iff_mem.1 hmem, hparse⟩
            · rw [beq_false_of_ne heq] at hs'
              exact hsources file s' hs'
      · rw [if_neg hmem, if_neg hmem]
        exact ⟨p₂, hset₂, hp₂, rfl⟩

theorem settled_theIndex (p : Project) (d : Disk) : p.Settled d theIndex (p.readIndex d) := by
  intro p₁ hset hp
  cases hkept : p₁.index with
  | some x =>
      refine ⟨p₁, hset, hp, ?_⟩
      rw [theIndex, runOn_get_bind, hkept, (hp.of_reset_eq hset).2.2 x hkept]
      rfl
  | none =>
      have hread : p.Settled d (listFiles >>= fun files => files.filterMapM source?)
          ((p.discover d).filterMapM (p.readSource d)) :=
        (settled_listFiles p d).bind fun files =>
          Settled.filterMapM (settled_source? p d) files
      obtain ⟨p₂, hset₂, hp₂, hrun⟩ := hread p₁ hset hp
      have hstart : theIndex.runOn d p₁ = ((listFiles >>= fun files => files.filterMapM source?)
          >>= fun sources => do
            modify fun p => { p with index := some (Index.ofSources sources) }
            return Index.ofSources sources : Query Index).runOn d p₁ := by
        rw [theIndex, runOn_get_bind, hkept, bind_assoc]
      rw [hstart]
      cases hsources : (p.discover d).filterMapM (p.readSource d) with
      | error t =>
          rw [hsources] at hrun
          refine ⟨p₂, hset₂, hp₂, ?_⟩
          rw [runOn_bind_error hrun, readIndex, hsources]
          rfl
      | ok sources =>
          rw [hsources] at hrun
          have hindex : p.readIndex d = .ok (Index.ofSources sources) := by
            rw [readIndex, hsources]
            rfl
          obtain ⟨hfiles, hsources, -⟩ := hp₂.of_reset_eq hset₂
          rw [runOn_bind_ok hrun, hindex]
          refine ⟨{ p₂ with index := some (Index.ofSources sources) }, hset₂,
            current_of_reset_eq hset₂ hfiles hsources ?_, rfl⟩
          rintro _ ⟨⟩
          exact hindex

end

end Project

end Redline
