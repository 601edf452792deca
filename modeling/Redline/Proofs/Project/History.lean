import Redline.Project.Conflicts
import Redline.Proofs.Project.Renaming

/-!
# Answers do not depend on the history

Every question to a project is settled by the disk, also where files cannot be read. A history is a
list of events: changes of the disk, resets and questions. If between a change and the next question
there is a reset, every question is answered as by a project that was loaded for it alone.
-/

namespace Redline

namespace Project

section

variable {p : Project} {d : Disk} {α β : Type} {q : Query α} {f : α → Query β}

/-! ### Questions -/

/-- What is kept does not matter to the outcome of the question. -/
def Decided (p : Project) (d : Disk) (q : Query α) : Prop :=
  ∃ o, p.Settled d q o

theorem decided_pure (a : α) : p.Decided d (pure a) :=
  ⟨_, settled_pure a⟩

theorem decided_lift (o : Outcome α) : p.Decided d (liftM o) :=
  ⟨_, settled_lift o⟩

theorem decided_theIndex (p : Project) (d : Disk) : p.Decided d theIndex :=
  ⟨_, settled_theIndex p d⟩

theorem Decided.bind (hq : p.Decided d q) (hf : ∀ a, p.Decided d (f a)) :
    p.Decided d (q >>= f) := by
  obtain ⟨o, ho⟩ := hq
  choose g hg using hf
  exact ⟨_, ho.bind hg⟩

theorem Decided.map (hq : p.Decided d q) (g : α → β) : p.Decided d (g <$> q) := by
  rw [map_eq_pure_bind]
  exact hq.bind fun a => decided_pure (g a)

theorem Decided.mapM (hf : ∀ a, p.Decided d (f a)) (xs : List α) : p.Decided d (xs.mapM f) := by
  induction xs with
  | nil => exact decided_pure []
  | cons x xs ih =>
      rw [List.mapM_cons]
      exact (hf x).bind fun y => ih.bind fun ys => decided_pure (y :: ys)

theorem decided_resolve (p : Project) (d : Disk) (file : String) (line column : Int) :
    p.Decided d (resolve file line column) := by
  refine Decided.bind ⟨_, settled_source? p d file⟩ fun source => ?_
  cases source with
  | none => exact decided_pure none
  | some source =>
      dsimp only
      cases source.spotAt? NodeKind.isIdentifier line column with
      | none => exact decided_pure none
      | some spot => exact (decided_theIndex p d).bind fun _ => decided_pure _

theorem decided_symbolAt (p : Project) (d : Disk) (file : String) (line column : Int) :
    p.Decided d (symbolAt file line column) := by
  refine (decided_resolve p d file line column).bind fun found => ?_
  cases found with
  | none => exact decided_pure none
  | some found => exact (decided_theIndex p d).bind fun _ => decided_pure _

theorem decided_references (p : Project) (d : Disk) (key : String) :
    p.Decided d (references key) := by
  rw [references]
  cases SymbolKey.ofText key with
  | error m => exact decided_pure []
  | ok k =>
      refine (decided_resolve p d k.file k.line k.column).bind fun found => ?_
      cases found with
      | none => exact decided_pure []
      | some found =>
          obtain ⟨source, spot, t⟩ := found
          dsimp only
          split
          · exact decided_pure []
          · exact (decided_theIndex p d).bind fun _ => decided_pure _

theorem decided_find (p : Project) (d : Disk) (pattern : Pattern) : p.Decided d (find pattern) :=
  (decided_theIndex p d).bind fun _ => decided_pure _

theorem decided_rename (p : Project) (d : Disk) (now : Moment) (key new : String) :
    p.Decided d (rename now key new) := by
  refine (decided_references p d key).bind fun refs => ?_
  split
  · exact decided_lift _
  · exact decided_lift _
  · exact (decided_theIndex p d).bind fun _ => decided_pure _

theorem decided_batchPart (p : Project) (d : Disk) (x : Index) (pattern : Pattern)
    (replacement : String) (skip : List String) (m : SymbolMatch) :
    p.Decided d (batchPart x pattern replacement skip m) := by
  rw [batchPart]
  split
  · exact decided_pure _
  · exact (decided_references p d _).bind fun refs => decided_pure _

theorem decided_renameBatch (p : Project) (d : Disk) (now : Moment) (text replacement : String)
    (skip : List String) : p.Decided d (renameBatch now text replacement skip) :=
  (decided_lift _).bind fun pattern => (decided_theIndex p d).bind fun x =>
    (Decided.mapM (decided_batchPart p d x pattern replacement skip) _).bind fun _ =>
      decided_pure _

theorem decided_checkConflicts (p : Project) (d : Disk) (text replacement : String) :
    p.Decided d (checkConflicts text replacement) :=
  (decided_lift _).bind fun _ => (decided_theIndex p d).bind fun _ => decided_pure _

end

/-- A question to a project. A rename takes the time of its proposal. -/
inductive Question where
  | symbolAt (file : String) (line column : Int)
  | references (key : String)
  | find (pattern : Pattern)
  | findText (text : String)
  | rename (now : Moment) (key new : String)
  | renameBatch (now : Moment) (text replacement : String) (skip : List String)
  | checkConflicts (text replacement : String)

/-- An answer to a question. -/
inductive Answer where
  | symbol (found : Option Symbol)
  | references (refs : List Reference)
  | found (found : List SymbolMatch)
  | proposal (e : Editset)
  | report (r : ConflictReport)

/-- The query that a question makes. -/
def Question.query : Question → Query Answer
  | symbolAt file line column => Answer.symbol <$> Project.symbolAt file line column
  | references key => Answer.references <$> Project.references key
  | find pattern => Answer.found <$> Project.find pattern
  | findText text =>
      Answer.found <$> (liftM (Pattern.compile text true) >>= Project.find : Query _)
  | rename now key new => Answer.proposal <$> Project.rename now key new
  | renameBatch now text replacement skip =>
      Answer.proposal <$> Project.renameBatch now text replacement skip
  | checkConflicts text replacement => Answer.report <$> Project.checkConflicts text replacement

theorem decided_query (p : Project) (d : Disk) (q : Question) : p.Decided d q.query := by
  cases q with
  | symbolAt file line column => exact (decided_symbolAt p d file line column).map _
  | references key => exact (decided_references p d key).map _
  | find pattern => exact (decided_find p d pattern).map _
  | findText text => exact ((decided_lift _).bind (decided_find p d)).map _
  | rename now key new => exact (decided_rename p d now key new).map _
  | renameBatch now text replacement skip =>
      exact (decided_renameBatch p d now text replacement skip).map _
  | checkConflicts text replacement => exact (decided_checkConflicts p d text replacement).map _

/-! ### Histories -/

/-- What happens to a project and its disk. A change may be any change of the disk. -/
inductive Event where
  | change (d : Disk)
  | reset
  | ask (q : Question)

/-- A reset comes before the first question. -/
def ResetFirst : List Event → Prop
  | [] | .reset :: _ => True
  | .ask _ :: _ => False
  | .change _ :: events => ResetFirst events

/-- After every change of the disk a reset comes before the next question. -/
def Refreshed : List Event → Prop
  | [] => True
  | .change _ :: events => ResetFirst events ∧ Refreshed events
  | _ :: events => Refreshed events

/-- The outcomes of the questions of a history, all put to one project. -/
def answersFrom (p : Project) (d : Disk) : List Event → List (Outcome Answer)
  | [] => []
  | .change d' :: events => p.answersFrom d' events
  | .reset :: events => p.reset.answersFrom d events
  | .ask q :: events =>
      let (o, p') := q.query.runOn d p
      o :: p'.answersFrom d events

/-- The outcomes of the questions of a history, each put to a project loaded for it. -/
def freshAnswers (load : Disk → Project) (d : Disk) : List Event → List (Outcome Answer)
  | [] => []
  | .change d' :: events => freshAnswers load d' events
  | .reset :: events => freshAnswers load d events
  | .ask q :: events => (q.query.runOn d (load d)).1 :: freshAnswers load d events

/-- A question to a current project gives what a fresh one gives, and keeps the project current. -/
theorem Current.exists_runOn {p : Project} {d : Disk} (hp : p.Current d) (q : Question) :
    ∃ p', p'.reset = p.reset ∧ p'.Current d ∧
      q.query.runOn d p = ((q.query.runOn d p.reset).1, p') := by
  obtain ⟨o, ho⟩ := decided_query p d q
  obtain ⟨p', hset, hp', hrun⟩ := ho p rfl hp
  obtain ⟨_, _, _, hfresh⟩ := ho p.reset rfl (current_reset p d)
  exact ⟨p', hset, hp', by rw [hrun, hfresh]⟩

theorem load_eq_load {d d' : Disk} {root : Path} {config : String}
    (h : d'.isFile (root.join config) = d.isFile (root.join config)) (exclude : List String)
    (parse : Parser) : load d' root config exclude parse = load d root config exclude parse := by
  rw [load, load, h]

/-- The project is current, or a reset comes before it is asked anything. -/
theorem answersFrom_eq_of_current {p : Project} {d : Disk} {load : Disk → Project}
    {events : List Event} (hset : p.reset = load d) (hp : p.Current d ∨ ResetFirst events)
    (hload : ∀ d', .change d' ∈ events → load d' = load d) (hevents : Refreshed events) :
    p.answersFrom d events = freshAnswers load d events := by
  induction events generalizing p d with
  | nil => rfl
  | cons event events ih =>
      cases event with
      | change d' =>
          have hd' := hload d' List.mem_cons_self
          refine ih (hset.trans hd'.symm) (.inr hevents.1) (fun d'' hd'' => ?_) hevents.2
          rw [hd', hload d'' (List.mem_cons_of_mem _ hd'')]
      | reset =>
          exact ih hset (.inl (current_reset p d))
            (fun d' hd' => hload d' (List.mem_cons_of_mem _ hd')) hevents
      | ask q =>
          obtain ⟨p', hset', hp', hrun⟩ := (hp.resolve_right id).exists_runOn q
          have htail := ih (hset'.trans hset) (.inl hp')
            (fun d' hd' => hload d' (List.mem_cons_of_mem _ hd')) hevents
          rw [answersFrom, freshAnswers, hrun, ← hset]
          exact congrArg _ htail

/-- What a project keeps never shows. Where after every change of the disk a reset comes before the
next question, and no change makes or removes the configuration file, every question of a history is
answered as by a project loaded for it on the disk of that moment. -/
theorem answersFrom_load (root : Path) (config : String) (exclude : List String) (parse : Parser)
    (d : Disk) (events : List Event) (hevents : Refreshed events)
    (hconfig : ∀ d', .change d' ∈ events →
      d'.isFile (root.join config) = d.isFile (root.join config)) :
    (load d root config exclude parse).answersFrom d events =
      freshAnswers (fun d' => load d' root config exclude parse) d events :=
  answersFrom_eq_of_current rfl (.inl (current_reset (load d root config exclude parse) d))
    (fun d' hd' => load_eq_load (hconfig d' hd') exclude parse) hevents

/-- The two files of the accented project trade their places, between the questions. -/
def traded : List Event :=
  [.ask (.findText "é"), .ask (.references "a.ts:1:14:é"),
    .change (pairDisk "import \x7b é \x7d from './a';\né;\n" "export const é = 1;\n"), .reset,
    .ask (.references "b.ts:1:14:é"), .reset, .ask (.checkConflicts "é" "ö")]

theorem answersFrom_load_traded :
    Refreshed traded ∧
    (∀ d', .change d' ∈ traded → d'.isFile ((Path.ofString "/w").join "tsconfig.json") =
      accentedDisk.isFile ((Path.ofString "/w").join "tsconfig.json")) ∧
    accented.answersFrom accentedDisk traded =
      freshAnswers (fun d => load d (Path.ofString "/w") "tsconfig.json" [] accentedParser)
        accentedDisk traded := by
  have hevents : Refreshed traded := ⟨trivial, trivial⟩
  have hconfig : ∀ d', .change d' ∈ traded →
      d'.isFile ((Path.ofString "/w").join "tsconfig.json") =
        accentedDisk.isFile ((Path.ofString "/w").join "tsconfig.json") := by
    intro d' hd'
    simp only [traded, List.mem_cons, Event.change.injEq, reduceCtorEq, false_or,
      List.not_mem_nil, or_false] at hd'
    subst hd'
    rfl
  exact ⟨hevents, hconfig, answersFrom_load _ _ _ _ _ _ hevents hconfig⟩

end Project

end Redline
