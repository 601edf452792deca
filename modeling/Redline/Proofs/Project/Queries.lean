import Redline.Project.Symbols
import Redline.Proofs.Project.Kept

/-!
# What a project keeps does not change its answers

A project `Agrees` with a disk when what it keeps is what reading the disk would give. A question
`Answers` with an outcome when every agreeing state of the project gives that outcome and agrees
afterwards, so answers are put together without looking at what is kept. Where all files can be
read, the sources and the index are functions of the disk, `sourceOn` and `indexOn`, and a settled
question answers with its outcome.
-/

namespace Redline

namespace Project

variable {p : Project} {d : Disk}

/-- All files of the project hold UTF-8 texts. -/
def Readable (p : Project) (d : Disk) : Prop :=
  ∀ file ∈ p.discover d, ∃ text, d.readText (p.root.join file) = .ok text

/-- A source file, as the disk has it. -/
def sourceOn (p : Project) (d : Disk) (name : String) : Option Source :=
  if (p.discover d).contains (tidy name) then (p.parseFile d (tidy name)).toOption else none

/-- The source files, as the disk has them. -/
def sourcesOn (p : Project) (d : Disk) : List Source :=
  (p.discover d).filterMap (p.sourceOn d)

/-- The index of the project, as the disk has it. -/
def indexOn (p : Project) (d : Disk) : Index :=
  Index.ofSources (p.sourcesOn d)

/-- What the project keeps is what the disk has. -/
structure Agrees (p : Project) (d : Disk) : Prop where
  files : ∀ files, p.files = some files → files = p.discover d
  sources : ∀ file s, p.sources.lookup file = some s →
    file ∈ p.discover d ∧ p.parseFile d file = .ok s
  index : ∀ x, p.index = some x → x = p.indexOn d

theorem agrees_reset (p : Project) (d : Disk) : p.reset.Agrees d :=
  ⟨by rintro _ ⟨⟩, by rintro _ _ ⟨⟩, by rintro _ ⟨⟩⟩

theorem agrees_load (d : Disk) (root : Path) (config : String) (exclude : List String)
    (parse : Parser) : (load d root config exclude parse).Agrees d :=
  agrees_reset (load d root config exclude parse) d

/-- Every state of the project that agrees with the disk gives this outcome to a question and
agrees afterwards. -/
def Answers {α : Type} (p : Project) (d : Disk) (q : Query α) (o : Outcome α) : Prop :=
  ∀ p₁, p₁.reset = p.reset → p₁.Agrees d →
    ∃ p₂, p₂.reset = p.reset ∧ p₂.Agrees d ∧ q.runOn d p₁ = (o, p₂)

section

variable {α β : Type} {q : Query α} {f : α → Query β}

theorem Answers.unique {o o' : Outcome α} (h : p.Answers d q o) (h' : p.Answers d q o') :
    o = o' := by
  obtain ⟨p₂, -, -, hrun⟩ := h p.reset rfl (agrees_reset p d)
  obtain ⟨p₂', -, -, hrun'⟩ := h' p.reset rfl (agrees_reset p d)
  exact (Prod.mk.inj (hrun.symm.trans hrun')).1

theorem Answers.pure (a : α) : p.Answers d (Pure.pure a) (.ok a) :=
  fun p₁ hset hp => ⟨p₁, hset, hp, rfl⟩

theorem Answers.lift (o : Outcome α) : p.Answers d (liftM o) o := by
  intro p₁ hset hp
  refine ⟨p₁, hset, hp, ?_⟩
  cases o <;> rfl

theorem Answers.bind {a : α} {o : Outcome β} (hq : p.Answers d q (.ok a))
    (hf : p.Answers d (f a) o) : p.Answers d (q >>= f) o := by
  intro p₁ hset hp
  obtain ⟨p₂, hset₂, hp₂, hrun⟩ := hq p₁ hset hp
  rw [runOn_bind_ok hrun]
  exact hf p₂ hset₂ hp₂

theorem Answers.bind_error {t : Trouble} (hq : p.Answers d q (.error t)) :
    p.Answers d (q >>= f) (.error t) := by
  intro p₁ hset hp
  obtain ⟨p₂, hset₂, hp₂, hrun⟩ := hq p₁ hset hp
  exact ⟨p₂, hset₂, hp₂, runOn_bind_error hrun⟩

theorem Answers.mapM {α β : Type} {f : α → Query β} {g : α → β} (xs : List α)
    (h : ∀ x ∈ xs, p.Answers d (f x) (.ok (g x))) :
    p.Answers d (xs.mapM f) (.ok (xs.map g)) := by
  induction xs with
  | nil => exact Answers.pure []
  | cons x xs ih =>
      rw [List.mapM_cons]
      exact (h x (by simp)).bind
        ((ih fun y hy => h y (List.mem_cons_of_mem _ hy)).bind (Answers.pure _))

/-! ### Where all files can be read -/

theorem exists_parseFile_of_readText {file text : String}
    (htext : d.readText (p.root.join file) = .ok text) :
    ∃ s, p.parseFile d file = .ok s ∧ s.path = file ∧ Text.Utf8.decode s.bytes = .ok text := by
  obtain ⟨content, hread, hdecode⟩ := Disk.readText_eq_ok_iff.1 htext
  have hparse : p.parseFile d file = .ok (Source.make file content
      (p.parse ((Grammar.ofSuffix? (Text.toLower (p.root.join file).suffix)).getD .typescript)
        content)) := by
    rw [parseFile, hread]
    rfl
  exact ⟨_, hparse, rfl, hdecode⟩

/-- A file that can be read can be parsed. -/
theorem exists_parseFile (h : p.Readable d) {file : String} (hfile : file ∈ p.discover d) :
    ∃ s text, p.parseFile d file = .ok s ∧ s.path = file ∧
      Text.Utf8.decode s.bytes = .ok text ∧ d.readText (p.root.join file) = .ok text := by
  obtain ⟨text, htext⟩ := h file hfile
  obtain ⟨s, hparse, hpath, hdecode⟩ := exists_parseFile_of_readText htext
  exact ⟨s, text, hparse, hpath, hdecode, htext⟩

theorem sourceOn_of_mem (h : p.Readable d) {name : String} (hname : tidy name ∈ p.discover d) :
    ∃ s, p.sourceOn d name = some s ∧ p.parseFile d (tidy name) = .ok s := by
  obtain ⟨s, -, hparse, -⟩ := exists_parseFile h hname
  refine ⟨s, ?_, hparse⟩
  rw [sourceOn, if_pos (by simpa using hname), hparse]
  rfl

theorem sourceOn_of_notMem {name : String} (hname : tidy name ∉ p.discover d) :
    p.sourceOn d name = none := by
  rw [sourceOn, if_neg (by simpa using hname)]

theorem readSource_eq (h : p.Readable d) (name : String) :
    p.readSource d name = .ok (p.sourceOn d name) := by
  by_cases hmem : tidy name ∈ p.discover d
  · obtain ⟨s, hs, hparse⟩ := sourceOn_of_mem h hmem
    rw [readSource, if_pos (by simpa using hmem), hparse, hs]
    rfl
  · rw [readSource, if_neg (by simpa using hmem), sourceOn_of_notMem hmem]

theorem filterMapM_readSource (h : p.Readable d) (names : List String) :
    names.filterMapM (p.readSource d) = .ok (names.filterMap (p.sourceOn d)) := by
  induction names with
  | nil => rfl
  | cons name names ih =>
      rw [List.filterMapM_cons, readSource_eq h, List.filterMap_cons]
      cases p.sourceOn d name with
      | none => exact ih
      | some s =>
          show (names.filterMapM (p.readSource d) >>= fun ss => pure (s :: ss)) = _
          rw [ih]
          rfl

theorem readIndex_eq (h : p.Readable d) : p.readIndex d = .ok (p.indexOn d) := by
  rw [readIndex, filterMapM_readSource h]
  rfl

theorem agrees_iff_current (h : p.Readable d) : p.Agrees d ↔ p.Current d := by
  constructor
  · rintro ⟨hfiles, hsources, hindex⟩
    refine ⟨hfiles, hsources, fun x hx => ?_⟩
    rw [readIndex_eq h, ← hindex x hx]
  · rintro ⟨hfiles, hsources, hindex⟩
    refine ⟨hfiles, hsources, fun x hx => ?_⟩
    rw [readIndex_eq h] at hindex
    exact (Except.ok.inj (hindex x hx)).symm

theorem Readable.of_reset_eq {p₁ : Project} (h : p.Readable d) (hset : p₁.reset = p.reset) :
    p₁.Readable d := by
  have hreset : p.reset.Readable d := h
  rw [← hset] at hreset
  exact hreset

theorem Settled.answers {o : Outcome α} (hq : p.Settled d q o) (h : p.Readable d) :
    p.Answers d q o := by
  intro p₁ hset hp
  obtain ⟨p₂, hset₂, hp₂, hrun⟩ := hq p₁ hset ((agrees_iff_current (h.of_reset_eq hset)).1 hp)
  exact ⟨p₂, hset₂, (agrees_iff_current (h.of_reset_eq hset₂)).2 hp₂, hrun⟩

theorem answers_source? (h : p.Readable d) (name : String) :
    p.Answers d (source? name) (.ok (p.sourceOn d name)) := by
  rw [← readSource_eq h]
  exact (settled_source? p d name).answers h

theorem answers_theIndex (h : p.Readable d) : p.Answers d theIndex (.ok (p.indexOn d)) := by
  rw [← readIndex_eq h]
  exact (settled_theIndex p d).answers h

/-- What stands at a position, as the disk has it. -/
def resolveOn (p : Project) (d : Disk) (file : String) (line column : Int) :
    Option (Source × Spot × Target) :=
  match p.sourceOn d file with
  | none => none
  | some source =>
    match source.spotAt? NodeKind.isIdentifier line column with
    | none => none
    | some spot => ((p.indexOn d).targetOf? source spot).map fun t => (source, spot, t)

/-- The references of the symbol with a key, as the disk has them. -/
def referencesOn (p : Project) (d : Disk) (key : String) : List Reference :=
  match SymbolKey.ofText key with
  | .error _ => []
  | .ok k =>
    match p.resolveOn d k.file k.line k.column with
    | none => []
    | some (source, spot, t) =>
      if source.textOf spot.tree != k.name then [] else (p.indexOn d).references t

theorem answers_resolve (h : p.Readable d) (file : String) (line column : Int) :
    p.Answers d (resolve file line column) (.ok (p.resolveOn d file line column)) := by
  rw [resolve, resolveOn]
  refine (answers_source? h file).bind ?_
  cases p.sourceOn d file with
  | none => exact Answers.pure none
  | some source =>
      dsimp only
      cases source.spotAt? NodeKind.isIdentifier line column with
      | none => exact Answers.pure none
      | some spot => exact (answers_theIndex h).bind (Answers.pure _)

theorem answers_references (h : p.Readable d) (key : String) :
    p.Answers d (references key) (.ok (p.referencesOn d key)) := by
  rw [references, referencesOn]
  cases SymbolKey.ofText key with
  | error m => exact Answers.pure []
  | ok k =>
      dsimp only
      refine (answers_resolve h k.file k.line k.column).bind ?_
      cases p.resolveOn d k.file k.line k.column with
      | none => exact Answers.pure []
      | some found =>
          obtain ⟨source, spot, t⟩ := found
          dsimp only
          by_cases hname : source.textOf spot.tree != k.name
          · rw [if_pos hname, if_pos hname]
            exact Answers.pure []
          · rw [if_neg hname, if_neg hname]
            exact (answers_theIndex h).bind (Answers.pure _)

end

end Project

end Redline
