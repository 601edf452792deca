import Redline.Command.Run
import Redline.Proofs.Command.Answers
import Redline.Proofs.Config.Load

/-!
# What a command line prints

A command line that is understood is to print one document and nothing else: the answer to its
request with the status zero, or the report of what went wrong with the status one. It does so
exactly if no error escapes while its session is set up; then nothing is printed.
-/

namespace Redline.Command

/-! ### Setting up -/

namespace Session

variable {s : Surroundings} {root : Path} {tsconfig : Option String} {verbose : Bool} {d : Disk}

/-- Where the configuration of a session comes from. -/
def sources (s : Surroundings) (root : Path) : Config.Sources :=
  { shared := some (Config.sharedFile s.home)
    root
    environment := s.environment
    given := []
    home := s.home }

/-- The log that a session opens. -/
def journal (config : Config) (verbose : Bool) : Log.Journal :=
  .ofSettings (if verbose then { config.logging with level := .debug } else config.logging)

/-- An error escapes while a session is set up: the loading of the configuration lets one out, or
the log cannot be opened. -/
inductive SetUpEscapes (s : Surroundings) (root : Path) (tsconfig : Option String)
    (verbose : Bool) (d : Disk) : Prop
  | load (h : Config.LoadEscapes d (sources s root))
  | log {config : Config} {fault : DiskFault} (hload : Config.load d (sources s root) = .ok config)
      (hproject : ∀ t, tsconfig = some t → d.isFile (root.join t) = true)
      (h : (journal config verbose).create d = .error fault)

theorem escapesIff_onDisk {α : Type} {step : Except DiskFault α} :
    EscapesIff (∃ fault, step = .error fault) (onDisk step) := by
  cases step with
  | ok a => exact (escapesIff_ok a).congr (by simp)
  | error fault => exact (escapesIff_mishapWith _).congr (by simp)

theorem escapesIff_setUp :
    EscapesIff (SetUpEscapes s root tsconfig verbose d) (setUp s root tsconfig verbose d) := by
  refine ((Config.escapesIff_load d (sources s root)).bind fun config _ =>
    (?_ : EscapesIff ((∀ t, tsconfig = some t → d.isFile (root.join t) = true) ∧
      ∃ fault, (journal config verbose).create d = .error fault) _)).congr ⟨?_, ?_⟩
  · dsimp only
    cases hmissing : tsconfig.filter fun t => !d.isFile (root.join t) with
    | some t =>
        obtain ⟨ht, hfile⟩ := Option.filter_eq_some_iff.1 hmissing
        refine (escapesIff_failWith rfl).congr (iff_of_false id ?_)
        rintro ⟨hproject, -⟩
        simp [hproject t ht] at hfile
    | none =>
        have hproject : ∀ t, tsconfig = some t → d.isFile (root.join t) = true := by
          simpa [Option.filter_eq_none_iff] using hmissing
        exact (escapesIff_onDisk.bind_left fun _ => escapesIff_ok _).congr
          (and_iff_right hproject).symm
  · rintro (h | ⟨config, hload, hproject, fault, h⟩)
    · exact .load h
    · exact .log hload hproject h
  · rintro (h | ⟨hload, hproject, h⟩)
    · exact .inl h
    · exact .inr ⟨_, hload, hproject, _, h⟩

end Session

/-! ### Running -/

/-- What a command line that is understood comes to: the answer to its request, in a session that is
set up for it. -/
def comesTo (s : Surroundings) (root : Path) (line : Line) (r : Request) (d : Disk) :
    Redline.Outcome Json := do
  let (session, d) ← Session.setUp s root line.preamble.tsconfig line.preamble.verbose d
  (((r.answer.run session).run).run { disk := d, calls := [] }).1

/-- The reply tells the outcome: one document is printed and nothing escapes. With the status zero
the document is the answer, with the status one the report of what went wrong. -/
structure Reply.Tells (reply : Reply) (o : Redline.Outcome Json) : Prop where
  escaped : reply.escaped = none
  status : reply.status = match o with
    | .ok _ => 0
    | .error _ => 1
  document : Json.parse reply.output = .ok (match o with
    | .ok j => j
    | .error t => t.toFailure.envelope)

theorem tells_prints {j : Json} (h : j.IsPrintable) : (prints 0 j).Tells (.ok j) :=
  ⟨rfl, rfl, h.parse_pretty⟩

theorem tells_reports {t : Trouble} (h : t.toFailure.envelope.IsPrintable) :
    (reports t.toFailure).Tells (.error t) :=
  ⟨rfl, rfl, h.parse_pretty⟩

/-- A request is answered by what its answer comes to. -/
theorem tells_runRequest (session : Session) (r : Request) (d : Disk) :
    (runRequest session r d).reply.Tells
      (((r.answer.run session).run).run { disk := d, calls := [] }).1 := by
  have hanswer := (gives_answer r).returns session { disk := d, calls := [] }
  rw [runRequest]
  revert hanswer
  obtain ⟨o, t⟩ := ((r.answer.run session).run).run { disk := d, calls := [] }
  cases o with
  | ok j => exact tells_prints
  | error t => exact tells_reports

section

variable {s : Surroundings} {d : Disk} {args : List String} {line : Line} {root : Path}
  {form : Form} {r : Request}

/-- If an error escapes, nothing is printed. -/
theorem run_of_setUpEscapes (hline : Line.read args = .done line)
    (hroot : workingRoot? d line.preamble.root = some root) (hform : form? line.name = some form)
    (h : Session.SetUpEscapes s root line.preamble.tsconfig line.preamble.verbose d) :
    ∃ m, run s d args = { reply := escapes m, disk := d, calls := [] } := by
  obtain ⟨m, hset⟩ := Session.escapesIff_setUp.iff.2 h
  refine ⟨m, ?_⟩
  rw [run, hline]
  dsimp only
  rw [hroot, hform]
  dsimp only
  rw [hset]
  rfl

end

/-- A machine without tools, variables or a parser. -/
def bareMachine : Surroundings :=
  { host := { locate := fun _ _ => none, execute := fun _ _ => none }
    parse := fun _ _ => default
    environment := []
    home := "/h"
    now := ⟨0⟩ }

/-- A disk with an editset that is not UTF-8. -/
def oddEditset : Disk :=
  { working := ["w"]
    entries := [(["w"], .folder), (["w", "e.json"], .file [0xFF])] }

/-- A disk with settings that are not UTF-8. -/
def oddSettings : Disk :=
  { working := ["w"]
    entries := [(["w"], .folder), (["w", ".editplane"], .folder),
      (["w", ".editplane", "config.yaml"], .file [0xFF])] }

end Redline.Command
