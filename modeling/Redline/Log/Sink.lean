import Redline.Disk.Basic
import Redline.Log.Line

/-!
# Where events go

A journal is what settings make: the level of the program and one sink for each output. An event is
kept if the program's level admits it, and each sink then takes it if its own level does. Files of
sinks are made when the journal is opened.
-/

namespace Redline.Log

/-- Where lines go. -/
structure Sink where
  /-- The file, or none for the error stream. -/
  file : Option Path
  format : Format
  level : Level
  deriving DecidableEq, Repr, Inhabited

/-- An open log. -/
structure Journal where
  level : Level
  sinks : List Sink
  deriving DecidableEq, Repr, Inhabited

/-- The sink of an output of a program with a level. -/
def Output.sink (o : Output) (level : Level) : Sink :=
  { file := if o.isStream then none else some (Path.ofString o.destination)
    format := o.format
    level := o.level.getD level }

namespace Journal

/-- The journal of settings. -/
def ofSettings (s : Settings) : Journal :=
  { level := s.level, sinks := s.outputs.map fun o => o.sink s.level }

/-- The first file that is logged to. -/
def file? (j : Journal) : Option Path :=
  j.sinks.findSome? Sink.file

/-- The file of a sink made, with the directories on the way, unless it is there. -/
def prepare (d : Disk) (s : Sink) : Except DiskFault Disk :=
  match s.file with
  | none => .ok d
  | some p => do
    let d ← d.makeFolders p.parent
    let place := p.normalize
    match d.read place with
    | .ok _ => .ok d
    | .error (.missing _) => d.write place []
    | .error f => .error f

/-- The files of all sinks made. -/
def create (j : Journal) (d : Disk) : Except DiskFault Disk :=
  j.sinks.foldlM prepare d

/-- Whether a sink takes an event. -/
def admits (j : Journal) (s : Sink) (e : Event) : Bool :=
  j.level.rank ≤ e.level.rank && s.level.rank ≤ e.level.rank

/-- The lines that an event leaves in a sink. -/
def linesOf (j : Journal) (s : Sink) (run : Option String) (e : Event) : List Json :=
  if j.admits s e then entryLines s.format (e.entry run) else []

/-- The lines that events leave in a sink; each event comes with the run to which it belongs. -/
def lines (j : Journal) (s : Sink) (events : List (Option String × Event)) : List Json :=
  events.flatMap fun e => j.linesOf s e.1 e.2

/-- The lines that events leave in one place: the sinks that go there take each event in turn. -/
def linesAt (j : Journal) (file : Option Path) (events : List (Option String × Event)) :
    List Json :=
  let sinks := j.sinks.filter fun s => s.file.map Path.normalize == file.map Path.normalize
  events.flatMap fun e => sinks.flatMap fun s => j.linesOf s e.1 e.2

end Journal

end Redline.Log
