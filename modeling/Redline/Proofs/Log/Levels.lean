import Mathlib.Data.List.Basic
import Redline.Log.Sink
import Redline.Proofs.Text.Parts

/-!
# From which level on an output takes events

An output is to take every event from its own level on, or from that of the program if it has none.
The level of the program stands before all outputs: an event below it is withheld from an output
with a lower level. What is written is what is wanted exactly where nothing is withheld.
-/

namespace Redline.Log

namespace Settings

/-- The level of an output: its own, or that of the program. -/
def levelOf (s : Settings) (o : Output) : Level :=
  o.level.getD s.level

/-- The lines that an output is to have: those of the events from its level on, in order. -/
def wantedLines (s : Settings) (o : Output) (events : List (Option String × Event)) : List Json :=
  (events.filter fun e => decide ((s.levelOf o).rank ≤ e.2.level.rank)).flatMap fun e =>
    entryLines o.format (e.2.entry e.1)

/-- The outputs that go to one place. -/
def outputsAt (s : Settings) (file : Option Path) : List Output :=
  s.outputs.filter fun o => (o.sink s.level).file.map Path.normalize == file.map Path.normalize

/-- The lines that one place is to have: for each event, those of the outputs that go there. -/
def wantedLinesAt (s : Settings) (file : Option Path) (events : List (Option String × Event)) :
    List Json :=
  events.flatMap fun e => (s.outputsAt file).flatMap fun o => s.wantedLines o [e]

/-- An event from the level of the output on that is below the level of the program. -/
def Withholds (s : Settings) (o : Output) (e : Event) : Prop :=
  (s.levelOf o).rank ≤ e.level.rank ∧ e.level.rank < s.level.rank

theorem wantedLines_eq_flatMap (s : Settings) (o : Output)
    (events : List (Option String × Event)) :
    s.wantedLines o events = events.flatMap fun e => s.wantedLines o [e] := by
  induction events with
  | nil => rfl
  | cons e events ih =>
      rw [List.flatMap_cons, ← ih, wantedLines, wantedLines, wantedLines, ← List.flatMap_append,
        ← List.filter_append, List.singleton_append]

end Settings

theorem entryLines_ne_nil (format : Format) (members : List (String × Json)) :
    entryLines format members ≠ [] := by
  cases format with
  | json => exact List.cons_ne_nil _ _
  | console =>
      intro h
      rw [entryLines, List.map_eq_nil_iff, Text.splitOnChar, List.map_eq_nil_iff] at h
      exact Text.splitAtChar_ne_nil _ _ h

section

variable {α β : Type} {f g : α → List β} {as : List α}

theorem length_flatMap_le (h : ∀ a ∈ as, (f a).length ≤ (g a).length) :
    (as.flatMap f).length ≤ (as.flatMap g).length := by
  induction as with
  | nil => exact Nat.le_refl _
  | cons a as ih =>
      have ha := h a List.mem_cons_self
      have has := ih fun b hb => h b (List.mem_cons_of_mem _ hb)
      simp only [List.flatMap_cons, List.length_append]
      omega

/-- Two lists put together from parts, of which those of the first are nowhere longer. -/
theorem flatMap_eq_flatMap_iff (h : ∀ a ∈ as, (f a).length ≤ (g a).length) :
    as.flatMap f = as.flatMap g ↔ ∀ a ∈ as, f a = g a := by
  refine ⟨fun heq => ?_, fun heq => List.flatMap_congr heq⟩
  induction as with
  | nil => nofun
  | cons a as ih =>
      have ha := h a List.mem_cons_self
      have has := fun b hb => h b (List.mem_cons_of_mem a hb)
      have hlength := congrArg List.length heq
      have hrest := length_flatMap_le has
      simp only [List.flatMap_cons, List.length_append] at heq hlength
      obtain ⟨hhead, htail⟩ := List.append_inj heq (by omega)
      rintro b hb
      rcases List.mem_cons.1 hb with rfl | hb
      · exact hhead
      · exact ih has htail b hb

end

namespace Journal

variable (s : Settings) (o : Output)

/-- An event that the level of the program admits leaves the wanted lines, any other one none. -/
theorem linesOf_sink (e : Option String × Event) :
    (ofSettings s).linesOf (o.sink s.level) e.1 e.2 =
      if s.level.rank ≤ e.2.level.rank then s.wantedLines o [e] else [] := by
  have hadmits : (ofSettings s).admits (o.sink s.level) e.2 =
      (decide (s.level.rank ≤ e.2.level.rank) &&
        decide ((s.levelOf o).rank ≤ e.2.level.rank)) := rfl
  have hformat : (o.sink s.level).format = o.format := rfl
  rw [linesOf, hadmits, hformat, Settings.wantedLines]
  by_cases hroot : s.level.rank ≤ e.2.level.rank <;>
    by_cases hown : (s.levelOf o).rank ≤ e.2.level.rank <;> simp [hroot, hown]

theorem length_linesOf_sink_le (e : Option String × Event) :
    ((ofSettings s).linesOf (o.sink s.level) e.1 e.2).length ≤ (s.wantedLines o [e]).length := by
  rw [linesOf_sink]
  split
  · exact Nat.le_refl _
  · exact Nat.zero_le _

/-- An event leaves the wanted lines unless it is withheld. -/
theorem linesOf_sink_eq_iff (e : Option String × Event) :
    (ofSettings s).linesOf (o.sink s.level) e.1 e.2 = s.wantedLines o [e] ↔
      ¬s.Withholds o e.2 := by
  rw [linesOf_sink, Settings.Withholds]
  split
  · rename_i hroot
    exact iff_of_true rfl fun h => absurd hroot (Nat.not_le.2 h.2)
  · rename_i hroot
    by_cases hown : (s.levelOf o).rank ≤ e.2.level.rank
    · have hwanted : s.wantedLines o [e] = entryLines o.format (e.2.entry e.1) := by
        simp [Settings.wantedLines, hown]
      rw [hwanted]
      exact iff_of_false (entryLines_ne_nil _ _).symm (not_not.2 ⟨hown, Nat.not_le.1 hroot⟩)
    · exact iff_of_true (by simp [Settings.wantedLines, hown]) fun h => hown h.1

/-- An output has the lines that are wanted of the events that the level of the program admits. -/
theorem lines_sink (events : List (Option String × Event)) :
    (ofSettings s).lines (o.sink s.level) events =
      s.wantedLines o (events.filter fun e => decide (s.level.rank ≤ e.2.level.rank)) := by
  rw [lines, Settings.wantedLines_eq_flatMap]
  induction events with
  | nil => rfl
  | cons e events ih =>
      rw [List.flatMap_cons, ih, linesOf_sink, List.filter_cons]
      by_cases hroot : s.level.rank ≤ e.2.level.rank <;> simp [hroot]

/-- An output has the wanted lines exactly if none of the events is withheld from it. -/
theorem lines_sink_eq_iff (events : List (Option String × Event)) :
    (ofSettings s).lines (o.sink s.level) events = s.wantedLines o events ↔
      ∀ e ∈ events, ¬s.Withholds o e.2 := by
  rw [lines, Settings.wantedLines_eq_flatMap,
    flatMap_eq_flatMap_iff fun e _ => length_linesOf_sink_le s o e]
  exact forall₂_congr fun e _ => linesOf_sink_eq_iff s o e

theorem linesAt_eq_flatMap (file : Option Path) (events : List (Option String × Event)) :
    (ofSettings s).linesAt file events = events.flatMap fun e =>
      (s.outputsAt file).flatMap fun o => (ofSettings s).linesOf (o.sink s.level) e.1 e.2 := by
  rw [linesAt, ofSettings, List.filter_map]
  simp only [List.flatMap_map]
  rfl

/-- A place has the wanted lines exactly if none of the events is withheld from an output that goes
there. -/
theorem linesAt_eq_iff (file : Option Path) (events : List (Option String × Event)) :
    (ofSettings s).linesAt file events = s.wantedLinesAt file events ↔
      ∀ e ∈ events, ∀ o ∈ s.outputsAt file, ¬s.Withholds o e.2 := by
  have houtputs (e : Option String × Event) :
      (s.outputsAt file).flatMap (fun o => (ofSettings s).linesOf (o.sink s.level) e.1 e.2) =
        (s.outputsAt file).flatMap (fun o => s.wantedLines o [e]) ↔ _ :=
    flatMap_eq_flatMap_iff fun o _ => length_linesOf_sink_le s o e
  rw [linesAt_eq_flatMap, Settings.wantedLinesAt,
    flatMap_eq_flatMap_iff fun e _ => length_flatMap_le fun o _ => length_linesOf_sink_le s o e]
  refine forall₂_congr fun e _ => ?_
  rw [houtputs e]
  exact forall₂_congr fun o _ => linesOf_sink_eq_iff s o e

end Journal

/-- What an output gets of the events from its own level on. It has the lines of those that the
level of the program admits as well, so it has all that are wanted exactly if none of the events is
withheld from it, and a place has them exactly if none is from an output that goes there. For all
events every output has them exactly if none has a level below that of the program. -/
theorem lines_from_own_level_iff (s : Settings) :
    (∀ o events, (Journal.ofSettings s).lines (o.sink s.level) events =
      s.wantedLines o (events.filter fun e => decide (s.level.rank ≤ e.2.level.rank))) ∧
    (∀ o events, (Journal.ofSettings s).lines (o.sink s.level) events = s.wantedLines o events ↔
      ∀ e ∈ events, ¬s.Withholds o e.2) ∧
    (∀ file events, (Journal.ofSettings s).linesAt file events = s.wantedLinesAt file events ↔
      ∀ e ∈ events, ∀ o ∈ s.outputsAt file, ¬s.Withholds o e.2) ∧
    ((∀ o ∈ s.outputs, ∀ events,
        (Journal.ofSettings s).lines (o.sink s.level) events = s.wantedLines o events) ↔
      ∀ o ∈ s.outputs, s.level.rank ≤ (s.levelOf o).rank) := by
  refine ⟨Journal.lines_sink s, Journal.lines_sink_eq_iff s, Journal.linesAt_eq_iff s,
    forall₂_congr fun o _ => ?_⟩
  simp only [Journal.lines_sink_eq_iff, Settings.Withholds, not_and, Nat.not_lt]
  constructor
  · intro h
    let e : Event := { level := s.levelOf o, text := "", logger := none, fields := [] }
    exact h [(none, e)] (none, e) (List.mem_singleton_self _) (Nat.le_refl _)
  · intro h events e _ hown
    exact Nat.le_trans h hown

/-- The output to the error stream with a level of its own, the least. -/
def Output.everything : Output :=
  { format := .json, destination := "stderr", level := some .debug }

/-- Below the level of the program nothing is written to an output that is to have everything. -/
theorem lines_withheld_from_output :
    let s : Settings := { level := .warning, outputs := [Output.everything] }
    let e : Event := { level := .debug, text := "step", logger := none, fields := [] }
    let wanted : List Json := [.obj [("event", .str "step"), ("level", .str "debug")]]
    (Journal.ofSettings s).lines (Output.everything.sink s.level) [(none, e)] = [] ∧
      (Journal.ofSettings s).linesAt none [(none, e)] = [] ∧
      s.wantedLines Output.everything [(none, e)] = wanted ∧
      s.wantedLinesAt none [(none, e)] = wanted := by
  refine ⟨?_, ?_, ?_, ?_⟩ <;> rfl

end Redline.Log
