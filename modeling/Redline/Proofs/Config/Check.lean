import Redline.Config.Check
import Redline.Proofs.Store

/-!
# How the checking of settings stops

A setting that does not fit is reported as a cause. Two things are not caught and escape: a
top-level key that is no text, and a log that goes to the home directory of another user, if nothing
that is looked at before it is out of place. `EntriesEscape` says so of a whole mapping.
-/

namespace Redline

/-- An error that no operation expects. -/
def Escapes {α : Type} (o : Outcome α) : Prop :=
  ∃ m, o = mishapWith m

/-- What stops the outcome is a cause in the configuration, or an error that escapes, which it is
exactly under the condition. -/
structure EscapesIff {α : Type} (B : Prop) (o : Outcome α) : Prop where
  iff : Escapes o ↔ B
  cause : ∀ f, o = failWith f → f.area = "ConfigError"

section

variable {α β : Type} {B B' : Prop}

theorem not_escapes_ok {a : α} : ¬ Escapes (.ok a : Outcome α) := by
  rintro ⟨m, ⟨⟩⟩

theorem escapesIff_ok (a : α) : EscapesIff False (.ok a : Outcome α) :=
  ⟨iff_false_intro not_escapes_ok, nofun⟩

theorem escapesIff_failWith {f : Failure} (h : f.area = "ConfigError") :
    EscapesIff False (failWith f : Outcome α) := by
  refine ⟨iff_false_intro ?_, ?_⟩
  · rintro ⟨m, ⟨⟩⟩
  · rintro _ ⟨⟩
    exact h

theorem escapesIff_mishapWith (m : Mishap) : EscapesIff True (mishapWith m : Outcome α) :=
  ⟨iff_true_intro ⟨m, rfl⟩, nofun⟩

theorem EscapesIff.congr {o : Outcome α} (h : EscapesIff B o) (hiff : B ↔ B') : EscapesIff B' o :=
  ⟨h.iff.trans hiff, h.cause⟩

theorem EscapesIff.bind {o : Outcome α} {f : α → Outcome β} {C : α → Prop}
    (ho : EscapesIff B o) (hf : ∀ a, o = .ok a → EscapesIff (C a) (f a)) :
    EscapesIff (B ∨ ∃ a, o = .ok a ∧ C a) (o >>= f) := by
  cases o with
  | ok a =>
      have hB : ¬ B := fun h => not_escapes_ok (ho.iff.2 h)
      refine (hf a rfl).congr ⟨fun h => .inr ⟨a, rfl, h⟩, ?_⟩
      rintro (h | ⟨a', ⟨⟩, h⟩)
      · exact absurd h hB
      · exact h
  | error t =>
      cases t with
      | failure g =>
          refine (escapesIff_failWith (ho.cause g rfl)).congr ⟨False.elim, ?_⟩
          rintro (h | ⟨a, ⟨⟩, -⟩)
          obtain ⟨m, ⟨⟩⟩ := ho.iff.2 h
      | mishap m =>
          exact (escapesIff_mishapWith m).congr (iff_of_true trivial (.inl (ho.iff.1 ⟨m, rfl⟩)))

/-- What follows a step that does not escape, and whose result does not matter to it. -/
theorem EscapesIff.bind_right {o : Outcome α} {f : α → Outcome β} {P : Prop}
    (ho : EscapesIff False o) (hP : (∃ a, o = .ok a) ↔ P) (hf : ∀ a, EscapesIff B (f a)) :
    EscapesIff (P ∧ B) (o >>= f) :=
  (ho.bind fun a _ => hf a).congr (by simp [← hP])

/-- A step before others that do not escape. -/
theorem EscapesIff.bind_left {o : Outcome α} {f : α → Outcome β}
    (ho : EscapesIff B o) (hf : ∀ a, EscapesIff False (f a)) : EscapesIff B (o >>= f) :=
  (ho.bind fun a _ => hf a).congr (by simp)

theorem EscapesIff.map {o : Outcome α} (f : α → β) (ho : EscapesIff B o) :
    EscapesIff B (o.map f) := by
  have h := ho.bind_left fun a => escapesIff_ok (f a)
  cases o <;> exact h

end

namespace Config

/-! ### Settings -/

section

variable {α : Type} {check : List String → Yaml → Outcome α} {path : List String} {v : Yaml}

theorem escapesIff_refuse {reason : String} :
    EscapesIff False (refuse path v reason : Outcome α) :=
  escapesIff_failWith rfl

theorem escapesIff_checkText (path : List String) (v : Yaml) :
    EscapesIff False (checkText path v) := by
  rw [checkText.eq_def]
  split
  · exact escapesIff_ok _
  · exact escapesIff_refuse

/-- A text that is one of some words. -/
def IsWord (ofName? : String → Option α) (v : Yaml) : Prop :=
  ∃ s a, v = .text s ∧ ofName? s = some a

theorem escapesIff_checkWord {ofName? : String → Option α} {reason : String} :
    EscapesIff False (checkWord ofName? reason path v) := by
  rw [checkWord.eq_def]
  split
  · split
    · exact escapesIff_ok _
    · exact escapesIff_refuse
  · exact escapesIff_refuse

theorem exists_checkWord_iff {ofName? : String → Option α} {reason : String} :
    (∃ a, checkWord ofName? reason path v = .ok a) ↔ IsWord ofName? v := by
  rw [checkWord.eq_def]
  constructor
  · rintro ⟨a, h⟩
    split at h
    · split at h
      · exact ⟨_, _, rfl, ‹_›⟩
      · cases h
    · cases h
  · rintro ⟨s, a, rfl, h⟩
    exact ⟨a, by simp [Yaml.text, h]⟩

/-- The setting of a key in a group. -/
theorem escapesIff_checkPart {B : Yaml → Prop} {entries : List (Scalar × Yaml)} {key : String}
    {usual : α} (h : ∀ v, EscapesIff (B v) (check (path ++ [key]) v)) :
    EscapesIff (∃ v, entries.lookup (.text key) = some v ∧ B v)
      (checkPart check path (fun key => entries.lookup (.text key)) key usual) := by
  rw [checkPart]
  cases entries.lookup (.text key) with
  | none => exact (escapesIff_ok _).congr (by simp)
  | some v => exact (h v).congr (by simp)

theorem escapesIff_checkPart_false {entries : List (Scalar × Yaml)} {key : String} {usual : α}
    (h : ∀ path v, EscapesIff False (check path v)) :
    EscapesIff False (checkPart check path (fun key => entries.lookup (.text key)) key usual) :=
  (escapesIff_checkPart (h _)).congr (by simp)

theorem exists_checkPart_iff {P : Yaml → Prop} {entries : List (Scalar × Yaml)} {key : String}
    {usual : α} (h : ∀ path v, (∃ a, check path v = .ok a) ↔ P v) :
    (∃ a, checkPart check path (fun key => entries.lookup (.text key)) key usual = .ok a) ↔
      ∀ v, entries.lookup (.text key) = some v → P v := by
  rw [checkPart]
  cases entries.lookup (.text key) with
  | none => simp
  | some v => simp [h]

/-- What is made of a group of settings. -/
theorem escapesIff_ofGroup {kind : String} {f : (String → Option Yaml) → Outcome α}
    {B : List (Scalar × Yaml) → Prop}
    (h : ∀ entries, EscapesIff (B entries) (f fun key => entries.lookup (.text key))) :
    EscapesIff (∃ entries, v = .map entries ∧ B entries) (checkGroup kind path v >>= f) := by
  rw [checkGroup.eq_def]
  split
  · exact (h _).congr (by simp)
  · rename_i hv
    change EscapesIff _ (refuse path v _)
    refine escapesIff_refuse.congr ⟨False.elim, ?_⟩
    rintro ⟨entries, rfl, -⟩
    exact hv entries rfl

theorem escapesIff_ofGroup_false {kind : String} {f : (String → Option Yaml) → Outcome α}
    (h : ∀ entries : List (Scalar × Yaml),
      EscapesIff False (f fun key => entries.lookup (.text key))) :
    EscapesIff False (checkGroup kind path v >>= f) :=
  (escapesIff_ofGroup h).congr (by simp)

/-- The items up to one that escapes fit. -/
theorem escapesIff_checkItems {B : Yaml → Prop} (h : ∀ path v, EscapesIff (B v) (check path v))
    (number : Nat) (items : List Yaml) :
    EscapesIff (∃ before v after, items = before ++ v :: after ∧
      (∃ as, checkItems check path number before = .ok as) ∧ B v)
      (checkItems check path number items) := by
  induction items generalizing number with
  | nil => exact (escapesIff_ok _).congr (by simp)
  | cons v rest ih =>
      rw [checkItems]
      refine ((h _ v).bind fun a ha => (ih (number + 1)).bind_left fun _ =>
        escapesIff_ok _).congr ?_
      constructor
      · rintro (hv | ⟨a, ha, before, w, after, rfl, ⟨as, has⟩, hw⟩)
        · exact ⟨[], v, rest, rfl, ⟨[], rfl⟩, hv⟩
        · refine ⟨v :: before, w, after, rfl, ⟨a :: as, ?_⟩, hw⟩
          rw [checkItems, ha]
          dsimp only [bind, Except.bind]
          rw [has]
          rfl
      · rintro ⟨before, w, after, heq, ⟨as, has⟩, hw⟩
        cases before with
        | nil =>
            obtain ⟨rfl, rfl⟩ := List.cons.inj heq
            exact .inl hw
        | cons u before =>
            obtain ⟨rfl, rfl⟩ := List.cons.inj heq
            rw [checkItems] at has
            obtain ⟨a, ha, has⟩ := bind_eq_ok.1 has
            obtain ⟨bs, hbs, -⟩ := bind_eq_ok.1 has
            exact .inr ⟨a, ha, before, w, after, rfl, ⟨bs, hbs⟩, hw⟩

theorem escapesIff_checkList {B : List Yaml → Prop}
    (h : ∀ items, EscapesIff (B items) (checkItems check path 0 items)) :
    EscapesIff (∃ items, v = .seq items ∧ B items) (checkList check path v) := by
  rw [checkList.eq_def]
  split
  · exact (h _).congr (by simp)
  · rename_i hv
    refine escapesIff_refuse.congr ⟨False.elim, ?_⟩
    rintro ⟨items, rfl, -⟩
    exact hv items rfl

end

/-! ### The log -/

/-- A text that names a place in the home directory of another user. -/
def NamesStranger (v : Yaml) : Prop :=
  ∃ s first rest, v = .text s ∧ Path.ofString s = { isAbsolute := false, parts := first :: rest } ∧
    first ≠ "~" ∧ first.toList.head? = some '~'

theorem namesStranger_text_iff {s : String} :
    NamesStranger (.scalar (.text s)) ↔ ∃ first rest,
      Path.ofString s = { isAbsolute := false, parts := first :: rest } ∧
        first ≠ "~" ∧ first.toList.head? = some '~' := by
  constructor
  · rintro ⟨s', first, rest, heq, h⟩
    obtain rfl := Scalar.text.inj (Yaml.scalar.inj heq)
    exact ⟨first, rest, h⟩
  · rintro ⟨first, rest, h⟩
    exact ⟨s, first, rest, rfl, h⟩

theorem escapesIff_checkDestination (home : String) (path : List String) (v : Yaml) :
    EscapesIff (NamesStranger v) (checkDestination home path v) := by
  rw [checkDestination, checkText.eq_def]
  split
  · rename_i s
    dsimp only [bind, Except.bind]
    refine EscapesIff.congr ?_ namesStranger_text_iff.symm
    split
    · rename_i hs
      have hparts : Path.ofString s = { isAbsolute := false, parts := [s] } := by
        obtain rfl | rfl := hs <;> decide +kernel
      refine (escapesIff_ok _).congr ⟨False.elim, ?_⟩
      rintro ⟨first, rest, hp, -, hfirst⟩
      obtain ⟨rfl, -⟩ := List.cons.inj (Path.mk.inj (hparts.symm.trans hp)).2
      obtain rfl | rfl := hs <;> revert hfirst <;> decide
    · cases Path.ofString s with
      | mk isAbsolute parts =>
      dsimp only
      split
      · exact (escapesIff_ok _).congr (by simp)
      · exact (escapesIff_ok _).congr (by simp)
      · rename_i first rest hother
        split
        · rename_i htilde
          refine (escapesIff_mishapWith _).congr
            (iff_of_true trivial ⟨first, rest, rfl, ?_, htilde⟩)
          rintro rfl
          exact hother rfl
        · rename_i htilde
          exact escapesIff_refuse.congr (by simp [htilde])
      · exact escapesIff_refuse.congr (by simp)
  · rename_i hv
    refine (escapesIff_failWith rfl).congr ⟨False.elim, ?_⟩
    rintro ⟨s, -, -, rfl, -⟩
    exact hv s rfl

theorem escapesIff_checkOwnLevel (path : List String) (v : Yaml) :
    EscapesIff False (checkOwnLevel path v) := by
  rw [checkOwnLevel.eq_def]
  split
  · exact escapesIff_ok _
  · exact escapesIff_checkWord.map some

/-- An output whose format fits and whose destination is a stranger's. -/
def LogsToStranger (v : Yaml) : Prop :=
  ∃ entries, v = .map entries ∧
    (∀ format, entries.lookup (.text "format") = some format → IsWord Log.Format.ofName? format) ∧
    ∃ destination, entries.lookup (.text "destination") = some destination ∧
      NamesStranger destination

theorem escapesIff_checkOutput (home : String) (path : List String) (v : Yaml) :
    EscapesIff (LogsToStranger v) (checkOutput home path v) := by
  refine escapesIff_ofGroup fun entries => ?_
  refine (escapesIff_checkPart_false fun _ _ => escapesIff_checkWord).bind_right
    (exists_checkPart_iff fun _ _ => exists_checkWord_iff) fun format => ?_
  exact (escapesIff_checkPart (escapesIff_checkDestination home _)).bind_left fun _ =>
    (escapesIff_checkPart_false escapesIff_checkOwnLevel).bind_left fun _ => escapesIff_ok _

/-- Settings of the log whose level fits, and of whose outputs one logs to a stranger and those
before it fit. -/
def LoggingEscapes (home : String) (v : Yaml) : Prop :=
  ∃ entries, v = .map entries ∧
    (∀ level, entries.lookup (.text "level") = some level → IsWord Log.Level.ofName? level) ∧
    ∃ outputs, entries.lookup (.text "outputs") = some outputs ∧
      ∃ items, outputs = .seq items ∧ ∃ before output after, items = before ++ output :: after ∧
        (∃ fitting, checkItems (checkOutput home) ["logging", "outputs"] 0 before = .ok fitting) ∧
        LogsToStranger output

theorem escapesIff_checkLogging (home : String) (v : Yaml) :
    EscapesIff (LoggingEscapes home v) (checkLogging home ["logging"] v) := by
  refine escapesIff_ofGroup fun entries => ?_
  refine (escapesIff_checkPart_false fun _ _ => escapesIff_checkWord).bind_right
    (exists_checkPart_iff fun _ _ => exists_checkWord_iff) fun level => ?_
  have houtputs : ∀ v, EscapesIff _ (checkList (checkOutput home) ["logging", "outputs"] v) :=
    fun v => escapesIff_checkList fun items =>
      escapesIff_checkItems (escapesIff_checkOutput home) 0 items
  exact (escapesIff_checkPart houtputs).bind_left fun _ => escapesIff_ok _

/-! ### The mapping -/

theorem escapesIff_checkTexts (path : List String) (v : Yaml) :
    EscapesIff False (checkList checkText path v) :=
  (escapesIff_checkList fun items => escapesIff_checkItems escapesIff_checkText 0 items).congr
    (by simp)

theorem escapesIff_checkTools (path : List String) (v : Yaml) :
    EscapesIff False (checkTools path v) := by
  refine escapesIff_ofGroup_false fun entries => ?_
  exact (escapesIff_checkPart_false escapesIff_checkText).bind_left fun _ =>
    (escapesIff_checkPart_false escapesIff_checkText).bind_left fun _ => escapesIff_ok _

theorem escapesIff_checkDiscovery (path : List String) (v : Yaml) :
    EscapesIff False (checkDiscovery path v) := by
  refine escapesIff_ofGroup_false fun entries => ?_
  exact (escapesIff_checkPart_false escapesIff_checkText).bind_left fun _ =>
    (escapesIff_checkPart_false escapesIff_checkTexts).bind_left fun _ =>
      (escapesIff_checkPart_false escapesIff_checkText).bind_left fun _ => escapesIff_ok _

theorem escapesIff_checkStorage (path : List String) (v : Yaml) :
    EscapesIff False (checkStorage path v) := by
  refine escapesIff_ofGroup_false fun entries => ?_
  exact (escapesIff_checkPart_false escapesIff_checkText).bind_left fun _ =>
    (escapesIff_checkPart_false escapesIff_checkText).bind_left fun _ => escapesIff_ok _

theorem escapesIff_checkKeys (entries : List (Scalar × Yaml)) :
    EscapesIff False (checkKeys entries) := by
  induction entries with
  | nil => exact escapesIff_ok _
  | cons e rest ih =>
      rw [checkKeys]
      split
      · exact ih
      · exact escapesIff_refuse

/-- A mapping that has a key that is no text, or of whose settings those of the log escape. -/
inductive EntriesEscape (home : String) (entries : List (Scalar × Yaml)) : Prop
  | key (h : entries.all isTextKey = false)
  | logging {v : Yaml} (htext : entries.all isTextKey = true)
      (hlookup : entries.lookup (.text "logging") = some v) (h : LoggingEscapes home v)

theorem escapesIff_ofEntries (home : String) (entries : List (Scalar × Yaml)) :
    EscapesIff (EntriesEscape home entries) (ofEntries home entries) := by
  cases htext : entries.all isTextKey with
  | false =>
      rw [ofEntries, htext]
      exact (escapesIff_mishapWith _).congr (iff_of_true trivial (.key htext))
  | true =>
      have hconfig : EscapesIff (∃ v, entries.lookup (.text "logging") = some v ∧
          LoggingEscapes home v) (ofEntries home entries) := by
        rw [ofEntries, htext]
        exact (escapesIff_checkPart (escapesIff_checkLogging home)).bind_left fun _ =>
          (escapesIff_checkPart_false escapesIff_checkTools).bind_left fun _ =>
            (escapesIff_checkPart_false escapesIff_checkDiscovery).bind_left fun _ =>
              (escapesIff_checkPart_false escapesIff_checkStorage).bind_left fun _ =>
                (escapesIff_checkKeys entries).bind_left fun _ => escapesIff_ok _
      refine hconfig.congr ⟨?_, ?_⟩
      · rintro ⟨v, hlookup, h⟩
        exact .logging htext hlookup h
      · rintro (h | ⟨-, hlookup, h⟩)
        · rw [htext] at h
          cases h
        · exact ⟨_, hlookup, h⟩

end Config

end Redline
