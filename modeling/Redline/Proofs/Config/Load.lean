import Redline.Config.Load
import Redline.Proofs.Config.Check
import Redline.Proofs.Loading

/-!
# How the loading of a configuration stops

What is wrong in the sources of a configuration is reported as a cause, with exceptions, which
escape: a file that is a directory, that is no text or that holds a number or a date without a
value, a variable of the environment that should be JSON and is not, and what escapes when the
settings are checked. `LoadEscapes` says when one does, in the order in which the sources are looked
at.
-/

namespace Redline.Config

/-! ### The environment -/

/-- The outcome escapes under the condition, and is a result otherwise. -/
structure EscapesOnly {α : Type} (B : Prop) (o : Outcome α) : Prop where
  escapes : B → Escapes o
  ok : ¬ B → ∃ a, o = .ok a

section

variable {α β : Type} {B C : Prop} {o : Outcome α} {f : α → Outcome β}

theorem escapesOnly_ok (a : α) : EscapesOnly False (.ok a : Outcome α) :=
  ⟨False.elim, fun _ => ⟨a, rfl⟩⟩

theorem EscapesOnly.congr {B' : Prop} (h : EscapesOnly B o) (hiff : B ↔ B') : EscapesOnly B' o :=
  ⟨fun hB => h.escapes (hiff.2 hB), fun hB => h.ok fun h => hB (hiff.1 h)⟩

theorem EscapesOnly.escapesIff (h : EscapesOnly B o) : EscapesIff B o := by
  by_cases hB : B
  · obtain ⟨m, rfl⟩ := h.escapes hB
    exact (escapesIff_mishapWith m).congr (iff_of_true trivial hB)
  · obtain ⟨a, rfl⟩ := h.ok hB
    exact (escapesIff_ok a).congr (iff_of_false id hB)

theorem EscapesOnly.bind (ho : EscapesOnly B o) (hf : ∀ a, EscapesOnly C (f a)) :
    EscapesOnly (B ∨ C) (o >>= f) := by
  by_cases hB : B
  · obtain ⟨m, rfl⟩ := ho.escapes hB
    exact ⟨fun _ => ⟨m, rfl⟩, fun h => absurd (.inl hB) h⟩
  · obtain ⟨a, rfl⟩ := ho.ok hB
    exact (hf a).congr (by simp [hB])

theorem EscapesOnly.bind_left (ho : EscapesOnly B o) (hf : ∀ a, EscapesOnly False (f a)) :
    EscapesOnly B (o >>= f) :=
  (ho.bind hf).congr (by rw [or_false])

theorem EscapesOnly.mapM {P : α → Prop} (h : ∀ a, EscapesOnly (P a) (f a)) (xs : List α) :
    EscapesOnly (∃ x ∈ xs, P x) (xs.mapM f) := by
  induction xs with
  | nil => exact (escapesOnly_ok _).congr (by simp)
  | cons x xs ih =>
      rw [List.mapM_cons]
      exact ((h x).bind fun b => ih.bind_left fun bs => escapesOnly_ok (b :: bs)).congr (by simp)

end

/-- A text that is no JSON document. -/
def NotJson (text : String) : Prop :=
  ∀ j, Json.parse text ≠ .ok j

theorem escapesOnly_decoded (group text : String) :
    EscapesOnly (NotJson text) (decoded group text) := by
  rw [decoded]
  cases hparse : Json.parse text with
  | ok j => exact (escapesOnly_ok _).congr ⟨False.elim, fun h => h j hparse⟩
  | error reason =>
      refine ⟨fun _ => ⟨_, rfl⟩, fun h => absurd (fun j hj => ?_) h⟩
      rw [hparse] at hj
      cases hj

/-- A variable that sets a list of a group and is neither empty nor a JSON document. -/
def IsBadList (group : Group) (variable_ : String × String) : Prop :=
  ∃ key, keyPath? group variable_.1 = some [key] ∧ key ∈ group.lists ∧
    variable_.2.isEmpty = false ∧ NotJson variable_.2

theorem escapesOnly_singleSettings (group : Group) (vars : List (String × String))
    (settings : Yaml) :
    EscapesOnly (∃ v ∈ vars, IsBadList group v) (singleSettings group vars settings) := by
  induction vars generalizing settings with
  | nil => exact (escapesOnly_ok _).congr (by simp)
  | cons v rest ih =>
      obtain ⟨name, text⟩ := v
      simp only [List.mem_cons, exists_eq_or_imp]
      have hgood {settings : Yaml} (h : ¬ IsBadList group (name, text)) :
          EscapesOnly (IsBadList group (name, text) ∨ ∃ v ∈ rest, IsBadList group v)
            (singleSettings group rest settings) :=
        (ih settings).congr (by simp only [h, false_or])
      rw [singleSettings]
      cases hpath : keyPath? group name with
      | none => exact hgood (by simp [IsBadList, hpath])
      | some path =>
          dsimp only
          split
          · rename_i key
            split
            · rename_i h
              have hbad : IsBadList group (name, text) ↔ NotJson text := by
                simp_all [IsBadList]
              rw [hbad]
              exact (escapesOnly_decoded group.name text).bind fun v => ih _
            · rename_i h
              refine hgood ?_
              rintro ⟨key', hkey, hlist, htext, -⟩
              obtain ⟨rfl, -⟩ := List.cons.inj (Option.some.inj (hpath.symm.trans hkey))
              exact h (by simp [hlist, htext])
          · rename_i hsingle
            rw [if_neg (by simp)]
            refine hgood ?_
            rintro ⟨key, hkey, -⟩
            exact hsingle key (Option.some.inj (hpath.symm.trans hkey))

/-- A group that the environment sets as something that is no JSON document, or one of whose lists
it does. -/
inductive GroupEscapes (vars : List (String × String)) (group : Group) : Prop
  | whole {text : String} (hlookup : vars.lookup (variableStart ++ group.name) = some text)
      (h : NotJson text)
  | list {v : String × String}
      (hwhole : ∀ text, vars.lookup (variableStart ++ group.name) = some text →
        ∃ members, Json.parse text = .ok (.obj members))
      (hv : v ∈ vars) (h : IsBadList group v)

theorem escapesOnly_groupSettings (vars : List (String × String)) (group : Group) :
    EscapesOnly (GroupEscapes vars group) (groupSettings vars group) := by
  rw [groupSettings]
  dsimp only
  cases hlookup : vars.lookup (variableStart ++ group.name) with
  | none =>
      dsimp only
      refine ((escapesOnly_singleSettings group vars (.map [])).bind_left fun _ =>
        escapesOnly_ok _).congr ⟨?_, ?_⟩
      · rintro ⟨v, hv, h⟩
        exact .list (by simp [hlookup]) hv h
      · rintro (⟨hwhole, -⟩ | ⟨-, hv, h⟩)
        · rw [hlookup] at hwhole
          cases hwhole
        · exact ⟨_, hv, h⟩
  | some text =>
      dsimp only
      cases hparse : Json.parse text with
      | error reason =>
          have hnot : NotJson text := fun j hj => by
            rw [hparse] at hj
            cases hj
          rw [decoded, hparse]
          exact ⟨fun _ => ⟨_, rfl⟩, fun h => absurd (.whole hlookup hnot) h⟩
      | ok j =>
          rw [decoded, hparse]
          -- only over an object are the lists looked at
          have hother (hj : ∀ members, j ≠ .obj members) : ¬ GroupEscapes vars group := by
            rintro (⟨hwhole, h⟩ | ⟨hwhole, -, -⟩)
            · obtain rfl := Option.some.inj (hlookup.symm.trans hwhole)
              exact h j hparse
            · obtain ⟨members, hmembers⟩ := hwhole text hlookup
              exact hj members (Except.ok.inj (hparse.symm.trans hmembers))
          cases j with
          | obj members =>
              refine ((escapesOnly_singleSettings group vars (.map [])).bind_left fun _ =>
                escapesOnly_ok _).congr ⟨?_, ?_⟩
              · rintro ⟨v, hv, h⟩
                exact .list (by simp [hlookup, hparse]) hv h
              · rintro (⟨hwhole, h⟩ | ⟨-, hv, h⟩)
                · obtain rfl := Option.some.inj (hlookup.symm.trans hwhole)
                  exact absurd hparse (h _)
                · exact ⟨_, hv, h⟩
          | _ => exact (escapesOnly_ok _).congr (iff_of_false id (hother nofun))

/-- The environment escapes if what it sets in one of the groups does. -/
theorem escapesOnly_ofEnvironment (environment : List (String × String)) :
    EscapesOnly (∃ group ∈ groups, GroupEscapes (settingVariables environment) group)
      (ofEnvironment environment) :=
  (EscapesOnly.mapM (fun group => (escapesOnly_groupSettings _ group).bind_left fun _ =>
    escapesOnly_ok _) groups).bind_left fun _ => escapesOnly_ok _

/-! ### The files -/

/-- What stands at the path is a directory, no text, or a document that holds a number or a date
without a value. -/
inductive IsBroken (d : Disk) (p : Path) : Prop
  | folder (h : d.isFolder p = true)
  | octets {c : Bytes} (hread : d.read p = .ok c) (h : ∀ text, Text.Utf8.decode c ≠ .ok text)
  | scalar {c : Bytes} {text reason : String} (hread : d.read p = .ok c)
      (hdecode : Text.Utf8.decode c = .ok text)
      (h : Yaml.ofText? (String.ofList (Text.unifyNewlines text.toList)) = some (.error reason))

/-- A file that is a text is broken only by what its document holds. -/
theorem isBroken_iff_of_decode {d : Disk} {p : Path} {c : Bytes} {text : String}
    (hread : d.read p = .ok c) (hfolder : d.isFolder p = false)
    (hdecode : Text.Utf8.decode c = .ok text) :
    IsBroken d p ↔ ∃ reason,
      Yaml.ofText? (String.ofList (Text.unifyNewlines text.toList)) = some (.error reason) := by
  constructor
  · rintro (h | ⟨hread', h⟩ | ⟨hread', hdecode', h⟩)
    · rw [hfolder] at h
      cases h
    · obtain rfl := Except.ok.inj (hread.symm.trans hread')
      exact absurd hdecode (h text)
    · obtain rfl := Except.ok.inj (hread.symm.trans hread')
      obtain rfl := Except.ok.inj (hdecode.symm.trans hdecode')
      exact ⟨_, h⟩
  · rintro ⟨reason, h⟩
    exact .scalar hread hdecode h

theorem escapesIff_readFile (d : Disk) (p : Path) :
    EscapesIff (IsBroken d p) (readFile d p) := by
  rw [readFile]
  obtain ⟨hexists, hfolder, hread⟩ | ⟨hexists, hfolder, hread⟩ | ⟨hfolder, c, hread⟩ :=
    d.read_cases p
  · rw [hexists]
    refine (escapesIff_ok _).congr (iff_of_false id ?_)
    rintro (h | ⟨h, -⟩ | ⟨h, -, -⟩)
    · rw [hfolder] at h
      cases h
    · exact hread _ h
    · exact hread _ h
  · rw [hexists, Store.readLines, Disk.readText, hread]
    exact (escapesIff_mishapWith _).congr (iff_of_true trivial (.folder hfolder))
  · rw [Disk.exists_of_read hread, Store.readLines, Disk.readText, hread]
    dsimp only
    cases hdecode : Text.Utf8.decode c with
    | error fault =>
        refine (escapesIff_mishapWith (.encoding fault)).congr (iff_of_true trivial ?_)
        exact .octets hread (by simp [hdecode])
    | ok text =>
        refine EscapesIff.congr ?_ (isBroken_iff_of_decode hread hfolder hdecode).symm
        dsimp only [onSourceText, bind, Except.bind, Except.mapError, pure, Except.pure]
        rw [if_neg (by simp)]
        cases Yaml.ofText? (String.ofList (Text.unifyNewlines text.toList)) with
        | none => exact (escapesIff_failWith rfl).congr (by simp)
        | some made =>
            cases made with
            | error reason => exact (escapesIff_mishapWith _).congr (by simp)
            | ok v =>
                refine EscapesIff.congr (B := False) ?_ (by simp)
                dsimp only
                split
                · exact escapesIff_ok _
                · split
                  · exact escapesIff_ok _
                  · exact escapesIff_failWith rfl

/-! ### The sources -/

/-- The loading escapes at the first source that does, or where the mapping does that the sources
are laid together to. -/
inductive LoadEscapes (d : Disk) (s : Sources) : Prop
  | shared {p : Path} (hp : s.shared = some p) (h : IsBroken d p)
  | own (hshared : ∀ p, s.shared = some p → ∃ entries, readFile d p = .ok entries)
      (h : IsBroken d (fileOf s.root))
  | environment (hshared : ∀ p, s.shared = some p → ∃ entries, readFile d p = .ok entries)
      (hown : ∃ entries, readFile d (fileOf s.root) = .ok entries) {group : Group}
      (hgroup : group ∈ groups) (h : GroupEscapes (settingVariables s.environment) group)
  | entries {entries : List (Scalar × Yaml)} (hsettings : settings d s = .ok entries)
      (h : EntriesEscape s.home entries)

theorem escapesIff_settings (d : Disk) (s : Sources) :
    EscapesIff ((∃ p, s.shared = some p ∧ IsBroken d p) ∨
      (∀ p, s.shared = some p → ∃ entries, readFile d p = .ok entries) ∧
        (IsBroken d (fileOf s.root) ∨ (∃ entries, readFile d (fileOf s.root) = .ok entries) ∧
          ∃ group ∈ groups, GroupEscapes (settingVariables s.environment) group))
      (settings d s) := by
  have hrest (shared : List (Scalar × Yaml)) : EscapesIff (IsBroken d (fileOf s.root) ∨
      (∃ entries, readFile d (fileOf s.root) = .ok entries) ∧
        ∃ group ∈ groups, GroupEscapes (settingVariables s.environment) group)
      (do
        let own ← readFile d (fileOf s.root)
        let environment ← ofEnvironment s.environment
        return Yaml.overlayEntries (Yaml.overlayEntries shared own)
          (Yaml.overlayEntries environment s.given)) :=
    ((escapesIff_readFile d (fileOf s.root)).bind fun own _ =>
      (escapesOnly_ofEnvironment s.environment).escapesIff.bind_left fun _ =>
        escapesIff_ok _).congr (by simp only [exists_and_right])
  rw [settings]
  cases s.shared with
  | none => exact (hrest []).congr (by simp)
  | some p =>
      exact ((escapesIff_readFile d p).bind fun shared _ => hrest shared).congr (by simp)

theorem escapesIff_load (d : Disk) (s : Sources) : EscapesIff (LoadEscapes d s) (load d s) := by
  refine ((escapesIff_settings d s).bind fun entries _ => escapesIff_ofEntries s.home
    entries).congr ⟨?_, ?_⟩
  · rintro ((⟨p, hp, h⟩ | ⟨hshared, h | ⟨hown, group, hgroup, h⟩⟩) | ⟨entries, hsettings, h⟩)
    · exact .shared hp h
    · exact .own hshared h
    · exact .environment hshared hown hgroup h
    · exact .entries hsettings h
  · rintro (⟨hp, h⟩ | ⟨hshared, h⟩ | ⟨hshared, hown, hgroup, h⟩ | ⟨hsettings, h⟩)
    · exact .inl (.inl ⟨_, hp, h⟩)
    · exact .inl (.inr ⟨hshared, .inl h⟩)
    · exact .inl (.inr ⟨hshared, .inr ⟨hown, _, hgroup, h⟩⟩)
    · exact .inr ⟨_, hsettings, h⟩

end Redline.Config
