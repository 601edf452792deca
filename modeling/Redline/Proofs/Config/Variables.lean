import Mathlib.Data.List.Induction
import Mathlib.Data.List.Nodup
import Redline.Proofs.Config.Settings
import Redline.Proofs.Pairs

/-!
# Settings that variables name

Each variable of an environment that fits names a setting, with a value that it can have, or has
nothing to do with the groups. The groups of such an environment hold the settings that are named,
each with the value of the last variable of its name (`exists_ofEnvironment`).
-/

namespace Redline.Config

open Yaml (groupIn Grouped KeyedGroups)

/-! ### The variables of settings -/

namespace Setting

/-- The name of the setting's variable, in small letters. -/
def variableName (s : Setting) : String :=
  variableStart ++ s.group ++ "__" ++ s.key

/-- Whether the setting is a list, whose variable holds JSON. -/
def isList : Setting → Bool
  | text _ | level => false
  | outputs | excludeDirs => true

/-- What the text of the setting's variable stands for. -/
def read (s : Setting) (text : String) : Outcome Yaml :=
  if s.isList && !text.isEmpty then decoded s.group text else .ok (Yaml.text text)

variable {s s' : Setting} {g : Group}

theorem variableName_injective (h : s.variableName = s'.variableName) : s = s' := by
  have hall : ∀ s ∈ all, ∀ s' ∈ all, s.variableName = s'.variableName → s = s' := by decide +kernel
  exact hall s s.mem_all s' s'.mem_all h

theorem exists_group (s : Setting) : ∃ g ∈ groups, g.name = s.group := by
  have hall : ∀ s ∈ all, ∃ g ∈ groups, g.name = s.group := by decide
  exact hall s s.mem_all

theorem prefix_variableName (s : Setting) :
    (variableStart ++ s.group ++ "__").toList <+: s.variableName.toList := by
  refine ⟨s.key.toList, ?_⟩
  rw [← String.toList_append]
  rfl

theorem variableName_ne (s : Setting) (hg : g ∈ groups) :
    s.variableName ≠ variableStart ++ g.name := by
  have hall : ∀ s ∈ all, ∀ g ∈ groups, s.variableName ≠ variableStart ++ g.name := by decide +kernel
  exact hall s s.mem_all g hg

theorem keyPath?_variableName (s : Setting) (hg : g ∈ groups) :
    keyPath? g s.variableName = if s.group = g.name then some [s.key] else none := by
  have hall : ∀ s ∈ all, ∀ g ∈ groups,
      keyPath? g s.variableName = if s.group = g.name then some [s.key] else none := by
    decide +kernel
  exact hall s s.mem_all g hg

theorem contains_lists (hg : g ∈ groups) (h : s.group = g.name) :
    g.lists.contains s.key = s.isList := by
  have hall : ∀ s ∈ all, ∀ g ∈ groups, s.group = g.name → g.lists.contains s.key = s.isList := by
    decide
  exact hall s s.mem_all g hg h

theorem groupKey_key (hg : g ∈ groups) (h : s.group = g.name) :
    groupKey g (.text s.key) = .text s.key := by
  have hall : ∀ s ∈ all, ∀ g ∈ groups, s.group = g.name →
      groupKey g (.text s.key) = .text s.key := by
    decide +kernel
  exact hall s s.mem_all g hg h

end Setting

/-- The variable sets a setting to a value that it can have, or it names neither a group nor
anything in one. -/
def VariableFits (home : String) (v : String × String) : Prop :=
  (∃ s : Setting, v.1 = s.variableName ∧ ∃ w, s.read v.2 = .ok w ∧ s.Fits home w) ∨
    ∀ name ∈ topLevelKeys, v.1 ≠ variableStart ++ name ∧
      ¬ (variableStart ++ name ++ "__").toList <+: v.1.toList

/-- The last variable whose name in small letters is that of the setting's variable. -/
def lastVariable? (environment : List (String × String)) (t : TextSetting) : Option String :=
  (environment.filter fun v =>
    Text.toLower v.1 == (Setting.text t).variableName).getLast?.map Prod.snd

section

variable {environment vars : List (String × String)} {home : String}

theorem lookup_settingVariables (environment : List (String × String)) (name : String) :
    (settingVariables environment).lookup name =
      (environment.filter fun v => Text.toLower v.1 == name).getLast?.map Prod.snd := by
  induction environment using List.reverseRecOn with
  | nil => rfl
  | append_singleton rest v ih =>
      rw [settingVariables, List.foldl_append, ← settingVariables, List.filter_append]
      change (Assoc.put _ _ _).lookup name = _
      by_cases hname : Text.toLower v.1 = name
      · subst hname
        rw [Assoc.lookup_put_self]
        simp
      · rw [Assoc.lookup_put_of_ne (Ne.symm hname), ih]
        simp [hname]

theorem nodup_settingVariables (environment : List (String × String)) :
    ((settingVariables environment).map Prod.fst).Nodup := by
  induction environment using List.reverseRecOn with
  | nil => exact List.nodup_nil
  | append_singleton rest v ih =>
      rw [settingVariables, List.foldl_append, ← settingVariables]
      exact Assoc.nodup_keys_put ih _ _

theorem mem_topLevelKeys {g : Group} (hg : g ∈ groups) : g.name ∈ topLevelKeys := by
  have hall : ∀ g ∈ groups, g.name ∈ topLevelKeys := by decide
  exact hall g hg

theorem keyPath?_eq_none {g : Group} {name : String}
    (h : ¬ (variableStart ++ g.name ++ "__").toList <+: name.toList) : keyPath? g name = none := by
  rw [keyPath?, if_neg (by rwa [List.isPrefixOf_iff_prefix])]

/-! ### The settings of a group -/

/-- The settings of the group are those that the variables name. -/
structure NamedBy (vars : List (String × String)) (g : Group) (settings : List (Scalar × Yaml)) :
    Prop where
  keys : (settings.map Prod.fst).Nodup
  known : ∀ e ∈ settings, ∃ s : Setting, s.group = g.name ∧ e.1 = .text s.key
  lookup : ∀ s : Setting, s.group = g.name →
    settings.lookup (.text s.key) =
      (vars.lookup s.variableName).bind fun text => (s.read text).toOption

variable {g : Group} {settings : List (Scalar × Yaml)}

theorem namedBy_nil (g : Group) : NamedBy [] g [] :=
  ⟨List.nodup_nil, nofun, fun _ _ => rfl⟩

theorem NamedBy.skip (h : NamedBy vars g settings) {v : String × String}
    (hv : ∀ s : Setting, s.group = g.name → s.variableName ≠ v.1) :
    NamedBy (vars ++ [v]) g settings := by
  refine ⟨h.keys, h.known, fun s hs => ?_⟩
  rw [h.lookup s hs, List.lookup_append, List.lookup_cons, beq_false_of_ne (hv s hs),
    List.lookup_nil, Option.or_none]

theorem NamedBy.put (h : NamedBy vars g settings) {s : Setting} {text : String} {w : Yaml}
    (hgroup : s.group = g.name) (hnew : s.variableName ∉ vars.map Prod.fst)
    (hread : s.read text = .ok w) :
    NamedBy (vars ++ [(s.variableName, text)]) g (Assoc.put settings (.text s.key) w) := by
  refine ⟨Assoc.nodup_keys_put h.keys _ _, fun e he => ?_, fun s' hs' => ?_⟩
  · obtain he | rfl := Assoc.mem_of_mem_put he
    · exact h.known e he
    · exact ⟨s, hgroup, rfl⟩
  · rw [List.lookup_append]
    by_cases heq : s' = s
    · subst heq
      rw [Assoc.lookup_put_self, Assoc.lookup_eq_none_of_notMem hnew, Option.none_or,
        List.lookup_cons_self]
      simp [hread, Except.toOption]
    · have hkey : Scalar.text s'.key ≠ .text s.key := fun hkey =>
        heq (Setting.key_injective (Scalar.text.inj hkey))
      rw [Assoc.lookup_put_of_ne hkey, h.lookup s' hs', List.lookup_cons,
        beq_false_of_ne fun hname => heq (Setting.variableName_injective hname), List.lookup_nil,
        Option.or_none]

/-- A variable of the group puts its setting in. -/
theorem singleSettings_put (hg : g ∈ groups) {s : Setting} (hgroup : s.group = g.name)
    {text : String} {w : Yaml} (hread : s.read text = .ok w) (rest : List (String × String))
    (settings : List (Scalar × Yaml)) :
    singleSettings g ((s.variableName, text) :: rest) (.map settings) =
      singleSettings g rest (.map (Assoc.put settings (.text s.key) w)) := by
  rw [Setting.read, ← Setting.contains_lists hg hgroup, hgroup] at hread
  rw [singleSettings, s.keyPath?_variableName hg, if_pos hgroup]
  dsimp only
  split at hread
  · rename_i hlist
    rw [if_pos hlist, hread]
    rfl
  · rename_i hlist
    rw [if_neg hlist]
    cases hread
    rfl

/-- What one more variable does to the settings of a group. -/
theorem NamedBy.step (h : NamedBy vars g settings) (hg : g ∈ groups) {v : String × String}
    (hnew : v.1 ∉ vars.map Prod.fst) (hv : VariableFits home v)
    (rest : List (String × String)) :
    ∃ settings', NamedBy (vars ++ [v]) g settings' ∧
      singleSettings g (v :: rest) (.map settings) = singleSettings g rest (.map settings') := by
  obtain ⟨name, text⟩ := v
  obtain ⟨s, hs, w, hread, -⟩ | hother := hv
  · dsimp only at hs hread
    subst hs
    by_cases hgroup : s.group = g.name
    · exact ⟨_, h.put hgroup hnew hread, singleSettings_put hg hgroup hread rest settings⟩
    · refine ⟨settings, h.skip fun s' hs' hname => ?_, ?_⟩
      · obtain rfl := Setting.variableName_injective hname
        exact hgroup hs'
      · rw [singleSettings, s.keyPath?_variableName hg, if_neg hgroup]
  · obtain ⟨-, hprefix⟩ := hother g.name (mem_topLevelKeys hg)
    refine ⟨settings, h.skip ?_, ?_⟩
    · rintro s hs rfl
      exact hprefix (hs ▸ s.prefix_variableName)
    · rw [singleSettings, keyPath?_eq_none hprefix]

theorem NamedBy.exists_singleSettings (h : NamedBy vars g settings) (hg : g ∈ groups)
    {rest : List (String × String)} (hnames : ((vars ++ rest).map Prod.fst).Nodup)
    (hrest : ∀ v ∈ rest, VariableFits home v) :
    ∃ settings', NamedBy (vars ++ rest) g settings' ∧
      singleSettings g rest (.map settings) = .ok (.map settings') := by
  induction rest generalizing vars settings with
  | nil => exact ⟨settings, by rwa [List.append_nil], rfl⟩
  | cons v rest ih =>
      obtain ⟨hv, hrest⟩ := List.forall_mem_cons.1 hrest
      have hnew : v.1 ∉ vars.map Prod.fst := by
        rw [List.map_append, List.nodup_append] at hnames
        exact fun hmem => hnames.2.2 _ hmem _ List.mem_cons_self rfl
      obtain ⟨middle, hmiddle, hstep⟩ := h.step hg hnew hv rest
      rw [List.append_cons] at hnames ⊢
      rw [hstep]
      exact ih hmiddle hnames hrest

/-- Keys that are known keep their names. -/
theorem NamedBy.foldl_groupKey (h : NamedBy vars g settings) (hg : g ∈ groups) :
    settings.foldl (fun es e => Assoc.put es (groupKey g e.1) e.2) [] = settings := by
  have hnames : settings.map (fun e => (groupKey g e.1, e.2)) = settings := by
    refine (List.map_congr_left fun e he => ?_).trans (List.map_id settings)
    obtain ⟨s, hs, hkey⟩ := h.known e he
    obtain ⟨key, v⟩ := e
    dsimp only at hkey ⊢
    rw [hkey, Setting.groupKey_key hg hs]
    rfl
  calc settings.foldl (fun es e => Assoc.put es (groupKey g e.1) e.2) []
      = (settings.map fun e => (groupKey g e.1, e.2)).foldl
          (fun es e => Assoc.put es e.1 e.2) [] := by rw [List.foldl_map]
    _ = settings := by
      rw [hnames]
      exact Assoc.foldl_put_eq_append h.keys

theorem exists_groupSettings (hnames : (vars.map Prod.fst).Nodup)
    (hvars : ∀ v ∈ vars, VariableFits home v) (hg : g ∈ groups) :
    ∃ settings, NamedBy vars g settings ∧
      groupSettings vars g = .ok (if settings.isEmpty then none else some (.map settings)) := by
  have hwhole : vars.lookup (variableStart ++ g.name) = none := by
    rw [List.lookup_eq_none_iff]
    intro v hv
    rw [bne_iff_ne]
    obtain ⟨s, hs, -⟩ | hother := hvars v hv
    · rw [hs]
      exact (s.variableName_ne hg).symm
    · exact (hother g.name (mem_topLevelKeys hg)).1.symm
  obtain ⟨settings, hnamed, hsettings⟩ :=
    (namedBy_nil g).exists_singleSettings hg hnames hvars
  refine ⟨settings, hnamed, ?_⟩
  rw [groupSettings, hwhole]
  dsimp only [bind, Except.bind]
  rw [hsettings]
  dsimp only [Yaml.isTruthy]
  rw [hnamed.foldl_groupKey hg]
  cases settings <;> rfl

/-! ### The groups of the environment -/

/-- The groups that have settings. -/
def gathered (settings : Group → List (Scalar × Yaml)) : List (Scalar × Yaml) :=
  (groups.filter fun g => !(settings g).isEmpty).map fun g => (.text g.name, .map (settings g))

variable {settingsOf : Group → List (Scalar × Yaml)}

theorem gathered_eq : gathered settingsOf = groups.filterMap fun g =>
    if (settingsOf g).isEmpty then none else some (.text g.name, .map (settingsOf g)) := by
  rw [gathered, ← List.filterMap_eq_map, List.filterMap_filter]
  congr 1
  funext g
  cases (settingsOf g).isEmpty <;> rfl

theorem mem_gathered_iff {e : Scalar × Yaml} : e ∈ gathered settingsOf ↔
    ∃ g ∈ groups, settingsOf g ≠ [] ∧ (.text g.name, .map (settingsOf g)) = e := by
  simp [gathered, and_assoc]

theorem nodup_names : (groups.map fun g => Scalar.text g.name).Nodup := by
  decide

theorem nodup_gathered : ((gathered settingsOf).map Prod.fst).Nodup := by
  rw [gathered, List.map_map]
  exact (List.filter_sublist.map _).nodup nodup_names

theorem grouped_gathered : Grouped (gathered settingsOf) := by
  intro e he
  obtain ⟨g, -, -, rfl⟩ := mem_gathered_iff.1 he
  exact ⟨_, rfl⟩

theorem groupIn_gathered (hg : g ∈ groups) :
    groupIn (gathered settingsOf) g.name = settingsOf g := by
  obtain ⟨hnone, hgroup⟩ | hsome := grouped_gathered.lookup_eq g.name
  · rw [hgroup]
    by_contra hne
    have hmem : (.text g.name, .map (settingsOf g)) ∈ gathered settingsOf :=
      mem_gathered_iff.2 ⟨g, hg, Ne.symm hne, rfl⟩
    rw [Assoc.lookup_of_mem nodup_gathered hmem] at hnone
    cases hnone
  · obtain ⟨g', hg', -, heq⟩ := mem_gathered_iff.1 (Assoc.mem_of_lookup hsome)
    obtain ⟨hname, hsettings⟩ := Prod.mk.inj heq
    obtain rfl := List.inj_on_of_nodup_map nodup_names hg' hg hname
    exact (Yaml.map.inj hsettings).symm

theorem keyedGroups_gathered (h : ∀ g ∈ groups, ((settingsOf g).map Prod.fst).Nodup) :
    KeyedGroups (gathered settingsOf) := by
  refine ⟨nodup_gathered, fun name => ?_⟩
  obtain ⟨-, hgroup⟩ | hsome := grouped_gathered.lookup_eq name
  · rw [hgroup]
    exact List.nodup_nil
  · obtain ⟨g, hg, -, heq⟩ := mem_gathered_iff.1 (Assoc.mem_of_lookup hsome)
    rw [← Yaml.map.inj (Prod.mk.inj heq).2]
    exact h g hg

/-- The settings of an environment that fits are those that its variables name. -/
theorem exists_ofEnvironment (h : ∀ v ∈ settingVariables environment, VariableFits home v) :
    ∃ entries, ofEnvironment environment = .ok entries ∧ Fits home entries ∧
      KeyedGroups entries ∧ ∀ t, textIn entries t = lastVariable? environment t := by
  have hgroups (g : Group) (hg : g ∈ groups) :=
    exists_groupSettings (nodup_settingVariables environment) h hg
  choose! settingsOf hnamed hsettings using hgroups
  have hsettingIn (s : Setting) : settingIn (gathered settingsOf) s =
      ((settingVariables environment).lookup s.variableName).bind
        fun text => (s.read text).toOption := by
    obtain ⟨g, hg, hname⟩ := s.exists_group
    rw [settingIn, ← hname, groupIn_gathered hg, (hnamed g hg).lookup s hname.symm]
  refine ⟨gathered settingsOf, ?_, ⟨?_, ?_⟩, keyedGroups_gathered fun g hg => (hnamed g hg).keys,
    fun t => ?_⟩
  · have hmap : groups.mapM (fun group => do
        return (← groupSettings (settingVariables environment) group).map
          fun v => (Scalar.text group.name, v)) =
        (.ok (groups.map fun g => if (settingsOf g).isEmpty then none
          else some (.text g.name, .map (settingsOf g))) : Outcome _) := by
      refine mapM_eq_ok_map fun g hg => ?_
      rw [hsettings g hg]
      cases settingsOf g <;> rfl
    rw [ofEnvironment, hmap, gathered_eq]
    change Except.ok _ = _
    rw [List.filterMap_map]
    rfl
  · intro e he
    obtain ⟨g, hg, -, rfl⟩ := mem_gathered_iff.1 he
    exact ⟨g.name, mem_topLevelKeys hg, _, rfl⟩
  · intro s v hv
    rw [hsettingIn] at hv
    obtain ⟨text, htext, hread⟩ := Option.bind_eq_some_iff.1 hv
    obtain ⟨s', hs', w, hw, hfits⟩ | hother := h _ (Assoc.mem_of_lookup htext)
    · obtain rfl := Setting.variableName_injective hs'
      rw [hw] at hread
      cases hread
      exact hfits
    · obtain ⟨g, hg, hname⟩ := s.exists_group
      exact absurd (hname ▸ s.prefix_variableName) (hother g.name (mem_topLevelKeys hg)).2
  · rw [textIn, hsettingIn, lastVariable?, ← lookup_settingVariables]
    cases (settingVariables environment).lookup (Setting.text t).variableName <;> rfl

end

end Redline.Config
