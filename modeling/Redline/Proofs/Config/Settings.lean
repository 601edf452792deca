import Redline.Config.Environment
import Redline.Proofs.Config.Check
import Redline.Proofs.Yaml.Overlay

/-!
# Settings in groups

`Fits` says of a mapping that its groups are known and every setting in them has a value that it can
have; keys of a group that mean nothing may be there. A mapping that fits makes a configuration,
with the texts that it sets and the usual ones besides (`Fits.exists_ofEntries`). One that is laid
over another, both fitting, fits again, and each setting is that of the upper one, or of the lower
one where the upper one does not set it (`textIn_overlayEntries`).
-/

namespace Redline.Config

open Yaml (groupIn Grouped KeyedGroups)

/-- The settings that are texts. -/
inductive TextSetting where
  | ripgrep
  | astGrep
  | tsconfig
  | fileGlob
  | output
  | fileOutput
  deriving DecidableEq, Repr

/-- What can be set. -/
inductive Setting where
  | text (t : TextSetting)
  | level
  | outputs
  | excludeDirs
  deriving DecidableEq, Repr

/-- The text of a setting in a configuration. -/
def TextSetting.of (c : Config) : TextSetting → String
  | ripgrep => c.tools.ripgrep
  | astGrep => c.tools.astGrep
  | tsconfig => c.discovery.tsconfig
  | fileGlob => c.discovery.fileGlob
  | output => c.editset.output
  | fileOutput => c.editset.fileOutput

namespace Setting

/-- The group that the setting stands in. -/
def group : Setting → String
  | level | outputs => "logging"
  | text .ripgrep | text .astGrep => "tools"
  | text .tsconfig | excludeDirs | text .fileGlob => "discovery"
  | text .output | text .fileOutput => "editset"

/-- The key of the setting in its group. -/
def key : Setting → String
  | level => "level"
  | outputs => "outputs"
  | text .ripgrep => "ripgrep"
  | text .astGrep => "ast_grep"
  | text .tsconfig => "tsconfig"
  | excludeDirs => "exclude_dirs"
  | text .fileGlob => "file_glob"
  | text .output => "output"
  | text .fileOutput => "file_output"

/-- The settings. -/
def all : List Setting :=
  [level, outputs, text .ripgrep, text .astGrep, text .tsconfig, excludeDirs, text .fileGlob,
    text .output, text .fileOutput]

theorem mem_all (s : Setting) : s ∈ all := by
  obtain t | _ | _ | _ := s
  · cases t <;> decide
  · decide
  · decide
  · decide

theorem key_injective {s s' : Setting} (h : s.key = s'.key) : s = s' := by
  have hall : ∀ s ∈ all, ∀ s' ∈ all, s.key = s'.key → s = s' := by decide
  exact hall s s.mem_all s' s'.mem_all h

/-- The setting can have the value. -/
def Fits (home : String) (v : Yaml) : Setting → Prop
  | text _ => ∃ s, v = .text s
  | level => ∃ l, checkLevel ["logging", "level"] v = .ok l
  | outputs => ∃ outputs, checkList (checkOutput home) ["logging", "outputs"] v = .ok outputs
  | excludeDirs => ∃ names, checkList checkText ["discovery", "exclude_dirs"] v = .ok names

end Setting

/-- The value that a setting has in a mapping of groups. -/
def settingIn (entries : List (Scalar × Yaml)) (s : Setting) : Option Yaml :=
  (groupIn entries s.group).lookup (.text s.key)

/-- The text that a setting has in a mapping of groups. -/
def textIn (entries : List (Scalar × Yaml)) (t : TextSetting) : Option String :=
  match settingIn entries (.text t) with
  | some (.scalar (.text s)) => some s
  | _ => none

/-- Each group of the mapping is known, and each setting that it sets can have its value. -/
structure Fits (home : String) (entries : List (Scalar × Yaml)) : Prop where
  groups : ∀ e ∈ entries, ∃ name ∈ topLevelKeys, ∃ settings, e = (.text name, .map settings)
  settings : ∀ s v, settingIn entries s = some v → s.Fits home v

variable {home : String} {entries below : List (Scalar × Yaml)} {v : Yaml}

/-- No setting is a mapping, so one value of it hides another. -/
theorem Setting.Fits.ne_map {s : Setting} (h : s.Fits home v) (settings : List (Scalar × Yaml)) :
    v ≠ .map settings := by
  rintro rfl
  cases s with
  | text t => obtain ⟨_, ⟨⟩⟩ := h
  | level => obtain ⟨_, ⟨⟩⟩ := h
  | outputs => obtain ⟨_, ⟨⟩⟩ := h
  | excludeDirs => obtain ⟨_, ⟨⟩⟩ := h

theorem Fits.grouped (h : Fits home entries) : Grouped entries := by
  intro e he
  obtain ⟨name, -, settings, rfl⟩ := h.groups e he
  exact ⟨settings, rfl⟩

theorem Fits.settingIn_text (h : Fits home entries) (t : TextSetting) :
    settingIn entries (.text t) = (textIn entries t).map Yaml.text := by
  rw [textIn]
  cases hsetting : settingIn entries (.text t) with
  | none => rfl
  | some v =>
      obtain ⟨s, rfl⟩ := h.settings _ v hsetting
      rfl

/-- Groups that hold texts for text settings fit. -/
theorem fits_of_texts (h : ∀ e ∈ entries, ∃ name ∈ topLevelKeys, ∃ settings,
    e = (.text name, .map settings) ∧
      ∀ e' ∈ settings, ∃ (t : TextSetting) (s : String),
        e' = (.text (Setting.text t).key, .text s)) : Fits home entries := by
  refine ⟨fun e he => ?_, fun s v hv => ?_⟩
  · obtain ⟨name, hname, settings, rfl, -⟩ := h e he
    exact ⟨name, hname, settings, rfl⟩
  · rw [settingIn, groupIn] at hv
    split at hv
    · rename_i hlookup
      obtain ⟨name, -, settings, heq, htexts⟩ := h _ (Assoc.mem_of_lookup hlookup)
      obtain rfl := Yaml.map.inj (Prod.mk.inj heq).2
      obtain ⟨t, text, hsetting⟩ := htexts _ (Assoc.mem_of_lookup hv)
      obtain ⟨hkey, rfl⟩ := Prod.mk.inj hsetting
      obtain rfl := Setting.key_injective (Scalar.text.inj hkey)
      exact ⟨text, rfl⟩
    · cases hv

/-! ### Laying over one another -/

theorem Fits.settingIn_overlayEntries (h : Fits home entries) (hkeys : KeyedGroups entries)
    (hbelow : Grouped below) (s : Setting) :
    settingIn (Yaml.overlayEntries below entries) s =
      (settingIn entries s).or (settingIn below s) := by
  rw [settingIn, h.grouped.lookup_groupIn_overlayEntries hbelow hkeys, ← settingIn, ← settingIn]
  cases hupper : settingIn entries s with
  | none => rfl
  | some v =>
      cases settingIn below s with
      | none => rfl
      | some old =>
          exact congrArg some (Yaml.overlay_of_ne_map old (h.settings s v hupper).ne_map)

theorem Fits.overlayEntries (h : Fits home entries) (hkeys : KeyedGroups entries)
    (hbelow : Fits home below) : Fits home (Yaml.overlayEntries below entries) := by
  refine ⟨fun e he => ?_, fun s v hv => ?_⟩
  · obtain hmem | ⟨w, under, hmem, hw⟩ := Yaml.mem_overlayEntries he
    · exact hbelow.groups e hmem
    · obtain ⟨name, hname, settings, heq⟩ := h.groups _ hmem
      obtain ⟨hkey, rfl⟩ := Prod.mk.inj heq
      obtain ⟨merged, hmerged⟩ := Yaml.overlay_map under settings
      obtain hw | hw := hw
      · exact ⟨name, hname, settings, Prod.ext hkey hw⟩
      · exact ⟨name, hname, merged, Prod.ext hkey (hw.trans hmerged)⟩
  · rw [h.settingIn_overlayEntries hkeys hbelow.grouped] at hv
    obtain hv | ⟨-, hv⟩ := Option.or_eq_some_iff.1 hv
    · exact h.settings s v hv
    · exact hbelow.settings s v hv

theorem textIn_overlayEntries (h : Fits home entries) (hkeys : KeyedGroups entries)
    (hbelow : Fits home below) (t : TextSetting) :
    textIn (Yaml.overlayEntries below entries) t = (textIn entries t).or (textIn below t) := by
  rw [textIn, h.settingIn_overlayEntries hkeys hbelow.grouped, h.settingIn_text,
    hbelow.settingIn_text]
  cases textIn entries t with
  | none => cases textIn below t <;> rfl
  | some s => rfl

/-! ### The configuration of a mapping -/

section

variable {α : Type} {check : List String → Yaml → Outcome α} {path : List String} {usual : α}

/-- A group that is not there is checked as an empty one. -/
theorem checkPart_group (h : Grouped entries) {name : String}
    (hempty : check [name] (.map []) = .ok usual) :
    checkPart check [] (fun key => entries.lookup (.text key)) name usual =
      check [name] (.map (groupIn entries name)) := by
  rw [checkPart]
  obtain ⟨hnone, hgroup⟩ | hsome := h.lookup_eq name
  · rw [hnone, hgroup, hempty]
  · rw [hsome]
    rfl

theorem exists_checkPart (usual : α) {settings : List (Scalar × Yaml)} {key : String}
    (h : ∀ v, settings.lookup (.text key) = some v → ∃ a, check (path ++ [key]) v = .ok a) :
    ∃ a, checkPart check path (fun key => settings.lookup (.text key)) key usual = .ok a := by
  rw [checkPart]
  cases hlookup : settings.lookup (.text key) with
  | none => exact ⟨usual, rfl⟩
  | some v => exact h v hlookup

end

theorem Fits.checkPart_text (h : Fits home entries) (t : TextSetting) (path : List String)
    (usual : String) :
    checkPart checkText path
      (fun key => (groupIn entries (Setting.text t).group).lookup (.text key))
      (Setting.text t).key usual = .ok ((textIn entries t).getD usual) := by
  rw [checkPart, ← settingIn]
  rw [h.settingIn_text]
  cases textIn entries t <;> rfl

theorem Fits.checkTools_eq (h : Fits home entries) :
    checkTools ["tools"] (.map (groupIn entries "tools")) = .ok {
      ripgrep := (textIn entries .ripgrep).getD "rg"
      astGrep := (textIn entries .astGrep).getD "ast-grep" } := by
  have hripgrep := h.checkPart_text .ripgrep ["tools"] "rg"
  have hastGrep := h.checkPart_text .astGrep ["tools"] "ast-grep"
  dsimp only [Setting.group, Setting.key] at hripgrep hastGrep
  rw [checkTools]
  dsimp only [checkGroup, bind, Except.bind]
  rw [hripgrep, hastGrep]
  rfl

theorem Fits.checkStorage_eq (h : Fits home entries) :
    checkStorage ["editset"] (.map (groupIn entries "editset")) = .ok {
      output := (textIn entries .output).getD "editset.json"
      fileOutput := (textIn entries .fileOutput).getD "file-editset.json" } := by
  have houtput := h.checkPart_text .output ["editset"] "editset.json"
  have hfileOutput := h.checkPart_text .fileOutput ["editset"] "file-editset.json"
  dsimp only [Setting.group, Setting.key] at houtput hfileOutput
  rw [checkStorage]
  dsimp only [checkGroup, bind, Except.bind]
  rw [houtput, hfileOutput]
  rfl

theorem Fits.exists_checkDiscovery (h : Fits home entries) :
    ∃ excludeDirs, checkDiscovery ["discovery"] (.map (groupIn entries "discovery")) = .ok {
      tsconfig := (textIn entries .tsconfig).getD "tsconfig.json"
      excludeDirs := excludeDirs
      fileGlob := (textIn entries .fileGlob).getD "**/*.\x7bts,tsx,js,jsx\x7d" } := by
  have htsconfig := h.checkPart_text .tsconfig ["discovery"] "tsconfig.json"
  have hfileGlob := h.checkPart_text .fileGlob ["discovery"] "**/*.\x7bts,tsx,js,jsx\x7d"
  dsimp only [Setting.group, Setting.key] at htsconfig hfileGlob
  have hexcludeDirs : ∃ excludeDirs, checkPart (checkList checkText) ["discovery"]
      (fun key => (groupIn entries "discovery").lookup (.text key)) "exclude_dirs"
      (Disk.sortNames Excludes.byDefault) = .ok excludeDirs :=
    exists_checkPart _ (h.settings .excludeDirs)
  obtain ⟨excludeDirs, hexcludeDirs⟩ := hexcludeDirs
  refine ⟨excludeDirs, ?_⟩
  rw [checkDiscovery]
  dsimp only [checkGroup, bind, Except.bind]
  rw [htsconfig, hfileGlob, hexcludeDirs]
  rfl

theorem Fits.exists_checkLogging (h : Fits home entries) :
    ∃ logging, checkLogging home ["logging"] (.map (groupIn entries "logging")) = .ok logging := by
  have hlevel : ∃ level, checkPart checkLevel ["logging"]
      (fun key => (groupIn entries "logging").lookup (.text key)) "level"
      Log.Settings.usual.level = .ok level := exists_checkPart _ (h.settings .level)
  have houtputs : ∃ outputs, checkPart (checkList (checkOutput home)) ["logging"]
      (fun key => (groupIn entries "logging").lookup (.text key)) "outputs"
      Log.Settings.usual.outputs = .ok outputs := exists_checkPart _ (h.settings .outputs)
  obtain ⟨level, hlevel⟩ := hlevel
  obtain ⟨outputs, houtputs⟩ := houtputs
  refine ⟨⟨level, outputs⟩, ?_⟩
  rw [checkLogging]
  dsimp only [checkGroup, bind, Except.bind]
  rw [hlevel, houtputs]
  rfl

theorem checkKeys_eq_ok
    (h : ∀ e ∈ entries, ∃ name ∈ topLevelKeys, ∃ settings, e = (.text name, .map settings)) :
    checkKeys entries = .ok () := by
  induction entries with
  | nil => rfl
  | cons e rest ih =>
      obtain ⟨he, hrest⟩ := List.forall_mem_cons.1 h
      obtain ⟨name, hname, settings, rfl⟩ := he
      have hknown : topLevelKeys.contains (Scalar.text name).shown = true :=
        List.contains_iff_mem.2 hname
      rw [checkKeys, if_pos hknown, ih hrest]

/-- Settings that fit make a configuration, in which each text is the one that is set, or else the
usual one. -/
theorem Fits.exists_ofEntries (h : Fits home entries) :
    ∃ c, ofEntries home entries = .ok c ∧ ∀ t, t.of c = (textIn entries t).getD (t.of {}) := by
  have htext : entries.all isTextKey = true := by
    rw [List.all_eq_true]
    intro e he
    obtain ⟨name, -, settings, rfl⟩ := h.groups e he
    rfl
  obtain ⟨logging, hlogging⟩ := h.exists_checkLogging
  obtain ⟨excludeDirs, hdiscovery⟩ := h.exists_checkDiscovery
  rw [ofEntries, htext]
  dsimp only [Bool.not_true, bind, Except.bind]
  rw [if_neg (by simp), checkPart_group h.grouped rfl, hlogging, checkPart_group h.grouped rfl,
    h.checkTools_eq, checkPart_group h.grouped rfl, hdiscovery, checkPart_group h.grouped rfl,
    h.checkStorage_eq, checkKeys_eq_ok h.groups]
  refine ⟨_, rfl, fun t => ?_⟩
  cases t <;> rfl

end Redline.Config
