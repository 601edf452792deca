import Mathlib.Tactic.Common
import Redline.Yaml.Basic

/-!
# Laying values over one another

Under a key of two mappings laid over one another stands what the upper mapping has there, over what
the lower one has, and what the lower one has where the upper one has nothing. This asks that every
key of the upper mapping is there once (`Yaml.Keyed`). Of mappings in groups it holds key by key
inside the groups too.
-/

namespace Redline.Yaml

/-- Each mapping in the value has every key once. -/
inductive Keyed : Yaml → Prop where
  | scalar (s : Scalar) : Keyed (.scalar s)
  | seq {items : List Yaml} (h : ∀ v ∈ items, Keyed v) : Keyed (.seq items)
  | map {entries : List (Scalar × Yaml)} (hkeys : (entries.map Prod.fst).Nodup)
      (h : ∀ e ∈ entries, Keyed e.2) : Keyed (.map entries)

theorem keyed_seq_iff {items : List Yaml} : Keyed (.seq items) ↔ ∀ v ∈ items, Keyed v :=
  ⟨fun h => by cases h; assumption, .seq⟩

theorem keyed_map_iff {entries : List (Scalar × Yaml)} :
    Keyed (.map entries) ↔ (entries.map Prod.fst).Nodup ∧ ∀ e ∈ entries, Keyed e.2 :=
  ⟨fun h => by cases h; exact ⟨‹_›, ‹_›⟩, fun h => .map h.1 h.2⟩

theorem keyed_nil : Keyed (.map []) :=
  .map List.nodup_nil (List.forall_mem_nil _)

variable {below entries : List (Scalar × Yaml)} {under v : Yaml} {key : Scalar}

theorem Keyed.of_lookup (h : Keyed (.map entries)) (hlookup : entries.lookup key = some v) :
    v.Keyed :=
  (keyed_map_iff.1 h).2 _ (Assoc.mem_of_lookup hlookup)

/-- A key that is set to a keyed value. -/
theorem Keyed.put (h : Keyed (.map entries)) (key : Scalar) (hv : v.Keyed) :
    Keyed (.map (Assoc.put entries key v)) := by
  obtain ⟨hkeys, hvalues⟩ := keyed_map_iff.1 h
  refine .map (Assoc.nodup_keys_put hkeys key v) fun e he => ?_
  obtain he | rfl := Assoc.mem_of_mem_put he
  · exact hvalues e he
  · exact hv

theorem overlay_map (under : Yaml) (entries : List (Scalar × Yaml)) :
    ∃ merged, overlay under (.map entries) = .map merged := by
  rw [overlay.eq_def]
  cases under <;> exact ⟨_, rfl⟩

theorem overlay_map_map (below entries : List (Scalar × Yaml)) :
    overlay (.map below) (.map entries) = .map (overlayEntries below entries) := by
  rw [overlay.eq_def]

theorem overlay_map_of_ne_map (h : ∀ below, under ≠ .map below) (entries : List (Scalar × Yaml)) :
    overlay under (.map entries) = .map entries := by
  rw [overlay.eq_def]
  cases under with
  | scalar s => rfl
  | seq items => rfl
  | map below => exact absurd rfl (h below)

theorem overlay_of_ne_map (under : Yaml) (h : ∀ entries, v ≠ .map entries) :
    overlay under v = v := by
  rw [overlay.eq_def]
  cases v with
  | scalar s => rfl
  | seq items => rfl
  | map entries => exact absurd rfl (h entries)

theorem nodup_keys_overlayEntries (hbelow : (below.map Prod.fst).Nodup)
    (entries : List (Scalar × Yaml)) : ((overlayEntries below entries).map Prod.fst).Nodup := by
  induction entries generalizing below with
  | nil => exact hbelow
  | cons e rest ih =>
      rw [overlayEntries]
      exact ih (Assoc.nodup_keys_put hbelow _ _)

/-- The keys of one mapping laid over another: those of the lower one, then the new ones. -/
theorem keys_overlayEntries (hkeys : (entries.map Prod.fst).Nodup)
    (below : List (Scalar × Yaml)) :
    (overlayEntries below entries).map Prod.fst =
      below.map Prod.fst ++ (entries.map Prod.fst).filter (· ∉ below.map Prod.fst) := by
  induction entries generalizing below with
  | nil => rw [overlayEntries, List.map_nil, List.filter_nil, List.append_nil]
  | cons e rest ih =>
      obtain ⟨key, v⟩ := e
      obtain ⟨hkey, hrest⟩ := List.nodup_cons.1 hkeys
      rw [overlayEntries, ih hrest, Assoc.keys_put, List.map_cons]
      split_ifs with hbelow
      · rw [List.filter_cons_of_neg (by simpa using hbelow)]
      · have hsame : (rest.map Prod.fst).filter (· ∉ below.map Prod.fst ++ [key]) =
            (rest.map Prod.fst).filter (· ∉ below.map Prod.fst) :=
          List.filter_congr fun other hother => by
            have hne : other ≠ key := fun heq => hkey (heq ▸ hother)
            simp [hne]
        rw [hsame, List.filter_cons_of_pos (by simpa using hbelow), List.append_assoc,
          List.singleton_append]

/-- What stands below a key of mappings laid over one another. -/
theorem lookup_overlayEntries (hkeys : (entries.map Prod.fst).Nodup) (below : List (Scalar × Yaml))
    (key : Scalar) :
    (overlayEntries below entries).lookup key =
      match entries.lookup key with
      | none => below.lookup key
      | some v => some (match below.lookup key with
        | none => v
        | some old => overlay old v) := by
  induction entries generalizing below with
  | nil => rfl
  | cons e rest ih =>
      obtain ⟨k, v⟩ := e
      obtain ⟨hk, hrest⟩ := List.nodup_cons.1 hkeys
      rw [overlayEntries, ih hrest]
      by_cases hkey : key = k
      · subst hkey
        rw [Assoc.lookup_eq_none_of_notMem hk, List.lookup_cons_self, Assoc.lookup_put_self]
        cases below.lookup key <;> rfl
      · rw [Assoc.lookup_put_of_ne hkey, List.lookup_cons, beq_false_of_ne hkey]

theorem mem_overlayEntries {e : Scalar × Yaml} (h : e ∈ overlayEntries below entries) :
    e ∈ below ∨ ∃ v under, (e.1, v) ∈ entries ∧ (e.2 = v ∨ e.2 = overlay under v) := by
  induction entries generalizing below with
  | nil => exact .inl h
  | cons e' rest ih =>
      obtain ⟨key, v⟩ := e'
      rw [overlayEntries] at h
      obtain hput | ⟨w, under, hmem, hw⟩ := ih h
      · obtain hbelow | rfl := Assoc.mem_of_mem_put hput
        · exact .inl hbelow
        · refine .inr ⟨v, (below.lookup key).getD null, List.mem_cons_self, ?_⟩
          cases below.lookup key with
          | none => exact .inl rfl
          | some old => exact .inr rfl
      · exact .inr ⟨w, under, List.mem_cons_of_mem _ hmem, hw⟩

/-! ### Groups -/

/-- The mapping of a group. -/
def groupIn (entries : List (Scalar × Yaml)) (group : String) : List (Scalar × Yaml) :=
  match entries.lookup (.text group) with
  | some (.map settings) => settings
  | _ => []

/-- Each group is a mapping. -/
def Grouped (entries : List (Scalar × Yaml)) : Prop :=
  ∀ e ∈ entries, ∃ settings, e.2 = .map settings

/-- Each group is there once, and has each of its keys once. -/
structure KeyedGroups (entries : List (Scalar × Yaml)) : Prop where
  keys : (entries.map Prod.fst).Nodup
  group (name : String) : ((groupIn entries name).map Prod.fst).Nodup

theorem Grouped.lookup_eq (h : Grouped entries) (name : String) :
    entries.lookup (.text name) = none ∧ groupIn entries name = [] ∨
      entries.lookup (.text name) = some (.map (groupIn entries name)) := by
  rw [groupIn]
  cases hlookup : entries.lookup (.text name) with
  | none => exact .inl ⟨rfl, rfl⟩
  | some v =>
      obtain ⟨settings, hv⟩ := h _ (Assoc.mem_of_lookup hlookup)
      dsimp only at hv
      subst hv
      exact .inr rfl

theorem Keyed.keyedGroups (h : Keyed (.map entries)) : KeyedGroups entries := by
  refine ⟨(keyed_map_iff.1 h).1, fun name => ?_⟩
  rw [groupIn]
  split
  · rename_i hlookup
    exact (keyed_map_iff.1 (h.of_lookup hlookup)).1
  · exact List.nodup_nil

/-- A group of groups laid over one another has the settings of the upper one, and those of the
lower one that the upper one has not. -/
theorem Grouped.lookup_groupIn_overlayEntries (h : Grouped entries) (hbelow : Grouped below)
    (hkeys : KeyedGroups entries) (name : String) :
    (groupIn (overlayEntries below entries) name).lookup key =
      match (groupIn entries name).lookup key with
      | none => (groupIn below name).lookup key
      | some v => some (match (groupIn below name).lookup key with
        | none => v
        | some old => overlay old v) := by
  rw [groupIn, lookup_overlayEntries hkeys.keys]
  obtain ⟨hnone, hempty⟩ | hsome := h.lookup_eq name
  · rw [hnone, hempty]
    rfl
  · rw [hsome]
    obtain ⟨hnone, hempty⟩ | hunder := hbelow.lookup_eq name
    · rw [hnone, hempty]
      dsimp only
      cases (groupIn entries name).lookup key <;> rfl
    · rw [hunder]
      dsimp only
      rw [overlay_map_map]
      exact lookup_overlayEntries (hkeys.group name) _ key

theorem Grouped.overlayEntries (h : Grouped entries) (hbelow : Grouped below) :
    Grouped (overlayEntries below entries) := by
  intro e he
  obtain hmem | ⟨v, under, hmem, hv⟩ := mem_overlayEntries he
  · exact hbelow e hmem
  · obtain ⟨settings, rfl⟩ := h _ hmem
    obtain hv | hv := hv
    · exact ⟨settings, hv⟩
    · obtain ⟨merged, hmerged⟩ := overlay_map under settings
      exact ⟨merged, hv.trans hmerged⟩

theorem KeyedGroups.overlayEntries (h : KeyedGroups entries) (hbelow : KeyedGroups below)
    (hgroups : Grouped entries) (hgroupsBelow : Grouped below) :
    KeyedGroups (overlayEntries below entries) := by
  refine ⟨nodup_keys_overlayEntries hbelow.keys entries, fun name => ?_⟩
  rw [groupIn, lookup_overlayEntries h.keys]
  obtain ⟨hnone, -⟩ | hsome := hgroups.lookup_eq name
  · rw [hnone]
    exact hbelow.group name
  · rw [hsome]
    obtain ⟨hnone, -⟩ | hunder := hgroupsBelow.lookup_eq name
    · rw [hnone]
      exact h.group name
    · rw [hunder]
      dsimp only
      rw [overlay_map_map]
      exact nodup_keys_overlayEntries (hbelow.group name) _

end Redline.Yaml
