import Redline.Proofs.Yaml.Overlay

/-!
# Values laid over one another, path by path

`valueAt?` is the value to which a path of keys leads. `MergedAt` says what stands at a path of two
values laid over one another, in terms of what the two have there and above: two mappings are
joined, otherwise the upper value counts, and the lower one only where the upper one leaves room for
it. The laws of laying over follow key by key: nothing may be laid over or under, a value may be
laid over itself, and of three values any two neighbours may be laid together first when no two of
the three have a mapping and something else at one path (`Compatible`).
-/

namespace Redline

namespace Yaml

/-- The value to which a path of keys leads. -/
def valueAt? (v : Yaml) : List Scalar → Option Yaml
  | [] => some v
  | key :: path =>
    match v with
    | .map entries => (entries.lookup key).bind fun w => w.valueAt? path
    | _ => none

/-- There is a mapping at a path. -/
def HoldsMap (v : Yaml) (path : List Scalar) : Prop :=
  ∃ entries, v.valueAt? path = some (.map entries)

/-- There is a value at a path, and it is no mapping. -/
def HoldsOther (v : Yaml) (path : List Scalar) : Prop :=
  ∃ w, v.valueAt? path = some w ∧ ∀ entries, w ≠ .map entries

/-- On the way to a path, before its end, there is a value that is no mapping. -/
def Hides (v : Yaml) (path : List Scalar) : Prop :=
  ∃ front, front <+: path ∧ front ≠ path ∧ v.HoldsOther front

/-- Two values have mappings at a path and everywhere on the way to it. -/
def BothHoldMaps (a b : Yaml) (path : List Scalar) : Prop :=
  ∀ front, front <+: path → a.HoldsMap front ∧ b.HoldsMap front

/-- What stands at a path of two values laid over one another. -/
structure MergedAt (lower upper merged : Yaml) (path : List Scalar) : Prop where
  /-- Two mappings give one with the keys of both. -/
  joined : lower.BothHoldMaps upper path →
    ∃ below entries both, lower.valueAt? path = some (.map below) ∧
      upper.valueAt? path = some (.map entries) ∧ merged.valueAt? path = some (.map both) ∧
      (both.map Prod.fst).Nodup ∧
      ∀ key, key ∈ both.map Prod.fst ↔ key ∈ below.map Prod.fst ∨ key ∈ entries.map Prod.fst
  /-- Otherwise the upper value counts, where there is one. -/
  covered : ¬lower.BothHoldMaps upper path → ∀ v, upper.valueAt? path = some v →
    merged.valueAt? path = some v
  /-- Where there is none, and nothing on the way hides it, the lower value counts. -/
  kept : upper.valueAt? path = none → ¬upper.Hides path →
    merged.valueAt? path = lower.valueAt? path
  /-- What is hidden is not there. -/
  hidden : upper.Hides path → merged.valueAt? path = none

variable {a b c v w : Yaml} {below entries : List (Scalar × Yaml)} {key : Scalar}
  {path front : List Scalar}

/-! ### Values at paths -/

theorem valueAt?_map_cons (entries : List (Scalar × Yaml)) (key : Scalar) (path : List Scalar) :
    (Yaml.map entries).valueAt? (key :: path) =
      (entries.lookup key).bind fun w => w.valueAt? path := rfl

theorem valueAt?_cons_of_ne_map (h : ∀ entries, v ≠ .map entries) (key : Scalar)
    (path : List Scalar) : v.valueAt? (key :: path) = none := by
  cases v with
  | scalar s => rfl
  | seq items => rfl
  | map entries => exact absurd rfl (h entries)

/-- A path that goes on leads on from the value at its front. -/
theorem valueAt?_append (v : Yaml) (front rest : List Scalar) :
    v.valueAt? (front ++ rest) = (v.valueAt? front).bind fun w => w.valueAt? rest := by
  induction front generalizing v with
  | nil => rfl
  | cons key front ih =>
      cases v with
      | scalar s => rfl
      | seq items => rfl
      | map entries =>
          rw [List.cons_append, valueAt?_map_cons, valueAt?_map_cons, Option.bind_assoc]
          exact Option.bind_congr fun w _ => ih w

/-- On the way to a mapping there are mappings. -/
theorem HoldsMap.above (h : v.HoldsMap path) (hfront : front <+: path) : v.HoldsMap front := by
  obtain ⟨rest, rfl⟩ := hfront
  obtain ⟨entries, hentries⟩ := h
  cases rest with
  | nil => exact ⟨entries, by rwa [List.append_nil] at hentries⟩
  | cons key rest =>
      rw [valueAt?_append] at hentries
      obtain ⟨w, hw, hrest⟩ := Option.bind_eq_some_iff.1 hentries
      cases w with
      | scalar s => cases hrest
      | seq items => cases hrest
      | map entries => exact ⟨entries, hw⟩

theorem bothHoldMaps_iff : BothHoldMaps a b path ↔ a.HoldsMap path ∧ b.HoldsMap path :=
  ⟨fun h => h path (List.prefix_refl path),
    fun h _ hfront => ⟨h.1.above hfront, h.2.above hfront⟩⟩

theorem Hides.valueAt?_eq_none (h : v.Hides path) : v.valueAt? path = none := by
  obtain ⟨front, ⟨rest, rfl⟩, hne, w, hw, hother⟩ := h
  rw [valueAt?_append, hw]
  cases rest with
  | nil => exact absurd (List.append_nil front).symm hne
  | cons key rest => exact valueAt?_cons_of_ne_map hother key rest

/-- What hides a path under a key hides it in the whole. -/
theorem Hides.cons (hlookup : entries.lookup key = some v) (h : v.Hides path) :
    (Yaml.map entries).Hides (key :: path) := by
  obtain ⟨front, hfront, hne, w, hw, hother⟩ := h
  refine ⟨key :: front, List.cons_prefix_cons.2 ⟨rfl, hfront⟩,
    fun heq => hne (List.cons.inj heq).2, w, ?_, hother⟩
  rw [valueAt?_map_cons, hlookup]
  exact hw

/-! ### What stands at a path -/

/-- What stands under a key of one value laid over another: what the upper one has there, what the
lower one has, or the one over the other. -/
inductive Under (lower upper : Yaml) (key : Scalar) (path : List Scalar) : Prop
  | covered (h : (overlay lower upper).valueAt? (key :: path) = upper.valueAt? (key :: path))
      (hlower : (∀ entries, upper ≠ .map entries) ∨ lower.valueAt? (key :: path) = none)
  | kept (h : (overlay lower upper).valueAt? (key :: path) = lower.valueAt? (key :: path))
      (hupper : upper.valueAt? (key :: path) = none)
  | both {below entries : List (Scalar × Yaml)} {old new : Yaml} (hlower : lower = .map below)
      (hupper : upper = .map entries) (hold : below.lookup key = some old)
      (hnew : entries.lookup key = some new)
      (h : (overlay lower upper).valueAt? (key :: path) = (overlay old new).valueAt? path)

theorem under_overlay (a : Yaml) (hb : b.Keyed) (key : Scalar) (path : List Scalar) :
    Under a b key path := by
  by_cases hupper : ∃ entries, b = .map entries
  swap
  · have hother : ∀ entries, b ≠ .map entries := fun entries h => hupper ⟨entries, h⟩
    exact .covered (by rw [overlay_of_ne_map a hother]) (.inl hother)
  obtain ⟨entries, rfl⟩ := hupper
  by_cases hlower : ∃ below, a = .map below
  swap
  · have hother : ∀ below, a ≠ .map below := fun below h => hlower ⟨below, h⟩
    exact .covered (by rw [overlay_map_of_ne_map hother])
      (.inr (valueAt?_cons_of_ne_map hother key path))
  obtain ⟨below, rfl⟩ := hlower
  have hmerged : (overlay (.map below) (.map entries)).valueAt? (key :: path) =
      ((overlayEntries below entries).lookup key).bind fun w => w.valueAt? path := by
    rw [overlay_map_map, valueAt?_map_cons]
  rw [lookup_overlayEntries (keyed_map_iff.1 hb).1] at hmerged
  cases hnew : entries.lookup key with
  | none =>
      rw [hnew] at hmerged
      exact .kept hmerged (by rw [valueAt?_map_cons, hnew]; rfl)
  | some new =>
      cases hold : below.lookup key with
      | none =>
          rw [hnew, hold] at hmerged
          exact .covered (by rw [hmerged, valueAt?_map_cons, hnew])
            (.inr (by rw [valueAt?_map_cons, hold]; rfl))
      | some old =>
          rw [hnew, hold] at hmerged
          exact .both rfl rfl hold hnew hmerged

theorem valueAt?_map_cons_of_lookup (h : entries.lookup key = some v) (path : List Scalar) :
    (Yaml.map entries).valueAt? (key :: path) = v.valueAt? path := by
  rw [valueAt?_map_cons, h]
  rfl

/-- Where both have a mapping, the one is laid over the other. -/
theorem valueAt?_overlay_of_maps (hb : b.Keyed) (hbelow : a.valueAt? path = some (.map below))
    (hentries : b.valueAt? path = some (.map entries)) :
    (overlay a b).valueAt? path = some (.map (overlayEntries below entries)) := by
  induction path generalizing a b with
  | nil =>
      obtain rfl := Option.some.inj hbelow
      obtain rfl := Option.some.inj hentries
      rw [overlay_map_map]
      rfl
  | cons key path ih =>
      cases under_overlay a hb key path with
      | covered h hlower =>
          obtain hother | hnone := hlower
          · rw [valueAt?_cons_of_ne_map hother] at hentries
            cases hentries
          · rw [hnone] at hbelow
            cases hbelow
      | kept h hupper =>
          rw [hupper] at hentries
          cases hentries
      | both hlower hupper hold hnew h =>
          subst hlower hupper
          rw [valueAt?_map_cons_of_lookup hold] at hbelow
          rw [valueAt?_map_cons_of_lookup hnew] at hentries
          rw [h]
          exact ih (hb.of_lookup hnew) hbelow hentries

/-- Where not both have a mapping, the upper value counts. -/
theorem valueAt?_overlay_of_upper (hb : b.Keyed) (hnot : ¬(a.HoldsMap path ∧ b.HoldsMap path))
    (hv : b.valueAt? path = some v) : (overlay a b).valueAt? path = some v := by
  induction path generalizing a b with
  | nil =>
      obtain rfl := Option.some.inj hv
      by_cases hupper : ∃ entries, b = .map entries
      · obtain ⟨entries, rfl⟩ := hupper
        have hother : ∀ below, a ≠ .map below := by
          rintro below rfl
          exact hnot ⟨⟨below, rfl⟩, ⟨entries, rfl⟩⟩
        rw [overlay_map_of_ne_map hother]
        rfl
      · rw [overlay_of_ne_map a fun entries h => hupper ⟨entries, h⟩]
        rfl
  | cons key path ih =>
      cases under_overlay a hb key path with
      | covered h hlower => rw [h, hv]
      | kept h hupper =>
          rw [hupper] at hv
          cases hv
      | both hlower hupper hold hnew h =>
          subst hlower hupper
          rw [valueAt?_map_cons_of_lookup hnew] at hv
          rw [HoldsMap, HoldsMap, valueAt?_map_cons_of_lookup hold,
            valueAt?_map_cons_of_lookup hnew] at hnot
          rw [h]
          exact ih (hb.of_lookup hnew) hnot hv

/-- Where the upper value has nothing and hides nothing, the lower value counts. -/
theorem valueAt?_overlay_of_lower (hb : b.Keyed) (hnone : b.valueAt? path = none)
    (hhides : ¬b.Hides path) : (overlay a b).valueAt? path = a.valueAt? path := by
  induction path generalizing a b with
  | nil => cases hnone
  | cons key path ih =>
      cases under_overlay a hb key path with
      | covered h hlower =>
          obtain hother | hlower := hlower
          · have hne : [] ≠ key :: path := (List.cons_ne_nil key path).symm
            exact absurd ⟨[], List.nil_prefix, hne, b, rfl, hother⟩ hhides
          · rw [h, hnone, hlower]
      | kept h hupper => exact h
      | both hlower hupper hold hnew h =>
          subst hlower hupper
          rw [valueAt?_map_cons_of_lookup hnew] at hnone
          rw [h, valueAt?_map_cons_of_lookup hold]
          exact ih (hb.of_lookup hnew) hnone fun hhides' => hhides (hhides'.cons hnew)

/-- What the upper value hides is not there. -/
theorem valueAt?_overlay_of_hides (hb : b.Keyed) (h : b.Hides path) :
    (overlay a b).valueAt? path = none := by
  obtain ⟨front, hfront, hne, w, hw, hother⟩ := h
  have hnot : ¬(a.HoldsMap front ∧ b.HoldsMap front) := by
    rintro ⟨-, entries, hentries⟩
    exact hother entries (Option.some.inj (hw.symm.trans hentries))
  -- What hides the path stands in the merged value as well.
  have hmerged := valueAt?_overlay_of_upper hb hnot hw
  exact Hides.valueAt?_eq_none ⟨front, hfront, hne, w, hmerged, hother⟩

theorem Keyed.of_valueAt? (h : v.Keyed) (hw : v.valueAt? path = some w) : w.Keyed := by
  induction path generalizing v with
  | nil => exact Option.some.inj hw ▸ h
  | cons key path ih =>
      cases v with
      | scalar s => cases hw
      | seq items => cases hw
      | map entries =>
          rw [valueAt?_map_cons] at hw
          obtain ⟨u, hu, hw⟩ := Option.bind_eq_some_iff.1 hw
          exact ih (h.of_lookup hu) hw

theorem mergedAt_overlay (ha : a.Keyed) (hb : b.Keyed) (path : List Scalar) :
    MergedAt a b (overlay a b) path where
  joined h := by
    obtain ⟨⟨below, hbelow⟩, entries, hentries⟩ := bothHoldMaps_iff.1 h
    have hkeysBelow := (keyed_map_iff.1 (ha.of_valueAt? hbelow)).1
    have hkeys := (keyed_map_iff.1 (hb.of_valueAt? hentries)).1
    refine ⟨below, entries, _, hbelow, hentries, valueAt?_overlay_of_maps hb hbelow hentries,
      nodup_keys_overlayEntries hkeysBelow entries, fun key => ?_⟩
    rw [keys_overlayEntries hkeys, List.mem_append, List.mem_filter, decide_eq_true_eq]
    tauto
  covered h v hv := valueAt?_overlay_of_upper hb (fun hmaps => h (bothHoldMaps_iff.2 hmaps)) hv
  kept hnone hhides := valueAt?_overlay_of_lower hb hnone hhides
  hidden h := valueAt?_overlay_of_hides hb h

/-! ### Laws -/

/-- No path leads to a mapping in one of two values and to something else in the other. -/
def Compatible (a b : Yaml) : Prop :=
  ∀ path, ¬(a.HoldsMap path ∧ b.HoldsOther path) ∧ ¬(a.HoldsOther path ∧ b.HoldsMap path)

/-- Mappings are compatible if the values under the same keys are. -/
theorem compatible_map_iff : Compatible (.map below) (.map entries) ↔
    ∀ key v w, below.lookup key = some v → entries.lookup key = some w → Compatible v w := by
  constructor
  · intro h key v w hv hw path
    have hpath := h (key :: path)
    simpa only [HoldsMap, HoldsOther, valueAt?_map_cons_of_lookup hv,
      valueAt?_map_cons_of_lookup hw] using hpath
  · intro h path
    cases path with
    | nil =>
        refine ⟨?_, ?_⟩
        · rintro ⟨-, w, hw, hother⟩
          exact hother entries (Option.some.inj hw).symm
        · rintro ⟨⟨w, hw, hother⟩, -⟩
          exact hother below (Option.some.inj hw).symm
    | cons key path =>
        cases hv : below.lookup key with
        | none => simp [HoldsMap, HoldsOther, valueAt?_map_cons, hv]
        | some v =>
            cases hw : entries.lookup key with
            | none => simp [HoldsMap, HoldsOther, valueAt?_map_cons, hw]
            | some w =>
                simpa only [HoldsMap, HoldsOther, valueAt?_map_cons_of_lookup hv,
                  valueAt?_map_cons_of_lookup hw] using h key v w hv hw path

theorem not_holdsMap_of_ne_map (h : ∀ entries, v ≠ .map entries) (path : List Scalar) :
    ¬v.HoldsMap path := by
  rintro ⟨entries, hentries⟩
  cases path with
  | nil => exact h entries (Option.some.inj hentries)
  | cons key path =>
      rw [valueAt?_cons_of_ne_map h] at hentries
      cases hentries

theorem compatible_of_ne_map (ha : ∀ entries, a ≠ .map entries) (hb : ∀ entries, b ≠ .map entries) :
    Compatible a b :=
  fun path => ⟨fun h => not_holdsMap_of_ne_map ha path h.1,
    fun h => not_holdsMap_of_ne_map hb path h.2⟩

/-- Beside a mapping there is a mapping. -/
theorem Compatible.exists_map (h : Compatible a (.map entries)) : ∃ below, a = .map below := by
  by_contra hother
  exact (h []).2 ⟨⟨a, rfl, fun below heq => hother ⟨below, heq⟩⟩, entries, rfl⟩

theorem overlayEntries_nil_below (h : Keyed (.map entries)) :
    overlayEntries [] entries = entries := by
  have hkeys := (keyed_map_iff.1 h).1
  have hsame : (overlayEntries [] entries).map Prod.fst = entries.map Prod.fst := by
    rw [keys_overlayEntries hkeys]
    simp
  refine Assoc.eq_of_lookup_eq hsame (hsame ▸ hkeys) fun key => ?_
  rw [lookup_overlayEntries hkeys]
  cases entries.lookup key <;> rfl

/-- A value laid over itself. -/
theorem overlay_self (h : v.Keyed) : overlay v v = v := by
  induction h with
  | scalar s => rfl
  | seq h => rw [overlay.eq_def]
  | @map entries hkeys hvalues ih =>
      rw [overlay_map_map]
      congr 1
      refine Assoc.eq_of_lookup_eq ?_ (nodup_keys_overlayEntries hkeys entries) fun key => ?_
      · rw [keys_overlayEntries hkeys, List.filter_eq_nil_iff.2 fun key hkey => by simpa using hkey,
          List.append_nil]
      · rw [lookup_overlayEntries hkeys]
        cases hlookup : entries.lookup key with
        | none => rfl
        | some v => exact congrArg some (ih _ (Assoc.mem_of_lookup hlookup))

/-- Of three compatible values any two neighbours may be laid together first. -/
theorem overlay_assoc (ha : a.Keyed) (hb : b.Keyed) (hc : c.Keyed) (hab : Compatible a b)
    (hac : Compatible a c) (hbc : Compatible b c) :
    overlay (overlay a b) c = overlay a (overlay b c) := by
  induction hc generalizing a b with
  | scalar s => rfl
  | @seq items h =>
      have hother : ∀ entries, Yaml.seq items ≠ .map entries := nofun
      rw [overlay_of_ne_map _ hother, overlay_of_ne_map _ hother, overlay_of_ne_map _ hother]
  | @map zs hkeys hvalues ih =>
      obtain ⟨xs, rfl⟩ := hac.exists_map
      obtain ⟨ys, rfl⟩ := hbc.exists_map
      have hkeysA := (keyed_map_iff.1 ha).1
      have hkeysB := (keyed_map_iff.1 hb).1
      have hkeysBC := nodup_keys_overlayEntries hkeysB zs
      rw [overlay_map_map, overlay_map_map, overlay_map_map, overlay_map_map]
      congr 1
      refine Assoc.eq_of_lookup_eq ?_ (nodup_keys_overlayEntries
        (nodup_keys_overlayEntries hkeysA ys) zs) fun key => ?_
      · -- Both ways the keys are those of the first, then the new ones of the second and the third.
        rw [keys_overlayEntries hkeys, keys_overlayEntries hkeysB, keys_overlayEntries hkeysBC,
          keys_overlayEntries hkeys, List.filter_append, List.filter_filter, List.append_assoc]
        congr 2
        refine List.filter_congr fun key _ => ?_
        simp only [List.mem_append, List.mem_filter, decide_eq_true_eq, ← Bool.decide_and]
        refine decide_eq_decide.2 ?_
        tauto
      · -- Only under a key of all three is anything laid over twice.
        rw [lookup_overlayEntries hkeys, lookup_overlayEntries hkeysB,
          lookup_overlayEntries hkeysBC, lookup_overlayEntries hkeys]
        cases hz : zs.lookup key with
        | none => cases ys.lookup key <;> rfl
        | some z =>
            cases hy : ys.lookup key with
            | none => rfl
            | some y =>
                cases hx : xs.lookup key with
                | none => rfl
                | some x =>
                    exact congrArg some (ih _ (Assoc.mem_of_lookup hz) (ha.of_lookup hx)
                      (hb.of_lookup hy) (compatible_map_iff.1 hab _ _ _ hx hy)
                      (compatible_map_iff.1 hac _ _ _ hx hz)
                      (compatible_map_iff.1 hbc _ _ _ hy hz))

/-- Laying one mapping over another, path by path. At every path two mappings are joined, otherwise
what the upper one has there counts, and where it has nothing what the lower one has, unless the
upper one hides it. So the empty mapping laid under or over a mapping changes nothing, nor does a
mapping laid over itself, and of three compatible mappings any two neighbours may be laid together
first. -/
theorem overlay_by_path :
    (∀ lower upper : List (Scalar × Yaml), Keyed (.map lower) → Keyed (.map upper) → ∀ path,
      MergedAt (.map lower) (.map upper) (.map (overlayEntries lower upper)) path) ∧
    (∀ entries : List (Scalar × Yaml), Keyed (.map entries) →
      overlayEntries [] entries = entries ∧ overlayEntries entries [] = entries ∧
        overlayEntries entries entries = entries) ∧
    ∀ xs ys zs : List (Scalar × Yaml),
      Keyed (.map xs) → Keyed (.map ys) → Keyed (.map zs) →
      Compatible (.map xs) (.map ys) → Compatible (.map xs) (.map zs) →
      Compatible (.map ys) (.map zs) →
      overlayEntries (overlayEntries xs ys) zs = overlayEntries xs (overlayEntries ys zs) := by
  refine ⟨fun lower upper hlower hupper path => ?_, fun entries h => ?_,
    fun xs ys zs hx hy hz hxy hxz hyz => ?_⟩
  · rw [← overlay_map_map]
    exact mergedAt_overlay hlower hupper path
  · have hself := overlay_self h
    rw [overlay_map_map] at hself
    exact ⟨overlayEntries_nil_below h, rfl, Yaml.map.inj hself⟩
  · have hassoc := overlay_assoc hx hy hz hxy hxz hyz
    simp only [overlay_map_map] at hassoc
    exact Yaml.map.inj hassoc

namespace Layers

/-- Groups of text settings. -/
def groups (gs : List (String × List (String × String))) : List (Scalar × Yaml) :=
  gs.map fun g => (.text g.1, .map (g.2.map fun e => (.text e.1, .text e.2)))

theorem compatible_groups (gs hs : List (String × List (String × String))) :
    Compatible (.map (groups gs)) (.map (groups hs)) := by
  refine compatible_map_iff.2 fun key v w hv hw => ?_
  obtain ⟨g, -, hg⟩ := List.mem_map.1 (Assoc.mem_of_lookup hv)
  obtain ⟨h, -, hh⟩ := List.mem_map.1 (Assoc.mem_of_lookup hw)
  obtain ⟨-, rfl⟩ := Prod.mk.inj hg
  obtain ⟨-, rfl⟩ := Prod.mk.inj hh
  refine compatible_map_iff.2 fun key v w hv hw => ?_
  obtain ⟨e, -, he⟩ := List.mem_map.1 (Assoc.mem_of_lookup hv)
  obtain ⟨f, -, hf⟩ := List.mem_map.1 (Assoc.mem_of_lookup hw)
  obtain ⟨-, rfl⟩ := Prod.mk.inj he
  obtain ⟨-, rfl⟩ := Prod.mk.inj hf
  exact compatible_of_ne_map nofun nofun

def ours : List (Scalar × Yaml) :=
  groups [("tools", [("ripgrep", "rg"), ("ast_grep", "sg")]), ("logging", [("level", "INFO")])]

def mine : List (Scalar × Yaml) :=
  groups [("tools", [("ripgrep", "/opt/rg")]), ("editset", [("output", "out")])]

def loud : List (Scalar × Yaml) :=
  groups [("logging", [("level", "DEBUG")]), ("tools", [("ast_grep", "ast-grep")])]

/-- A mapping that hides a group. -/
def quiet : List (Scalar × Yaml) :=
  [(.text "logging", .text "off")]

theorem overlay_by_path_layers :
    Keyed (.map ours) ∧ Keyed (.map mine) ∧ Keyed (.map loud) ∧ Keyed (.map quiet) ∧
      (Yaml.map (overlayEntries ours mine)).valueAt? [.text "tools", .text "ripgrep"] =
        some (.text "/opt/rg") ∧
      (Yaml.map (overlayEntries ours mine)).valueAt? [.text "logging"] =
        some (.map [(.text "level", .text "INFO")]) ∧
      (Yaml.map (overlayEntries ours quiet)).valueAt? [.text "logging", .text "level"] = none ∧
      overlayEntries ours ours = ours ∧
      overlayEntries (overlayEntries ours mine) loud =
        overlayEntries ours (overlayEntries mine loud) := by
  have hours : Keyed (.map ours) := by
    simp [ours, groups, keyed_map_iff, Yaml.text, Keyed.scalar]
  have hmine : Keyed (.map mine) := by
    simp [mine, groups, keyed_map_iff, Yaml.text, Keyed.scalar]
  have hloud : Keyed (.map loud) := by
    simp [loud, groups, keyed_map_iff, Yaml.text, Keyed.scalar]
  have hquiet : Keyed (.map quiet) := by
    simp [quiet, keyed_map_iff, Yaml.text, Keyed.scalar]
  have hmerged := overlay_by_path.1 ours mine hours hmine
  have hnotMaps : ¬BothHoldMaps (.map ours) (.map mine) [.text "tools", .text "ripgrep"] := by
    intro h
    obtain ⟨-, entries, hentries⟩ := h _ (List.prefix_refl _)
    cases hentries
  have hfree : ¬Hides (.map mine) [.text "logging"] := by
    rintro ⟨front, hfront, hne, w, hw, hother⟩
    obtain rfl | ⟨rest, rfl, hrest⟩ := List.prefix_cons_iff.1 hfront
    · exact hother mine (Option.some.inj hw).symm
    · exact hne (by rw [List.prefix_nil.1 hrest])
  have hhides : Hides (.map quiet) [.text "logging", .text "level"] :=
    ⟨[.text "logging"], ⟨[.text "level"], rfl⟩, by decide, .text "off", rfl, nofun⟩
  exact ⟨hours, hmine, hloud, hquiet, (hmerged _).covered hnotMaps _ rfl,
    (hmerged _).kept rfl hfree, (overlay_by_path.1 ours quiet hours hquiet _).hidden hhides,
    (overlay_by_path.2.1 ours hours).2.2,
    overlay_by_path.2.2 ours mine loud hours hmine hloud (compatible_groups _ _)
      (compatible_groups _ _) (compatible_groups _ _)⟩

end Layers

end Yaml

end Redline
