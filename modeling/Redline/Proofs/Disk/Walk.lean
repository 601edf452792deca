import Mathlib.Data.List.Nodup
import Mathlib.Tactic.Common
import Redline.Disk.Walk
import Redline.Proofs.Disk.Contents
import Redline.Proofs.Disk.Frame
import Redline.Proofs.Path

/-!
# What a walk lists

A walk lists the files that can be reached through directories that are entered, and shows nothing
hidden unless asked for. The way to a file is the list of the names on it. `waysFrom` lists the ways
that a walk takes, and the walk writes them with slashes between the names. The ways come in an
order that the names alone decide, `ListedBefore`, so two disks with the same entries give the same
list, in whatever order they have them.
-/

namespace Redline

namespace Disk

/-- The order of the ways to files. In a directory the files come first, by their names; then the
directories in it, by theirs, each with all files below it. -/
inductive ListedBefore : List String → List String → Prop where
  | files {name name' : String} : name < name' → ListedBefore [name] [name']
  | fileFirst {name name' : String} {rest : List String} :
      rest ≠ [] → ListedBefore [name] (name' :: rest)
  | folders {name name' : String} {rest rest' : List String} :
      rest ≠ [] → rest' ≠ [] → name < name' → ListedBefore (name :: rest) (name' :: rest')
  | inside {name : String} {rest rest' : List String} :
      ListedBefore rest rest' → ListedBefore (name :: rest) (name :: rest')

/-- A walk may show the name. -/
def WalkOptions.Shows (o : WalkOptions) (name : String) : Prop :=
  o.includeHidden = true ∨ name.toList.head? ≠ some '.'

/-- The way from a place to a file on which a walk may go. -/
structure Walkable (d : Disk) (o : WalkOptions) (place way : List String) : Prop where
  file : ∃ content, d.entryAt (place ++ way) = some (.file content)
  entered : ∀ name ∈ way.dropLast, name ∉ o.exclude
  shown : ∀ name ∈ way, o.Shows name

/-- Every name on a disk is one that a part of a path can be. -/
def Named (d : Disk) : Prop :=
  ∀ entry ∈ d.entries, ∀ name ∈ entry.1, Path.IsPart name

/-- The ways of a walk to the files below a place, at most `depth` directories down. -/
def waysFrom (d : Disk) (o : WalkOptions) (depth : Nat) (place : List String) :
    List (List String) :=
  let here := (d.fileNames o place).map fun name => [name]
  match depth with
  | 0 => here
  | depth + 1 =>
    here ++ (d.folderNames o place).flatMap fun name =>
      (d.waysFrom o depth (place ++ [name])).map (name :: ·)

theorem ListedBefore.ne_nil {way way' : List String} (h : ListedBefore way way') :
    way ≠ [] ∧ way' ≠ [] := by
  cases h <;> simp

theorem ListedBefore.asymm {way way' : List String} (h : ListedBefore way way') :
    ¬ ListedBefore way' way := by
  induction h with
  | files hlt =>
      rintro (hlt' | hrest | ⟨hrest, -, -⟩ | hin)
      · exact String.lt_asymm hlt hlt'
      · exact hrest rfl
      · exact hrest rfl
      · exact hin.ne_nil.1 rfl
  | fileFirst hrest =>
      rintro (_ | _ | ⟨-, hnil, -⟩ | hin)
      · exact hrest rfl
      · exact hrest rfl
      · exact hnil rfl
      · exact hin.ne_nil.2 rfl
  | folders hrest hrest' hlt =>
      rintro (_ | _ | ⟨-, -, hlt'⟩ | hin)
      · exact hrest rfl
      · exact hrest' rfl
      · exact String.lt_asymm hlt hlt'
      · exact String.lt_irrefl _ hlt
  | inside hin ih =>
      rintro (hlt | _ | ⟨-, -, hlt⟩ | hin')
      · exact String.lt_irrefl _ hlt
      · exact hin.ne_nil.2 rfl
      · exact String.lt_irrefl _ hlt
      · exact ih hin'

/-! ### The names in a directory -/

theorem mem_sortNames {names : List String} {name : String} :
    name ∈ sortNames names ↔ name ∈ names :=
  List.mem_mergeSort

theorem pairwise_sortNames {names : List String} (h : names.Nodup) :
    (sortNames names).Pairwise (· < ·) := by
  have hle : (sortNames names).Pairwise fun a b => decide (a ≤ b) = true := by
    refine List.pairwise_mergeSort (fun a b c hab hbc => ?_) (fun a b => ?_) names
    · rw [decide_eq_true_eq] at hab hbc ⊢
      exact String.le_trans hab hbc
    · rw [Bool.or_eq_true, decide_eq_true_eq, decide_eq_true_eq]
      exact String.le_total a b
  have hne : (sortNames names).Pairwise (· ≠ ·) := (List.mergeSort_perm names _).nodup_iff.2 h
  exact (hle.and hne).imp fun ⟨hab, hab'⟩ => Std.lt_of_le_of_ne (of_decide_eq_true hab) hab'

/-- The name and the entry that are listed for a directory. -/
def childAt (place : List String) (x : List String × Entry) : Option (String × Entry) :=
  match x.1.getLast? with
  | some name => if x.1.dropLast = place then some (name, x.2) else none
  | none => none

theorem children_eq (d : Disk) (place : List String) :
    d.children place = d.entries.filterMap (childAt place) := rfl

section

variable {d : Disk} {o : WalkOptions} {place : List String} {name : String} {e : Entry}

theorem childAt_eq_some_iff {x : List String × Entry} {c : String × Entry} :
    childAt place x = some c ↔ x = (place ++ [c.1], c.2) := by
  constructor
  · intro h
    rw [childAt] at h
    split at h
    · rename_i last hlast
      split_ifs at h with hplace
      obtain rfl := Option.some.inj h
      rw [← hplace, List.dropLast_append_getLast? _ hlast]
    · cases h
  · rintro rfl
    simp [childAt]

theorem shows_iff : (o.includeHidden || !isHidden name) = true ↔ o.Shows name := by
  rw [WalkOptions.Shows, isHidden, Bool.or_eq_true, Bool.not_eq_true', beq_eq_false_iff_ne]

theorem mem_children_iff (hd : d.Lawful) :
    (name, e) ∈ d.children place ↔ d.entryAt (place ++ [name]) = some e := by
  have hmem : (name, e) ∈ d.children place ↔ (place ++ [name], e) ∈ d.entries := by
    rw [children_eq, List.mem_filterMap]
    exact ⟨fun ⟨_, hx, hc⟩ => childAt_eq_some_iff.1 hc ▸ hx,
      fun hx => ⟨_, hx, childAt_eq_some_iff.2 rfl⟩⟩
  rw [hmem, entryAt_of_ne_top d (by simp)]
  exact ⟨Assoc.lookup_of_mem hd.nodup, Assoc.mem_of_lookup⟩

/-- A directory has a name once. -/
theorem pairwise_children (hd : d.Lawful) (place : List String) :
    (d.children place).Pairwise fun c c' => c.1 ≠ c'.1 := by
  have hkeys : d.entries.Pairwise fun x y => x.1 ≠ y.1 := List.pairwise_map.1 hd.nodup
  rw [children_eq]
  refine hkeys.filterMap _ fun x y hxy c hc c' hc' hname => hxy ?_
  rw [childAt_eq_some_iff.1 hc, childAt_eq_some_iff.1 hc', hname]

theorem mem_fileNames_iff (hd : d.Lawful) :
    name ∈ d.fileNames o place ↔
      (∃ content, d.entryAt (place ++ [name]) = some (.file content)) ∧ o.Shows name := by
  rw [fileNames, mem_sortNames, List.mem_filterMap]
  constructor
  · rintro ⟨⟨name', _ | _⟩, hc, hname⟩
    · rename_i content
      dsimp only at hname
      split_ifs at hname with hshown
      obtain rfl := Option.some.inj hname
      exact ⟨⟨content, (mem_children_iff hd).1 hc⟩, shows_iff.1 hshown⟩
    · cases hname
  · rintro ⟨⟨content, he⟩, hshown⟩
    exact ⟨(name, .file content), (mem_children_iff hd).2 he, if_pos (shows_iff.2 hshown)⟩

theorem mem_folderNames_iff (hd : d.Lawful) :
    name ∈ d.folderNames o place ↔
      d.entryAt (place ++ [name]) = some .folder ∧ name ∉ o.exclude ∧ o.Shows name := by
  have hentered : (!o.exclude.contains name && (o.includeHidden || !isHidden name)) = true ↔
      name ∉ o.exclude ∧ o.Shows name := by
    rw [Bool.and_eq_true, shows_iff, Bool.not_eq_true', List.contains_eq_mem,
      decide_eq_false_iff_not]
  rw [folderNames, mem_sortNames, List.mem_filterMap, ← hentered]
  constructor
  · rintro ⟨⟨name', _ | _⟩, hc, hname⟩
    · cases hname
    · dsimp only at hname
      split_ifs at hname with hshown
      obtain rfl := Option.some.inj hname
      exact ⟨(mem_children_iff hd).1 hc, hshown⟩
  · rintro ⟨he, hshown⟩
    exact ⟨(name, .folder), (mem_children_iff hd).2 he, if_pos hshown⟩

/-- Names picked from a directory come in strict order. -/
theorem pairwise_picked (hd : d.Lawful) {pick : String × Entry → Option String}
    (hpick : ∀ c name, pick c = some name → name = c.1) :
    (sortNames ((d.children place).filterMap pick)).Pairwise (· < ·) := by
  refine pairwise_sortNames ((pairwise_children hd place).filterMap _ ?_)
  intro c c' hne name hname name' hname'
  rwa [hpick c name hname, hpick c' name' hname']

theorem pairwise_fileNames (hd : d.Lawful) (o : WalkOptions) (place : List String) :
    (d.fileNames o place).Pairwise (· < ·) := by
  refine pairwise_picked hd ?_
  rintro ⟨name', _ | _⟩ name hname
  · dsimp only at hname
    split_ifs at hname
    exact (Option.some.inj hname).symm
  · cases hname

theorem pairwise_folderNames (hd : d.Lawful) (o : WalkOptions) (place : List String) :
    (d.folderNames o place).Pairwise (· < ·) := by
  refine pairwise_picked hd ?_
  rintro ⟨name', _ | _⟩ name hname
  · cases hname
  · dsimp only at hname
    split_ifs at hname
    exact (Option.some.inj hname).symm

end

/-! ### Ways -/

section

variable {d : Disk} {o : WalkOptions} {place way rest : List String} {name : String} {depth : Nat}

theorem walkable_singleton_iff (hd : d.Lawful) :
    d.Walkable o place [name] ↔ name ∈ d.fileNames o place := by
  rw [mem_fileNames_iff hd]
  exact ⟨fun h => ⟨h.file, h.shown name (by simp)⟩, fun ⟨hfile, hshown⟩ =>
    ⟨hfile, by simp, by simpa using hshown⟩⟩

theorem walkable_cons_iff (hd : d.Lawful) (hrest : rest ≠ []) :
    d.Walkable o place (name :: rest) ↔
      name ∈ d.folderNames o place ∧ d.Walkable o (place ++ [name]) rest := by
  have hplace : place ++ name :: rest = place ++ [name] ++ rest := List.append_cons _ _ _
  rw [mem_folderNames_iff hd]
  constructor
  · rintro ⟨⟨content, hfile⟩, hentered, hshown⟩
    rw [hplace] at hfile
    rw [List.dropLast_cons_of_ne_nil hrest, List.forall_mem_cons] at hentered
    rw [List.forall_mem_cons] at hshown
    exact ⟨⟨hd.entryAt_of_append hrest hfile, hentered.1, hshown.1⟩,
      ⟨content, hfile⟩, hentered.2, hshown.2⟩
  · rintro ⟨⟨-, hname, hshows⟩, ⟨content, hfile⟩, hentered, hshown⟩
    refine ⟨⟨content, by rw [hplace, hfile]⟩, ?_, ?_⟩
    · rw [List.dropLast_cons_of_ne_nil hrest, List.forall_mem_cons]
      exact ⟨hname, hentered⟩
    · rw [List.forall_mem_cons]
      exact ⟨hshows, hshown⟩

/-- The ways of a walk are those that it may go, as far as it goes down. -/
theorem mem_waysFrom_iff (hd : d.Lawful) :
    way ∈ d.waysFrom o depth place ↔
      d.Walkable o place way ∧ way ≠ [] ∧ way.length ≤ depth + 1 := by
  induction depth generalizing place way with
  | zero =>
      simp only [waysFrom, List.mem_map, ← walkable_singleton_iff hd]
      constructor
      · rintro ⟨name, h, rfl⟩
        exact ⟨h, by simp, by simp⟩
      · rintro ⟨h, hne, hlen⟩
        obtain ⟨name, rfl⟩ := List.length_eq_one_iff.1
          (Nat.le_antisymm hlen (List.length_pos_iff.2 hne))
        exact ⟨name, h, rfl⟩
  | succ depth ih =>
      simp only [waysFrom, List.mem_append, List.mem_map, List.mem_flatMap,
        ← walkable_singleton_iff hd, ih]
      constructor
      · rintro (⟨name, h, rfl⟩ | ⟨name, hname, rest, ⟨h, hrest, hlen⟩, rfl⟩)
        · exact ⟨h, by simp, by simp⟩
        · exact ⟨(walkable_cons_iff hd hrest).2 ⟨hname, h⟩, by simp, by simpa using hlen⟩
      · rintro ⟨h, hne, hlen⟩
        obtain ⟨name, rest, rfl⟩ := List.exists_cons_of_ne_nil hne
        by_cases hrest : rest = []
        · subst hrest
          exact Or.inl ⟨name, h, rfl⟩
        · obtain ⟨hname, h⟩ := (walkable_cons_iff hd hrest).1 h
          exact Or.inr ⟨name, hname, rest, ⟨h, hrest, by simpa using hlen⟩, rfl⟩

theorem pairwise_here (hd : d.Lawful) (o : WalkOptions) (place : List String) :
    ((d.fileNames o place).map fun name => [name]).Pairwise ListedBefore :=
  List.pairwise_map.2 ((pairwise_fileNames hd o place).imp .files)

theorem pairwise_waysFrom (hd : d.Lawful) (o : WalkOptions) (depth : Nat) (place : List String) :
    (d.waysFrom o depth place).Pairwise ListedBefore := by
  induction depth generalizing place with
  | zero => exact pairwise_here hd o place
  | succ depth ih =>
      have hlonger : ∀ name, ∀ rest ∈ d.waysFrom o depth (place ++ [name]), rest ≠ [] :=
        fun _ _ hrest => ((mem_waysFrom_iff hd).1 hrest).2.1
      refine List.pairwise_append.2 ⟨pairwise_here hd o place, List.pairwise_flatMap.2 ⟨?_, ?_⟩, ?_⟩
      · exact fun name _ => List.pairwise_map.2 ((ih (place ++ [name])).imp .inside)
      · refine (pairwise_folderNames hd o place).imp fun hlt way hway way' hway' => ?_
        obtain ⟨rest, hrest, rfl⟩ := List.mem_map.1 hway
        obtain ⟨rest', hrest', rfl⟩ := List.mem_map.1 hway'
        exact .folders (hlonger _ _ hrest) (hlonger _ _ hrest') hlt
      · intro way hway way' hway'
        obtain ⟨name, -, rfl⟩ := List.mem_map.1 hway
        obtain ⟨name', -, hway'⟩ := List.mem_flatMap.1 hway'
        obtain ⟨rest, hrest, rfl⟩ := List.mem_map.1 hway'
        exact .fileFirst (hlonger _ _ hrest)

/-- A walk writes its ways down, those that match. -/
theorem walkFrom_eq (d : Disk) (o : WalkOptions) (top : List String) (depth : Nat)
    (below : List String) :
    d.walkFrom o top depth below =
      ((d.waysFrom o depth (top ++ below)).map fun way => "/".intercalate (below ++ way)).filter
        fun path => Glob.matchPath path o.pattern := by
  induction depth generalizing below with
  | zero => simp only [walkFrom, waysFrom, List.map_map, Function.comp_def]
  | succ depth ih =>
      simp only [walkFrom, waysFrom, ih, List.map_append, List.filter_append, List.map_map,
        List.map_flatMap, List.filter_flatMap, Function.comp_def, List.append_assoc,
        List.singleton_append]

theorem le_foldl_max {lengths : List Nat} {n start : Nat} (h : n ≤ start ∨ n ∈ lengths) :
    n ≤ lengths.foldl max start := by
  induction lengths generalizing start with
  | nil => simpa using h
  | cons m rest ih =>
      refine ih ?_
      rcases h with h | h
      · exact Or.inl (le_max_of_le_left h)
      · rcases List.mem_cons.1 h with rfl | h
        · exact Or.inl (le_max_right _ _)
        · exact Or.inr h

/-- No path is longer than a disk is deep. -/
theorem length_le_depth {e : Entry} (h : d.entryAt place = some e) : place.length ≤ d.depth := by
  by_cases htop : place = []
  · rw [htop]
    exact Nat.zero_le _
  · exact le_foldl_max (Or.inr (List.mem_map.2 ⟨_, mem_entries_of_entryAt htop h, rfl⟩))

end

/-! ### Walks -/

section

variable {d : Disk} {o : WalkOptions} {root : Path} {top : List String}

theorem walk_eq (hroot : d.find root = .at top) (hfolder : d.entryAt top = some .folder) :
    d.walk o root =
      ((d.waysFrom o d.depth top).map fun way => "/".intercalate way).filter
        fun path => Glob.matchPath path o.pattern := by
  rw [walk, hroot]
  simp only [hfolder]
  rw [walkFrom_eq, List.append_nil]
  rfl

/-- A walk takes every way that it may go, from a directory down. -/
theorem mem_ways_iff (hd : d.Lawful) (hfolder : d.entryAt top = some .folder) {way : List String} :
    way ∈ d.waysFrom o d.depth top ↔ d.Walkable o top way := by
  rw [mem_waysFrom_iff hd]
  refine ⟨fun h => h.1, fun h => ⟨h, ?_, ?_⟩⟩
  · rintro rfl
    obtain ⟨content, hfile⟩ := h.file
    rw [List.append_nil, hfolder] at hfile
    cases hfile
  · obtain ⟨content, hfile⟩ := h.file
    have hlen := length_le_depth hfile
    rw [List.length_append] at hlen
    omega

theorem mem_walk_iff (hd : d.Lawful) (hroot : d.find root = .at top)
    (hfolder : d.entryAt top = some .folder) {path : String} :
    path ∈ d.walk o root ↔
      ∃ way, path = "/".intercalate way ∧ d.Walkable o top way ∧
        Glob.matchPath path o.pattern = true := by
  rw [walk_eq hroot hfolder, List.mem_filter, List.mem_map]
  constructor
  · rintro ⟨⟨way, hway, rfl⟩, hmatch⟩
    exact ⟨way, rfl, (mem_ways_iff hd hfolder).1 hway, hmatch⟩
  · rintro ⟨way, rfl, hway, hmatch⟩
    exact ⟨⟨way, (mem_ways_iff hd hfolder).2 hway, rfl⟩, hmatch⟩

/-- A way is read back from its path. -/
theorem Walkable.partsOf_eq {way : List String} (h : d.Walkable o top way) (hnamed : d.Named)
    (hfolder : d.entryAt top = some .folder) : Path.partsOf ("/".intercalate way) = way := by
  obtain ⟨content, hfile⟩ := h.file
  have hmem := mem_entries_of_entryAt (ne_top_of_file hfile) hfile
  refine Path.partsOf_intercalate ?_ fun name hname => hnamed _ hmem name (by simp [hname])
  rintro rfl
  rw [List.append_nil, hfolder] at hfile
  cases hfile

/-- The paths that a walk lists are in order. -/
theorem pairwise_walk (hd : d.Lawful) (hnamed : d.Named) (hroot : d.find root = .at top)
    (hfolder : d.entryAt top = some .folder) :
    (d.walk o root).Pairwise fun path path' =>
      ListedBefore (Path.partsOf path) (Path.partsOf path') := by
  rw [walk_eq hroot hfolder]
  refine List.Pairwise.filter _ (List.pairwise_map.2 ?_)
  refine (pairwise_waysFrom hd o d.depth top).imp_of_mem fun {way way'} hway hway' hbefore => ?_
  rwa [((mem_ways_iff hd hfolder).1 hway).partsOf_eq hnamed hfolder,
    ((mem_ways_iff hd hfolder).1 hway').partsOf_eq hnamed hfolder]

theorem nodup_walk (hd : d.Lawful) (hnamed : d.Named) (hroot : d.find root = .at top)
    (hfolder : d.entryAt top = some .folder) : (d.walk o root).Nodup := by
  refine (pairwise_walk hd hnamed hroot hfolder).imp fun hbefore heq => ?_
  rw [heq] at hbefore
  exact hbefore.asymm hbefore

end

/-! ### The order of the entries -/

section

variable {d d' : Disk}

theorem Lawful.entryAt_eq_of_perm (hd : d.Lawful) (h : d'.entries.Perm d.entries)
    (place : List String) : d'.entryAt place = d.entryAt place := by
  have hkeys : (d'.entries.map Prod.fst).Nodup := (h.map _).nodup_iff.2 hd.nodup
  by_cases htop : place = []
  · rw [htop, entryAt_top, entryAt_top]
  · rw [entryAt_of_ne_top _ htop, entryAt_of_ne_top _ htop]
    refine Option.ext fun e => ⟨fun he => ?_, fun he => ?_⟩
    · exact Assoc.lookup_of_mem hd.nodup (h.subset (Assoc.mem_of_lookup he))
    · exact Assoc.lookup_of_mem hkeys (h.symm.subset (Assoc.mem_of_lookup he))

theorem Lawful.of_perm (hd : d.Lawful) (h : d'.entries.Perm d.entries) : d'.Lawful := by
  refine ⟨(h.map _).nodup_iff.2 hd.nodup, fun hmem => hd.proper ((h.map _).subset hmem), ?_⟩
  intro place e hne he
  rw [hd.entryAt_eq_of_perm h] at he ⊢
  exact hd.rooted place e hne he

/-- The order that the names decide leaves no choice: what is listed decides the list. -/
theorem walk_eq_of_perm {o : WalkOptions} {root : Path} {top : List String} (hd : d.Lawful)
    (hnamed : d.Named) (hroot : d.find root = .at top) (hfolder : d.entryAt top = some .folder)
    (hworking : d'.working = d.working) (h : d'.entries.Perm d.entries) :
    d'.walk o root = d.walk o root := by
  have heq := hd.entryAt_eq_of_perm h
  have halike : d.Alike d' := ⟨hworking, fun place => by rw [heq], fun place => by rw [heq]⟩
  have hd' := hd.of_perm h
  have hnamed' : d'.Named := fun entry hentry => hnamed entry (h.subset hentry)
  have hroot' := (halike.find_eq root).trans hroot
  have hfolder' := (heq top).trans hfolder
  have hwalkable : ∀ way, d'.Walkable o top way ↔ d.Walkable o top way := fun way =>
    ⟨fun ⟨hfile, hentered, hshown⟩ => ⟨heq (top ++ way) ▸ hfile, hentered, hshown⟩,
      fun ⟨hfile, hentered, hshown⟩ => ⟨(heq (top ++ way)).symm ▸ hfile, hentered, hshown⟩⟩
  have hmem : ∀ path, path ∈ d'.walk o root ↔ path ∈ d.walk o root := by
    intro path
    rw [mem_walk_iff hd' hroot' hfolder', mem_walk_iff hd hroot hfolder]
    simp only [hwalkable]
  exact List.Perm.eq_of_pairwise (fun _ _ _ _ hbefore hafter => absurd hafter hbefore.asymm)
    (pairwise_walk hd' hnamed' hroot' hfolder') (pairwise_walk hd hnamed hroot hfolder)
    ((List.perm_ext_iff_of_nodup (nodup_walk hd' hnamed' hroot' hfolder')
      (nodup_walk hd hnamed hroot hfolder)).2 hmem)

end

/-- What a walk lists. For a directory tree, a path is listed once, if it is that of a file below
the root, through directories that are not excluded, with no hidden name on it unless asked for, and
the pattern matches it; no other path is listed. The files of a directory are listed in the order of
their names, before those of its directories, which come in the order of theirs. The order in which
the disk has its entries makes no difference. -/
theorem walk_lists_files (d : Disk) (o : WalkOptions) (root : Path) (top : List String)
    (hd : d.Lawful) (hnamed : d.Named) (hroot : d.find root = .at top)
    (hfolder : d.entryAt top = some .folder) :
    (d.walk o root).Nodup ∧
    (∀ path, path ∈ d.walk o root ↔
      ∃ way, path = "/".intercalate way ∧ d.Walkable o top way ∧
        Glob.matchPath path o.pattern = true) ∧
    ((d.walk o root).Pairwise fun path path' =>
      ListedBefore (Path.partsOf path) (Path.partsOf path')) ∧
    ∀ d' : Disk, d'.working = d.working → d'.entries.Perm d.entries →
      d'.walk o root = d.walk o root := by
  exact ⟨nodup_walk hd hnamed hroot hfolder, fun path => mem_walk_iff hd hroot hfolder,
    pairwise_walk hd hnamed hroot hfolder,
    fun _ hworking hperm => walk_eq_of_perm hd hnamed hroot hfolder hworking hperm⟩

/-- A directory tree with an excluded directory and hidden names, in no order. -/
def orchard : Disk :=
  { working := ["root"]
    entries := [(["root", "src", "é.ts"], .file []), (["root", "src"], .folder),
      (["root", ".env"], .folder), (["root", ".env", "c.ts"], .file []), (["root"], .folder),
      (["root", "z.ts"], .file []), (["root", "dist", "d.ts"], .file []),
      (["root", "dist"], .folder), (["root", "src", "lib", "b.ts"], .file []),
      (["root", "src", "lib"], .folder), (["root", "src", "z.ts"], .file [])] }

/-- All files that end in `.ts`, but for those in `dist` and hidden ones. -/
def scripts : WalkOptions :=
  { pattern := "**/*.ts", exclude := ["dist"], includeHidden := false }

example : orchard.walk scripts ⟨true, ["root"]⟩ =
    ["z.ts", "src/z.ts", "src/é.ts", "src/lib/b.ts"] := by
  cbv

/-- The orchard is a directory tree, and turning its entries round changes no walk. -/
theorem walk_lists_orchard :
    orchard.Lawful ∧ orchard.Named ∧ orchard.find ⟨true, ["root"]⟩ = .at ["root"] ∧
    orchard.entryAt ["root"] = some .folder ∧
    (orchard.walk scripts ⟨true, ["root"]⟩).Nodup ∧
    "src/lib/b.ts" ∈ orchard.walk scripts ⟨true, ["root"]⟩ ∧
    { orchard with entries := orchard.entries.reverse }.walk scripts ⟨true, ["root"]⟩ =
      orchard.walk scripts ⟨true, ["root"]⟩ := by
  have hd : orchard.Lawful := Lawful.of_entries (by decide +kernel) (by decide) (by decide +kernel)
  have hparts : ∀ entry ∈ orchard.entries, ∀ name ∈ entry.1,
      name ≠ "" ∧ name ≠ "." ∧ '/' ∉ name.toList := by
    decide +kernel
  have hnamed : orchard.Named := fun entry hentry name hname =>
    have hpart := hparts entry hentry name hname
    ⟨hpart.1, hpart.2.1, hpart.2.2⟩
  have hroot : orchard.find ⟨true, ["root"]⟩ = .at ["root"] := by decide +kernel
  have hfolder : orchard.entryAt ["root"] = some .folder := by decide +kernel
  obtain ⟨hnodup, hmem, -, hperm⟩ :=
    walk_lists_files orchard scripts ⟨true, ["root"]⟩ ["root"] hd hnamed hroot hfolder
  refine ⟨hd, hnamed, hroot, hfolder, hnodup, ?_, hperm _ rfl (List.reverse_perm _)⟩
  refine (hmem _).2 ⟨["src", "lib", "b.ts"], by decide +kernel, ⟨?_, ?_, ?_⟩, by decide +kernel⟩
  · exact ⟨[], by decide +kernel⟩
  · decide
  · intro name hname
    right
    revert name
    decide

end Disk

/-!
## A walk looks at names only

The `outline` of a disk has its directories and files without what is in the files. A walk lists the
same on a disk as on its outline, so writing over a file does not change what is listed.
-/

/-- What stands at a path, without its content. -/
def Entry.outline : Entry → Entry
  | .file _ => .file []
  | .folder => .folder

namespace Disk

variable {d d' : Disk} {place : List String}

/-- The disk with nothing in its files. -/
def outline (d : Disk) : Disk :=
  { d with entries := d.entries.map fun e => (e.1, e.2.outline) }

theorem entryAt_outline (d : Disk) (place : List String) :
    d.outline.entryAt place = (d.entryAt place).map Entry.outline := by
  by_cases htop : place = []
  · rw [htop]
    rfl
  · rw [entryAt_of_ne_top _ htop, entryAt_of_ne_top _ htop, outline]
    induction d.entries with
    | nil => rfl
    | cons e entries ih =>
        obtain ⟨key, entry⟩ := e
        rw [List.map_cons, List.lookup_cons, List.lookup_cons]
        cases place == key with
        | true => rfl
        | false => exact ih

theorem alike_outline (d : Disk) : d.Alike d.outline := by
  refine ⟨rfl, fun place => ?_, fun place => ?_⟩
  · rw [entryAt_outline]
    cases d.entryAt place with
    | none => exact iff_of_false (by simp) (by simp)
    | some e => cases e <;> simp [Entry.outline]
  · rw [entryAt_outline, Option.map_eq_none_iff]

/-- Writing over a file leaves the outline as it was. -/
theorem outline_put {c : Bytes} (h : d.entryAt place = some (.file c)) (c' : Bytes) :
    (d.put place (.file c')).outline = d.outline := by
  rw [entryAt_of_ne_top d (ne_top_of_file h)] at h
  obtain ⟨before, after, hentries, hput⟩ := Assoc.exists_split_of_lookup h
  rw [outline, put, hput, outline, hentries, List.map_append, List.map_append, List.map_cons,
    List.map_cons]
  rfl

theorem children_outline (d : Disk) (place : List String) :
    d.outline.children place = (d.children place).map fun c => (c.1, c.2.outline) := by
  rw [children, outline, List.filterMap_map, children, List.map_filterMap]
  congr 1
  funext e
  dsimp only [Function.comp_apply]
  cases e.1.getLast? with
  | none => rfl
  | some name => split_ifs <;> rfl

theorem fileNames_outline (d : Disk) (o : WalkOptions) (place : List String) :
    d.outline.fileNames o place = d.fileNames o place := by
  rw [fileNames, fileNames, children_outline, List.filterMap_map]
  congr 2
  funext c
  obtain ⟨name, entry⟩ := c
  cases entry <;> rfl

theorem folderNames_outline (d : Disk) (o : WalkOptions) (place : List String) :
    d.outline.folderNames o place = d.folderNames o place := by
  rw [folderNames, folderNames, children_outline, List.filterMap_map]
  congr 2
  funext c
  obtain ⟨name, entry⟩ := c
  cases entry <;> rfl

theorem walkFrom_outline (d : Disk) (o : WalkOptions) (top : List String) (depth : Nat)
    (below : List String) :
    d.outline.walkFrom o top depth below = d.walkFrom o top depth below := by
  induction depth generalizing below with
  | zero => rw [walkFrom, walkFrom, fileNames_outline]
  | succ depth ih =>
      rw [walkFrom, walkFrom, fileNames_outline, folderNames_outline]
      simp only [ih]

theorem depth_outline (d : Disk) : d.outline.depth = d.depth := by
  rw [depth, outline, List.map_map]
  rfl

/-- A walk lists the same on the outline of a disk. -/
theorem walk_outline (d : Disk) (o : WalkOptions) (root : Path) :
    d.outline.walk o root = d.walk o root := by
  rw [walk, walk, (alike_outline d).find_eq]
  cases d.find root with
  | missing => rfl
  | notFolder => rfl
  | «at» place =>
      dsimp only
      rw [entryAt_outline]
      cases d.entryAt place with
      | none => rfl
      | some e =>
          cases e with
          | file c => rfl
          | folder =>
              show d.outline.walkFrom o place d.outline.depth [] = d.walkFrom o place d.depth []
              rw [depth_outline, walkFrom_outline]

theorem walk_congr (h : d'.outline = d.outline) (o : WalkOptions) (root : Path) :
    d'.walk o root = d.walk o root := by
  rw [← walk_outline d', h, walk_outline]

end Disk

end Redline
