import Mathlib.Data.List.TakeWhile
import Redline.FileRename.Plan
import Redline.Proofs.Disk.Walk
import Redline.Proofs.Glob.Language
import Redline.Proofs.Naming

/-!
# Which files are found for a renaming

A rename is planned for every file below a root whose name, in lower case, has the text in lower
case. The new name comes from a search that compares characters by likeness. Where the text is
`Steady`, or has a slash and is in no name, the two agree for every tree. For any other text there
is a tree in which a file is left out that has it, or one is taken that has it not.
-/

namespace Redline

namespace Disk

/-- A directory tree below a root. -/
structure Rooted (d : Disk) (root : Path) : Prop where
  lawful : d.Lawful
  named : d.Named
  folder : ∃ top, d.find root = .at top ∧ d.entryAt top = some .folder

section

variable {d : Disk} {o : WalkOptions} {place top way : List String} {content : Bytes}

/-- The way to a file is followed to its end. -/
theorem Lawful.follow_eq (hd : d.Lawful) (hdots : ".." ∉ way)
    (hfile : d.entryAt (place ++ way) = some (.file content)) :
    d.follow place way = .at (place ++ way) := by
  induction way generalizing place with
  | nil => rw [follow, List.append_nil]
  | cons name way ih =>
      rw [List.mem_cons, not_or] at hdots
      rw [follow, hd.entryAt_of_append (List.cons_ne_nil _ _) hfile]
      dsimp only
      rw [List.append_cons place name way] at hfile ⊢
      rw [if_neg (Ne.symm hdots.1)]
      exact ih hdots.2 hfile

/-- A file that a walk lists can be read. -/
theorem Rooted.exists_read {root : Path} (h : d.Rooted root) (hhidden : o.includeHidden = false)
    {path : String} (hpath : path ∈ d.walk o root) : ∃ c, d.read (root.join path) = .ok c := by
  obtain ⟨top, hroot, hfolder⟩ := h.folder
  obtain ⟨way, rfl, hway, -⟩ := (mem_walk_iff h.lawful hroot hfolder).1 hpath
  obtain ⟨content, hfile⟩ := hway.file
  have hmem := mem_entries_of_entryAt (ne_top_of_file hfile) hfile
  have hparts : ∀ part ∈ way, Path.IsPart part := fun part hpart =>
    h.named _ hmem part (List.mem_append_right _ hpart)
  have hdots : ".." ∉ way := fun hdots =>
    (hway.shown _ hdots).elim (by simp [hhidden]) fun hshown => hshown (by decide)
  have hjoin : root.join ("/".intercalate way) = { root with parts := root.parts ++ way } := by
    have hhead := beq_eq_false_iff_ne.2 (Path.head?_intercalate hparts)
    simp only [Path.join, Path.ofString, hway.partsOf_eq h.named hfolder, hhead]
    rfl
  have hfind : d.find (root.join ("/".intercalate way)) = .at (top ++ way) := by
    rw [find] at hroot
    rw [hjoin, find, follow_append, hroot]
    exact h.lawful.follow_eq hdots hfile
  refine ⟨content, ?_⟩
  rw [read, hfind]
  dsimp only
  rw [hfile]

end

end Disk

namespace FileRename

open Text Naming

theorem occursIn_iff {part whole : List Char} : occursIn part whole = true ↔ part <:+: whole := by
  induction whole with
  | nil => rw [occursIn, List.isEmpty_iff, List.infix_nil]
  | cons c rest ih =>
      rw [occursIn, Bool.or_eq_true, List.isPrefixOf_iff_prefix, ih, List.infix_cons_iff]

section

variable {r : Request} {d : Disk} {root : Path} {path name : String}

theorem isAffected_iff :
    isAffected r path = true ↔
      lowerChars [] r.pattern.toList <:+: lowerChars [] (splitName path).2.toList := by
  rw [isAffected, occursIn_iff, toList_toLower, toList_toLower]

theorem slash_notMem_name (path : String) : '/' ∉ (splitName path).2.toList := by
  rw [splitName, String.toList_ofList, List.mem_reverse]
  intro hmem
  simpa using List.mem_takeWhile_imp hmem

theorem name_eq_self (h : '/' ∉ name.toList) : (splitName name).2 = name := by
  have hall : name.toList.reverse.takeWhile (· != '/') = name.toList.reverse := by
    refine List.takeWhile_eq_self_iff.2 fun c hc => ?_
    rw [bne_iff_ne]
    rintro rfl
    exact h (List.mem_reverse.1 hc)
  rw [splitName, hall, List.reverse_reverse, String.ofList_toList]

/-- The files that are looked at. -/
def Request.walked (r : Request) (d : Disk) (root : Path) : List String :=
  d.walk { pattern := r.glob, exclude := r.exclude, includeHidden := false } root

/-- A rename is planned for each file that is affected, in the order of the walk. -/
theorem find_affected (r : Request) (h : d.Rooted root) :
    ∃ ops, find r d root = .ok ops ∧
      ops.map FileOp.oldPath = (r.walked d root).filter (isAffected r) := by
  have hsame : List.Forall₂ (fun path path' => path = path' ∧ path' ∈ r.walked d root)
      ((r.walked d root).filter (isAffected r)) ((r.walked d root).filter (isAffected r)) :=
    List.forall₂_same.2 fun _ hpath => ⟨rfl, List.mem_of_mem_filter hpath⟩
  obtain ⟨ops, hops, hall⟩ : ∃ ops, find r d root = .ok ops ∧
      List.Forall₂ (fun path op => path = FileOp.oldPath op)
        ((r.walked d root).filter (isAffected r)) ops := by
    refine exists_mapM_of_forall₂ hsame fun path path' hpath => ?_
    obtain ⟨rfl, hpath⟩ := hpath
    obtain ⟨c, hc⟩ := h.exists_read rfl hpath
    rw [hc]
    exact ⟨_, rfl, rfl⟩
  refine ⟨ops, hops, Eq.symm ?_⟩
  rwa [← List.forall₂_eq_eq_eq, List.forall₂_map_right_iff]

/-- A rename is planned for a file that is looked at exactly if the text that would be replaced is
found in its name. -/
def Agrees (r : Request) (d : Disk) (root : Path) : Prop :=
  ∃ ops, find r d root = .ok ops ∧ ∀ path ∈ r.walked d root,
    path ∈ ops.map FileOp.oldPath ↔ finds r.pattern (splitName path).2 = true

theorem agrees_iff (h : d.Rooted root) :
    Agrees r d root ↔ ∀ path ∈ r.walked d root,
      lowerChars [] r.pattern.toList <:+: lowerChars [] (splitName path).2.toList ↔
        Stands r.pattern.toList (splitName path).2.toList := by
  obtain ⟨ops, hops, hpaths⟩ := find_affected r h
  have hmem : ∀ path ∈ r.walked d root, (path ∈ ops.map FileOp.oldPath ↔
      lowerChars [] r.pattern.toList <:+: lowerChars [] (splitName path).2.toList) := by
    intro path hpath
    rw [hpaths, List.mem_filter, and_iff_right hpath, isAffected_iff]
  constructor
  · rintro ⟨ops', hops', hagrees⟩ path hpath
    obtain rfl := Except.ok.inj (hops.symm.trans hops')
    rw [← hmem path hpath, hagrees path hpath, finds_iff]
  · intro hagrees
    refine ⟨ops, hops, fun path hpath => ?_⟩
    rw [hmem path hpath, hagrees path hpath, finds_iff]

/-! ### One file -/

/-- A disk with one file, which is empty. -/
def alone (name : String) : Disk :=
  { working := [], entries := [([name], .file [])] }

theorem rooted_alone (h : Path.IsPart name) : (alone name).Rooted ⟨true, []⟩ where
  lawful :=
    Disk.Lawful.of_entries (by simp [alone]) (by simp [alone]) (by simp [alone, Disk.entryAt])
  named := by simpa [Disk.Named, alone] using h
  folder := ⟨[], rfl, rfl⟩

/-- Two stars match every path. -/
theorem matchPath_stars (path : String) : Glob.matchPath path "**" = true := by
  have hexpand : Glob.expand "**" = ["**"] := by decide +kernel
  have hparts : Glob.patternSegments "**" = ["**"] := by decide +kernel
  rw [Glob.matchPath, hexpand, List.any_cons, List.any_nil, Bool.or_false, hparts,
    Glob.matchSegments_iff]
  exact ⟨[Glob.pathSegments path], by simp, .cons (.inl rfl) .nil⟩

theorem walked_alone (hpart : Path.IsPart name) (hshown : name.toList.head? ≠ some '.')
    (hglob : r.glob = "**") : r.walked (alone name) ⟨true, []⟩ = [name] := by
  obtain ⟨hd, hnamed, -⟩ := rooted_alone hpart
  rw [← List.perm_singleton, Request.walked,
    List.perm_ext_iff_of_nodup (Disk.nodup_walk hd hnamed rfl rfl) (List.nodup_singleton name)]
  intro path
  rw [Disk.mem_walk_iff hd rfl rfl, List.mem_singleton]
  constructor
  · rintro ⟨way, rfl, hway, -⟩
    obtain ⟨content, hfile⟩ := hway.file
    have hmem := Disk.mem_entries_of_entryAt (Disk.ne_top_of_file hfile) hfile
    obtain rfl : way = [name] := congrArg Prod.fst (List.mem_singleton.1 hmem)
    exact String.intercalate_singleton
  · rintro rfl
    refine ⟨[path], String.intercalate_singleton.symm, ⟨⟨[], ?_⟩, by simp, ?_⟩, ?_⟩
    · simp [alone, Disk.entryAt]
    · simpa [Disk.WalkOptions.Shows] using hshown
    · rw [hglob]
      exact matchPath_stars path

/-- Whether what is found agrees with what is replaced in a disk with one file. -/
theorem agrees_alone_iff (hpart : Path.IsPart name) (hshown : name.toList.head? ≠ some '.')
    (hglob : r.glob = "**") :
    Agrees r (alone name) ⟨true, []⟩ ↔
      (lowerChars [] r.pattern.toList <:+: lowerChars [] name.toList ↔
        Stands r.pattern.toList name.toList) := by
  rw [agrees_iff (rooted_alone hpart), walked_alone hpart hshown hglob, List.forall_mem_singleton,
    name_eq_self hpart.no_slash]

end

/-- For which texts the files that are found are those that have the text. A rename is planned for
each file whose name has the text whatever its case, and for no other, in every tree, with every
replacement, pattern for the paths and exclusion, exactly if the text is steady, or has a slash. -/
theorem find_agrees_iff (pattern : String) :
    (∀ (r : Request) (d : Disk) (root : Path), r.pattern = pattern → d.Rooted root →
      Agrees r d root) ↔ Steady pattern.toList ∨ '/' ∈ pattern.toList := by
  constructor
  · intro hagrees
    by_contra hnot
    obtain ⟨hsteady, hslash⟩ := not_or.1 hnot
    obtain ⟨chars, hchars⟩ := exists_misleads hsteady hslash
    obtain ⟨name, rfl⟩ : ∃ name : String, name.toList = chars :=
      ⟨String.ofList chars, String.toList_ofList⟩
    have hpart : Path.IsPart name := by
      refine ⟨?_, ?_, hchars.slash⟩
      · rintro rfl
        exact hchars.ne_nil rfl
      · rintro rfl
        exact hchars.shown rfl
    have hone := hagrees ⟨pattern, "", "**", []⟩ _ _ rfl (rooted_alone hpart)
    exact hchars.differs ((agrees_alone_iff hpart hchars.shown rfl).1 hone)
  · rintro h r d root rfl hrooted
    exact (agrees_iff hrooted).2 fun path _ =>
      isInfix_iff_of_steady_or_slash h (slash_notMem_name path)

/-- The long s is replaced in `s.txt`, and no rename of it is planned; a dot above is found nowhere
in `İ.txt`, and one is. -/
theorem find_misleads_by_case :
    ((find ⟨"ſ", "x", "**", []⟩ (alone "s.txt") ⟨true, []⟩).map (·.map FileOp.oldPath) = .ok [] ∧
      newFileName "s.txt" "ſ" "x" = "x.txt" ∧
      ¬ Agrees ⟨"ſ", "x", "**", []⟩ (alone "s.txt") ⟨true, []⟩) ∧
    ((find ⟨"\u0307", "x", "**", []⟩ (alone "İ.txt") ⟨true, []⟩).map (·.map FileOp.oldPath) =
        .ok ["İ.txt"] ∧
      finds "\u0307" "İ.txt" = false ∧
      ¬ Agrees ⟨"\u0307", "x", "**", []⟩ (alone "İ.txt") ⟨true, []⟩) := by
  have hnames : ∀ name ∈ ["s.txt", "İ.txt"],
      (name ≠ "" ∧ name ≠ "." ∧ '/' ∉ name.toList) ∧ name.toList.head? ≠ some '.' := by
    decide +kernel
  -- the file is taken or not by lower case, and has the text or not by likeness
  have hone : ∀ name ∈ ["s.txt", "İ.txt"], ∀ text,
      (find ⟨text, "x", "**", []⟩ (alone name) ⟨true, []⟩).map (·.map FileOp.oldPath) =
          .ok ([name].filter (isAffected ⟨text, "x", "**", []⟩)) ∧
        (isAffected ⟨text, "x", "**", []⟩ name ≠ finds text name →
          ¬ Agrees ⟨text, "x", "**", []⟩ (alone name) ⟨true, []⟩) := by
    intro name hname text
    obtain ⟨⟨hne, hdot, hslash⟩, hshown⟩ := hnames name hname
    have hpart : Path.IsPart name := ⟨hne, hdot, hslash⟩
    have hwalked := walked_alone (r := ⟨text, "x", "**", []⟩) hpart hshown rfl
    constructor
    · obtain ⟨ops, hops, hpaths⟩ := find_affected ⟨text, "x", "**", []⟩ (rooted_alone hpart)
      rw [hops, ← hwalked, ← hpaths]
      rfl
    · intro hdiffers hagrees
      rw [agrees_alone_iff hpart hshown rfl, ← finds_iff] at hagrees
      refine hdiffers (Bool.eq_iff_iff.2 ?_)
      rwa [isAffected_iff, name_eq_self hslash]
  obtain ⟨hleft, hleft'⟩ := hone "s.txt" (by decide) "ſ"
  obtain ⟨htaken, htaken'⟩ := hone "İ.txt" (by decide) "\u0307"
  exact ⟨⟨hleft.trans (congrArg _ (by decide +kernel)), by decide +kernel,
    hleft' (by decide +kernel)⟩,
    htaken.trans (congrArg _ (by decide +kernel)), by decide +kernel, htaken' (by decide +kernel)⟩

end FileRename

end Redline
