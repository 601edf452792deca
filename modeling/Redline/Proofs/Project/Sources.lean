import Redline.Project.Basic
import Redline.Proofs.Disk.Frame
import Redline.Proofs.Path
import Redline.Proofs.Project.Queries
import Redline.Proofs.Symbol.Places
import Redline.Proofs.Tree.Positions

/-!
# The files of a project are apart

The path of a file of a project is relative to its root. Seen from there it leads to the normal form
of the path that the walk found, so different paths in the list lead to different files.
-/

namespace Redline

namespace Disk

/-- Where an absolute path leads to is its normal form. -/
theorem follow_eq_collapse {d : Disk} {parts from_ place : List String} (hdots : ".." ∉ from_)
    (h : d.follow from_ parts = .at place) :
    place = Path.collapse true from_.reverse parts := by
  induction parts generalizing from_ with
  | nil =>
      rw [follow] at h
      cases h
      rw [Path.collapse, List.reverse_reverse]
  | cons p rest ih =>
      have hrev : ".." ∉ from_.reverse := fun hmem => hdots (List.mem_reverse.1 hmem)
      rw [follow] at h
      cases hentry : d.entryAt from_ with
      | none =>
          rw [hentry] at h
          cases h
      | some e =>
          rw [hentry] at h
          cases e with
          | file c => cases h
          | folder =>
              dsimp only at h
              by_cases hp : p = ".."
              · rw [if_pos hp] at h
                have hinit : ".." ∉ from_.dropLast := fun hmem =>
                  hdots (List.dropLast_subset _ hmem)
                rw [hp, Path.collapse_dots hrev, List.tail_reverse]
                exact ih hinit h
              · rw [if_neg hp] at h
                have hlast : ".." ∉ from_ ++ [p] := by
                  intro hmem
                  rcases List.mem_append.1 hmem with hmem | hmem
                  · exact hdots hmem
                  · exact hp (List.mem_singleton.1 hmem).symm
                rw [Path.collapse_part _ _ hp, ih hlast h, List.reverse_append]
                rfl

theorem find_eq_normalize {d : Disk} {p : Path} {place : List String} (hp : p.isAbsolute = true)
    (h : d.find p = .at place) : place = p.normalize.parts := by
  rw [find, if_pos hp] at h
  rw [follow_eq_collapse List.not_mem_nil h, Path.normalize_parts, hp]
  rfl

end Disk

namespace Project

variable {p : Project} {d : Disk}

/-- The root of the project and the directory that is walked are absolute paths. -/
structure Rooted (p : Project) : Prop where
  root : p.root.Clean
  sourceRoot : p.sourceRoot.Clean

theorem rooted_load (d : Disk) {root : Path} (h : root.Clean) (config : String)
    (exclude : List String) (parse : Parser) : (load d root config exclude parse).Rooted := by
  refine ⟨h, ?_⟩
  simp only [load]
  split_ifs
  · exact (h.join config).parent
  · exact h

/-- Different files of a project are at different places. -/
theorem eq_of_find_eq (h : p.Rooted) {file file' : String} {place : List String}
    (hfile : file ∈ p.discover d) (hfile' : file' ∈ p.discover d)
    (hfind : d.find (p.root.join file) = .at place)
    (hfind' : d.find (p.root.join file') = .at place) : file = file' := by
  obtain ⟨walked, -, rfl⟩ := List.mem_map.1 hfile
  obtain ⟨walked', -, rfl⟩ := List.mem_map.1 hfile'
  have hplace := Disk.find_eq_normalize (h.root.join _).absolute hfind
  have hplace' := Disk.find_eq_normalize (h.root.join _).absolute hfind'
  rw [Path.join_relative (h.sourceRoot.join walked) h.root] at hplace
  rw [Path.join_relative (h.sourceRoot.join walked') h.root] at hplace'
  exact Path.relative_congr (hplace.symm.trans hplace')

theorem backslash_notMem_tidy (name : String) : '\\' ∉ (tidy name).toList := by
  have hmap : '\\' ∉ name.toList.map fun c => if c = '\\' then '/' else c := by
    intro h
    obtain ⟨c, -, hc⟩ := List.mem_map.1 h
    split_ifs at hc with hslash
    · exact absurd hc (by decide)
    · exact hslash hc
  rw [tidy]
  split
  · rename_i rest hrest
    rw [hrest] at hmap
    rw [String.toList_ofList]
    exact fun h => hmap (List.mem_cons_of_mem _ (List.mem_cons_of_mem _ h))
  · rwa [String.toList_ofList]

/-- The name of a listed file is in the form of this program already. -/
theorem tidy_tidy (h : p.Rooted) {name : String} (hmem : tidy name ∈ p.discover d) :
    tidy (tidy name) = tidy name := by
  obtain ⟨walked, -, hwalked⟩ := List.mem_map.1 hmem
  have hmap : (tidy name).toList.map (fun c => if c = '\\' then '/' else c) =
      (tidy name).toList := by
    refine (List.map_congr_left fun c hc => ?_).trans (List.map_id _)
    rw [if_neg, id_eq]
    rintro rfl
    exact backslash_notMem_tidy name hc
  generalize tidy name = file at hwalked hmap
  rw [tidy, hmap]
  split
  · rename_i rest hrest
    rw [← hwalked] at hrest
    exact absurd hrest (Path.relative_ne_dot_slash (h.sourceRoot.join walked) rest)
  · rw [String.ofList_toList]

end Project

/-!
## The sources of a project

Where all files hold UTF-8 texts, the sources of a project are its files with these texts, one under
each path, and the index has each of them.
-/

namespace Project

variable {p : Project} {d : Disk}

theorem exists_of_mem_sourcesOn (h : p.Readable d) {s : Source} (hs : s ∈ p.sourcesOn d) :
    s.path ∈ p.discover d ∧ p.parseFile d s.path = .ok s ∧ s.IsUtf8 ∧
      d.readText (p.root.join s.path) = .ok (String.ofList s.text) := by
  obtain ⟨name, -, hname⟩ := List.mem_filterMap.1 hs
  by_cases hmem : tidy name ∈ p.discover d
  · obtain ⟨s', hs', hparse⟩ := sourceOn_of_mem h hmem
    rw [hs'] at hname
    obtain rfl := Option.some.inj hname
    obtain ⟨s'', text, hparse', hpath, hdecode, hread⟩ := exists_parseFile h hmem
    rw [hparse] at hparse'
    obtain rfl := Except.ok.inj hparse'
    rw [hpath]
    refine ⟨hmem, hparse, Source.isUtf8_of_decode hdecode, ?_⟩
    rw [hread, Source.text_of_decode hdecode, String.ofList_toList]
  · rw [sourceOn_of_notMem hmem] at hname
    cases hname

theorem eq_of_path_eq (h : p.Readable d) {s s' : Source} (hs : s ∈ p.sourcesOn d)
    (hs' : s' ∈ p.sourcesOn d) (hpath : s.path = s'.path) : s = s' := by
  have hparse := (exists_of_mem_sourcesOn h hs).2.1
  have hparse' := (exists_of_mem_sourcesOn h hs').2.1
  rw [hpath, hparse'] at hparse
  exact (Except.ok.inj hparse).symm

theorem source?_of_mem_sourcesOn (hread : p.Readable d) {s : Source} (hs : s ∈ p.sourcesOn d) :
    (p.indexOn d).source? s.path = some s := by
  obtain ⟨s', hs'⟩ := Index.exists_source?_of_mem hs
  obtain ⟨hmem, hpath⟩ := Index.exists_source_of_source? hs'
  rw [indexOn, hs', eq_of_path_eq hread hmem hs hpath]

theorem scopes?_of_mem_sourcesOn (hread : p.Readable d) {s : Source} (hs : s ∈ p.sourcesOn d) :
    (p.indexOn d).modules.scopes? s.path = some (Scopes.ofSource s) := by
  obtain ⟨sc, hsc, hsource⟩ := Option.map_eq_some_iff.1 (source?_of_mem_sourcesOn hread hs)
  obtain ⟨s', -, -, rfl⟩ := Index.exists_source_of_scopes? hsc
  obtain rfl : s' = s := hsource
  exact hsc

theorem sourceOn_path (hrooted : p.Rooted) (hread : p.Readable d) {s : Source}
    (hs : s ∈ p.sourcesOn d) : p.sourceOn d s.path = some s := by
  obtain ⟨name, -, hname⟩ := List.mem_filterMap.1 hs
  by_cases hmem : tidy name ∈ p.discover d
  · obtain ⟨s', hs', hparse⟩ := sourceOn_of_mem hread hmem
    rw [hs'] at hname
    obtain rfl := Option.some.inj hname
    have hpath : s'.path = tidy name := by
      obtain ⟨s'', -, hparse', hpath, -⟩ := exists_parseFile hread hmem
      rw [hparse] at hparse'
      rw [Except.ok.inj hparse', hpath]
    have htidy := tidy_tidy hrooted hmem
    rw [hpath, sourceOn, htidy, if_pos (by simpa using hmem), hparse]
    rfl
  · rw [sourceOn_of_notMem hmem] at hname
    cases hname

/-! ### Projects of two files -/

/-- A disk with two script files in a directory. -/
def pairDisk (a b : String) : Disk :=
  { working := []
    entries := [(["w"], .folder), (["w", "a.ts"], .file (Text.Utf8.encode a)),
      (["w", "b.ts"], .file (Text.Utf8.encode b))] }

/-- The project of these files. -/
def pair (a b : String) (parse : Parser) : Project :=
  load (pairDisk a b) (Path.ofString "/w") "tsconfig.json" [] parse

theorem children_pairDisk (a b : String) : (pairDisk a b).children ["w"] =
    [("a.ts", .file (Text.Utf8.encode a)), ("b.ts", .file (Text.Utf8.encode b))] := by
  simp [pairDisk, Disk.children]

theorem discover_pair (a b : String) (parse : Parser) :
    (pair a b parse).discover (pairDisk a b) = ["a.ts", "b.ts"] := by
  have hshown : Disk.isHidden "a.ts" = false ∧ Disk.isHidden "b.ts" = false := by decide +kernel
  have hnames : (pairDisk a b).fileNames
      { pattern := sourceGlob, exclude := [], includeHidden := false } ["w"] =
        ["a.ts", "b.ts"] := by
    rw [Disk.fileNames, children_pairDisk, Disk.sortNames, List.mergeSort_of_pairwise] <;>
    · simp only [List.filterMap_cons, List.filterMap_nil, hshown.1, hshown.2]
      decide +kernel
  have hfolders : (pairDisk a b).folderNames
      { pattern := sourceGlob, exclude := [], includeHidden := false } ["w"] = [] := by
    rw [Disk.folderNames, children_pairDisk]
    exact List.mergeSort_nil
  have hfrom : ∀ depth, (pairDisk a b).walkFrom
      { pattern := sourceGlob, exclude := [], includeHidden := false } ["w"] depth [] =
        ["a.ts", "b.ts"] := by
    intro depth
    cases depth <;>
    · rw [Disk.walkFrom]
      simp only [List.append_nil, List.nil_append, hnames, hfolders, List.flatMap_nil]
      decide +kernel
  have hplace : (pairDisk a b).find (Path.ofString "/w") = .at ["w"] := rfl
  have hwalk : (pairDisk a b).walk
      { pattern := sourceGlob, exclude := [], includeHidden := false } (Path.ofString "/w") =
        ["a.ts", "b.ts"] := by
    rw [Disk.walk, hplace]
    exact hfrom _
  have hroot : (pair a b parse).sourceRoot = Path.ofString "/w" := rfl
  rw [discover, hroot, show (pair a b parse).exclude = [] from rfl, hwalk]
  show ["a.ts", "b.ts"].map
    (fun f => ((Path.ofString "/w").join f).relative (Path.ofString "/w")) = _
  decide +kernel
theorem rooted_pair (a b : String) (parse : Parser) : (pair a b parse).Rooted :=
  rooted_load _ (Path.clean_ofString rfl) _ _ _

theorem readable_pair (a b : String) (parse : Parser) :
    (pair a b parse).Readable (pairDisk a b) := by
  intro file hfile
  rw [discover_pair, List.mem_cons, List.mem_singleton] at hfile
  rcases hfile with rfl | rfl
  · exact ⟨_, Disk.readText_of_file ["w", "a.ts"] rfl rfl⟩
  · exact ⟨_, Disk.readText_of_file ["w", "b.ts"] rfl rfl⟩

/-- A script file with a text and what is parsed from it. -/
def script (parse : Parser) (file text : String) : Source :=
  Source.make file (Text.Utf8.encode text) (parse .typescript (Text.Utf8.encode text))

theorem parseFile_of_read {p : Project} {d : Disk} {file text : String}
    (hread : d.read (p.root.join file) = .ok (Text.Utf8.encode text))
    (hgrammar : Grammar.ofSuffix? (Text.toLower (p.root.join file).suffix) = some .typescript) :
    p.parseFile d file = .ok (script p.parse file text) := by
  rw [parseFile, hread, hgrammar]
  rfl

theorem sourceOn_pair (a b : String) (parse : Parser) :
    (pair a b parse).sourceOn (pairDisk a b) "a.ts" = some (script parse "a.ts" a) ∧
      (pair a b parse).sourceOn (pairDisk a b) "b.ts" = some (script parse "b.ts" b) := by
  have htidy : tidy "a.ts" = "a.ts" ∧ tidy "b.ts" = "b.ts" := by decide +kernel
  have hroot : (pair a b parse).root = Path.ofString "/w" := rfl
  have hsuffix : Grammar.ofSuffix? (Text.toLower ((pair a b parse).root.join "a.ts").suffix) =
        some .typescript ∧
      Grammar.ofSuffix? (Text.toLower ((pair a b parse).root.join "b.ts").suffix) =
        some .typescript := by
    rw [hroot]
    decide +kernel
  have hread : (pairDisk a b).read ((pair a b parse).root.join "a.ts") = .ok (Text.Utf8.encode a) ∧
      (pairDisk a b).read ((pair a b parse).root.join "b.ts") = .ok (Text.Utf8.encode b) :=
    ⟨Disk.read_eq_ok_iff.2 ⟨["w", "a.ts"], rfl, rfl⟩,
      Disk.read_eq_ok_iff.2 ⟨["w", "b.ts"], rfl, rfl⟩⟩
  rw [sourceOn, sourceOn, discover_pair, htidy.1, htidy.2, if_pos (by decide), if_pos (by decide)]
  rw [parseFile_of_read hread.1 hsuffix.1, parseFile_of_read hread.2 hsuffix.2]
  exact ⟨rfl, rfl⟩

theorem sourcesOn_pair (a b : String) (parse : Parser) :
    (pair a b parse).sourcesOn (pairDisk a b) = [script parse "a.ts" a, script parse "b.ts" b] := by
  rw [sourcesOn, discover_pair, List.filterMap_cons, List.filterMap_cons,
    (sourceOn_pair a b parse).1,
    (sourceOn_pair a b parse).2]
  rfl

end Project

end Redline
