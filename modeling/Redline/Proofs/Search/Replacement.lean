import Redline.Proofs.Editset.Ranges
import Redline.Proofs.Editset.Unchanged
import Redline.Proofs.Search.Framing
import Redline.Proofs.Search.Locations

/-!
# What a structural replacement leaves alone

A structural search lists nodes. One of them may be inside another, and the proposal has an edit for
each, so the characters that it replaces lie in ranges of nodes that touch one another. Applied to
the files as they were, the proposal makes of every range what its own edits make of it and leaves
all other characters, just when no edit reaches behind its range.
-/

namespace Redline.Search

open Text Text.Utf8

/-! ### Reading a whole output -/

theorem isBlank_of_mem_logicalLinesFrom {line cs : List Char} {begun : Bool}
    (hline : ∀ c ∈ line, isBlank c = true) (hcs : ∀ c ∈ cs, isBlank c = true) :
    ∀ l ∈ logicalLinesFrom line begun cs, ∀ c ∈ l, isBlank c = true := by
  fun_induction logicalLinesFrom line begun cs with
  | case1 line => simpa using hline
  | case2 line => simp
  | case3 line begun rest ih =>
      obtain ⟨-, -, hrest⟩ : _ ∧ _ ∧ _ := by simpa using hcs
      simpa using ⟨hline, ih (by simp) hrest⟩
  | case4 line begun c rest hreturn hend ih =>
      obtain ⟨-, hrest⟩ := List.forall_mem_cons.1 hcs
      simpa using ⟨hline, ih (by simp) hrest⟩
  | case5 line begun c rest hreturn hplain ih =>
      obtain ⟨hc, hrest⟩ := List.forall_mem_cons.1 hcs
      exact ih (List.forall_mem_cons.2 ⟨hc, hline⟩) hrest

theorem recordLines_of_isBlankText {text : String} (h : isBlankText text = true) :
    recordLines text = [] := by
  refine List.filter_eq_nil_iff.2 fun l hl => ?_
  obtain ⟨cs, hcs, rfl⟩ := List.mem_map.1 hl
  have hall := isBlank_of_mem_logicalLinesFrom (by simp) (List.all_eq_true.1 h) cs hcs
  simpa using hall

/-- The run of the tool lists nodes: it ended as it does with and without matches, and every line of
its output that is not blank is the record of a node. -/
structure Execution.Lists (x : Execution) (nodes : List NodeRecord) : Prop where
  ended : x.status = 0 ∨ x.status = 1 ∧ isBlankText (decodeLossy x.stderr) = true
  records : List.Forall₂ (fun r line => ∃ j, Json.parse line = .ok j ∧ NodeRecord.IsShownBy r j)
    nodes (recordLines (decodeLossy x.stdout))

/-- The record is of the characters from `a` up to `b`, at least one, of its file, which is
UTF-8. -/
structure NodeRecord.Covers (r : NodeRecord) (d : Disk) (root : Path) (content : String)
    (a b : Nat) : Prop where
  read : d.readText (root.join (plainPath r.file)) = .ok content
  start : Marks content.toList r.start a
  stop : Marks content.toList r.stop b
  lt : r.start < r.stop

/-- Records that lead to one file name it in one way. -/
def NamesAgree (d : Disk) (root : Path) (nodes : List NodeRecord) : Prop :=
  ∀ r ∈ nodes, ∀ r' ∈ nodes, ∀ place, d.find (root.join (plainPath r.file)) = .at place →
    d.find (root.join (plainPath r'.file)) = .at place → plainPath r.file = plainPath r'.file

/-- The match is that of the node in its file. -/
def NodeRecord.GivesOn (d : Disk) (root : Path) (r : NodeRecord) (m : StructureMatch) : Prop :=
  ∃ content, d.readText (root.join (plainPath r.file)) = .ok content ∧
    r.Gives (encode content) content m

variable {d : Disk} {root : Path} {x : Execution} {nodes : List NodeRecord}

theorem exists_structureMatches (hlists : x.Lists nodes)
    (hcovers : ∀ r ∈ nodes, ∃ content a b, r.Covers d root content a b) :
    ∃ found, structureMatches d root (decodeLossy x.stdout) = .ok found ∧
      List.Forall₂ (NodeRecord.GivesOn d root) nodes found := by
  have hall := (List.forall₂_and_left _ _).2 ⟨hcovers, hlists.records⟩
  obtain ⟨options, hoptions, hgives⟩ :=
    exists_mapM_of_forall₂ hall fun r line h =>
      show ∃ o, structureMatch? d root line = .ok o ∧ ∃ m, o = some m ∧ r.GivesOn d root m by
      obtain ⟨⟨content, a, b, hcover⟩, j, hline, hshown⟩ := h
      obtain ⟨bytes, hbytes, hdecode⟩ := Disk.readText_eq_ok_iff.1 hcover.read
      obtain ⟨m, hm, hgives⟩ := hshown.structureMatch? hline hbytes hdecode
      rw [decode_eq_ok_iff.1 hdecode] at hgives
      exact ⟨some m, hm, m, rfl, content, hcover.read, hgives⟩
  refine ⟨options.flatMap Option.toList, ?_, ?_⟩
  · rw [structureMatches, hoptions]
    rfl
  · clear hoptions hall hlists hcovers
    induction hgives with
    | nil => exact .nil
    | cons h _ ih =>
        obtain ⟨m, rfl, hm⟩ := h
        exact .cons hm ih

variable {host : Host} {s s' : Session} {pattern : String} {glob : Option String}
  {found : List StructureMatch}

/-- A search finds what the output of the tool gives. -/
theorem searchStructure_of_lists
    (hrun : run (structureArguments pattern glob) host s = (.ok x, s')) (hlists : x.Lists nodes)
    (hfound : structureMatches d root (decodeLossy x.stdout) = .ok found) :
    searchStructure d root pattern glob host s = (.ok found, s') := by
  rw [searchStructure, bind_of_ok hrun]
  by_cases hnone : x.status = 1 ∧ isBlankText (decodeLossy x.stdout) ∧
      isBlankText (decodeLossy x.stderr)
  · rw [structureMatches, recordLines_of_isBlankText hnone.2.1] at hfound
    cases hfound
    rw [if_pos hnone]
    rfl
  · have hended : ¬(x.status ≠ 0 ∧ (x.status ≠ 1 ∨ !isBlankText (decodeLossy x.stderr))) := by
      rcases hlists.ended with h | ⟨h, hblank⟩
      · simp [h]
      · simp [h, hblank]
    rw [if_neg hnone, if_neg hended, hfound]
    rfl

/-- The proposal to replace matches. -/
def proposal (now : Moment) (pattern template : String) (found : List StructureMatch) : Editset :=
  Editset.make "structural-replace" "replace" pattern template (found.map StructureMatch.ref)
    (found.map (structureEdit template)) none (some pattern) now

theorem replaceStructure_of_search (now : Moment) (template : String)
    (h : searchStructure d root pattern glob host s = (.ok found, s')) :
    replaceStructure d root now pattern template glob host s =
      (.ok (proposal now pattern template found), s') := by
  rw [replaceStructure, bind_of_ok h]
  rfl

/-! ### The edits of the proposal -/

variable {now : Moment} {template : String}

theorem mem_edits_proposal {e : Edit} :
    e ∈ (proposal now pattern template found).edits ↔
      ∃ m ∈ found, structureEdit template m = e := by
  rw [proposal, Editset.make, (sortEdits_perm _).mem_iff, List.mem_map]

theorem mem_refs_proposal {r : Reference} :
    r ∈ (proposal now pattern template found).refs ↔ ∃ m ∈ found, m.ref = r := by
  rw [proposal, Editset.make, List.mem_map]

variable {r : NodeRecord} {m : StructureMatch} {content : String} {a b : Nat}

/-- The edit of a match replaces the characters that the record covers. -/
theorem NodeRecord.GivesOn.edit (h : r.GivesOn d root m) (hcover : r.Covers d root content a b)
    (template : String) :
    (structureEdit template m).offset = a ∧
      (structureEdit template m).offset + (structureEdit template m).length = b ∧ a < b ∧
      b ≤ content.toList.length ∧ m.ref.checksum = checksum content := by
  obtain ⟨content', hread, hgives⟩ := h
  obtain rfl : content' = content := Except.ok.inj (hread.symm.trans hcover.read)
  have hstart := hgives.start
  have hstop := hgives.stop
  rw [hcover.start.charOffset_eq] at hstart
  rw [hcover.stop.charOffset_eq] at hstop
  refine ⟨hstart, ?_, (hcover.start.lt_iff hcover.stop).1 hcover.lt, hcover.stop.1,
    hgives.checksum⟩
  rw [structureEdit, hstart, hstop]
  dsimp only
  omega

/-- The character of a file is one of those that a record covers. -/
def IsMatched (d : Disk) (root : Path) (nodes : List NodeRecord) (file : String) (i : Nat) : Prop :=
  ∃ r ∈ nodes, plainPath r.file = file ∧ ∃ content a b, r.Covers d root content a b ∧ a ≤ i ∧ i < b

section

variable (hfound : List.Forall₂ (NodeRecord.GivesOn d root) nodes found)
  (hcovers : ∀ r ∈ nodes, ∃ content a b, r.Covers d root content a b)

include hfound

/-- The references of a file vouch for its text. -/
theorem vouches_proposal {file : String} (hread : d.readText (root.join file) = .ok content)
    (hfile : ∃ r ∈ nodes, plainPath r.file = file) :
    (proposal now pattern template found).Vouches file content := by
  constructor
  · obtain ⟨r, hr, rfl⟩ := hfile
    obtain ⟨m, hm, _, -, hnode⟩ := (exists_mem_of_forall₂ hfound).1 r hr
    exact ⟨m.ref, mem_refs_proposal.2 ⟨m, hm, rfl⟩, hnode.file⟩
  · intro ref href hsame
    obtain ⟨m, hm, rfl⟩ := mem_refs_proposal.1 href
    obtain ⟨r, -, content', hread', hnode⟩ := (exists_mem_of_forall₂ hfound).2 m hm
    rw [← hnode.file, hsame, hread] at hread'
    rw [hnode.checksum, Except.ok.inj hread']

include hcovers

/-- An edit for a file is that of a record of it. -/
theorem exists_of_mem_editsOf {file : String} {e : Edit}
    (h : e ∈ (proposal now pattern template found).editsOf file) :
    ∃ r ∈ nodes, plainPath r.file = file ∧ ∃ content a b, r.Covers d root content a b ∧
      e.offset = a ∧ e.offset + e.length = b ∧ a < b ∧ b ≤ content.toList.length := by
  obtain ⟨hmem, hfile⟩ := List.mem_filter.1 h
  obtain ⟨m, hm, rfl⟩ := mem_edits_proposal.1 hmem
  obtain ⟨r, hr, hgives⟩ := (exists_mem_of_forall₂ hfound).2 m hm
  obtain ⟨content, a, b, hcover⟩ := hcovers r hr
  obtain ⟨hoffset, hend, hlt, hle, -⟩ := hgives.edit hcover template
  obtain ⟨_, -, hnode⟩ := hgives
  refine ⟨r, hr, ?_, content, a, b, hcover, hoffset, hend, hlt, hle⟩
  rw [← hnode.file]
  exact beq_iff_eq.1 hfile

/-- The edits for a file replace the characters that records cover. -/
theorem isReplaced_editsOf_iff {file : String} {i : Nat} :
    isReplaced ((proposal now pattern template found).editsOf file) i = true ↔
      IsMatched d root nodes file i := by
  rw [isReplaced_iff]
  constructor
  · rintro ⟨e, he, hle, hlt⟩
    obtain ⟨r, hr, hfile, content, a, b, hcover, hoffset, hend, -⟩ :=
      exists_of_mem_editsOf hfound hcovers he
    exact ⟨r, hr, hfile, content, a, b, hcover, by omega, by omega⟩
  · rintro ⟨r, hr, hfile, content, a, b, hcover, hle, hlt⟩
    obtain ⟨m, hm, hgives⟩ := (exists_mem_of_forall₂ hfound).1 r hr
    obtain ⟨hoffset, hend, -⟩ := hgives.edit hcover template
    obtain ⟨_, -, hnode⟩ := hgives
    refine ⟨structureEdit template m, List.mem_filter.2
      ⟨mem_edits_proposal.2 ⟨m, hm, rfl⟩, ?_⟩, by omega, by omega⟩
    rw [beq_iff_eq, ← hfile, ← hnode.file]
    rfl

/-- The edits for a file fit it, and each replaces something. -/
theorem fits_of_mem_editsOf {file : String} (hread : d.readText (root.join file) = .ok content)
    {e : Edit} (h : e ∈ (proposal now pattern template found).editsOf file) :
    e.Fits content.toList.length ∧ 0 < e.length := by
  obtain ⟨r, -, rfl, content', a, b, hcover, hoffset, hend, hlt, hle⟩ :=
    exists_of_mem_editsOf hfound hcovers h
  obtain rfl : content' = content := Except.ok.inj (hcover.read.symm.trans hread)
  exact ⟨⟨by omega, by omega, by omega⟩, by omega⟩

/-- The files with edits are those of the records. -/
theorem mem_editFiles_proposal {file : String} :
    file ∈ (proposal now pattern template found).editFiles ↔
      ∃ r ∈ nodes, plainPath r.file = file := by
  rw [Editset.editFiles, mem_distinct, List.mem_map]
  constructor
  · rintro ⟨e, he, rfl⟩
    obtain ⟨r, hr, hfile, -⟩ :=
      exists_of_mem_editsOf hfound hcovers (List.mem_filter.2 ⟨he, beq_self_eq_true e.file⟩)
    exact ⟨r, hr, hfile⟩
  · rintro ⟨r, hr, rfl⟩
    obtain ⟨m, hm, _, -, hnode⟩ := (exists_mem_of_forall₂ hfound).1 r hr
    exact ⟨structureEdit template m, mem_edits_proposal.2 ⟨m, hm, rfl⟩, hnode.file⟩

/-- The proposal finds the disk that it was made for unchanged, if its files have one name each. -/
theorem unchanged_proposal (hnames : NamesAgree d root nodes) :
    (proposal now pattern template found).Unchanged ⟨root, false, []⟩ d fun file =>
      (d.readText (root.join file)).toOption.getD "" := by
  have hread : ∀ file ∈ (proposal now pattern template found).editFiles,
      ∃ r ∈ nodes, plainPath r.file = file ∧
        ∃ content, d.readText (root.join file) = .ok content := by
    intro file hfile
    obtain ⟨r, hr, rfl⟩ := (mem_editFiles_proposal hfound hcovers).1 hfile
    obtain ⟨content, a, b, hcover⟩ := hcovers r hr
    exact ⟨r, hr, rfl, content, hcover.read⟩
  refine ⟨rfl, rfl, fun file hfile => ?_, fun file hfile => ?_, fun file hfile file' hfile' => ?_⟩
  · obtain ⟨-, -, -, content, hcontent⟩ := hread file hfile
    rw [hcontent]
    rfl
  · obtain ⟨r, hr, hsame, content, hcontent⟩ := hread file hfile
    rw [hcontent]
    exact vouches_proposal hfound hcontent ⟨r, hr, hsame⟩
  · obtain ⟨r, hr, rfl, -⟩ := hread file hfile
    obtain ⟨r', hr', rfl, -⟩ := hread file' hfile'
    exact hnames r hr r' hr'

end

/-- What a structural replacement makes of files. The tool lists nodes of UTF-8 files, each of at
least one character and from one character to another, and names each file in one way. Then there is
a proposal, and applied to the disk as it is it changes none but the files of the nodes. In such a
file the characters that are replaced are those that a node covers. If no edit reaches behind its
range, all others stay, with some text in the place of each range, and the file becomes what the
edits of its ranges make of them one by one just in this case. -/
theorem replacement_keeps_iff (d : Disk) (root : Path) (now : Moment) (pattern template : String)
    (glob : Option String) {host : Host} {s s' : Session} {x : Execution} {nodes : List NodeRecord}
    (hrun : run (structureArguments pattern glob) host s = (.ok x, s')) (hlists : x.Lists nodes)
    (hcovers : ∀ r ∈ nodes, ∃ content a b, r.Covers d root content a b)
    (hnames : NamesAgree d root nodes) :
    ∃ e, replaceStructure d root now pattern template glob host s = (.ok e, s') ∧
      (∀ place, (∀ r ∈ nodes, d.find (root.join (plainPath r.file)) ≠ .at place) →
        (e.apply ⟨root, false, []⟩ d).1.entryAt place = d.entryAt place) ∧
      ∀ file, (∃ r ∈ nodes, plainPath r.file = file) →
        ∃ content text, d.readText (root.join file) = .ok content ∧
          (e.apply ⟨root, false, []⟩ d).1.readText (root.join file) = .ok text ∧
          (∀ i, isReplaced (e.editsOf file) i = true ↔ IsMatched d root nodes file i) ∧
          (StayInRange (e.editsOf file) content.length →
            Keeps (e.editsOf file) content.toList text.toList) ∧
          (text.toList = byRange (e.editsOf file) content.toList ↔
            StayInRange (e.editsOf file) content.length) := by
  obtain ⟨found, hread, hfound⟩ := exists_structureMatches hlists hcovers
  have hunchanged : (proposal now pattern template found).Unchanged ⟨root, false, []⟩ d _ :=
    unchanged_proposal hfound hcovers hnames
  refine ⟨_, replaceStructure_of_search now template (searchStructure_of_lists hrun hlists hread),
    fun place hplace => (Editset.apply_unchanged hunchanged).2.2 place fun file hfile => ?_,
    fun file hfile => ?_⟩
  · obtain ⟨r, hr, rfl⟩ := (mem_editFiles_proposal hfound hcovers).1 hfile
    exact hplace r hr
  · have htext := Editset.readText_apply_of_unchanged hunchanged
      ((mem_editFiles_proposal hfound hcovers).2 hfile)
    obtain ⟨content, hcontent⟩ : ∃ content, d.readText (root.join file) = .ok content := by
      obtain ⟨r, hr, rfl⟩ := hfile
      obtain ⟨content, a, b, hcover⟩ := hcovers r hr
      exact ⟨content, hcover.read⟩
    rw [hcontent] at htext
    have hfits : ∀ e ∈ (proposal now pattern template found).editsOf file,
        e.Fits content.toList.length ∧ 0 < e.length :=
      fun e he => fits_of_mem_editsOf hfound hcovers hcontent he
    have hiff := foldl_descending_eq_byRange_iff (fun e he => (hfits e he).1)
      fun e he => (hfits e he).2
    rw [String.length_toList, ← String.toList_ofList (l := List.foldl _ _ _)] at hiff
    refine ⟨content, _, hcontent, htext, fun i => isReplaced_editsOf_iff hfound hcovers, ?_, hiff⟩
    intro hstay
    exact ⟨_, hiff.2 hstay⟩

/-! ### Calls inside calls -/

/-- The record of a call of `f`, with its argument. -/
def callNode (start stop : Nat) (argument : String) : Json :=
  .obj [("range", .obj [("byteOffset", .obj [("start", .int start), ("end", .int stop)])]),
    ("file", .str "a.ts"),
    ("metaVariables", .obj [("single", .obj [("A", .obj [("text", .str argument)])])])]

/-- The records of the calls in `f(f(x))`. -/
def nestedCalls : List Json :=
  [callNode 0 7 "f(x)", callNode 2 6 "x"]

/-- Where these calls are. -/
def nestedNodes : List NodeRecord :=
  [⟨"a.ts", 0, 7⟩, ⟨"a.ts", 2, 6⟩]

/-- A text that goes on after these calls. -/
def nestedText : String :=
  "f(f(x)); y\n"

/-- What the tool answers. -/
def nestedRun : Execution :=
  { status := 0, stdout := encode (stream nestedCalls ++ "\n"), stderr := [] }

/-- A machine with the tool. -/
def nestedHost : Host :=
  { locate := fun _ _ => some "/usr/bin/ast-grep"
    execute := fun _ command =>
      some (if command.contains "--version" then ⟨0, encode "ast-grep 0.31.1\n", []⟩
        else nestedRun) }

/-- A session with the tool before its first question. -/
def freshSession : Session :=
  { tool := astGrep "ast-grep", asked := 0, calls := [] }

theorem exists_run_nested : ∃ s', run (structureArguments "f($A)" none) nestedHost freshSession =
    (.ok nestedRun, s') := by
  have hfirst : (resolve nestedHost freshSession).1.toOption = some "ast-grep" := by
    decide +kernel
  obtain ⟨s, hresolve⟩ : ∃ s, resolve nestedHost freshSession = (.ok "ast-grep", s) := by
    generalize resolve nestedHost freshSession = answer at hfirst
    obtain ⟨answer, s⟩ := answer
    cases answer with
    | error t => cases hfirst
    | ok executable =>
        cases hfirst
        exact ⟨s, rfl⟩
  rw [run, bind_of_ok hresolve]
  exact ⟨_, rfl⟩

theorem plainPath_nested : plainPath "a.ts" = "a.ts" := by
  decide

theorem isRecord_callNode (start stop : Nat) (argument : String) :
    (callNode start stop argument).IsRecord :=
  ⟨⟨_, rfl⟩, by simp [callNode, Json.floatFree_obj_iff, Json.FloatFree.str, Json.FloatFree.int],
    by simp [callNode, Json.keyed_obj_iff, Json.Keyed.str, Json.Keyed.int]⟩

theorem isShownBy_callNode (start stop : Nat) (argument : String) :
    NodeRecord.IsShownBy ⟨"a.ts", start, stop⟩ (callNode start stop argument) where
  file := rfl
  node := ⟨rfl, rfl⟩
  captures := {
    all := fun v h => by cases h; exact ⟨_, rfl⟩
    single := fun v h => by
      cases h
      exact ⟨_, rfl, fun m hm => by rw [List.mem_singleton.1 hm]; exact ⟨_, rfl⟩⟩
    multi := fun v h => by cases h }

theorem recordLines_nested :
    recordLines (decodeLossy nestedRun.stdout) = nestedCalls.map Json.compact := by
  have hrecord : ∀ j ∈ nestedCalls, j.IsRecord := by simp [nestedCalls, isRecord_callNode]
  have hwhole : ∀ j ∈ nestedCalls, j.IsUnbroken := by decide +kernel
  rw [nestedRun, decodeLossy_encode, recordLines_stream hrecord hwhole (Or.inr rfl)]

theorem lists_nested : nestedRun.Lists nestedNodes := by
  refine ⟨Or.inl rfl, ?_⟩
  rw [recordLines_nested]
  exact .cons ⟨_, (isRecord_callNode 0 7 "f(x)").parse_compact, isShownBy_callNode 0 7 "f(x)"⟩
    (.cons ⟨_, (isRecord_callNode 2 6 "x").parse_compact, isShownBy_callNode 2 6 "x"⟩ .nil)

theorem covers_outer :
    NodeRecord.Covers ⟨"a.ts", 0, 7⟩ (oneLine nestedText) (Path.ofString "/root") nestedText 0 7 :=
  ⟨readText_oneLine nestedText, ⟨by decide, by decide⟩, ⟨by decide, by decide⟩, by decide⟩

theorem covers_inner :
    NodeRecord.Covers ⟨"a.ts", 2, 6⟩ (oneLine nestedText) (Path.ofString "/root") nestedText 2 6 :=
  ⟨readText_oneLine nestedText, ⟨by decide, by decide⟩, ⟨by decide, by decide⟩, by decide⟩

theorem covers_nested : ∀ r ∈ nestedNodes, ∃ content a b,
    r.Covers (oneLine nestedText) (Path.ofString "/root") content a b := by
  intro r hr
  rcases List.mem_cons.1 hr with rfl | hr
  · exact ⟨_, _, _, covers_outer⟩
  · rw [List.mem_singleton.1 hr]
    exact ⟨_, _, _, covers_inner⟩

/-- The edit for a call. -/
theorem exists_match_callNode {start stop : Nat} (argument : String)
    (hcover : NodeRecord.Covers ⟨"a.ts", start, stop⟩ d root content a b) (template : String) :
    ∃ m, structureMatch? d root (Json.compact (callNode start stop argument)) = .ok (some m) ∧
      structureEdit template m =
        ⟨"a.ts", a, b - a, render template ⟨[("A", argument)], []⟩⟩ := by
  obtain ⟨bytes, hbytes, hdecode⟩ := Disk.readText_eq_ok_iff.1 hcover.read
  obtain ⟨m, hm, hgives, hcaptures⟩ := (isShownBy_callNode start stop argument).exists_match
    (isRecord_callNode start stop argument).parse_compact hbytes hdecode
  have hcaptured : capturesOf bytes content.toList (callNode start stop argument) =
      .ok ⟨[("A", argument)], []⟩ := rfl
  have hcaptures : m.captures = ⟨[("A", argument)], []⟩ :=
    Except.ok.inj (hcaptures.symm.trans hcaptured)
  have hfile : m.ref.file = "a.ts" := hgives.file.trans plainPath_nested
  rw [decode_eq_ok_iff.1 hdecode] at hgives
  obtain ⟨hoffset, hend, -⟩ :=
    NodeRecord.GivesOn.edit ⟨content, hcover.read, hgives⟩ hcover template
  refine ⟨m, hm, ?_⟩
  rw [structureEdit] at hoffset hend ⊢
  rw [Edit.mk.injEq, hfile, hcaptures]
  dsimp only at hoffset hend
  exact ⟨rfl, hoffset, by omega, rfl⟩

/-- The edits for these calls. -/
theorem found_nested (template : String) :
    ∃ found, structureMatches (oneLine nestedText) (Path.ofString "/root")
        (decodeLossy nestedRun.stdout) = .ok found ∧
      found.map (structureEdit template) =
        [⟨"a.ts", 0, 7, render template ⟨[("A", "f(x)")], []⟩⟩,
          ⟨"a.ts", 2, 4, render template ⟨[("A", "x")], []⟩⟩] := by
  obtain ⟨m, hm, hedit⟩ := exists_match_callNode "f(x)" covers_outer template
  obtain ⟨m', hm', hedit'⟩ := exists_match_callNode "x" covers_inner template
  refine ⟨[m, m'], ?_, ?_⟩
  · rw [structureMatches, recordLines_nested, nestedCalls, List.map_cons, List.map_cons,
      List.mapM_cons, List.mapM_cons, hm, hm']
    rfl
  · rw [List.map_cons, List.map_singleton, hedit, hedit']
    rfl

/-- Two edits that do not stand in order are exchanged. -/
theorem sortEdits_swap {e e' : Edit} (h : e.before e' = false) : sortEdits [e, e'] = [e', e] := by
  simp [sortEdits, List.mergeSort, h]

theorem names_nested : NamesAgree (oneLine nestedText) (Path.ofString "/root") nestedNodes := by
  have hfile : ∀ r ∈ nestedNodes, r.file = "a.ts" := by decide
  intro r hr r' hr' _ _ _
  rw [hfile r hr, hfile r' hr']

/-- What the proposal with a template does: its edits, and the text that they make. -/
theorem exists_proposal_nested (template : String) {s' : Session}
    (hrun : run (structureArguments "f($A)" none) nestedHost freshSession = (.ok nestedRun, s')) :
    ∃ e, replaceStructure (oneLine nestedText) (Path.ofString "/root") default "f($A)" template none
        nestedHost freshSession = (.ok e, s') ∧
      e.editsOf "a.ts" = (sortEdits [⟨"a.ts", 0, 7, render template ⟨[("A", "f(x)")], []⟩⟩,
        ⟨"a.ts", 2, 4, render template ⟨[("A", "x")], []⟩⟩]).filter (·.file == "a.ts") ∧
      (e.apply ⟨Path.ofString "/root", false, []⟩ (oneLine nestedText)).1.readText
        ((Path.ofString "/root").join "a.ts") = .ok (applyEdits nestedText (e.editsOf "a.ts")) := by
  obtain ⟨found, hread, hedits⟩ := found_nested template
  obtain ⟨found', hread', hfound⟩ := exists_structureMatches lists_nested covers_nested
  obtain rfl : found' = found := Except.ok.inj (hread'.symm.trans hread)
  refine ⟨_, replaceStructure_of_search default template
    (searchStructure_of_lists hrun lists_nested hread), ?_, ?_⟩
  · rw [Editset.editsOf, proposal, Editset.make, hedits]
  · have hunchanged : (proposal default "f($A)" template found').Unchanged
        ⟨Path.ofString "/root", false, []⟩ (oneLine nestedText) _ :=
      unchanged_proposal hfound covers_nested names_nested
    have hfile : "a.ts" ∈ (proposal default "f($A)" template found').editFiles :=
      (mem_editFiles_proposal hfound covers_nested).2 ⟨_, List.mem_cons_self, plainPath_nested⟩
    have htext := Editset.readText_apply_of_unchanged hunchanged hfile
    rwa [readText_oneLine] at htext

/-- Taking the function away from calls inside calls takes away what comes behind them: the records
are faithful, and yet `; y` is gone. -/
theorem replacement_loses_text :
    ∃ e s', run (structureArguments "f($A)" none) nestedHost freshSession = (.ok nestedRun, s') ∧
      nestedRun.Lists nestedNodes ∧
      (∀ r ∈ nestedNodes, ∃ content a b,
        r.Covers (oneLine nestedText) (Path.ofString "/root") content a b) ∧
      replaceStructure (oneLine nestedText) (Path.ofString "/root") default "f($A)" "$A" none
        nestedHost freshSession = (.ok e, s') ∧
      (e.apply ⟨Path.ofString "/root", false, []⟩ (oneLine nestedText)).1.readText
        ((Path.ofString "/root").join "a.ts") = .ok "f(x)\n" ∧
      ¬Keeps (e.editsOf "a.ts") nestedText.toList "f(x)\n".toList := by
  obtain ⟨s', hrun⟩ := exists_run_nested
  obtain ⟨e, hreplace, hedits, htext⟩ := exists_proposal_nested "$A" hrun
  have hmade : e.editsOf "a.ts" = [⟨"a.ts", 2, 4, "x"⟩, ⟨"a.ts", 0, 7, "f(x)"⟩] := by
    rw [hedits, sortEdits_swap (by decide +kernel)]
    decide +kernel
  rw [hmade] at htext
  refine ⟨e, s', hrun, lists_nested, covers_nested, hreplace, ?_, ?_⟩
  · rw [htext, applyEdits, descending, List.mergeSort_of_pairwise (by decide)]
    decide +kernel
  · rw [hmade]
    rintro ⟨fill, hfill⟩
    have hkept : filled [⟨"a.ts", 2, 4, "x"⟩, ⟨"a.ts", 0, 7, "f(x)"⟩] fill 0 nestedText.toList =
        fill 0 ++ [';', ' ', 'y', '\n'] := rfl
    rw [hkept] at hfill
    have hend := congrArg (List.drop 1 ∘ List.reverse) hfill
    simp at hend

/-- Putting another function in the place of `f` keeps what comes behind the calls. -/
theorem replacement_keeps_renamed_calls :
    ∃ e s' text, run (structureArguments "f($A)" none) nestedHost freshSession =
        (.ok nestedRun, s') ∧
      nestedRun.Lists nestedNodes ∧
      (∀ r ∈ nestedNodes, ∃ content a b,
        r.Covers (oneLine nestedText) (Path.ofString "/root") content a b) ∧
      NamesAgree (oneLine nestedText) (Path.ofString "/root") nestedNodes ∧
      replaceStructure (oneLine nestedText) (Path.ofString "/root") default "f($A)" "g($A)" none
        nestedHost freshSession = (.ok e, s') ∧
      (e.apply ⟨Path.ofString "/root", false, []⟩ (oneLine nestedText)).1.readText
        ((Path.ofString "/root").join "a.ts") = .ok text ∧
      Keeps (e.editsOf "a.ts") nestedText.toList text.toList ∧
      text.toList = byRange (e.editsOf "a.ts") nestedText.toList := by
  obtain ⟨s', hrun⟩ := exists_run_nested
  obtain ⟨e, hreplace, -, hfiles⟩ := replacement_keeps_iff (oneLine nestedText)
    (Path.ofString "/root") default "f($A)" "g($A)" none hrun lists_nested covers_nested
    names_nested
  obtain ⟨e', hreplace', hedits, -⟩ := exists_proposal_nested "g($A)" hrun
  obtain rfl : e' = e := by
    rw [hreplace] at hreplace'
    exact (Except.ok.inj (Prod.mk.inj hreplace').1).symm
  obtain ⟨content, text, hcontent, htext, -, hkeeps, hiff⟩ :=
    hfiles "a.ts" ⟨_, List.mem_cons_self, plainPath_nested⟩
  obtain rfl : nestedText = content :=
    Except.ok.inj ((readText_oneLine nestedText).symm.trans hcontent)
  have hstay : StayInRange (e'.editsOf "a.ts") nestedText.length := by
    refine stayInRange_of_growth_nonneg ?_ _
    have hmade : e'.editsOf "a.ts" = [⟨"a.ts", 2, 4, "g(x)"⟩, ⟨"a.ts", 0, 7, "g(f(x))"⟩] := by
      rw [hedits, sortEdits_swap (by decide +kernel)]
      decide +kernel
    rw [hmade]
    decide
  exact ⟨e', s', text, hrun, lists_nested, covers_nested, names_nested, hreplace, htext,
    hkeeps hstay, hiff.2 hstay⟩

end Redline.Search
