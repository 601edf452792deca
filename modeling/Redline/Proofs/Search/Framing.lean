import Mathlib.Data.List.TakeWhile
import Redline.Proofs.Json.Controls
import Redline.Proofs.Json.Extension
import Redline.Proofs.Search.Records
import Redline.Proofs.Text.Utf8

/-!
# Where a record ends

A tool writes its records with a line feed between. The searches cut an output at every character
that ends a line for a reader. Control characters are escaped in a record, but the next-line control
and the line and paragraph separators are written as they are, so a record that holds one of them is
cut at it, and no part of an object that lacks its end is a document: the search fails. Without them
an output gives what its records give, one by one.
-/

namespace Redline

namespace Json

/-- The value is an object with each key once and without floating-point numbers. -/
structure IsRecord (j : Json) : Prop where
  isObject : ∃ members, j = .obj members
  floatFree : FloatFree j
  keyed : Keyed j

/-- The characters that end a line for a reader and are no ASCII controls: next line, and the line
and paragraph separators. -/
def breaks : List Char :=
  ['\u0085', '\u2028', '\u2029']

/-- The record, written on one line, is one line for a reader. -/
def IsUnbroken (j : Json) : Prop :=
  ∀ c ∈ (compact j).toList, c ∉ breaks

-- decided on the characters as they are written: they need not be packed into a string for it
instance (j : Json) : Decidable j.IsUnbroken :=
  decidable_of_iff ((Layout.compact.write 0 j).all (fun c => !breaks.contains c) = true) <| by
    simp [IsUnbroken, compact]

/-- A break ends a line, and is neither a blank of the notation nor a carriage return. -/
theorem spec_of_mem_breaks {c : Char} (h : c ∈ breaks) :
    Text.endsLine c = true ∧ isSpace c = false ∧ c ≠ '\r' := by
  simp only [breaks, List.mem_cons, List.not_mem_nil, or_false] at h
  rcases h with rfl | rfl | rfl
  all_goals decide

theorem mem_breaks_of_endsLine {c : Char} (h : Text.endsLine c = true) (hc : 0x20 ≤ c.toNat) :
    c ∈ breaks := by
  have hcode : c.toNat = 0x85 ∨ c.toNat = 0x2028 ∨ c.toNat = 0x2029 := by
    simp only [Text.endsLine, List.contains_eq_mem, List.mem_cons, List.not_mem_nil, or_false,
      decide_eq_true_eq] at h
    omega
  rw [← Char.ofNat_toNat c]
  rcases hcode with hcode | hcode | hcode
  all_goals
    rw [hcode]
    decide

variable {j : Json}

theorem IsRecord.parse_compact (h : j.IsRecord) : parse (compact j) = .ok j := by
  obtain ⟨members, rfl⟩ := h.isObject
  exact Json.parse_compact h.floatFree h.keyed

theorem IsRecord.exists_compact_eq (h : j.IsRecord) :
    ∃ tail, (compact j).toList = '\x7b' :: tail := by
  obtain ⟨members, rfl⟩ := h.isObject
  rw [compact, String.toList_ofList]
  exact write_obj Layout.compact 0 members

/-- The only line ends in a record are the breaks. -/
theorem IsRecord.endsLine_iff (h : j.IsRecord) {c : Char} (hc : c ∈ (compact j).toList) :
    Text.endsLine c = true ↔ c ∈ breaks := by
  refine ⟨fun hend => mem_breaks_of_endsLine hend ?_, fun h => (spec_of_mem_breaks h).1⟩
  by_contra hcontrol
  exact control_not_mem_compact h.floatFree (Nat.lt_of_not_le hcontrol) hc

theorem IsRecord.isUnbroken_iff (h : j.IsRecord) :
    j.IsUnbroken ↔ ∀ c ∈ (compact j).toList, Text.endsLine c = false := by
  refine forall₂_congr fun c hc => ?_
  rw [← h.endsLine_iff hc, Bool.not_eq_true]

/-- A record with a break in it starts with text that is cut off at the break and is no document. -/
theorem IsRecord.exists_break (h : j.IsRecord) (hbroken : ¬j.IsUnbroken) :
    ∃ tail c more, (compact j).toList = '\x7b' :: (tail ++ c :: more) ∧
      (∀ e ∈ '\x7b' :: tail, Text.endsLine e = false) ∧ c ∈ breaks ∧
      ∃ reason, parse (String.ofList ('\x7b' :: tail)) = .error reason := by
  obtain ⟨text, htext⟩ := h.exists_compact_eq
  rw [h.isUnbroken_iff, htext] at hbroken
  have hopen : Text.endsLine '\x7b' = false := by decide
  let plain : Char → Bool := fun c => !Text.endsLine c
  have hsplit : text.takeWhile plain ++ text.dropWhile plain = text :=
    List.takeWhile_append_dropWhile
  cases hrest : text.dropWhile plain with
  | nil =>
      refine absurd (fun c hc => ?_) hbroken
      rcases List.mem_cons.1 hc with rfl | hc
      · exact hopen
      · simpa [plain] using List.dropWhile_eq_nil_iff.1 hrest c hc
  | cons c more =>
      rw [hrest] at hsplit
      have hend : Text.endsLine c = true := by
        have hhead := List.head?_dropWhile_not plain text
        rw [hrest] at hhead
        simpa [plain] using hhead
      have hmem : c ∈ (compact j).toList := by
        rw [htext, ← hsplit]
        simp
      have hbreak := (h.endsLine_iff hmem).1 hend
      refine ⟨text.takeWhile plain, c, more, by rw [htext, hsplit], fun e he => ?_, hbreak, ?_⟩
      · rcases List.mem_cons.1 he with rfl | he
        · exact hopen
        · simpa [plain] using List.mem_takeWhile_imp he
      · have hlong :
            parse (String.ofList ('\x7b' :: (text.takeWhile plain ++ c :: more))) = .ok j := by
          rw [hsplit, ← htext, String.ofList_toList, h.parse_compact]
        exact exists_error_of_longer (spec_of_mem_breaks hbreak).2.1 hlong

end Json

namespace Search

open Json

/-! ### The lines of an output -/

theorem logicalLinesFrom_append {cs : List Char} (h : ∀ c ∈ cs, Text.endsLine c = false)
    (line : List Char) (begun : Bool) (rest : List Char) :
    Text.logicalLinesFrom line begun (cs ++ rest) =
      Text.logicalLinesFrom (cs.reverse ++ line) (begun || !cs.isEmpty) rest := by
  induction cs generalizing line begun with
  | nil => simp
  | cons c cs ih =>
      have hc := h c List.mem_cons_self
      have hreturn : c ≠ '\r' := by
        rintro rfl
        cases hc
      rw [List.cons_append, Text.logicalLinesFrom, hc, if_neg (by simp),
        ih fun d hd => h d (List.mem_cons_of_mem _ hd)]
      · simp
      · rintro rest' rfl
        exact absurd rfl hreturn

theorem logicalLinesFrom_end {c : Char} (h : Text.endsLine c = true) (hreturn : c ≠ '\r')
    (line : List Char) (begun : Bool) (rest : List Char) :
    Text.logicalLinesFrom line begun (c :: rest) =
      line.reverse :: Text.logicalLinesFrom [] false rest := by
  rw [Text.logicalLinesFrom, if_pos h]
  rintro rest' rfl
  exact absurd rfl hreturn

theorem isBlank_brace (cs : List Char) :
    (String.ofList ('\x7b' :: cs)).toList.all Text.isBlank = false := by
  have hbrace : Text.isBlank '\x7b' = false := by decide
  rw [String.toList_ofList, List.all_cons, hbrace, Bool.false_and]

/-- The text of an object up to a line end is a line of the output. -/
theorem recordLines_cons {cs rest : List Char} {c : Char}
    (h : ∀ e ∈ '\x7b' :: cs, Text.endsLine e = false) (hc : Text.endsLine c = true)
    (hreturn : c ≠ '\r') :
    recordLines (String.ofList ('\x7b' :: cs ++ c :: rest)) =
      String.ofList ('\x7b' :: cs) :: recordLines (String.ofList rest) := by
  rw [recordLines, Text.logicalLines, String.toList_ofList, logicalLinesFrom_append h,
    logicalLinesFrom_end hc hreturn, List.append_nil, List.reverse_reverse, List.map_cons,
    List.filter_cons, isBlank_brace, recordLines, Text.logicalLines, String.toList_ofList]
  rfl

theorem recordLines_last {cs : List Char} (h : ∀ e ∈ '\x7b' :: cs, Text.endsLine e = false) :
    recordLines (String.ofList ('\x7b' :: cs)) = [String.ofList ('\x7b' :: cs)] := by
  have hlines : Text.logicalLinesFrom [] false ('\x7b' :: cs) = ['\x7b' :: cs] := by
    rw [← List.append_nil ('\x7b' :: cs), logicalLinesFrom_append h, Text.logicalLinesFrom]
    simp
  rw [recordLines, Text.logicalLines, String.toList_ofList, hlines, List.map_singleton,
    List.filter_cons, isBlank_brace]
  rfl

/-! ### The output of a tool -/

/-- Records as a tool writes them: one a line, with line feeds between. -/
def stream (records : List Json) : String :=
  "\n".intercalate (records.map compact)

theorem stream_cons_append (j : Json) (records : List Json) :
    ∃ more, stream (j :: records) = compact j ++ more := by
  cases records with
  | nil => exact ⟨"", by rw [stream, List.map_singleton, String.intercalate_singleton]; simp⟩
  | cons k records =>
      refine ⟨"\n" ++ stream (k :: records), ?_⟩
      simp only [stream, List.map_cons, String.intercalate_cons_cons, String.append_assoc]

theorem stream_cons {records : List Json} (h : records ≠ []) (j : Json) :
    stream (j :: records) = compact j ++ ("\n" ++ stream records) := by
  cases records with
  | nil => exact absurd rfl h
  | cons k records =>
      simp only [stream, List.map_cons, String.intercalate_cons_cons, String.append_assoc]

/-- What a tool may write after the last record. -/
def IsEnding (ending : String) : Prop :=
  ending = "" ∨ ending = "\n"

theorem IsEnding.recordLines {ending : String} (h : IsEnding ending) :
    Search.recordLines ending = [] := by
  rcases h with rfl | rfl
  · rfl
  · rfl

variable {j : Json}

theorem recordLines_compact_append (hj : j.IsRecord) (hwhole : j.IsUnbroken) (rest : String) :
    recordLines (compact j ++ ("\n" ++ rest)) = compact j :: recordLines rest := by
  obtain ⟨tail, htail⟩ := hj.exists_compact_eq
  have hplain := hj.isUnbroken_iff.1 hwhole
  rw [htail] at hplain
  have hcompact : compact j = String.ofList ('\x7b' :: tail) := by
    rw [← htail, String.ofList_toList]
  have htext : compact j ++ ("\n" ++ rest) =
      String.ofList ('\x7b' :: tail ++ '\n' :: rest.toList) := by
    apply String.toList_injective
    simp [htail]
  rw [htext, recordLines_cons hplain (by decide) (by decide), ← hcompact, String.ofList_toList]

theorem recordLines_compact_ending (hj : j.IsRecord) (hwhole : j.IsUnbroken) {ending : String}
    (hending : IsEnding ending) : recordLines (compact j ++ ending) = [compact j] := by
  rcases hending with rfl | rfl
  · obtain ⟨tail, htail⟩ := hj.exists_compact_eq
    have hplain := hj.isUnbroken_iff.1 hwhole
    rw [htail] at hplain
    rw [String.append_empty, ← String.ofList_toList (s := compact j), htail,
      recordLines_last hplain]
  · have h := recordLines_compact_append hj hwhole ""
    rwa [String.append_empty, IsEnding.recordLines (Or.inl rfl)] at h

/-- The first part of a record with a break is a line of the output that is no document. -/
theorem recordLines_broken_append (hj : j.IsRecord) (hbroken : ¬j.IsUnbroken) (rest : String) :
    ∃ fragment lines, recordLines (compact j ++ rest) = fragment :: lines ∧
      ∃ reason, parse fragment = .error reason := by
  obtain ⟨tail, c, more, htext, hplain, hbreak, hreason⟩ := hj.exists_break hbroken
  obtain ⟨hend, -, hreturn⟩ := spec_of_mem_breaks hbreak
  have heq : compact j ++ rest =
      String.ofList ('\x7b' :: tail ++ c :: (more ++ rest.toList)) := by
    apply String.toList_injective
    simp [htext]
  refine ⟨String.ofList ('\x7b' :: tail), recordLines (String.ofList (more ++ rest.toList)), ?_,
    hreason⟩
  rw [heq, recordLines_cons hplain hend hreturn]

/-- Records without breaks are the lines of their output. -/
theorem recordLines_stream {records : List Json} (hrecords : ∀ j ∈ records, j.IsRecord)
    (hwhole : ∀ j ∈ records, j.IsUnbroken) {ending : String} (hending : IsEnding ending) :
    recordLines (stream records ++ ending) = records.map compact := by
  induction records with
  | nil =>
      rw [show stream [] ++ ending = ending from String.empty_append, hending.recordLines,
        List.map_nil]
  | cons j records ih =>
      have hj := hrecords j List.mem_cons_self
      have hjwhole := hwhole j List.mem_cons_self
      by_cases hnil : records = []
      · subst hnil
        rw [stream, List.map_singleton, String.intercalate_singleton,
          recordLines_compact_ending hj hjwhole hending]
      · rw [stream_cons hnil, String.append_assoc, String.append_assoc,
          recordLines_compact_append hj hjwhole, List.map_cons,
          ih (fun k hk => hrecords k (List.mem_cons_of_mem _ hk))
            fun k hk => hwhole k (List.mem_cons_of_mem _ hk)]

/-- Records before the first break are lines of their output; then comes a part of a record. -/
theorem recordLines_stream_of_broken {records : List Json} (hrecords : ∀ j ∈ records, j.IsRecord)
    (hbroken : ¬∀ j ∈ records, j.IsUnbroken) (ending : String) :
    ∃ before after fragment lines, records = before ++ after ∧
      recordLines (stream records ++ ending) = before.map compact ++ fragment :: lines ∧
      ∃ reason, parse fragment = .error reason := by
  induction records with
  | nil => exact absurd (by simp) hbroken
  | cons j records ih =>
      have hj := hrecords j List.mem_cons_self
      by_cases hwhole : j.IsUnbroken
      · have hrest : ¬∀ k ∈ records, k.IsUnbroken := fun hall =>
          hbroken (List.forall_mem_cons.2 ⟨hwhole, hall⟩)
        have hne : records ≠ [] := by
          rintro rfl
          exact hrest (by simp)
        obtain ⟨before, after, fragment, lines, rfl, hlines, hreason⟩ :=
          ih (fun k hk => hrecords k (List.mem_cons_of_mem _ hk)) hrest
        refine ⟨j :: before, after, fragment, lines, rfl, ?_, hreason⟩
        rw [stream_cons hne, String.append_assoc, String.append_assoc,
          recordLines_compact_append hj hwhole, hlines, List.map_cons, List.cons_append]
      · obtain ⟨more, hmore⟩ := stream_cons_append j records
        obtain ⟨fragment, lines, hlines, hreason⟩ :=
          recordLines_broken_append hj hwhole (more ++ ending)
        refine ⟨[], j :: records, fragment, lines, rfl, ?_, hreason⟩
        rw [hmore, String.append_assoc, hlines, List.map_nil, List.nil_append]

/-! ### Reading the output -/

/-- An outcome of reading the output of a tool that wrote some records, beside the outcome `alone`
of reading each record on its own: the same if no record is broken, and a failure of the tool if one
is, though each is read on its own. -/
structure Frames {α : Type} (tool : String) (records : List Json) (alone outcome : Outcome α) :
    Prop where
  same : (∀ j ∈ records, j.IsUnbroken) → outcome = alone
  failure : (¬∀ j ∈ records, j.IsUnbroken) → ∀ found, alone = .ok found →
    ∃ line reason, outcome = failWith (.toolOutput tool line reason)

theorem Frames.map {α β : Type} {tool : String} {records : List Json} {alone outcome : Outcome α}
    (h : Frames tool records alone outcome) (g : α → β) :
    Frames tool records (alone.map g) (outcome.map g) := by
  refine ⟨fun hwhole => by rw [h.same hwhole], fun hbroken found hfound => ?_⟩
  cases alone with
  | error e => cases hfound
  | ok found' =>
      obtain ⟨line, reason, hfailure⟩ := h.failure hbroken found' rfl
      exact ⟨line, reason, by rw [hfailure]; rfl⟩

theorem Frames.ok_iff {α : Type} {tool : String} {records : List Json} {alone outcome : Outcome α}
    (h : Frames tool records alone outcome) {found : α} (hfound : alone = .ok found) :
    outcome = .ok found ↔ ∀ j ∈ records, j.IsUnbroken := by
  refine ⟨fun hok => ?_, fun hwhole => by rw [h.same hwhole, hfound]⟩
  by_contra hbroken
  obtain ⟨line, reason, hfailure⟩ := h.failure hbroken found hfound
  rw [hfailure] at hok
  cases hok

/-- Reading an output line by line, with a failure of the tool for a line that is no document. -/
theorem frames_mapM {α : Type} {tool : String} {f : String → Outcome α}
    (hfault : ∀ line reason, parse line = .error reason →
      f line = failWith (.toolOutput tool line reason))
    {records : List Json} (hrecords : ∀ j ∈ records, j.IsRecord) {ending : String}
    (hending : IsEnding ending) :
    Frames tool records ((records.map compact).mapM f)
      ((recordLines (stream records ++ ending)).mapM f) := by
  constructor
  · intro hwhole
    rw [recordLines_stream hrecords hwhole hending]
  · intro hbroken found hfound
    obtain ⟨before, after, fragment, lines, rfl, hlines, reason, hreason⟩ :=
      recordLines_stream_of_broken hrecords hbroken ending
    refine ⟨fragment, reason, ?_⟩
    rw [hlines, List.mapM_append, List.mapM_cons, hfault fragment reason hreason]
    -- the lines before the fragment are read, as they are with all the others
    rw [List.map_append, List.mapM_append] at hfound
    cases hbefore : (before.map compact).mapM f with
    | error e =>
        rw [hbefore] at hfound
        cases hfound
    | ok found' => rfl

/-- The matches of records of lines, each record read on its own. -/
def matchesAlone (d : Disk) (root : Path) (pattern : String) (records : List Json) :
    Outcome (List TextMatch) :=
  (records.mapM (matchesOf d root pattern)).map List.flatten

/-- The matches of records of nodes, each record read on its own. -/
def nodesAlone (d : Disk) (root : Path) (records : List Json) : Outcome (List StructureMatch) :=
  (records.mapM fun j => structureMatch? d root (compact j)).map fun found =>
    found.flatMap Option.toList

/-- An output of a text search is read line by line. -/
theorem frames_textMatches (d : Disk) (root : Path) (pattern : String) {records : List Json}
    (hrecords : ∀ j ∈ records, j.IsRecord) {ending : String} (hending : IsEnding ending) :
    Frames "ripgrep" records (matchesAlone d root pattern records)
      (textMatches d root pattern (stream records ++ ending)) := by
  have hfault : ∀ line reason, parse line = .error reason →
      (parseRecord "ripgrep" line >>= matchesOf d root pattern) =
        failWith (.toolOutput "ripgrep" line reason) := by
    intro line reason h
    rw [parseRecord, h]
    rfl
  have halone : (records.map compact).mapM
      (fun line => parseRecord "ripgrep" line >>= matchesOf d root pattern) =
        records.mapM (matchesOf d root pattern) := by
    clear hending
    induction records with
    | nil => rfl
    | cons j records ih =>
        have hj := (hrecords j List.mem_cons_self).parse_compact
        rw [List.map_cons, List.mapM_cons, List.mapM_cons,
          ih fun k hk => hrecords k (List.mem_cons_of_mem _ hk), parseRecord, hj]
        rfl
  have h := (frames_mapM hfault hrecords hending).map List.flatten
  rwa [halone] at h

/-- An output of a structural search is read line by line. -/
theorem frames_structureMatches (d : Disk) (root : Path) {records : List Json}
    (hrecords : ∀ j ∈ records, j.IsRecord) {ending : String} (hending : IsEnding ending) :
    Frames "ast-grep" records (nodesAlone d root records)
      (structureMatches d root (stream records ++ ending)) := by
  have hfault : ∀ line reason, parse line = .error reason →
      structureMatch? d root line = failWith (.toolOutput "ast-grep" line reason) := by
    intro line reason h
    rw [structureMatch?, parseRecord, h]
    rfl
  have h := (frames_mapM hfault hrecords hending).map fun found => found.flatMap Option.toList
  rwa [List.mapM_map] at h

/-- The value is a record of a line of a file that, if it is there, is a text. -/
def IsLine (d : Disk) (root : Path) (j : Json) : Prop :=
  ∃ r : LineRecord, r.IsShownBy j ∧ r.IsReadable d root

/-- The value is a record of a node of a file that, if it is there, is a text. -/
def IsNodeOf (d : Disk) (root : Path) (j : Json) : Prop :=
  ∃ r : NodeRecord, r.IsShownBy j ∧ r.IsReadable d root

variable {d : Disk} {root : Path}

theorem exists_matchesAlone (pattern : String) {records : List Json}
    (h : ∀ j ∈ records, IsLine d root j) :
    ∃ found, matchesAlone d root pattern records = .ok found := by
  obtain ⟨found, hfound⟩ := exists_mapM fun j hj => by
    obtain ⟨r, hshown, hread⟩ := h j hj
    exact hshown.exists_matchesOf hread pattern
  exact ⟨found.flatten, by rw [matchesAlone, hfound]; rfl⟩

theorem exists_nodesAlone {records : List Json} (hrecords : ∀ j ∈ records, j.IsRecord)
    (h : ∀ j ∈ records, IsNodeOf d root j) :
    ∃ found, nodesAlone d root records = .ok found := by
  obtain ⟨found, hfound⟩ := exists_mapM fun j hj => by
    obtain ⟨r, hshown, hread⟩ := h j hj
    exact hshown.exists_structureMatch? (hrecords j hj).parse_compact hread
  exact ⟨found.flatMap Option.toList, by rw [nodesAlone, hfound]; rfl⟩

/-- Reading an output gives what reading its records one by one gives if none is broken. Records of
files that are texts are read one by one, and their output gives the same exactly if none is broken;
otherwise the search fails. -/
theorem stream_read_iff_unbroken (d : Disk) (root : Path) (pattern : String)
    {lines nodes : List Json} (hlines : ∀ j ∈ lines, j.IsRecord) (hnodes : ∀ j ∈ nodes, j.IsRecord)
    {ending : String} (hending : IsEnding ending) :
    Frames "ripgrep" lines (matchesAlone d root pattern lines)
      (textMatches d root pattern (stream lines ++ ending)) ∧
    Frames "ast-grep" nodes (nodesAlone d root nodes)
      (structureMatches d root (stream nodes ++ ending)) ∧
    ((∀ j ∈ lines, IsLine d root j) → ∃ found, matchesAlone d root pattern lines = .ok found ∧
      (textMatches d root pattern (stream lines ++ ending) = .ok found ↔
        ∀ j ∈ lines, j.IsUnbroken)) ∧
    ((∀ j ∈ nodes, IsNodeOf d root j) → ∃ found, nodesAlone d root nodes = .ok found ∧
      (structureMatches d root (stream nodes ++ ending) = .ok found ↔
        ∀ j ∈ nodes, j.IsUnbroken)) := by
  have hreadLines := frames_textMatches d root pattern hlines hending
  have hreadNodes := frames_structureMatches d root hnodes hending
  refine ⟨hreadLines, hreadNodes, fun hall => ?_, fun hall => ?_⟩
  · obtain ⟨found, hfound⟩ := exists_matchesAlone pattern hall
    exact ⟨found, hfound, hreadLines.ok_iff hfound⟩
  · obtain ⟨found, hfound⟩ := exists_nodesAlone hnodes hall
    exact ⟨found, hfound, hreadNodes.ok_iff hfound⟩

/-- A directory with a file of one line. -/
def oneLine (text : String) : Disk :=
  { working := ["root"]
    entries := [(["root"], .folder), (["root", "a.ts"], .file (Text.Utf8.encode text))] }

/-- The record of the line, whose first character matches. -/
def lineOf (text : String) : Json :=
  .obj [("type", .str "match"), ("data", .obj [("path", .obj [("text", .str "./a.ts")]),
    ("lines", .obj [("text", .str text)]), ("line_number", .int 1), ("absolute_offset", .int 0),
    ("submatches", .arr [.obj [("match", .obj [("text", .str "x")]), ("start", .int 0),
      ("end", .int 1)]])])]

/-- The record of the node that is the first character of the line. -/
def nodeOf (text : String) : Json :=
  .obj [("text", .str "x"), ("range", .obj [("byteOffset", .obj [("start", .int 0),
    ("end", .int 1)])]), ("file", .str "a.ts"), ("lines", .str text),
    ("metaVariables", .obj [("single", .obj []), ("multi", .obj [])])]

theorem isRecord_lineOf (text : String) : (lineOf text).IsRecord :=
  ⟨⟨_, rfl⟩, by simp [lineOf, floatFree_obj_iff, floatFree_arr_iff, FloatFree.str, FloatFree.int],
    by simp [lineOf, keyed_obj_iff, keyed_arr_iff, Keyed.str, Keyed.int]⟩

theorem isRecord_nodeOf (text : String) : (nodeOf text).IsRecord :=
  ⟨⟨_, rfl⟩, by simp [nodeOf, floatFree_obj_iff, FloatFree.str, FloatFree.int],
    by simp [nodeOf, keyed_obj_iff, Keyed.str, Keyed.int]⟩

theorem readText_oneLine (text : String) :
    (oneLine text).readText ((Path.ofString "/root").join "a.ts") = .ok text :=
  Disk.readText_eq_ok_iff.2 ⟨Text.Utf8.encode text, rfl, Text.Utf8.decode_encode text⟩

theorem isLine_lineOf (text : String) :
    IsLine (oneLine text) (Path.ofString "/root") (lineOf text) := by
  let r : LineRecord :=
    { path := some "./a.ts", text := some text, number := 1, submatches := [⟨some "x", 0, 1⟩] }
  refine ⟨r, ?_, ?_⟩
  · exact {
      kind := rfl
      path := ⟨_, rfl, _, rfl, rfl⟩
      text := ⟨_, rfl, _, rfl, rfl⟩
      number := rfl
      submatches := ⟨_, rfl, .cons ⟨⟨_, rfl, _, rfl, rfl⟩, rfl, rfl⟩ .nil⟩ }
  · rintro name _ hname - -
    cases hname
    exact ⟨text, readText_oneLine text⟩

theorem isNodeOf_nodeOf (text : String) :
    IsNodeOf (oneLine text) (Path.ofString "/root") (nodeOf text) := by
  refine ⟨{ file := "a.ts", start := 0, stop := 1 }, ?_, fun _ => ⟨text, readText_oneLine text⟩⟩
  exact {
    file := rfl
    node := ⟨rfl, rfl⟩
    captures := {
      all := fun v h => by cases h; exact ⟨_, rfl⟩
      single := fun v h => by cases h; exact ⟨[], rfl, by simp⟩
      multi := fun v h => by cases h; exact ⟨[], rfl, by simp⟩ } }

theorem stream_read_accented :
    (∀ j ∈ [lineOf "xé\n", lineOf "xé\n"], j.IsRecord) ∧ (∀ j ∈ [nodeOf "xé\n"], j.IsRecord) ∧
    IsEnding "\n" ∧
    (∃ found, matchesAlone (oneLine "xé\n") (Path.ofString "/root") "x"
        [lineOf "xé\n", lineOf "xé\n"] = .ok found ∧
      textMatches (oneLine "xé\n") (Path.ofString "/root") "x"
        (stream [lineOf "xé\n", lineOf "xé\n"] ++ "\n") = .ok found) ∧
    ∃ found, nodesAlone (oneLine "xé\n") (Path.ofString "/root") [nodeOf "xé\n"] = .ok found ∧
      structureMatches (oneLine "xé\n") (Path.ofString "/root")
        (stream [nodeOf "xé\n"] ++ "\n") = .ok found := by
  have hlines : ∀ j ∈ [lineOf "xé\n", lineOf "xé\n"], j.IsRecord := by
    simp [isRecord_lineOf]
  have hnodes : ∀ j ∈ [nodeOf "xé\n"], j.IsRecord := by
    simp [isRecord_nodeOf]
  have hline : (lineOf "xé\n").IsUnbroken := by decide +kernel
  have hnode : (nodeOf "xé\n").IsUnbroken := by decide +kernel
  obtain ⟨-, -, hread, hreadNodes⟩ := stream_read_iff_unbroken (oneLine "xé\n")
    (Path.ofString "/root") "x" hlines hnodes (Or.inr rfl)
  obtain ⟨found, hfound, hiff⟩ := hread (by simp [isLine_lineOf])
  obtain ⟨found', hfound', hiff'⟩ := hreadNodes (by simp [isNodeOf_nodeOf])
  exact ⟨hlines, hnodes, Or.inr rfl, ⟨found, hfound, hiff.2 (by simp [hline])⟩,
    found', hfound', hiff'.2 (by simp [hnode])⟩

/-- A line with a line separator in it: its records can be read on their own, but an output with one
of them cannot. -/
theorem stream_cut_at_separator :
    IsLine (oneLine "x\u2028y\n") (Path.ofString "/root") (lineOf "x\u2028y\n") ∧
    (∃ found, matchesAlone (oneLine "x\u2028y\n") (Path.ofString "/root") "x"
      [lineOf "x\u2028y\n"] = .ok found) ∧
    (∃ line reason, textMatches (oneLine "x\u2028y\n") (Path.ofString "/root") "x"
      (stream [lineOf "x\u2028y\n"]) = failWith (.toolOutput "ripgrep" line reason)) ∧
    IsNodeOf (oneLine "x\u2028y\n") (Path.ofString "/root") (nodeOf "x\u2028y\n") ∧
    (∃ found, nodesAlone (oneLine "x\u2028y\n") (Path.ofString "/root")
      [nodeOf "x\u2028y\n"] = .ok found) ∧
    ∃ line reason, structureMatches (oneLine "x\u2028y\n") (Path.ofString "/root")
      (stream [nodeOf "x\u2028y\n"]) = failWith (.toolOutput "ast-grep" line reason) := by
  have hlines : ∀ j ∈ [lineOf "x\u2028y\n"], j.IsRecord := by
    simp [isRecord_lineOf]
  have hnodes : ∀ j ∈ [nodeOf "x\u2028y\n"], j.IsRecord := by
    simp [isRecord_nodeOf]
  have hread := isLine_lineOf "x\u2028y\n"
  have hreadNode := isNodeOf_nodeOf "x\u2028y\n"
  obtain ⟨found, hfound⟩ := exists_matchesAlone "x" (List.forall_mem_singleton.2 hread)
  obtain ⟨found', hfound'⟩ :=
    exists_nodesAlone hnodes (List.forall_mem_singleton.2 hreadNode)
  have hfails := (frames_textMatches (oneLine "x\u2028y\n") (Path.ofString "/root") "x" hlines
    (Or.inl rfl)).failure (by decide +kernel) found hfound
  have hfailsNode := (frames_structureMatches (oneLine "x\u2028y\n") (Path.ofString "/root") hnodes
    (Or.inl rfl)).failure (by decide +kernel) found' hfound'
  rw [String.append_empty] at hfails hfailsNode
  exact ⟨hread, ⟨found, hfound⟩, hfails, hreadNode, ⟨found', hfound'⟩, hfailsNode⟩

end Search

end Redline
