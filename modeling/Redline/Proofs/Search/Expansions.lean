import Redline.Proofs.Pattern.Whole
import Redline.Proofs.Search.Replacement
import Redline.Search.Text

/-!
# How often a template is expanded

A text replacement has an edit for each match that the tool lists. Its new text is made by replacing
in the matched text whatever the pattern matches there. So the template is expanded once, with the
groups of the match of the whole text, exactly when this is the sole match in the text.
-/

namespace Redline

open Pattern

namespace Search

variable {d : Disk} {root : Path} {p : Pattern} {template : String} {pieces : List Piece}
  {m : TextMatch} {found : List TextMatch} {host : Host} {s s' : Session}

/-- The match is in a file that can be read, on a line that is there. -/
def TextMatch.IsPlaced (m : TextMatch) (d : Disk) (root : Path) : Prop :=
  ∃ content offset, d.readText (root.join m.ref.file) = .ok content ∧
    Position.offset? content m.ref.range.startLine m.ref.range.startColumn = some offset

/-- The edit for a match replaces within its text. -/
theorem exists_textEdit (h : m.IsPlaced d root)
    (hpieces : templatePieces p (substitution template) = .ok pieces) :
    ∃ edit, textEdit d root p template m = .ok edit ∧
      edit.replacement = p.replace (expand pieces) m.text := by
  obtain ⟨content, offset, hread, hoffset⟩ := h
  have hnew : p.substitute (substitution template) m.text =
      .ok (p.replace (expand pieces) m.text) := by
    rw [Pattern.substitute, hpieces]
    rfl
  refine ⟨{ file := m.ref.file
            offset
            length := m.ref.range.endColumn - m.ref.range.startColumn
            replacement := p.replace (expand pieces) m.text }, ?_, rfl⟩
  rw [textEdit, hread, hnew]
  simp only [onSourceText_ok, bind, Except.bind, hoffset]
  rfl

theorem templatePieces_letter (p : Pattern) :
    templatePieces p (substitution "x") = .ok [.char 'x'] := rfl

theorem expandsOnce_iff (h : m.IsPlaced d root) {w : Match} (hw : p.wholeMatch? m.text = some w) :
    (∀ template pieces edit, templatePieces p (substitution template) = .ok pieces →
        textEdit d root p template m = .ok edit →
        edit.replacement = String.ofList (expand pieces w)) ↔
      p.IsSole m.text := by
  constructor
  · intro hall
    obtain ⟨edit, hedit, hnew⟩ := exists_textEdit h (templatePieces_letter p)
    have honce := hall "x" _ edit (templatePieces_letter p) hedit
    rw [hnew] at honce
    exact isSole_of_replace_eq hw honce
  · intro hsole template pieces edit hpieces hedit
    obtain ⟨edit', hedit', hnew⟩ := exists_textEdit h hpieces
    obtain rfl : edit' = edit := Except.ok.inj (hedit'.symm.trans hedit)
    rw [hnew, hsole.replace_eq hw]

theorem replaceText_of_search {now : Moment} {pattern : String} {glob : Option String}
    (hcompile : Pattern.compile pattern false = .ok p)
    (hsearch : searchText d root pattern glob host s = (.ok found, s')) {edits : List Edit}
    (hedits : found.mapM (textEdit d root p template) = .ok edits) :
    replaceText d root now pattern template glob host s =
      (.ok (Editset.make "text-replace" "replace" pattern template (found.map TextMatch.ref) edits
        none (some pattern) now), s') := by
  have hpattern : (liftM (Pattern.compile pattern false) : Step Pattern) host s = (.ok p, s) := by
    rw [hcompile]
    rfl
  have hmade : (liftM (found.mapM (textEdit d root p template)) : Step (List Edit)) host s' =
      (.ok edits, s') := by
    rw [hedits]
    rfl
  rw [replaceText, bind_of_ok hpattern, bind_of_ok hsearch, bind_of_ok hmade]
  rfl

/-- How often a text replacement expands its template. The tool lists matches in files that are
there. Then there is a proposal for every template that the pattern has the groups for, with an edit
for each match. Where the pattern matches the text of a match as a whole, this edit has every
template expanded once, with the groups of the match of the whole text, exactly when that is the
sole match in the text. -/
theorem replaceText_expands_once_iff (d : Disk) (root : Path) (now : Moment) (pattern : String)
    (glob : Option String) {host : Host} {s s' : Session} {p : Pattern} {found : List TextMatch}
    (hcompile : Pattern.compile pattern false = .ok p)
    (hsearch : searchText d root pattern glob host s = (.ok found, s'))
    (hplaced : ∀ m ∈ found, m.IsPlaced d root) :
    (∀ template pieces, templatePieces p (substitution template) = .ok pieces →
      ∃ e edits, replaceText d root now pattern template glob host s = (.ok e, s') ∧
        e.edits.Perm edits ∧
        List.Forall₂ (fun m edit => textEdit d root p template m = .ok edit) found edits) ∧
    ∀ m ∈ found, ∀ w, p.wholeMatch? m.text = some w →
      ((∀ template pieces edit, templatePieces p (substitution template) = .ok pieces →
          textEdit d root p template m = .ok edit →
          edit.replacement = String.ofList (expand pieces w)) ↔
        p.IsSole m.text) := by
  refine ⟨fun template pieces hpieces => ?_, fun m hm w hw => expandsOnce_iff (hplaced m hm) hw⟩
  have hall : List.Forall₂ (fun m m' => m = m' ∧ m.IsPlaced d root) found found :=
    List.forall₂_same.2 fun m hm => ⟨rfl, hplaced m hm⟩
  obtain ⟨edits, hedits, hmade⟩ := exists_mapM_of_forall₂ hall fun m m' h => by
    obtain ⟨rfl, hm⟩ := h
    obtain ⟨edit, hedit, -⟩ := exists_textEdit hm hpieces
    exact ⟨edit, hedit, hedit⟩
  exact ⟨_, edits, replaceText_of_search hcompile hsearch hedits, sortEdits_perm edits, hmade⟩

/-! ### A line of one word -/

/-- The record of the line `abc`, all of which matches. -/
def wordRecord : Json :=
  .obj [("type", .str "match"), ("data", .obj [("path", .obj [("text", .str "./a.ts")]),
    ("lines", .obj [("text", .str "abc\n")]), ("line_number", .int 1), ("absolute_offset", .int 0),
    ("submatches", .arr [.obj [("match", .obj [("text", .str "abc")]), ("start", .int 0),
      ("end", .int 3)]])])]

/-- What the tool answers. -/
def wordRun : Execution :=
  { status := 0, stdout := Text.Utf8.encode (stream [wordRecord] ++ "\n"), stderr := [] }

/-- A machine with the tool. -/
def wordHost : Host :=
  { locate := fun _ _ => some "/usr/bin/rg", execute := fun _ _ => some wordRun }

/-- A session with the tool before its first question. -/
def freshText : Session :=
  { tool := ripgrep "rg", asked := 0, calls := [] }

theorem exists_run_word (pattern : String) :
    ∃ s', run (textArguments pattern none) wordHost freshText = (.ok wordRun, s') :=
  ⟨_, rfl⟩

theorem isShownBy_wordRecord :
    LineRecord.IsShownBy ⟨some "./a.ts", some "abc\n", 1, [⟨some "abc", 0, 3⟩]⟩ wordRecord where
  kind := rfl
  path := ⟨_, rfl, _, rfl, rfl⟩
  text := ⟨_, rfl, _, rfl, rfl⟩
  number := rfl
  submatches := ⟨_, rfl, .cons ⟨⟨_, rfl, _, rfl, rfl⟩, rfl, rfl⟩ .nil⟩

theorem isRecord_wordRecord : wordRecord.IsRecord :=
  ⟨⟨_, rfl⟩,
    by simp [wordRecord, Json.floatFree_obj_iff, Json.floatFree_arr_iff, Json.FloatFree.str,
      Json.FloatFree.int],
    by simp [wordRecord, Json.keyed_obj_iff, Json.keyed_arr_iff, Json.Keyed.str, Json.Keyed.int]⟩

/-- The search lists the word. -/
theorem exists_search_word (pattern : String) :
    ∃ m s', searchText (oneLine "abc\n") (Path.ofString "/root") pattern none wordHost freshText =
        (.ok [m], s') ∧ m.text = "abc" ∧ m.IsPlaced (oneLine "abc\n") (Path.ofString "/root") := by
  obtain ⟨s', hrun⟩ := exists_run_word pattern
  obtain ⟨found, hfound, hgives⟩ := isShownBy_wordRecord.matchesOf rfl rfl
    (readText_oneLine "abc\n") pattern
  cases hgives with
  | @cons _ m _ _ hm hnil =>
  cases hnil
  have hread := (frames_textMatches (oneLine "abc\n") (Path.ofString "/root") pattern
    (List.forall_mem_singleton.2 isRecord_wordRecord) (Or.inr rfl)).same (by decide +kernel)
  rw [matchesAlone, List.mapM_cons, hfound] at hread
  refine ⟨m, s', ?_, hm.text, ?_⟩
  · rw [searchText, bind_of_ok hrun, if_neg (by decide), if_neg (by decide), wordRun,
      Text.Utf8.decodeLossy_encode, hread]
    rfl
  · refine ⟨"abc\n", 0, ?_, ?_⟩
    · rw [hm.file]
      exact readText_oneLine "abc\n"
    · rw [hm.range]
      decide +kernel

/-- What is found by running a reader on a text. -/
theorem exists_of_any_toOption {ε α : Type} {x : Except ε α} {f : α → Bool}
    (h : x.toOption.any f = true) : ∃ a, x = .ok a ∧ f a = true := by
  cases x with
  | error e => cases h
  | ok a => exact ⟨a, rfl, h⟩

/-- A pattern for the word takes it as a whole and has its template expanded once. -/
theorem replaceText_expands_once_word :
    ∃ p found s', Pattern.compile "a(\\w+)" false = .ok p ∧
      searchText (oneLine "abc\n") (Path.ofString "/root") "a(\\w+)" none wordHost freshText =
        (.ok found, s') ∧
      (∀ m ∈ found, m.IsPlaced (oneLine "abc\n") (Path.ofString "/root")) ∧
      ∃ m ∈ found, ∃ w, p.wholeMatch? m.text = some w ∧ p.IsSole m.text ∧
        ∀ template pieces edit, templatePieces p (substitution template) = .ok pieces →
          textEdit (oneLine "abc\n") (Path.ofString "/root") p template m = .ok edit →
          edit.replacement = String.ofList (expand pieces w) := by
  obtain ⟨m, s', hsearch, htext, hplaced⟩ := exists_search_word "a(\\w+)"
  have hfacts : ((Pattern.compile "a(\\w+)" false).toOption.any fun p =>
      (p.wholeMatch? "abc").isSome && decide (p.IsSole "abc")) = true := by decide +kernel
  obtain ⟨p, hp, hfacts⟩ := exists_of_any_toOption hfacts
  rw [Bool.and_eq_true, decide_eq_true_iff] at hfacts
  obtain ⟨hwhole, hsole⟩ := hfacts
  obtain ⟨w, hw⟩ := Option.isSome_iff_exists.1 hwhole
  rw [← htext] at hw hsole
  have hall : ∀ m' ∈ [m], m'.IsPlaced (oneLine "abc\n") (Path.ofString "/root") :=
    List.forall_mem_singleton.2 hplaced
  obtain ⟨-, honce⟩ := replaceText_expands_once_iff (oneLine "abc\n") (Path.ofString "/root")
    default "a(\\w+)" none hp hsearch hall
  exact ⟨p, [m], s', hp, hsearch, hall, m, List.mem_cons_self, w, hw, hsole,
    (honce m List.mem_cons_self w hw).2 hsole⟩

/-- A pattern that matches the empty text too is found again at the end of the word: its template
is expanded twice. -/
theorem replaceText_expands_twice :
    ∃ p m s' w e, Pattern.compile "\\w*" false = .ok p ∧
      searchText (oneLine "abc\n") (Path.ofString "/root") "\\w*" none wordHost freshText =
        (.ok [m], s') ∧
      p.wholeMatch? m.text = some w ∧
      templatePieces p (substitution "X") = .ok [.char 'X'] ∧ expand [.char 'X'] w = ['X'] ∧
      replaceText (oneLine "abc\n") (Path.ofString "/root") default "\\w*" "X" none wordHost
        freshText = (.ok e, s') ∧
      e.edits.map Edit.replacement = ["XX"] := by
  obtain ⟨m, s', hsearch, htext, hplaced⟩ := exists_search_word "\\w*"
  have hfacts : ((Pattern.compile "\\w*" false).toOption.any fun p =>
      (p.wholeMatch? "abc").isSome && p.replace (expand [.char 'X']) "abc" == "XX") = true := by
    decide +kernel
  obtain ⟨p, hp, hfacts⟩ := exists_of_any_toOption hfacts
  rw [Bool.and_eq_true, beq_iff_eq] at hfacts
  obtain ⟨hwhole, htwice⟩ := hfacts
  obtain ⟨w, hw⟩ := Option.isSome_iff_exists.1 hwhole
  have hpieces : templatePieces p (substitution "X") = .ok [.char 'X'] := rfl
  obtain ⟨edit, hedit, hnew⟩ := exists_textEdit hplaced hpieces
  have hedits : [m].mapM (textEdit (oneLine "abc\n") (Path.ofString "/root") p "X") =
      .ok [edit] := by
    rw [List.mapM_cons, hedit]
    rfl
  rw [← htext] at hw htwice
  refine ⟨p, m, s', w, _, hp, hsearch, hw, hpieces, rfl,
    replaceText_of_search hp hsearch hedits, ?_⟩
  rw [Editset.make, sortEdits, List.mergeSort_singleton, List.map_singleton, hnew, htwice]

end Search

end Redline
