import Redline.Proofs.Json.Values
import Redline.Proofs.Position
import Redline.Proofs.Search.Records

/-!
# Where a match is

Records count octets, edits count characters, and references count lines and columns. For a file
that is UTF-8 and a record that is faithful to it (`IsFaithful`), the three agree: the edit covers
what matched, what stands before it is the octets of the file before the match, and the two ends of
the reference lead to the ends of the edit (`Locates`).
-/

namespace Redline.Search

open Text Text.Utf8

/-- The edit and the reference stand for the text `matched`, which starts at octet `start` of a
file. -/
structure Locates (bytes : Bytes) (content : String) (start : Nat) (matched : String)
    (ref : Reference) (e : Edit) : Prop where
  file : e.file = ref.file
  offset_nonneg : 0 ≤ e.offset
  length_nonneg : 0 ≤ e.length
  inside : e.offset + e.length ≤ content.length
  covered : between content.toList e.offset (e.offset + e.length) = matched.toList
  before : encode (String.ofList (before content.toList e.offset)) = bytes.take start
  first : Position.offset? content ref.range.startLine ref.range.startColumn = some e.offset
  last : Position.offset? content ref.range.endLine ref.range.endColumn = some (e.offset + e.length)

variable {bytes : Bytes} {content : String} {start stop : Nat} {matched : String}

/-- An edit from one character to another, whose places in the written form the record names. -/
theorem locates_of_marks {c e : Nat} {ref : Reference} {edit : Edit}
    (hstart : Marks content.toList start c) (hstop : Marks content.toList stop e)
    (hle : start ≤ stop) (hmatched : encode matched = ((encode content).take stop).drop start)
    (hfile : edit.file = ref.file) (hoffset : edit.offset = c)
    (hlength : edit.length = (e : Int) - c)
    (hfirst : Position.offset? content ref.range.startLine ref.range.startColumn = some (c : Int))
    (hlast : Position.offset? content ref.range.endLine ref.range.endColumn = some (e : Int)) :
    Locates (encode content) content start matched ref edit := by
  have hce : c ≤ e := (hstart.le_iff hstop).1 hle
  have hsize : content.toList.length = content.length := String.length_toList
  have hc := hstart.1
  have he := hstop.1
  have hend : edit.offset + edit.length = e := by omega
  refine ⟨hfile, by omega, by omega, by omega, ?_, ?_, by rw [hoffset, hfirst], by rw [hend, hlast]⟩
  · have htext : String.ofList ((content.toList.take e).drop c) = matched :=
      encode_injective (by rw [hmatched, hstart.between_encode hstop hle])
    rw [hend, hoffset, between_natCast hc, ← htext, String.toList_ofList]
  · rw [hoffset, before_natCast, hstart.take_encode]

/-! ### Lines -/

/-- The submatch is a place of the line, with what it covers. -/
structure Submatch.IsFaithful (s : Submatch) (line : List Char) : Prop where
  start : ∃ c, Marks line s.start c
  stop : ∃ c, Marks line s.stop c
  le : s.start ≤ s.stop
  covered : ∃ text, s.covered = some text ∧
    encode text = ((encode (String.ofList line)).take s.stop).drop s.start

/-- The record is of a line of the file, which it holds with or without its line feed. -/
structure LineRecord.IsFaithful (r : LineRecord) (content : String) (line : List Char) : Prop where
  number : 1 ≤ r.number
  isLine : (splitLines content.toList)[r.number - 1]? = some line
  text : r.text = some (String.ofList line) ∨ r.text = some (String.ofList (line ++ ['\n']))
  submatches : ∀ s ∈ r.submatches, s.IsFaithful line

/-- The lines above a line. -/
def linesAbove (content : String) (number : Nat) : List (List Char) :=
  (splitLines content.toList).take (number - 1)

/-- The octets above a line. -/
def octetsAbove (content : String) (number : Nat) : Nat :=
  Utf8.width (ended (linesAbove content number))

variable {r : LineRecord} {line : List Char}

/-- The record's line is one of those of the file. -/
theorem LineRecord.IsFaithful.splitLines_eq (h : r.IsFaithful content line) :
    ∃ below, splitLines content.toList = linesAbove content r.number ++ line :: below ∧
      (linesAbove content r.number).length + 1 = r.number := by
  obtain ⟨hlt, hline⟩ := List.getElem?_eq_some_iff.1 h.isLine
  have hnumber := h.number
  refine ⟨(splitLines content.toList).drop (r.number - 1 + 1), ?_, ?_⟩
  · rw [linesAbove, ← hline, List.getElem_cons_drop, List.take_append_drop]
  · rw [linesAbove, List.length_take, Nat.min_eq_left (Nat.le_of_lt hlt)]
    omega

/-- A place of the line is one of the file, behind the lines above. -/
theorem LineRecord.IsFaithful.marks (h : r.IsFaithful content line) {n c : Nat}
    (hn : Marks line n c) :
    Marks content.toList (octetsAbove content r.number + n)
      ((ended (linesAbove content r.number)).length + c) := by
  obtain ⟨below, hsplit, -⟩ := h.splitLines_eq
  obtain ⟨tail, htail⟩ := exists_eq_of_splitLines hsplit
  rw [htail, List.append_assoc]
  exact (hn.append tail).prepend _

/-- The characters between two places of the line. -/
theorem LineRecord.IsFaithful.take_drop (h : r.IsFaithful content line) {e : Nat}
    (he : e ≤ line.length) (c : Nat) :
    (content.toList.take ((ended (linesAbove content r.number)).length + e)).drop
      ((ended (linesAbove content r.number)).length + c) = (line.take e).drop c := by
  obtain ⟨below, hsplit, -⟩ := h.splitLines_eq
  obtain ⟨tail, htail⟩ := exists_eq_of_splitLines hsplit
  conv_lhs => rw [htail]
  rw [List.append_assoc, List.take_length_add_append, List.drop_length_add_append,
    List.take_append_of_le_length he]

/-- The columns of the line count from behind the lines above. -/
theorem LineRecord.IsFaithful.offset? (h : r.IsFaithful content line) (c : Nat) :
    Position.offset? content r.number ((c : Int) + 1) =
      some (((ended (linesAbove content r.number)).length + c : Nat) : Int) := by
  obtain ⟨below, hsplit, hnumber⟩ := h.splitLines_eq
  have hoffset := Position.offset?_of_splitLines hsplit ((c : Int) + 1)
  rw [hnumber] at hoffset
  rw [hoffset]
  congr 1
  omega

/-- Octets of the line are counted in the record's text of it. -/
theorem LineRecord.IsFaithful.charOffset_eq (h : r.IsFaithful content line) {text : String}
    (htext : r.text = some text) {n c : Nat} (hn : Marks line n c) :
    Position.charOffset (encode text) n = c := by
  have hmarks : Marks text.toList n c := by
    rcases h.text with hline | hline
    · rw [Option.some.inj (htext.symm.trans hline), String.toList_ofList]
      exact hn
    · rw [Option.some.inj (htext.symm.trans hline), String.toList_ofList]
      exact hn.append ['\n']
  exact hmarks.charOffset_eq

/-- The edit of a match on a line, if its replacement can be made, is where the match is. -/
theorem Submatch.Gives.locates {s : Submatch} {name text : String} {m : TextMatch}
    (hgives : s.Gives (r.place name text content) m) (hr : r.IsFaithful content line)
    (htext : r.text = some text) (hs : s.IsFaithful line) {d : Disk} {root : Path}
    (hread : d.readText (root.join (plainPath name)) = .ok content) {p : Pattern}
    {replacement new : String} (hnew : p.substitute (substitution replacement) m.text = .ok new) :
    ∃ e, textEdit d root p replacement m = .ok e ∧ e.replacement = new ∧
      Locates (encode content) content (octetsAbove content r.number + s.start) m.text m.ref e := by
  obtain ⟨c, hc⟩ := hs.start
  obtain ⟨e, he⟩ := hs.stop
  obtain ⟨covered, hcovered, hoctets⟩ := hs.covered
  have hrange := hgives.range
  simp only [LineRecord.place, hr.charOffset_eq htext hc, hr.charOffset_eq htext he] at hrange
  have hmatched : m.text = covered := by
    rw [hgives.text, hcovered, Option.getD_some]
  refine ⟨{
    file := m.ref.file
    offset := ((ended (linesAbove content r.number)).length + c : Nat)
    length := (e : Int) + 1 - (c + 1)
    replacement := new }, ?_, rfl, ?_⟩
  · rw [textEdit, hgives.file, LineRecord.place, hread, hnew, hrange]
    simp only [bind, Except.bind, onSourceText_ok, hr.offset? c]
    rfl
  · refine locates_of_marks (hr.marks hc) (hr.marks he) (Nat.add_le_add_left hs.le _) ?_ rfl rfl ?_
      ?_ ?_
    · rw [(hr.marks hc).between_encode (hr.marks he) (Nat.add_le_add_left hs.le _),
        hr.take_drop he.1, hmatched, hoctets]
      rw [← String.toList_ofList (l := line)] at hc he
      rw [hc.between_encode he hs.le, String.toList_ofList]
    · push_cast
      omega
    · rw [hrange]
      exact hr.offset? c
    · rw [hrange]
      exact hr.offset? e

/-! ### Nodes -/

/-- The record is of octets of the file at which characters start, which are the text `matched`. -/
structure NodeRecord.IsFaithful (r : NodeRecord) (content matched : String) : Prop where
  start : ∃ c, Marks content.toList r.start c
  stop : ∃ c, Marks content.toList r.stop c
  le : r.start ≤ r.stop
  covered : encode matched = ((encode content).take r.stop).drop r.start

/-- The edit of a node, with any replacement, is where the node is. -/
theorem NodeRecord.Gives.locates {r : NodeRecord} {m : StructureMatch}
    (hgives : r.Gives (encode content) content m) (hr : r.IsFaithful content matched)
    (replacement : String) :
    Locates (encode content) content r.start matched m.ref (structureEdit replacement m) := by
  obtain ⟨c, hc⟩ := hr.start
  obtain ⟨e, he⟩ := hr.stop
  have hstart : m.start = c := by rw [hgives.start, hc.charOffset_eq]
  have hstop : m.stop = e := by rw [hgives.stop, he.charOffset_eq]
  refine locates_of_marks hc he hr.le hr.covered rfl hstart ?_ ?_ ?_
  · rw [structureEdit, hstart, hstop]
  · rw [hgives.range, hstart]
    exact Position.offset?_lineColumn (by rw [← String.length_toList]; exact hc.1)
  · rw [hgives.range, hstop]
    exact Position.offset?_lineColumn (by rw [← String.length_toList]; exact he.1)

/-- In a file that is UTF-8, the matches of faithful records of its lines and of its nodes are where
the records say: a record gives a match for each submatch of its line, or for its node, and the edit
made for the match and its reference locate it. -/
theorem matches_locate_records (d : Disk) (root p : Path) {bytes : Bytes} {content : String}
    (hread : d.read p = .ok bytes) (hdecode : decode bytes = .ok content) :
    (∀ (j : Json) (r : LineRecord) (name : String) (line : List Char) (pattern : String),
      r.IsShownBy j → r.path = some name → root.join (plainPath name) = p →
      r.IsFaithful content line →
      ∃ found, matchesOf d root pattern j = .ok found ∧
        List.Forall₂ (fun s m => s.covered = some m.text ∧
          ∀ (x : Pattern) (replacement new : String),
            x.substitute (substitution replacement) m.text = .ok new →
            ∃ e, textEdit d root x replacement m = .ok e ∧ e.replacement = new ∧
              Locates bytes content (octetsAbove content r.number + s.start) m.text m.ref e)
          r.submatches found) ∧
    ∀ (text : String) (j : Json) (r : NodeRecord) (matched : String),
      Json.parse text = .ok j → r.IsShownBy j → root.join (plainPath r.file) = p →
      r.IsFaithful content matched →
      ∃ m, structureMatch? d root text = .ok (some m) ∧
        ∀ replacement,
          Locates bytes content r.start matched m.ref (structureEdit replacement m) := by
  have hbytes : bytes = encode content := decode_eq_ok_iff.1 hdecode
  refine ⟨fun j r name line pattern hshown hname hfile hfaithful => ?_,
    fun text j r matched hparse hshown hfile hfaithful => ?_⟩
  · have hcontent : d.readText (root.join (plainPath name)) = .ok content := by
      rw [hfile]
      exact Disk.readText_eq_ok_iff.2 ⟨bytes, hread, hdecode⟩
    obtain ⟨text, htext⟩ : ∃ text, r.text = some text :=
      hfaithful.text.elim (fun h => ⟨_, h⟩) fun h => ⟨_, h⟩
    obtain ⟨found, hfound, hgives⟩ := hshown.matchesOf hname htext hcontent pattern
    refine ⟨found, hfound, ?_⟩
    have hall := (List.forall₂_and_left _ _).2 ⟨hfaithful.submatches, hgives⟩
    refine hall.imp fun s m h => ?_
    obtain ⟨hs, hm⟩ := h
    obtain ⟨covered, hcovered, -⟩ := hs.covered
    refine ⟨?_, fun x replacement new hnew => ?_⟩
    · rw [hm.text, hcovered, Option.getD_some]
    · rw [hbytes]
      exact hm.locates hfaithful htext hs hcontent hnew
  · rw [← hfile] at hread
    obtain ⟨m, hm, hgives⟩ := hshown.structureMatch? hparse hread hdecode
    rw [hbytes] at hgives ⊢
    exact ⟨m, hm, hgives.locates hfaithful⟩

/-- A text with characters of several octets, carriage returns and an empty line. -/
def mixedText : String :=
  "é\r\n\n日x\r\n"

/-- A directory with a file of the text. -/
def mixedDisk : Disk :=
  { working := ["root"]
    entries := [(["root"], .folder), (["root", "a.ts"], .file (encode mixedText))] }

/-- The members of a record of the third line, with a match of its second character. -/
def mixedLine : List (String × Json) :=
  [("type", .str "match"), ("data", .obj [("path", .obj [("text", .str "./a.ts")]),
    ("lines", .obj [("text", .str "日x\r\n")]), ("line_number", .int 3),
    ("submatches", .arr [.obj [("match", .obj [("text", .str "x")]), ("start", .int 3),
      ("end", .int 4)]])])]

/-- The members of a record of the node that is that character. -/
def mixedNode : List (String × Json) :=
  [("range", .obj [("byteOffset", .obj [("start", .int 8), ("end", .int 9)])]),
    ("file", .str "a.ts")]

theorem mixedLine_located :
    mixedDisk.read ((Path.ofString "/root").join "a.ts") = .ok (encode mixedText) ∧
    decode (encode mixedText) = .ok mixedText ∧
    (∃ m e, matchesOf mixedDisk (Path.ofString "/root") "x" (.obj mixedLine) = .ok [m] ∧
      textEdit mixedDisk (Path.ofString "/root") ⟨.char .exact 'x', 0, []⟩ "y" m = .ok e ∧
      Locates (encode mixedText) mixedText 8 "x" m.ref e) ∧
    ∃ m, structureMatch? mixedDisk (Path.ofString "/root") (Json.compact (.obj mixedNode)) =
        .ok (some m) ∧
      Locates (encode mixedText) mixedText 8 "x" m.ref (structureEdit "y" m) := by
  have hread : mixedDisk.read ((Path.ofString "/root").join "a.ts") = .ok (encode mixedText) := rfl
  have hdecode := decode_encode mixedText
  obtain ⟨hline, hnode⟩ := matches_locate_records mixedDisk (Path.ofString "/root")
    ((Path.ofString "/root").join "a.ts") hread hdecode
  refine ⟨hread, hdecode, ?_, ?_⟩
  · obtain ⟨found, hfound, hall⟩ := hline (.obj mixedLine)
      { path := some "./a.ts", text := some "日x\r\n", number := 3
        submatches := [⟨some "x", 3, 4⟩] } "./a.ts" ['日', 'x', '\r'] "x"
      { kind := rfl
        path := ⟨_, rfl, _, rfl, rfl⟩
        text := ⟨_, rfl, _, rfl, rfl⟩
        number := rfl
        submatches := ⟨_, rfl, .cons ⟨⟨_, rfl, _, rfl, rfl⟩, rfl, rfl⟩ .nil⟩ }
      rfl rfl
      { number := by decide
        isLine := by decide
        text := Or.inr rfl
        submatches := by
          intro s hs
          rw [List.mem_singleton.1 hs]
          exact ⟨⟨1, by decide, by decide⟩, ⟨2, by decide, by decide⟩, by decide, "x", rfl,
            by decide⟩ }
    cases hall with
    | @cons _ m _ rest hm hrest =>
        cases hrest
        have htext : m.text = "x" := (Option.some.inj hm.1).symm
        have hnew : (⟨.char .exact 'x', 0, []⟩ : Pattern).substitute (substitution "y") "x" =
            .ok "y" := rfl
        obtain ⟨e, he, -, hlocates⟩ := hm.2 _ "y" "y" (by rw [htext]; exact hnew)
        rw [htext] at hlocates
        exact ⟨m, e, hfound, he, hlocates⟩
  · have hparse : Json.parse (Json.compact (.obj mixedNode)) = .ok (.obj mixedNode) := by
      refine Json.parse_compact ?_ ?_
      · simp [mixedNode, Json.floatFree_obj_iff, Json.FloatFree.str, Json.FloatFree.int]
      · simp [mixedNode, Json.keyed_obj_iff, Json.Keyed.str, Json.Keyed.int]
    obtain ⟨m, hm, hlocates⟩ := hnode _ (.obj mixedNode) { file := "a.ts", start := 8, stop := 9 }
      "x" hparse
      { file := rfl
        node := ⟨rfl, rfl⟩
        captures := {
          all := fun v h => by cases h
          single := fun v h => by cases h
          multi := fun v h => by cases h } }
      rfl ⟨⟨5, by decide, by decide⟩, ⟨6, by decide, by decide⟩, by decide, by decide⟩
    exact ⟨m, hm, hlocates "y"⟩

end Redline.Search
