import Redline.Proofs.Disk.Frame
import Redline.Proofs.Pairs
import Redline.Search.Structure
import Redline.Search.Text

/-!
# What the records of a search say

A text search writes a record for each line with matches (`LineRecord`) and a structural search one
for each match (`NodeRecord`). `IsShownBy` says that a value is such a record; further members do
not matter. A text that is no UTF-8 is written encoded and under another key by a text search, so
the path, the line and what a match covers may be missing.

Such a record about a file that can be read gives its matches: one for each submatch of a line, and
one for a node.
-/

namespace Redline

namespace Json

/-- The value at the end of a path of keys. -/
def at? (j : Json) : List String → Option Json
  | [] => some j
  | key :: keys => (j.get? key).bind fun v => v.at? keys

variable {j v : Json} {key : String} {keys : List String}

theorem at?_cons (h : j.get? key = some v) (keys : List String) :
    j.at? (key :: keys) = v.at? keys := by
  rw [at?, h, Option.bind_some]

theorem at?_singleton : j.at? [key] = j.get? key :=
  Option.bind_fun_some _

theorem exists_of_at? (h : j.at? (key :: keys) = some v) :
    ∃ w, j.get? key = some w ∧ w.at? keys = some v :=
  Option.bind_eq_some_iff.1 h

theorem field_of_get? (h : j.get? key = some v) : Record.field j key = .ok v := by
  cases j with
  | obj members =>
      rw [get?] at h
      rw [Record.field, h]
  | null | bool | int | float | str | arr => cases h

theorem optional_of_get? (h : j.get? key = some v) : Record.optional j key = .ok (some v) := by
  cases j with
  | obj members => exact congrArg Except.ok h
  | null | bool | int | float | str | arr => cases h

/-- An object that holds a text under `text`, or one encoded under another key. -/
def IsDatum (j : Json) (text : Option String) : Prop :=
  ∃ members, j = .obj members ∧ members.lookup "text" = text.map .str

theorem IsDatum.holds {text : Option String} (h : j.IsDatum text) :
    Record.holds j "text" = .ok text.isSome := by
  obtain ⟨members, rfl, htext⟩ := h
  have hany : members.any (·.1 == "text") = (members.lookup "text").isSome := by
    clear htext
    induction members with
    | nil => rfl
    | cons m members ih =>
        rw [List.any_cons, ih, List.lookup_cons, BEq.comm]
        cases "text" == m.1 with
        | false => rfl
        | true => rfl
  rw [Record.holds, hany, htext, Option.isSome_map]

theorem IsDatum.field {text : String} (h : j.IsDatum (some text)) :
    Record.field j "text" = .ok (.str text) := by
  obtain ⟨members, rfl, htext⟩ := h
  exact field_of_get? htext

theorem IsDatum.optional {text : Option String} (h : j.IsDatum text) :
    Record.optional j "text" = .ok (text.map .str) := by
  obtain ⟨members, rfl, htext⟩ := h
  exact congrArg Except.ok htext

end Json

namespace Search

@[simp] theorem charsBefore_int (bytes : Bytes) (n : Int) :
    charsBefore bytes (.int n) = .ok (Position.charOffset bytes n : Int) := rfl

@[simp] theorem onRecord_ok {α : Type} (a : α) : onRecord (.ok a) = .ok a := rfl

@[simp] theorem onSourceText_ok {α : Type} (a : α) : onSourceText (.ok a) = .ok a := rfl

/-! ### Lines with matches -/

/-- A match on a line: what it covers, and its octets in the line. -/
structure Submatch where
  covered : Option String
  start : Nat
  stop : Nat

/-- The value shows the submatch. -/
structure Submatch.IsShownBy (s : Submatch) (j : Json) : Prop where
  covered : ∃ datum, j.at? ["match"] = some datum ∧ datum.IsDatum s.covered
  start : j.at? ["start"] = some (.int s.start)
  stop : j.at? ["end"] = some (.int s.stop)

/-- A line with matches, as a text search tells it. -/
structure LineRecord where
  path : Option String
  text : Option String
  number : Nat
  submatches : List Submatch

/-- The value is a record of the line. -/
structure LineRecord.IsShownBy (r : LineRecord) (j : Json) : Prop where
  kind : j.at? ["type"] = some (.str "match")
  path : ∃ datum, j.at? ["data", "path"] = some datum ∧ datum.IsDatum r.path
  text : ∃ datum, j.at? ["data", "lines"] = some datum ∧ datum.IsDatum r.text
  number : j.at? ["data", "line_number"] = some (.int r.number)
  submatches : ∃ subs, j.at? ["data", "submatches"] = some (.arr subs) ∧
    List.Forall₂ Submatch.IsShownBy r.submatches subs

/-- The match is that of the submatch on the line: its columns count characters. -/
structure Submatch.Gives (s : Submatch) (l : MatchLine) (m : TextMatch) : Prop where
  text : m.text = s.covered.getD ""
  file : m.ref.file = l.file
  range : m.ref.range =
    { startLine := l.number
      startColumn := (Position.charOffset (Text.Utf8.encode l.text) s.start : Int) + 1
      endLine := l.number
      endColumn := (Position.charOffset (Text.Utf8.encode l.text) s.stop : Int) + 1 }

theorem Submatch.IsShownBy.matchOn {s : Submatch} {j : Json} (h : s.IsShownBy j)
    (pattern : String) (l : MatchLine) :
    ∃ m, Search.matchOn pattern l j = .ok m ∧ s.Gives l m := by
  obtain ⟨datum, hmatch, hdatum⟩ := h.covered
  have hstart := h.start
  have hstop := h.stop
  rw [Json.at?_singleton] at hmatch hstart hstop
  rw [Search.matchOn, Json.field_of_get? hstart, Json.field_of_get? hstop,
    Json.field_of_get? hmatch]
  cases hcovered : s.covered
  all_goals
    rw [hcovered] at hdatum
    refine ⟨_, by simp only [bind, Except.bind, charsBefore_int, hdatum.optional]; rfl, ?_⟩
    exact ⟨by rw [hcovered]; rfl, rfl, rfl⟩

variable {d : Disk} {root : Path} {j : Json}

theorem isFile_of_readText {p : Path} {content : String} (h : d.readText p = .ok content) :
    d.isFile p = true := by
  obtain ⟨bytes, hbytes, -⟩ := Disk.readText_eq_ok_iff.1 h
  obtain ⟨place, hfind, hentry⟩ := Disk.read_eq_ok_iff.1 hbytes
  simp [Disk.isFile, Disk.entry?, hfind, hentry]

/-- Where the record of a line has its matches. -/
def LineRecord.place (r : LineRecord) (name text content : String) : MatchLine :=
  { file := plainPath name, checksum := checksum content, number := r.number, text }

/-- What a record of a line gives: nothing if its path or its line is encoded or its file is not
there, and otherwise what each of its submatches gives. -/
theorem LineRecord.IsShownBy.exists_matchesOf_eq {r : LineRecord} (h : r.IsShownBy j)
    (d : Disk) (root : Path) (pattern : String) :
    ∃ subs, List.Forall₂ Submatch.IsShownBy r.submatches subs ∧
      Search.matchesOf d root pattern j =
        match r.path, r.text with
        | some name, some text =>
          if d.isFile (root.join (plainPath name)) then do
            let content ← onSourceText (d.readText (root.join (plainPath name)))
            subs.mapM fun sub => onRecord (matchOn pattern (r.place name text content) sub)
          else .ok []
        | _, _ => .ok [] := by
  obtain ⟨path, hpath, hpathDatum⟩ := h.path
  obtain ⟨lines, hlines, hlinesDatum⟩ := h.text
  obtain ⟨subs, hsubs, hshown⟩ := h.submatches
  have hkind := h.kind
  have hnumber := h.number
  obtain ⟨data, hdata, -⟩ := Json.exists_of_at? hpath
  rw [Json.at?_cons hdata, Json.at?_singleton] at hpath hlines hsubs hnumber
  rw [Json.at?_singleton] at hkind
  refine ⟨subs, hshown, ?_⟩
  rw [Search.matchesOf]
  simp only [bind, Except.bind, onRecord_ok, Json.optional_of_get? hkind, Json.field_of_get? hdata,
    Json.field_of_get? hpath, Json.field_of_get? hlines, Json.field_of_get? hnumber,
    Json.field_of_get? hsubs, hpathDatum.holds, hlinesDatum.holds, lineNumber, Record.items]
  rw [if_neg (by simp [Json.asString?])]
  cases hname : r.path with
  | none => rfl
  | some name =>
      cases htext : r.text with
      | none => rfl
      | some text =>
          rw [hname] at hpathDatum
          rw [htext] at hlinesDatum
          simp only [hpathDatum.field, hlinesDatum.field, Record.textFor, onRecord_ok,
            Option.isSome_some, Bool.not_true, Bool.false_eq_true, if_false]
          cases d.isFile (root.join (plainPath name)) with
          | false => simp only [Bool.not_false, Bool.false_eq_true, if_true, if_false]; rfl
          | true => cases onSourceText (d.readText (root.join (plainPath name))) <;> rfl

/-- A record of a line of a file that can be read gives a match for each submatch. -/
theorem LineRecord.IsShownBy.matchesOf {r : LineRecord} (h : r.IsShownBy j) {name text : String}
    (hname : r.path = some name) (htext : r.text = some text) {content : String}
    (hread : d.readText (root.join (plainPath name)) = .ok content) (pattern : String) :
    ∃ found, Search.matchesOf d root pattern j = .ok found ∧
      List.Forall₂ (fun s m => s.Gives (r.place name text content) m) r.submatches found := by
  obtain ⟨subs, hshown, heq⟩ := h.exists_matchesOf_eq d root pattern
  obtain ⟨found, hfound, hgives⟩ := exists_mapM_of_forall₂ hshown fun s sub hsub => by
    obtain ⟨m, hm, hgives⟩ := hsub.matchOn pattern (r.place name text content)
    exact ⟨m, congrArg onRecord hm, hgives⟩
  refine ⟨found, ?_, hgives⟩
  rw [heq, hname, htext]
  simp only [isFile_of_readText hread, hread, onSourceText_ok, if_true]
  exact hfound

/-- The file of the record, if it is there, is a text. -/
def LineRecord.IsReadable (r : LineRecord) (d : Disk) (root : Path) : Prop :=
  ∀ name text, r.path = some name → r.text = some text →
    d.isFile (root.join (plainPath name)) = true →
    ∃ content, d.readText (root.join (plainPath name)) = .ok content

theorem LineRecord.IsShownBy.exists_matchesOf {r : LineRecord} (h : r.IsShownBy j)
    (hread : r.IsReadable d root) (pattern : String) :
    ∃ found, Search.matchesOf d root pattern j = .ok found := by
  obtain ⟨subs, -, heq⟩ := h.exists_matchesOf_eq d root pattern
  cases hname : r.path with
  | none => exact ⟨[], by rw [heq, hname]⟩
  | some name =>
      cases htext : r.text with
      | none => exact ⟨[], by rw [heq, hname, htext]⟩
      | some text =>
          cases hfile : d.isFile (root.join (plainPath name)) with
          | false => exact ⟨[], by simp [heq, hname, htext, hfile]⟩
          | true =>
              obtain ⟨content, hcontent⟩ := hread name text hname htext hfile
              obtain ⟨found, hfound, -⟩ := h.matchesOf hname htext hcontent pattern
              exact ⟨found, hfound⟩

/-! ### Nodes -/

/-- A match of a structural search: its file and its octets in the file. -/
structure NodeRecord where
  file : String
  start : Nat
  stop : Nat

/-- The value says where a node is. -/
structure IsNode (j : Json) (start stop : Nat) : Prop where
  start : j.at? ["range", "byteOffset", "start"] = some (.int start)
  stop : j.at? ["range", "byteOffset", "end"] = some (.int stop)

/-- What the value says of metavariables, if anything, can be read: a single one stands for an
object, and one for a run stands for nodes. -/
structure ShowsCaptures (j : Json) : Prop where
  all : ∀ v, j.at? ["metaVariables"] = some v → ∃ members, v = .obj members
  single : ∀ v, j.at? ["metaVariables", "single"] = some v →
    ∃ members, v = .obj members ∧ ∀ m ∈ members, ∃ fields, m.2 = .obj fields
  multi : ∀ v, j.at? ["metaVariables", "multi"] = some v →
    ∃ members, v = .obj members ∧ ∀ m ∈ members, ∃ nodes, m.2 = .arr nodes ∧
      ∀ n ∈ nodes, ∃ start stop, IsNode n start stop

/-- The value is a record of the node. -/
structure NodeRecord.IsShownBy (r : NodeRecord) (j : Json) : Prop where
  file : j.at? ["file"] = some (.str r.file)
  node : IsNode j r.start r.stop
  captures : ShowsCaptures j

theorem IsNode.octetsOf {start stop : Nat} (h : IsNode j start stop) :
    ∃ octets, Search.octetsOf j = .ok octets ∧ Record.field octets "start" = .ok (.int start) ∧
      Record.field octets "end" = .ok (.int stop) := by
  obtain ⟨range, hrange, hstart⟩ := Json.exists_of_at? h.start
  obtain ⟨octets, hoctets, hstart⟩ := Json.exists_of_at? hstart
  have hstop := h.stop
  rw [Json.at?_cons hrange, Json.at?_cons hoctets, Json.at?_singleton] at hstop
  rw [Json.at?_singleton] at hstart
  refine ⟨octets, ?_, Json.field_of_get? hstart, Json.field_of_get? hstop⟩
  rw [Search.octetsOf, Json.field_of_get? hrange]
  exact Json.field_of_get? hoctets

theorem exists_runText {nodes : List Json} (h : ∀ n ∈ nodes, ∃ start stop, IsNode n start stop)
    (bytes : Bytes) (text : List Char) : ∃ s, runText bytes text (.arr nodes) = .ok s := by
  cases nodes with
  | nil => exact ⟨"", rfl⟩
  | cons first rest =>
      obtain ⟨start, stop, hfirst⟩ := h first List.mem_cons_self
      obtain ⟨octets, hoctets, hstart, -⟩ := hfirst.octetsOf
      obtain ⟨last, hlast⟩ : ∃ last, (first :: rest).getLast? = some last :=
        ⟨_, List.getLast?_eq_some_getLast (List.cons_ne_nil first rest)⟩
      obtain ⟨_, stop', hnode⟩ := h last (List.mem_of_getLast? hlast)
      obtain ⟨octets', hoctets', -, hstop⟩ := hnode.octetsOf
      refine ⟨String.ofList (Text.between text (Position.charOffset bytes start)
        (Position.charOffset bytes stop')), ?_⟩
      simp only [runText, Json.isTruthy, List.isEmpty_cons, Bool.not_false, Bool.not_true,
        Bool.false_eq_true, if_false, bind, Except.bind, pure, Except.pure, hlast, Option.getD_some,
        hoctets, hstart, hoctets', hstop, charsBefore_int]

theorem memberOr_eq {v : Option Json} (h : ∀ x, v = some x → ∃ members, x = .obj members)
    (key : String) : memberOr v key = .ok (v.bind fun x => x.get? key) := by
  cases v with
  | none => rfl
  | some x =>
      obtain ⟨members, rfl⟩ := h x rfl
      cases members <;> rfl

theorem exists_membersOr {v : Option Json} {p : String × Json → Prop}
    (h : ∀ x, v = some x → ∃ members, x = .obj members ∧ ∀ m ∈ members, p m) :
    ∃ members, membersOr v = .ok members ∧ ∀ m ∈ members, p m := by
  cases v with
  | none => exact ⟨[], rfl, by simp⟩
  | some x =>
      obtain ⟨members, rfl, hall⟩ := h x rfl
      refine ⟨members, ?_, hall⟩
      cases members <;> rfl

/-- Captures that can be read are read. -/
theorem ShowsCaptures.exists_capturesOf (h : ShowsCaptures j) {members : List (String × Json)}
    (hobj : j = .obj members) (bytes : Bytes) (text : List Char) :
    ∃ captures, capturesOf bytes text j = .ok captures := by
  have hcaptured : Record.optional j "metaVariables" = .ok (j.get? "metaVariables") := by
    rw [hobj]
    rfl
  have hall := h.all
  have hone := h.single
  have hrun := h.multi
  have hat : ∀ key, j.at? ["metaVariables", key] =
      (j.get? "metaVariables").bind fun v => v.get? key := fun key => by
    simp only [Json.at?, Option.bind_fun_some]
  rw [Json.at?_singleton] at hall
  rw [hat] at hone hrun
  obtain ⟨single, hsingle, hfields⟩ := exists_membersOr hone
  obtain ⟨multi, hmulti, hnodes⟩ := exists_membersOr hrun
  obtain ⟨texts, htexts⟩ : ∃ texts, (single.mapM fun m => do
      let t ← Record.optional m.2 "text"
      return (m.1, (t.bind Json.asString?).getD "") : Except Mishap _) = .ok texts :=
    exists_mapM fun m hm => by
      obtain ⟨fields, hfields⟩ := hfields m hm
      rw [hfields]
      exact ⟨_, rfl⟩
  obtain ⟨runs, hruns⟩ : ∃ runs, (multi.mapM fun m => do
      return (m.1, ← runText bytes text m.2) : Except Mishap _) = .ok runs :=
    exists_mapM fun m hm => by
      obtain ⟨nodes, hm, hnodes⟩ := hnodes m hm
      obtain ⟨s, hs⟩ := exists_runText hnodes bytes text
      rw [hm, hs]
      exact ⟨_, rfl⟩
  refine ⟨{ single := texts, multi := runs }, ?_⟩
  rw [capturesOf, hcaptured]
  simp only [bind, Except.bind, memberOr_eq hall, hsingle, hmulti] at htexts hruns ⊢
  rw [htexts]
  dsimp only
  rw [hruns]
  rfl

/-- The match is that of the node in a file: its offsets count characters, and its reference vouches
for the text. -/
structure NodeRecord.Gives (r : NodeRecord) (bytes : Bytes) (content : String)
    (m : StructureMatch) : Prop where
  file : m.ref.file = plainPath r.file
  start : m.start = Position.charOffset bytes r.start
  stop : m.stop = Position.charOffset bytes r.stop
  range : m.ref.range =
    { startLine := (Position.lineColumn content m.start).1
      startColumn := (Position.lineColumn content m.start).2
      endLine := (Position.lineColumn content m.stop).1
      endColumn := (Position.lineColumn content m.stop).2 }
  checksum : m.ref.checksum = checksum content

theorem NodeRecord.IsShownBy.exists_members {r : NodeRecord} (h : r.IsShownBy j) :
    ∃ members, j = .obj members := by
  obtain ⟨v, hv, -⟩ := Json.exists_of_at? h.file
  cases j with
  | obj members => exact ⟨members, rfl⟩
  | null | bool | int | float | str | arr => cases hv

theorem NodeRecord.IsShownBy.matchIn {r : NodeRecord} (h : r.IsShownBy j) {octets : Json}
    (hstart : Record.field octets "start" = .ok (.int r.start))
    (hstop : Record.field octets "end" = .ok (.int r.stop)) (bytes : Bytes) (content : String) :
    ∃ m, Search.matchIn (plainPath r.file) bytes content octets j = .ok m ∧
      r.Gives bytes content m ∧ capturesOf bytes content.toList j = .ok m.captures := by
  obtain ⟨members, hobj⟩ := h.exists_members
  obtain ⟨captures, hcaptures⟩ := h.captures.exists_capturesOf hobj bytes content.toList
  refine ⟨_, by simp only [Search.matchIn, bind, Except.bind, hstart, hstop, charsBefore_int,
    hcaptures]; rfl, ?_⟩
  exact ⟨⟨rfl, rfl, rfl, rfl, rfl⟩, hcaptures⟩

variable {line : String}

/-- What a line with a record of a node gives: no match if its file is not there, and otherwise the
match in the file. -/
theorem NodeRecord.IsShownBy.structureMatch?_eq {r : NodeRecord} (h : r.IsShownBy j)
    (hline : Json.parse line = .ok j) (d : Disk) (root : Path) :
    ∃ octets, Record.field octets "start" = .ok (.int r.start) ∧
      Record.field octets "end" = .ok (.int r.stop) ∧
      Search.structureMatch? d root line =
        if d.isFile (root.join (plainPath r.file)) then do
          let bytes ← onDisk (d.read (root.join (plainPath r.file)))
          let content ← onSourceText ((Text.Utf8.decode bytes).mapError .encoding)
          return some (← onRecord (Search.matchIn (plainPath r.file) bytes content octets j))
        else .ok none := by
  obtain ⟨octets, hoctets, hstart, hstop⟩ := h.node.octetsOf
  refine ⟨octets, hstart, hstop, ?_⟩
  have hfile := h.file
  rw [Json.at?_singleton] at hfile
  have hplace : placeOf "ast-grep" line j = .ok (plainPath r.file, octets) := by
    simp only [placeOf, bind, Except.bind, Json.field_of_get? hfile, Record.textFor, hoctets]
    rfl
  rw [Search.structureMatch?, parseRecord, hline]
  simp only [bind, Except.bind, hplace]
  cases d.isFile (root.join (plainPath r.file)) <;> rfl

/-- A line with a record of a node of a file that can be read gives the match, whose metavariables
stand for what the record says. -/
theorem NodeRecord.IsShownBy.exists_match {r : NodeRecord} (h : r.IsShownBy j)
    (hline : Json.parse line = .ok j) {bytes : Bytes} {content : String}
    (hread : d.read (root.join (plainPath r.file)) = .ok bytes)
    (hdecode : Text.Utf8.decode bytes = .ok content) :
    ∃ m, Search.structureMatch? d root line = .ok (some m) ∧ r.Gives bytes content m ∧
      capturesOf bytes content.toList j = .ok m.captures := by
  obtain ⟨octets, hstart, hstop, heq⟩ := h.structureMatch?_eq hline d root
  obtain ⟨m, hm, hgives⟩ := h.matchIn hstart hstop bytes content
  have hfile := isFile_of_readText (Disk.readText_eq_ok_iff.2 ⟨bytes, hread, hdecode⟩)
  refine ⟨m, ?_, hgives⟩
  rw [heq, if_pos hfile, hread]
  simp only [bind, Except.bind, onDisk, onSourceText, Except.mapError, hdecode, hm, onRecord]
  rfl

theorem NodeRecord.IsShownBy.structureMatch? {r : NodeRecord} (h : r.IsShownBy j)
    (hline : Json.parse line = .ok j) {bytes : Bytes} {content : String}
    (hread : d.read (root.join (plainPath r.file)) = .ok bytes)
    (hdecode : Text.Utf8.decode bytes = .ok content) :
    ∃ m, Search.structureMatch? d root line = .ok (some m) ∧ r.Gives bytes content m := by
  obtain ⟨m, hm, hgives, -⟩ := h.exists_match hline hread hdecode
  exact ⟨m, hm, hgives⟩

/-- The file of the record, if it is there, is a text. -/
def NodeRecord.IsReadable (r : NodeRecord) (d : Disk) (root : Path) : Prop :=
  d.isFile (root.join (plainPath r.file)) = true →
    ∃ content, d.readText (root.join (plainPath r.file)) = .ok content

theorem NodeRecord.IsShownBy.exists_structureMatch? {r : NodeRecord} (h : r.IsShownBy j)
    (hline : Json.parse line = .ok j) (hread : r.IsReadable d root) :
    ∃ found, Search.structureMatch? d root line = .ok found := by
  cases hfile : d.isFile (root.join (plainPath r.file)) with
  | false =>
      obtain ⟨octets, -, -, heq⟩ := h.structureMatch?_eq hline d root
      exact ⟨none, by rw [heq, hfile]; rfl⟩
  | true =>
      obtain ⟨content, hcontent⟩ := hread hfile
      obtain ⟨bytes, hbytes, hdecode⟩ := Disk.readText_eq_ok_iff.1 hcontent
      obtain ⟨m, hm, -⟩ := h.structureMatch? hline hbytes hdecode
      exact ⟨some m, hm⟩

end Search

end Redline
