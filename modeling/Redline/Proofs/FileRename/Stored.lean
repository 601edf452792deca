import Redline.FileRename.Stored
import Redline.Proofs.Editset.Stored

/-!
# File editsets stored and read

File editsets are stored and read without loss, as editsets are. Both kinds together: what is stored
with texts in its fields is read as it was, and what was read from any file is read again as it was
after it was stored, if it holds no floating-point number.
-/

namespace Redline

namespace StoredFileOp

theorem ofJson_toJson (op : StoredFileOp) : ofJson op.toJson = .ok op := by
  simp [ofJson, toJson, Record.field, List.lookup_cons]
  rfl

theorem keyed_of_ofJson {j : Json} {op : StoredFileOp} (hj : j.Keyed) (h : ofJson j = .ok op) :
    op.toJson.Keyed := by
  obtain ⟨opId, hopId, h⟩ := bind_eq_ok.1 h
  obtain ⟨oldPath, holdPath, h⟩ := bind_eq_ok.1 h
  obtain ⟨newPath, hnewPath, h⟩ := bind_eq_ok.1 h
  obtain ⟨checksum, hchecksum, h⟩ := bind_eq_ok.1 h
  cases h
  exact .obj (by simp) (by simp [Record.keyed_field hj hopId, Record.keyed_field hj holdPath,
    Record.keyed_field hj hnewPath, Record.keyed_field hj hchecksum, Json.Keyed.str])

end StoredFileOp

namespace FileOp

theorem floatFree_toJson {op : FileOp} (h : op.opId.IsText) : op.stored.toJson.FloatFree :=
  .obj (by simp [stored, h.floatFree, Json.FloatFree.str])

theorem keyed_toJson {op : FileOp} (h : op.opId.IsText) : op.stored.toJson.Keyed :=
  .obj (by simp) (by simp [stored, h.keyed, Json.Keyed.str])

theorem check_stored (op : FileOp) : op.stored.check = .ok op :=
  rfl

end FileOp

namespace StoredFileEditset

/-- The members of the stored form of a file editset. -/
def members (e : StoredFileEditset) : List (String × Json) :=
  [("id", e.id), ("operation", e.operation), ("pattern", e.pattern),
    ("replacement", e.replacement), ("fileOps", .arr (e.ops.map StoredFileOp.toJson)),
    ("importEdits", .arr (e.importEdits.map StoredEdit.toJson)), ("createdAt", e.createdAt)]

theorem toJson_eq (e : StoredFileEditset) : e.toJson = .obj e.members :=
  rfl

/-- What each value that a file editset is stored with satisfies. -/
structure All (P : Json → Prop) (e : StoredFileEditset) : Prop where
  id : P e.id
  operation : P e.operation
  pattern : P e.pattern
  replacement : P e.replacement
  ops : ∀ op ∈ e.ops, P op.toJson
  importEdits : ∀ e' ∈ e.importEdits, P e'.toJson
  createdAt : P e.createdAt

theorem All.of_mem {P : Json → Prop} {e : StoredFileEditset} (h : All P e)
    (hlist : ∀ js, (∀ j ∈ js, P j) → P (.arr js)) : ∀ m ∈ e.members, P m.2 := by
  have hops : P (.arr (e.ops.map StoredFileOp.toJson)) := hlist _ fun j hj => by
    obtain ⟨op, hop, rfl⟩ := List.mem_map.1 hj
    exact h.ops op hop
  have hedits : P (.arr (e.importEdits.map StoredEdit.toJson)) := hlist _ fun j hj => by
    obtain ⟨e', he', rfl⟩ := List.mem_map.1 hj
    exact h.importEdits e' he'
  intro m hm
  simp only [members, List.mem_cons, List.not_mem_nil, or_false] at hm
  rcases hm with rfl | rfl | rfl | rfl | rfl | rfl | rfl
  · exact h.id
  · exact h.operation
  · exact h.pattern
  · exact h.replacement
  · exact hops
  · exact hedits
  · exact h.createdAt

theorem All.floatFree {e : StoredFileEditset} (h : All Json.FloatFree e) : e.toJson.FloatFree :=
  .obj (h.of_mem fun _ => .arr)

theorem All.keyed {e : StoredFileEditset} (h : All Json.Keyed e) : e.toJson.Keyed :=
  .obj (by simp) (h.of_mem fun _ => .arr)

theorem ofJson_toJson (e : StoredFileEditset) : ofJson e.toJson = .ok e := by
  have hops : (e.ops.map StoredFileOp.toJson).mapM StoredFileOp.ofJson = .ok e.ops :=
    mapM_eq_ok_of_forall fun op _ => op.ofJson_toJson
  have hedits : (e.importEdits.map StoredEdit.toJson).mapM StoredEdit.ofJson = .ok e.importEdits :=
    mapM_eq_ok_of_forall fun e' _ => e'.ofJson_toJson
  simp [ofJson, toJson, Record.field, Record.fieldOr, Json.get?, List.lookup_cons, Record.items]
  simp only [bind, Except.bind, hops, hedits]
  rfl

theorem keyed_of_ofJson {j : Json} {e : StoredFileEditset} (hj : j.Keyed)
    (h : ofJson j = .ok e) : e.toJson.Keyed := by
  obtain ⟨id, hid, h⟩ := bind_eq_ok.1 h
  obtain ⟨pattern, hpattern, h⟩ := bind_eq_ok.1 h
  obtain ⟨replacement, hreplacement, h⟩ := bind_eq_ok.1 h
  obtain ⟨opItems, hopItems, h⟩ := bind_eq_ok.1 h
  obtain ⟨ops, hops, h⟩ := bind_eq_ok.1 h
  obtain ⟨editItems, heditItems, h⟩ := bind_eq_ok.1 h
  obtain ⟨importEdits, hedits, h⟩ := bind_eq_ok.1 h
  cases h
  have hempty : (Json.arr []).Keyed := .arr (by simp)
  refine All.keyed ⟨Record.keyed_field hj hid, Record.keyed_fieldOr "operation" hj (.str _),
    Record.keyed_field hj hpattern, Record.keyed_field hj hreplacement, fun op hop => ?_,
    fun e he => ?_, Record.keyed_fieldOr "createdAt" hj (.str _)⟩
  · obtain ⟨item, hitem, hread⟩ := exists_of_mem_mapM hops hop
    exact StoredFileOp.keyed_of_ofJson
      (Record.keyed_items (Record.keyed_fieldOr "fileOps" hj hempty) hopItems item hitem) hread
  · obtain ⟨item, hitem, hread⟩ := exists_of_mem_mapM hedits he
    exact StoredEdit.keyed_of_ofJson
      (Record.keyed_items (Record.keyed_fieldOr "importEdits" hj hempty) heditItems item hitem)
      hread

variable {d d' : Disk} {p : Path} {e : StoredFileEditset}

theorem load_save (hfloat : e.toJson.FloatFree) (hkeyed : e.toJson.Keyed)
    (h : e.save d p = .ok d') : load d' p = .ok e :=
  Store.load_save hfloat hkeyed h e.ofJson_toJson

/-- A file editset that was read can be stored and read again without loss, if it holds no
floating-point number. -/
theorem load_save_of_load {d₀ : Disk} {p₀ : Path} (hload : load d₀ p₀ = .ok e)
    (hfloat : e.toJson.FloatFree) (h : e.save d p = .ok d') : load d' p = .ok e := by
  obtain ⟨members, hkeyed, hread⟩ := Store.exists_of_load hload
  exact load_save hfloat (keyed_of_ofJson hkeyed hread) h

end StoredFileEditset

namespace FileEditset

/-- The fields of a file editset that are handed back unread are texts. -/
structure Texts (e : FileEditset) : Prop where
  id : e.id.IsText
  operation : e.operation.IsText
  pattern : e.pattern.IsText
  replacement : e.replacement.IsText
  ops : ∀ op ∈ e.ops, op.opId.IsText
  createdAt : e.createdAt.IsText

theorem toJson_stored (e : FileEditset) : e.stored.toJson = e.toJson := by
  rw [StoredFileEditset.toJson, toJson, stored]
  simp only [List.map_map]
  rfl

theorem check_stored (e : FileEditset) : e.stored.check = .ok e := by
  have hops : (e.ops.map FileOp.stored).mapM StoredFileOp.check = .ok e.ops :=
    mapM_eq_ok_of_forall fun op _ => op.check_stored
  have hedits : (e.importEdits.map Edit.stored).mapM StoredEdit.check = .ok e.importEdits :=
    mapM_eq_ok_of_forall fun e' _ => e'.check_stored
  simp only [StoredFileEditset.check, stored, bind, Except.bind, hops, hedits]
  rfl

variable {e : FileEditset}

theorem Texts.all_stored (h : e.Texts) {P : Json → Prop} (htext : ∀ j : Json, j.IsText → P j)
    (hops : ∀ op : FileOp, op.opId.IsText → P op.stored.toJson)
    (hedits : ∀ e' : Edit, P e'.stored.toJson) : StoredFileEditset.All P e.stored := by
  refine ⟨htext _ h.id, htext _ h.operation, htext _ h.pattern, htext _ h.replacement,
    fun op hop => ?_, fun e' he' => ?_, htext _ h.createdAt⟩
  · obtain ⟨op', hop', rfl⟩ := List.mem_map.1 hop
    exact hops op' (h.ops op' hop')
  · obtain ⟨e'', -, rfl⟩ := List.mem_map.1 he'
    exact hedits e''

/-- A file editset whose fields are texts is read as it was stored. -/
theorem Texts.load_save {d d' : Disk} {p : Path} (h : e.Texts) (hsave : e.save d p = .ok d') :
    load d' p = .ok e := by
  have hfloat : e.stored.toJson.FloatFree := (h.all_stored (fun _ => Json.IsText.floatFree)
    (fun _ => FileOp.floatFree_toJson) Edit.floatFree_toJson).floatFree
  have hkeyed : e.stored.toJson.Keyed := (h.all_stored (fun _ => Json.IsText.keyed)
    (fun _ => FileOp.keyed_toJson) Edit.keyed_toJson).keyed
  have hstored : e.stored.save d p = .ok d' := by
    rw [StoredFileEditset.save, toJson_stored]
    exact hsave
  rw [load, StoredFileEditset.load_save hfloat hkeyed hstored]
  show e.stored.check.mapError Trouble.mishap = .ok e
  rw [check_stored]
  rfl

end FileEditset

namespace Store

/-- What a file may hold after it was edited by hand: numbers in other forms, values where texts are
expected, null for a field that is not set, and missing lists. -/
def lenientMembers : List (String × Json) :=
  [("id", .int 1), ("operation", .null), ("from", .arr []), ("to", .str "\"\\\r\u2028"),
    ("symbolKey", .null), ("edits", .arr [.obj [("file", .int 7), ("offset", .str " -1_0 "),
      ("length", .bool true), ("replacement", .str "")]])]

/-- The editset that is read of it. -/
def lenient : StoredEditset :=
  { id := .int 1
    operation := .null
    old := .arr []
    new := .str "\"\\\r\u2028"
    refs := []
    edits := [{ file := .int 7, offset := -10, length := 1, replacement := .str "" }]
    createdAt := .str ""
    symbolKey := none
    pattern := none }

/-- A disk with one file that holds a document. -/
def diskWith (j : Json) : Disk :=
  { working := [], entries := [(["e.json"], .file (Text.Utf8.encode (textOf j)))] }

/-- The path of that file. -/
def onlyPath : Path :=
  { isAbsolute := true, parts := ["e.json"] }

theorem load_lenient :
    StoredEditset.load (diskWith (.obj lenientMembers)) onlyPath = .ok lenient := by
  have hsave : save { working := [], entries := [] } onlyPath (.obj lenientMembers) =
      .ok (diskWith (.obj lenientMembers)) := rfl
  refine load_save (.obj ?_) (.obj (by decide) ?_) hsave rfl
  · simp [lenientMembers, Json.FloatFree.int, Json.FloatFree.null, Json.FloatFree.arr,
      Json.FloatFree.obj, Json.FloatFree.bool, Json.FloatFree.str]
  · simp [lenientMembers, Json.Keyed.int, Json.Keyed.null, Json.Keyed.arr, Json.Keyed.obj,
      Json.Keyed.bool, Json.Keyed.str]

end Store

end Redline
