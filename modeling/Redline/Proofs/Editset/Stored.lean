import Redline.Proofs.Store

/-!
# Editsets stored and read

An editset is read from its stored form as it was, since no optional field of it holds null. An
editset that was read from a file has none, and in its stored form each key stands once; so it can
be stored and read again without loss.
-/

namespace Redline

/-- A value that is a text. -/
def Json.IsText (j : Json) : Prop :=
  ∃ s, j = .str s

theorem Json.IsText.floatFree {j : Json} (h : j.IsText) : j.FloatFree := by
  obtain ⟨s, rfl⟩ := h
  exact .str s

theorem Json.IsText.keyed {j : Json} (h : j.IsText) : j.Keyed := by
  obtain ⟨s, rfl⟩ := h
  exact .str s

/-! ### Lists of records -/

theorem mapM_eq_ok_of_forall {ε α β : Type} {f : α → Except ε β} {g : β → α} {xs : List β}
    (h : ∀ x ∈ xs, f (g x) = .ok x) : (xs.map g).mapM f = .ok xs := by
  induction xs with
  | nil => rfl
  | cons x xs ih =>
      rw [List.map_cons, List.mapM_cons, h x List.mem_cons_self,
        ih fun y hy => h y (List.mem_cons_of_mem _ hy)]
      rfl

theorem exists_of_mem_mapM {ε α β : Type} {f : α → Except ε β} {xs : List α} {ys : List β}
    (h : xs.mapM f = .ok ys) {y : β} (hy : y ∈ ys) : ∃ x ∈ xs, f x = .ok y := by
  induction xs generalizing ys with
  | nil =>
      cases h
      cases hy
  | cons x xs ih =>
      rw [List.mapM_cons] at h
      obtain ⟨z, hz, h⟩ := bind_eq_ok.1 h
      obtain ⟨zs, hzs, h⟩ := bind_eq_ok.1 h
      cases h
      rcases List.mem_cons.1 hy with rfl | hy
      · exact ⟨x, List.mem_cons_self, hz⟩
      · obtain ⟨x', hx', hf⟩ := ih hzs hy
        exact ⟨x', List.mem_cons_of_mem _ hx', hf⟩

/-! ### Fields of values with each key once -/

namespace Record

theorem keyed_of_lookup {members : List (String × Json)} {key : String} {v : Json}
    (h : ∀ m ∈ members, m.2.Keyed) (hlookup : members.lookup key = some v) : v.Keyed :=
  h _ (Assoc.mem_of_lookup hlookup)

theorem keyed_field {j v : Json} {key : String} (hj : j.Keyed) (h : field j key = .ok v) :
    v.Keyed := by
  cases hj with
  | obj _ hmembers =>
      rw [field] at h
      split at h
      · rename_i hlookup
        cases h
        exact keyed_of_lookup hmembers hlookup
      · cases h
  | _ => cases h

theorem keyed_of_get? {j v : Json} {key : String} (hj : j.Keyed) (h : j.get? key = some v) :
    v.Keyed := by
  cases hj with
  | obj _ hmembers => exact keyed_of_lookup hmembers h
  | _ => cases h

theorem keyed_fieldOr {j default : Json} (key : String) (hj : j.Keyed) (hdefault : default.Keyed) :
    (fieldOr j key default).Keyed := by
  rw [fieldOr]
  cases h : j.get? key with
  | none => exact hdefault
  | some v => exact keyed_of_get? hj h

theorem keyed_items {j : Json} {xs : List Json} (hj : j.Keyed) (h : items j = .ok xs) :
    ∀ x ∈ xs, x.Keyed := by
  cases hj with
  | arr hitems =>
      cases h
      exact hitems
  | str s =>
      cases h
      intro x hx
      obtain ⟨c, -, rfl⟩ := List.mem_map.1 hx
      exact .str _
  | obj _ _ =>
      cases h
      intro x hx
      obtain ⟨m, -, rfl⟩ := List.mem_map.1 hx
      exact .str _
  | _ => cases h

end Record

theorem Range.floatFree_toJson (r : Range) : r.toJson.FloatFree := by
  refine .arr fun j hj => ?_
  simp only [List.mem_cons, List.not_mem_nil, or_false] at hj
  rcases hj with rfl | rfl | rfl | rfl <;> exact .int _

theorem Range.keyed_toJson (r : Range) : r.toJson.Keyed := by
  refine .arr fun j hj => ?_
  simp only [List.mem_cons, List.not_mem_nil, or_false] at hj
  rcases hj with rfl | rfl | rfl | rfl <;> exact .int _

namespace StoredReference

theorem ofJson_toJson (r : StoredReference) : ofJson r.toJson = .ok r := by
  simp [ofJson, toJson, Record.field, Record.fieldOr, Json.get?, List.lookup_cons, Range.ofJson,
    Range.toJson]
  rfl

theorem keyed_toJson {r : StoredReference} (hrefId : r.refId.Keyed) (hfile : r.file.Keyed)
    (hpreview : r.preview.Keyed) (hchecksum : r.checksum.Keyed) : r.toJson.Keyed :=
  .obj (by simp) (by
    simp [hrefId, hfile, r.range.keyed_toJson, hpreview, hchecksum, Json.Keyed.bool])

theorem keyed_of_ofJson {j : Json} {r : StoredReference} (hj : j.Keyed) (h : ofJson j = .ok r) :
    r.toJson.Keyed := by
  obtain ⟨ranges, -, h⟩ := bind_eq_ok.1 h
  obtain ⟨range, -, h⟩ := bind_eq_ok.1 h
  obtain ⟨refId, hrefId, h⟩ := bind_eq_ok.1 h
  obtain ⟨file, hfile, h⟩ := bind_eq_ok.1 h
  obtain ⟨preview, hpreview, h⟩ := bind_eq_ok.1 h
  obtain ⟨checksum, hchecksum, h⟩ := bind_eq_ok.1 h
  cases h
  exact keyed_toJson (Record.keyed_field hj hrefId) (Record.keyed_field hj hfile)
    (Record.keyed_field hj hpreview) (Record.keyed_field hj hchecksum)

end StoredReference

namespace Reference

theorem floatFree_toJson {r : Reference} (h : r.preview.IsText) : r.stored.toJson.FloatFree :=
  .obj (by simp [stored, r.range.floatFree_toJson, h.floatFree, Json.FloatFree.str,
    Json.FloatFree.bool])

theorem keyed_toJson {r : Reference} (h : r.preview.IsText) : r.stored.toJson.Keyed :=
  StoredReference.keyed_toJson (.str _) (.str _) h.keyed (.str _)

theorem check_stored (r : Reference) : r.stored.check = .ok r :=
  rfl

end Reference

namespace StoredEdit

theorem ofJson_toJson (e : StoredEdit) : ofJson e.toJson = .ok e := by
  simp [ofJson, toJson, Record.wholeField, Record.field, List.lookup_cons]
  rfl

theorem keyed_toJson {e : StoredEdit} (hfile : e.file.Keyed) (hreplacement : e.replacement.Keyed) :
    e.toJson.Keyed :=
  .obj (by simp) (by simp [hfile, hreplacement, Json.Keyed.int])

theorem keyed_of_ofJson {j : Json} {e : StoredEdit} (hj : j.Keyed) (h : ofJson j = .ok e) :
    e.toJson.Keyed := by
  obtain ⟨file, hfile, h⟩ := bind_eq_ok.1 h
  obtain ⟨offset, -, h⟩ := bind_eq_ok.1 h
  obtain ⟨length, -, h⟩ := bind_eq_ok.1 h
  obtain ⟨replacement, hreplacement, h⟩ := bind_eq_ok.1 h
  cases h
  exact keyed_toJson (Record.keyed_field hj hfile) (Record.keyed_field hj hreplacement)

end StoredEdit

namespace Edit

theorem floatFree_toJson (e : Edit) : e.stored.toJson.FloatFree :=
  .obj (by simp [stored, Json.FloatFree.str, Json.FloatFree.int])

theorem keyed_toJson (e : Edit) : e.stored.toJson.Keyed :=
  StoredEdit.keyed_toJson (.str _) (.str _)

theorem check_stored (e : Edit) : e.stored.check = .ok e :=
  rfl

end Edit

namespace StoredEditset

/-- What each value that an editset is stored with satisfies. -/
structure All (P : Json → Prop) (e : StoredEditset) : Prop where
  id : P e.id
  operation : P e.operation
  old : P e.old
  new : P e.new
  refs : ∀ r ∈ e.refs, P r.toJson
  edits : ∀ e' ∈ e.edits, P e'.toJson
  createdAt : P e.createdAt
  symbolKey : ∀ v ∈ e.symbolKey, P v
  pattern : ∀ v ∈ e.pattern, P v

/-- The members of the stored form of an editset. -/
def members (e : StoredEditset) : List (String × Json) :=
  [("id", e.id), ("operation", e.operation)]
    ++ Editset.optionalField "symbolKey" e.symbolKey ++ Editset.optionalField "pattern" e.pattern
    ++ [("from", e.old), ("to", e.new), ("refs", .arr (e.refs.map StoredReference.toJson)),
      ("edits", .arr (e.edits.map StoredEdit.toJson)), ("createdAt", e.createdAt)]

theorem toJson_eq (e : StoredEditset) : e.toJson = .obj e.members :=
  rfl

theorem nodup_keys (e : StoredEditset) : (e.members.map Prod.fst).Nodup := by
  rw [members]
  cases e.symbolKey <;> cases e.pattern <;> simp [Editset.optionalField]

/-- The values of the members, with those of the two lists taken together. -/
theorem All.of_mem {P : Json → Prop} {e : StoredEditset} (h : All P e)
    (hlist : ∀ js, (∀ j ∈ js, P j) → P (.arr js)) : ∀ m ∈ e.members, P m.2 := by
  have hrefs : P (.arr (e.refs.map StoredReference.toJson)) := hlist _ fun j hj => by
    obtain ⟨r, hr, rfl⟩ := List.mem_map.1 hj
    exact h.refs r hr
  have hedits : P (.arr (e.edits.map StoredEdit.toJson)) := hlist _ fun j hj => by
    obtain ⟨e', he', rfl⟩ := List.mem_map.1 hj
    exact h.edits e' he'
  have hoptional : ∀ {key : String} {v : Option Unread}, (∀ j ∈ v, P j) →
      ∀ m ∈ Editset.optionalField key v, P m.2 := by
    intro key v hv m hm
    cases v with
    | none => cases hm
    | some j =>
        rw [List.mem_singleton.1 hm]
        exact hv j rfl
  intro m hm
  simp only [members, List.mem_append, List.mem_cons, List.not_mem_nil, or_false] at hm
  rcases hm with (((rfl | rfl) | hm) | hm) | (rfl | rfl | rfl | rfl | rfl)
  · exact h.id
  · exact h.operation
  · exact hoptional h.symbolKey m hm
  · exact hoptional h.pattern m hm
  · exact h.old
  · exact h.new
  · exact hrefs
  · exact hedits
  · exact h.createdAt

theorem All.floatFree {e : StoredEditset} (h : All Json.FloatFree e) : e.toJson.FloatFree :=
  .obj (h.of_mem fun _ => .arr)

theorem All.keyed {e : StoredEditset} (h : All Json.Keyed e) : e.toJson.Keyed :=
  .obj e.nodup_keys (h.of_mem fun _ => .arr)

theorem lookup_members (e : StoredEditset) :
    e.members.lookup "id" = some e.id ∧ e.members.lookup "operation" = some e.operation ∧
      e.members.lookup "from" = some e.old ∧ e.members.lookup "to" = some e.new ∧
      e.members.lookup "refs" = some (.arr (e.refs.map StoredReference.toJson)) ∧
      e.members.lookup "edits" = some (.arr (e.edits.map StoredEdit.toJson)) ∧
      e.members.lookup "createdAt" = some e.createdAt ∧
      e.members.lookup "symbolKey" = e.symbolKey ∧ e.members.lookup "pattern" = e.pattern := by
  rw [members]
  cases e.symbolKey <;> cases e.pattern <;> simp [Editset.optionalField, List.lookup_cons]

/-- An editset is read from its stored form as it was, if no optional field holds null. -/
theorem ofJson_toJson {e : StoredEditset} (hsymbol : e.symbolKey ≠ some .null)
    (hpattern : e.pattern ≠ some .null) : ofJson e.toJson = .ok e := by
  obtain ⟨hid, hoperation, hold, hnew, hrefs, hedits, hcreated, hsymbolKey, hpatternKey⟩ :=
    e.lookup_members
  have hoptional : ∀ {key : String} {v : Option Unread}, v ≠ some .null →
      e.members.lookup key = v → optionalValue e.toJson key = v := by
    intro key v hv hlookup
    rw [optionalValue, toJson_eq, Json.get?, hlookup]
    cases v with
    | none => rfl
    | some j => cases j <;> first | rfl | exact absurd rfl hv
  have hreadRefs : (e.refs.map StoredReference.toJson).mapM StoredReference.ofJson = .ok e.refs :=
    mapM_eq_ok_of_forall fun r _ => r.ofJson_toJson
  have hreadEdits : (e.edits.map StoredEdit.toJson).mapM StoredEdit.ofJson = .ok e.edits :=
    mapM_eq_ok_of_forall fun e' _ => e'.ofJson_toJson
  rw [ofJson, hoptional hsymbol hsymbolKey, hoptional hpattern hpatternKey]
  simp only [toJson_eq, Record.field, Record.fieldOr, Json.get?, hid, hoperation, hold, hnew, hrefs,
    hedits, hcreated, Option.getD_some, Record.items]
  simp only [bind, Except.bind, hreadRefs, hreadEdits]
  rfl

/-- Of a value with each key once, an editset is read whose values have each key once, and none of
whose optional fields holds null. -/
theorem of_ofJson {j : Json} {e : StoredEditset} (hj : j.Keyed) (h : ofJson j = .ok e) :
    All Json.Keyed e ∧ e.symbolKey ≠ some .null ∧ e.pattern ≠ some .null := by
  obtain ⟨id, hid, h⟩ := bind_eq_ok.1 h
  obtain ⟨operation, hoperation, h⟩ := bind_eq_ok.1 h
  obtain ⟨old, hold, h⟩ := bind_eq_ok.1 h
  obtain ⟨new, hnew, h⟩ := bind_eq_ok.1 h
  obtain ⟨refItems, hrefItems, h⟩ := bind_eq_ok.1 h
  obtain ⟨refs, hrefs, h⟩ := bind_eq_ok.1 h
  obtain ⟨editItems, heditItems, h⟩ := bind_eq_ok.1 h
  obtain ⟨edits, hedits, h⟩ := bind_eq_ok.1 h
  cases h
  have hempty : (Json.arr []).Keyed := .arr (by simp)
  have hoptional : ∀ {key : String} {v : Json}, optionalValue j key = some v → v.Keyed := by
    intro key v hv
    rw [optionalValue] at hv
    split at hv
    · cases hv
    · cases hv
    · rename_i hget
      cases hv
      exact Record.keyed_of_get? hj hget
  have hnull : ∀ {key : String}, optionalValue j key ≠ some .null := by
    intro key hv
    rw [optionalValue] at hv
    split at hv
    · cases hv
    · cases hv
    · rename_i hno _
      cases hv
      exact hno rfl
  refine ⟨⟨Record.keyed_field hj hid, Record.keyed_field hj hoperation, Record.keyed_field hj hold,
    Record.keyed_field hj hnew, fun r hr => ?_, fun e he => ?_,
    Record.keyed_fieldOr "createdAt" hj (.str ""), fun v hv => hoptional hv,
    fun v hv => hoptional hv⟩, hnull, hnull⟩
  · obtain ⟨item, hitem, hread⟩ := exists_of_mem_mapM hrefs hr
    exact StoredReference.keyed_of_ofJson
      (Record.keyed_items (Record.keyed_fieldOr "refs" hj hempty) hrefItems item hitem) hread
  · obtain ⟨item, hitem, hread⟩ := exists_of_mem_mapM hedits he
    exact StoredEdit.keyed_of_ofJson
      (Record.keyed_items (Record.keyed_fieldOr "edits" hj hempty) heditItems item hitem) hread

variable {d d' : Disk} {p : Path} {e : StoredEditset}

theorem load_save (hfloat : e.toJson.FloatFree) (hkeyed : e.toJson.Keyed)
    (hsymbol : e.symbolKey ≠ some .null) (hpattern : e.pattern ≠ some .null)
    (h : e.save d p = .ok d') : load d' p = .ok e :=
  Store.load_save hfloat hkeyed h (ofJson_toJson hsymbol hpattern)

/-- An editset that was read can be stored and read again without loss, if it holds no
floating-point number. -/
theorem load_save_of_load {d₀ : Disk} {p₀ : Path} (hload : load d₀ p₀ = .ok e)
    (hfloat : e.toJson.FloatFree) (h : e.save d p = .ok d') : load d' p = .ok e := by
  obtain ⟨members, hkeyed, hread⟩ := Store.exists_of_load hload
  obtain ⟨hall, hsymbol, hpattern⟩ := of_ofJson hkeyed hread
  exact load_save hfloat hall.keyed hsymbol hpattern h

end StoredEditset

namespace Editset

/-- The fields of an editset that are handed back unread are texts. -/
structure Texts (e : Editset) : Prop where
  id : e.id.IsText
  operation : e.operation.IsText
  old : e.old.IsText
  new : e.new.IsText
  previews : ∀ r ∈ e.refs, r.preview.IsText
  createdAt : e.createdAt.IsText
  symbolKey : ∀ v ∈ e.symbolKey, v.IsText
  pattern : ∀ v ∈ e.pattern, v.IsText

theorem toJson_stored (e : Editset) : e.stored.toJson = e.toJson := by
  rw [StoredEditset.toJson, toJson, stored]
  simp only [List.map_map]
  rfl

theorem check_stored (e : Editset) : e.stored.check = .ok e := by
  have hrefs : (e.refs.map Reference.stored).mapM StoredReference.check = .ok e.refs :=
    mapM_eq_ok_of_forall fun r _ => r.check_stored
  have hedits : (e.edits.map Edit.stored).mapM StoredEdit.check = .ok e.edits :=
    mapM_eq_ok_of_forall fun e' _ => e'.check_stored
  simp only [StoredEditset.check, stored, bind, Except.bind, hrefs, hedits]
  rfl

variable {e : Editset}

theorem Texts.all_stored (h : e.Texts) {P : Json → Prop} (htext : ∀ j : Json, j.IsText → P j)
    (hrefs : ∀ r : Reference, r.preview.IsText → P r.stored.toJson)
    (hedits : ∀ e' : Edit, P e'.stored.toJson) : StoredEditset.All P e.stored := by
  refine ⟨htext _ h.id, htext _ h.operation, htext _ h.old, htext _ h.new, fun r hr => ?_,
    fun e' he' => ?_, htext _ h.createdAt, fun v hv => htext v (h.symbolKey v hv),
    fun v hv => htext v (h.pattern v hv)⟩
  · obtain ⟨r', hr', rfl⟩ := List.mem_map.1 hr
    exact hrefs r' (h.previews r' hr')
  · obtain ⟨e'', -, rfl⟩ := List.mem_map.1 he'
    exact hedits e''

theorem ne_null_of_isText {v : Option Unread} (h : ∀ j ∈ v, j.IsText) : v ≠ some .null := by
  rintro rfl
  obtain ⟨s, hs⟩ := h .null rfl
  cases hs

/-- An editset whose fields are texts is read as it was stored. -/
theorem Texts.load_save {d d' : Disk} {p : Path} (h : e.Texts) (hsave : e.save d p = .ok d') :
    load d' p = .ok e := by
  have hfloat : e.stored.toJson.FloatFree := (h.all_stored (fun _ => Json.IsText.floatFree)
    (fun _ => Reference.floatFree_toJson) Edit.floatFree_toJson).floatFree
  have hkeyed : e.stored.toJson.Keyed := (h.all_stored (fun _ => Json.IsText.keyed)
    (fun _ => Reference.keyed_toJson) Edit.keyed_toJson).keyed
  have hstored : e.stored.save d p = .ok d' := by
    rw [StoredEditset.save, toJson_stored]
    exact hsave
  have hread := StoredEditset.load_save hfloat hkeyed (ne_null_of_isText h.symbolKey)
    (ne_null_of_isText h.pattern) hstored
  rw [load, hread]
  show e.stored.check.mapError Trouble.mishap = .ok e
  rw [check_stored]
  rfl

end Editset

end Redline
