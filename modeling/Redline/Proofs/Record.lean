import Mathlib.Tactic.Common
import Redline.FileRename.Stored

/-!
# How the reading of a record stops

Reading a record stops at a field that is missing or of the wrong sort, or it `Overflows`, at an
infinite number where a whole one belongs. Whether it does is told by the shape of the record, in
the order in which its fields are read: `MeetsInfinity`, for each sort of record.
-/

namespace Redline

section

variable {ε α β : Type} {m : ε}

/-- A computation that stops did so in its first part or in what follows. -/
theorem bind_eq_error {x : Except ε α} {f : α → Except ε β} :
    (x >>= f) = .error m ↔ x = .error m ∨ ∃ a, x = .ok a ∧ f a = .error m := by
  cases x with
  | error e =>
      constructor
      · rintro ⟨⟩
        exact .inl rfl
      · rintro (⟨⟨⟩⟩ | ⟨_, ⟨⟩, _⟩)
        rfl
  | ok a =>
      refine ⟨fun h => .inr ⟨a, rfl, h⟩, ?_⟩
      rintro (⟨⟨⟩⟩ | ⟨_, ⟨⟩, h⟩)
      exact h

/-- A run over a list stops at the first item that gives no result. -/
theorem mapM_eq_error_iff {f : α → Except ε β} {xs : List α} :
    xs.mapM f = .error m ↔ ∃ before x after, xs = before ++ x :: after ∧
      (∀ y ∈ before, ∃ b, f y = .ok b) ∧ f x = .error m := by
  induction xs with
  | nil => simp [pure, Except.pure]
  | cons x xs ih =>
      rw [List.mapM_cons, bind_eq_error]
      constructor
      · rintro (h | ⟨b, hb, h⟩)
        · exact ⟨[], x, xs, rfl, by simp, h⟩
        · obtain h | ⟨_, _, ⟨⟩⟩ := bind_eq_error.1 h
          obtain ⟨before, y, after, rfl, hbefore, hy⟩ := ih.1 h
          exact ⟨x :: before, y, after, rfl, List.forall_mem_cons.2 ⟨⟨b, hb⟩, hbefore⟩, hy⟩
      · rintro ⟨before, y, after, heq, hbefore, hy⟩
        cases before with
        | nil =>
            obtain ⟨rfl, rfl⟩ := List.cons.inj heq
            exact .inl hy
        | cons z before =>
            obtain ⟨rfl, rfl⟩ := List.cons.inj heq
            obtain ⟨⟨b, hb⟩, hbefore⟩ := List.forall_mem_cons.1 hbefore
            exact .inr ⟨b, hb, bind_eq_error.2 (.inl (ih.2 ⟨before, y, after, rfl, hbefore, hy⟩))⟩

end

namespace Record

/-! ### How a computation stops -/

section

variable {α β : Type} {P : Mishap → Prop} {x : Except Mishap α} {f : α → Except Mishap β}

/-- If the computation stops, then by such a mishap. -/
def StopsBy (P : Mishap → Prop) (x : Except Mishap α) : Prop :=
  ∀ m, x = .error m → P m

/-- The computation meets an infinite number where a whole one belongs. -/
def Overflows (x : Except Mishap α) : Prop :=
  ∃ message, x = .error (.overflow message)

/-- The mishaps of reading a record: a fault of its shape or an infinite number. -/
def IsFault (m : Mishap) : Prop :=
  isShapeFault m = true ∨ ∃ message, m = .overflow message

/-- The first of the items that cannot be read is a `bad` one. -/
def StopsAt (read : Json → Except Mishap α) (bad : Json → Prop) (xs : List Json) : Prop :=
  ∃ before x after, xs = before ++ x :: after ∧ (∀ y ∈ before, ∃ a, read y = .ok a) ∧ bad x

theorem stopsBy_ok (a : α) : StopsBy P (.ok a : Except Mishap α) := by
  rintro _ ⟨⟩

theorem stopsBy_error {m : Mishap} (h : P m) : StopsBy P (.error m : Except Mishap α) := by
  rintro _ ⟨⟩
  exact h

theorem StopsBy.bind (hx : StopsBy P x) (hf : ∀ a, StopsBy P (f a)) : StopsBy P (x >>= f) := by
  intro m hm
  obtain h | ⟨a, -, h⟩ := bind_eq_error.1 hm
  · exact hx m h
  · exact hf a m h

theorem StopsBy.map (hx : StopsBy P x) (g : α → β) : StopsBy P (g <$> x) := by
  rw [map_eq_pure_bind]
  exact hx.bind fun a => stopsBy_ok (g a)

theorem StopsBy.mapM {f : α → Except Mishap β} (hf : ∀ a, StopsBy P (f a)) (xs : List α) :
    StopsBy P (xs.mapM f) := by
  intro m hm
  obtain ⟨-, x, -, -, -, h⟩ := mapM_eq_error_iff.1 hm
  exact hf x m h

theorem StopsBy.isFault (hx : StopsBy (fun m => isShapeFault m = true) x) : StopsBy IsFault x :=
  fun m hm => .inl (hx m hm)

theorem StopsBy.not_overflows (hx : StopsBy (fun m => isShapeFault m = true) x) :
    ¬ Overflows x := by
  rintro ⟨message, h⟩
  cases hx _ h

theorem overflows_bind_iff :
    Overflows (x >>= f) ↔ Overflows x ∨ ∃ a, x = .ok a ∧ Overflows (f a) := by
  simp only [Overflows, bind_eq_error, exists_or]
  constructor
  · rintro (h | ⟨message, a, ha, h⟩)
    · exact .inl h
    · exact .inr ⟨a, ha, message, h⟩
  · rintro (h | ⟨a, ha, message, h⟩)
    · exact .inl h
    · exact .inr ⟨message, a, ha, h⟩

/-- Steps after the first that cannot overflow do not count. -/
theorem overflows_bind_of_rest (hf : ∀ a, StopsBy (fun m => isShapeFault m = true) (f a)) :
    Overflows (x >>= f) ↔ Overflows x := by
  rw [overflows_bind_iff]
  refine or_iff_left ?_
  rintro ⟨a, -, h⟩
  exact (hf a).not_overflows h

theorem overflows_map_iff (g : α → β) : Overflows (g <$> x) ↔ Overflows x := by
  rw [map_eq_pure_bind]
  exact overflows_bind_of_rest fun a => stopsBy_ok (g a)

/-- A step that cannot overflow only has to give its result. -/
theorem overflows_bind_of_shape (hx : StopsBy (fun m => isShapeFault m = true) x) :
    Overflows (x >>= f) ↔ ∃ a, x = .ok a ∧ Overflows (f a) := by
  rw [overflows_bind_iff, or_iff_right hx.not_overflows]

theorem overflows_mapM_iff {read : Json → Except Mishap α} {bad : Json → Prop}
    (h : ∀ x, Overflows (read x) ↔ bad x) {xs : List Json} :
    Overflows (xs.mapM read) ↔ StopsAt read bad xs := by
  simp only [Overflows, mapM_eq_error_iff]
  constructor
  · rintro ⟨message, before, x, after, hxs, hbefore, hx⟩
    exact ⟨before, x, after, hxs, hbefore, (h x).1 ⟨message, hx⟩⟩
  · rintro ⟨before, x, after, hxs, hbefore, hbad⟩
    obtain ⟨message, hx⟩ := (h x).2 hbad
    exact ⟨message, before, x, after, hxs, hbefore, hx⟩

end

/-! ### Fields and numbers -/

theorem stopsBy_field (j : Json) (key : String) :
    StopsBy (fun m => isShapeFault m = true) (field j key) := by
  cases j with
  | obj members =>
      rw [field]
      cases members.lookup key with
      | none => exact stopsBy_error rfl
      | some v => exact stopsBy_ok v
  | _ => exact stopsBy_error rfl

theorem stopsBy_items (j : Json) : StopsBy (fun m => isShapeFault m = true) (items j) := by
  cases j with
  | arr xs => exact stopsBy_ok xs
  | str s => exact stopsBy_ok _
  | obj members => exact stopsBy_ok _
  | _ => exact stopsBy_error rfl

/-- An infinite number. -/
def IsInfinite (v : Json) : Prop :=
  ∃ negative, v = .float (.infinite negative)

theorem overflows_whole_iff {v : Json} : Overflows (whole v) ↔ IsInfinite v := by
  constructor
  · rintro ⟨message, h⟩
    cases v with
    | float x =>
        cases x with
        | infinite negative => exact ⟨negative, rfl⟩
        | finite negative significand exponent => cases h
        | nan => cases h
    | str s =>
        rw [whole] at h
        split at h <;> cases h
    | _ => cases h
  · rintro ⟨negative, rfl⟩
    exact ⟨_, rfl⟩

theorem stopsBy_whole (v : Json) : StopsBy IsFault (whole v) := by
  cases v with
  | int n => exact stopsBy_ok n
  | bool b => exact stopsBy_ok _
  | float x =>
      cases x with
      | infinite negative => exact stopsBy_error (.inr ⟨_, rfl⟩)
      | finite negative significand exponent => exact stopsBy_ok _
      | nan => exact stopsBy_error (.inl rfl)
  | str s =>
      rw [whole]
      split
      · exact stopsBy_ok _
      · exact stopsBy_error (.inl rfl)
  | _ => exact stopsBy_error (.inl rfl)

theorem stopsBy_wholeField (j : Json) (key : String) : StopsBy IsFault (wholeField j key) :=
  (stopsBy_field j key).isFault.bind stopsBy_whole

/-- A field that holds an infinite number. -/
def IsInfiniteField (j : Json) (key : String) : Prop :=
  ∃ v, field j key = .ok v ∧ IsInfinite v

theorem overflows_wholeField_iff {j : Json} {key : String} :
    Overflows (wholeField j key) ↔ IsInfiniteField j key := by
  rw [wholeField, overflows_bind_of_shape (stopsBy_field j key)]
  simp only [overflows_whole_iff]
  rfl

/-- The record has these fields. -/
def HasFields (j : Json) (keys : List String) : Prop :=
  ∀ key ∈ keys, ∃ v, field j key = .ok v

theorem hasFields_nil (j : Json) : HasFields j [] :=
  List.forall_mem_nil _

theorem hasFields_cons {j : Json} {key : String} {keys : List String} :
    HasFields j (key :: keys) ↔ (∃ v, field j key = .ok v) ∧ HasFields j keys :=
  List.forall_mem_cons

theorem overflows_field_bind_iff {α : Type} {j : Json} {key : String}
    {f : Json → Except Mishap α} {keys : List String} {P : Prop}
    (h : ∀ v, Overflows (f v) ↔ HasFields j keys ∧ P) :
    Overflows (field j key >>= f) ↔ HasFields j (key :: keys) ∧ P := by
  rw [overflows_bind_of_shape (stopsBy_field j key), hasFields_cons, and_assoc]
  simp only [h]
  exact exists_and_right

/-- What a field lists, or nothing where it is left out, all read. -/
def readAll {α : Type} (read : Json → Except Mishap α) (j : Json) (key : String) :
    Except Mishap (List α) := do
  (← items (fieldOr j key (.arr []))).mapM read

theorem stopsBy_readAll {α : Type} {read : Json → Except Mishap α} {P : Mishap → Prop}
    (hread : ∀ x, StopsBy P (read x)) (hP : ∀ m, isShapeFault m = true → P m) (j : Json)
    (key : String) : StopsBy P (readAll read j key) :=
  StopsBy.bind (fun m hm => hP m (stopsBy_items _ m hm)) fun xs => StopsBy.mapM hread xs

/-- The first listed item that cannot be read is a `bad` one. -/
def ListStopsAt {α : Type} (read : Json → Except Mishap α) (bad : Json → Prop) (j : Json)
    (key : String) : Prop :=
  ∃ xs, items (fieldOr j key (.arr [])) = .ok xs ∧ StopsAt read bad xs

theorem overflows_readAll_iff {α : Type} {read : Json → Except Mishap α} {bad : Json → Prop}
    (h : ∀ x, Overflows (read x) ↔ bad x) {j : Json} {key : String} :
    Overflows (readAll read j key) ↔ ListStopsAt read bad j key := by
  rw [readAll, overflows_bind_of_shape (stopsBy_items _)]
  simp only [overflows_mapM_iff h]
  rfl

end Record

open Record

/-! ### Ranges, references and edits -/

namespace Range

/-- The first of the five items of a range at most that is no whole number is infinite. -/
def MeetsInfinity (j : Json) : Prop :=
  ∃ xs, items j = .ok xs ∧ StopsAt whole IsInfinite (xs.take 5)

theorem numbers_eq (n : Nat) (xs : List Json) : numbers n xs = (xs.take (n + 1)).mapM whole := by
  induction n generalizing xs with
  | zero =>
      cases xs with
      | nil => rfl
      | cons x xs => rfl
  | succ n ih =>
      cases xs with
      | nil => rfl
      | cons x xs =>
          rw [numbers, List.take_succ_cons, List.mapM_cons]
          simp only [ih]

/-- The range of four numbers. -/
def ofNumbers : List Int → Except Mishap Range
  | [a, b, c, d] => .ok { startLine := a, startColumn := b, endLine := c, endColumn := d }
  | vs =>
    if vs.length < 4 then
      .error (.badValue ("not enough values to unpack (expected 4, got " ++ toString vs.length
        ++ ")"))
    else .error (.badValue "too many values to unpack (expected 4)")

theorem ofJson_eq (j : Json) :
    ofJson j = items j >>= fun xs => (xs.take 5).mapM whole >>= ofNumbers := by
  simp only [← numbers_eq]
  rw [ofJson]
  refine bind_congr fun xs => bind_congr fun vs => ?_
  rw [ofNumbers.eq_def]
  rfl

theorem stopsBy_ofNumbers (vs : List Int) :
    StopsBy (fun m => isShapeFault m = true) (ofNumbers vs) := by
  rw [ofNumbers.eq_def]
  split
  · exact stopsBy_ok _
  · split
    · exact stopsBy_error rfl
    · exact stopsBy_error rfl

theorem stopsBy_ofJson (j : Json) : StopsBy IsFault (ofJson j) := by
  rw [ofJson_eq]
  exact (stopsBy_items j).isFault.bind fun xs => (StopsBy.mapM stopsBy_whole _).bind fun vs =>
    (stopsBy_ofNumbers vs).isFault

theorem overflows_ofJson_iff {j : Json} : Overflows (ofJson j) ↔ MeetsInfinity j := by
  rw [ofJson_eq, overflows_bind_of_shape (stopsBy_items j)]
  refine exists_congr fun xs => and_congr_right fun _ => ?_
  rw [overflows_bind_of_rest stopsBy_ofNumbers, overflows_mapM_iff fun x => overflows_whole_iff]

end Range

namespace StoredReference

/-- The range of a reference meets an infinite number. -/
def MeetsInfinity (j : Json) : Prop :=
  ∃ v, field j "range" = .ok v ∧ Range.MeetsInfinity v

theorem stopsBy_ofJson (j : Json) : StopsBy IsFault (ofJson j) :=
  (stopsBy_field j _).isFault.bind fun _ => (Range.stopsBy_ofJson _).bind fun _ =>
    (stopsBy_field j _).isFault.bind fun _ => (stopsBy_field j _).isFault.bind fun _ =>
      (stopsBy_field j _).isFault.bind fun _ => (stopsBy_field j _).isFault.bind fun _ =>
        stopsBy_ok _

theorem overflows_ofJson_iff {j : Json} : Overflows (ofJson j) ↔ MeetsInfinity j := by
  rw [ofJson, overflows_bind_of_shape (stopsBy_field j _)]
  refine exists_congr fun v => and_congr_right fun _ => ?_
  -- Behind the range there are only fields that are handed back as they stand.
  rw [overflows_bind_of_rest, Range.overflows_ofJson_iff]
  exact fun _ => (stopsBy_field j _).bind fun _ => (stopsBy_field j _).bind fun _ =>
    (stopsBy_field j _).bind fun _ => (stopsBy_field j _).bind fun _ => stopsBy_ok _

end StoredReference

namespace StoredEdit

/-- The offset of an edit is infinite, or its length is and the offset a whole number. -/
def MeetsInfinity (j : Json) : Prop :=
  ∃ file, field j "file" = .ok file ∧ (IsInfiniteField j "offset" ∨
    ∃ offset, wholeField j "offset" = .ok offset ∧ IsInfiniteField j "length")

theorem stopsBy_ofJson (j : Json) : StopsBy IsFault (ofJson j) :=
  (stopsBy_field j _).isFault.bind fun _ => (stopsBy_wholeField j _).bind fun _ =>
    (stopsBy_wholeField j _).bind fun _ => (stopsBy_field j _).isFault.bind fun _ => stopsBy_ok _

theorem overflows_ofJson_iff {j : Json} : Overflows (ofJson j) ↔ MeetsInfinity j := by
  rw [ofJson, overflows_bind_of_shape (stopsBy_field j _)]
  refine exists_congr fun file => and_congr_right fun _ => ?_
  rw [overflows_bind_iff, overflows_wholeField_iff]
  refine or_congr_right (exists_congr fun offset => and_congr_right fun _ => ?_)
  rw [overflows_bind_of_rest, overflows_wholeField_iff]
  exact fun _ => (stopsBy_field j _).bind fun _ => stopsBy_ok _

end StoredEdit

/-- Nothing in a rename has to be a number. -/
theorem StoredFileOp.stopsBy_ofJson (j : Json) :
    StopsBy (fun m => isShapeFault m = true) (ofJson j) :=
  (stopsBy_field j _).bind fun _ => (stopsBy_field j _).bind fun _ =>
    (stopsBy_field j _).bind fun _ => (stopsBy_field j _).bind fun _ => stopsBy_ok _

/-! ### Editsets -/

namespace StoredEditset

/-- The fields of an editset are there, and the first reference that cannot be read meets an
infinite number, or all can and the first edit that cannot be read does. -/
def MeetsInfinity (j : Json) : Prop :=
  HasFields j ["id", "operation", "from", "to"] ∧
    (ListStopsAt StoredReference.ofJson StoredReference.MeetsInfinity j "refs" ∨
      (∃ refs, readAll StoredReference.ofJson j "refs" = .ok refs) ∧
        ListStopsAt StoredEdit.ofJson StoredEdit.MeetsInfinity j "edits")

/-- The last step of reading an editset. -/
def ofLists (j id operation old new : Json) : Except Mishap StoredEditset := do
  let refs ← readAll StoredReference.ofJson j "refs"
  (fun edits =>
    { id, operation, old, new, refs, edits
      createdAt := fieldOr j "createdAt" (.str "")
      symbolKey := optionalValue j "symbolKey"
      pattern := optionalValue j "pattern" }) <$> readAll StoredEdit.ofJson j "edits"

theorem ofJson_eq (j : Json) : ofJson j = field j "id" >>= fun id =>
    field j "operation" >>= fun operation => field j "from" >>= fun old =>
      field j "to" >>= fun new => ofLists j id operation old new := by
  simp only [ofJson, ofLists, readAll, map_eq_pure_bind, bind_assoc]

theorem stopsBy_ofJson (j : Json) : StopsBy IsFault (ofJson j) := by
  rw [ofJson_eq]
  refine (stopsBy_field j _).isFault.bind fun _ => (stopsBy_field j _).isFault.bind fun _ =>
    (stopsBy_field j _).isFault.bind fun _ => (stopsBy_field j _).isFault.bind fun _ => ?_
  exact (stopsBy_readAll StoredReference.stopsBy_ofJson (fun _ => .inl) j _).bind fun _ =>
    (stopsBy_readAll StoredEdit.stopsBy_ofJson (fun _ => .inl) j _).map _

theorem overflows_ofJson_iff {j : Json} : Overflows (ofJson j) ↔ MeetsInfinity j := by
  rw [ofJson_eq]
  refine overflows_field_bind_iff fun id => overflows_field_bind_iff fun operation =>
    overflows_field_bind_iff fun old => overflows_field_bind_iff fun new => ?_
  rw [ofLists, overflows_bind_iff,
    overflows_readAll_iff fun _ => StoredReference.overflows_ofJson_iff,
    and_iff_right (hasFields_nil j)]
  simp only [overflows_map_iff, overflows_readAll_iff fun _ => StoredEdit.overflows_ofJson_iff,
    exists_and_right]

end StoredEditset

namespace StoredFileEditset

/-- The fields of a file editset are there, all renames can be read, and the first import edit that
cannot be read meets an infinite number. -/
def MeetsInfinity (j : Json) : Prop :=
  HasFields j ["id", "pattern", "replacement"] ∧
    (∃ ops, readAll StoredFileOp.ofJson j "fileOps" = .ok ops) ∧
      ListStopsAt StoredEdit.ofJson StoredEdit.MeetsInfinity j "importEdits"

/-- The last step of reading a file editset. -/
def ofLists (j id pattern replacement : Json) : Except Mishap StoredFileEditset := do
  let ops ← readAll StoredFileOp.ofJson j "fileOps"
  (fun importEdits =>
    { id, operation := fieldOr j "operation" (.str "file-rename"), pattern, replacement, ops
      importEdits, createdAt := fieldOr j "createdAt" (.str "") }) <$>
    readAll StoredEdit.ofJson j "importEdits"

theorem ofJson_eq (j : Json) : ofJson j = field j "id" >>= fun id =>
    field j "pattern" >>= fun pattern => field j "replacement" >>= fun replacement =>
      ofLists j id pattern replacement := by
  simp only [ofJson, ofLists, readAll, map_eq_pure_bind, bind_assoc]

theorem stopsBy_ofJson (j : Json) : StopsBy IsFault (ofJson j) := by
  rw [ofJson_eq]
  refine (stopsBy_field j _).isFault.bind fun _ => (stopsBy_field j _).isFault.bind fun _ =>
    (stopsBy_field j _).isFault.bind fun _ => ?_
  exact (stopsBy_readAll (fun op => (StoredFileOp.stopsBy_ofJson op).isFault)
    (fun _ => .inl) j _).bind fun _ =>
      (stopsBy_readAll StoredEdit.stopsBy_ofJson (fun _ => .inl) j _).map _

theorem overflows_ofJson_iff {j : Json} : Overflows (ofJson j) ↔ MeetsInfinity j := by
  rw [ofJson_eq]
  refine overflows_field_bind_iff fun id => overflows_field_bind_iff fun pattern =>
    overflows_field_bind_iff fun replacement => ?_
  have hops : StopsBy (fun m => isShapeFault m = true) (readAll StoredFileOp.ofJson j "fileOps") :=
    stopsBy_readAll StoredFileOp.stopsBy_ofJson (fun _ h => h) j _
  rw [ofLists, overflows_bind_of_shape hops, and_iff_right (hasFields_nil j)]
  simp only [overflows_map_iff, overflows_readAll_iff fun _ => StoredEdit.overflows_ofJson_iff,
    exists_and_right]

end StoredFileEditset

end Redline
