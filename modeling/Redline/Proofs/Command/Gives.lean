import Redline.Command.Answer
import Redline.Proofs.Editset.Stored
import Redline.Search.Structure
import Redline.Search.Text

/-!
# Documents that are printed

A value is printable if no floating-point number is part of it and each of its objects has each key
once: what is printed for it is read back as the value. The documents that describe results are, and
so are the reports of failures and of unexpected errors.
-/

namespace Redline

namespace Json

/-- What is printed for the value is read back as it. -/
structure IsPrintable (j : Json) : Prop where
  floatFree : j.FloatFree
  keyed : j.Keyed

theorem IsPrintable.parse_pretty {j : Json} (h : j.IsPrintable) :
    parse (j.pretty ++ "\n") = .ok j :=
  Json.parse_pretty h.floatFree h.keyed

theorem IsText.isPrintable {j : Json} (h : j.IsText) : j.IsPrintable :=
  ⟨h.floatFree, h.keyed⟩

@[simp] theorem isPrintable_bool (b : Bool) : IsPrintable (.bool b) :=
  ⟨.bool b, .bool b⟩

@[simp] theorem isPrintable_int (n : Int) : IsPrintable (.int n) :=
  ⟨.int n, .int n⟩

@[simp] theorem isPrintable_str (s : String) : IsPrintable (.str s) :=
  ⟨.str s, .str s⟩

@[simp] theorem isPrintable_arr_iff {items : List Json} :
    IsPrintable (.arr items) ↔ ∀ j ∈ items, IsPrintable j := by
  constructor
  · rintro ⟨hfloat, hkeyed⟩ j hj
    exact ⟨floatFree_arr_iff.1 hfloat j hj, keyed_arr_iff.1 hkeyed j hj⟩
  · intro h
    exact ⟨.arr fun j hj => (h j hj).floatFree, .arr fun j hj => (h j hj).keyed⟩

@[simp] theorem isPrintable_obj_iff {members : List (String × Json)} :
    IsPrintable (.obj members) ↔
      (members.map Prod.fst).Nodup ∧ ∀ m ∈ members, IsPrintable m.2 := by
  constructor
  · rintro ⟨hfloat, hkeyed⟩
    obtain ⟨hnodup, hkeyed⟩ := keyed_obj_iff.1 hkeyed
    exact ⟨hnodup, fun m hm => ⟨floatFree_obj_iff.1 hfloat m hm, hkeyed m hm⟩⟩
  · rintro ⟨hnodup, h⟩
    exact ⟨.obj fun m hm => (h m hm).floatFree, .obj hnodup fun m hm => (h m hm).keyed⟩

@[simp] theorem isPrintable_ofStrings (ss : List String) : (ofStrings ss).IsPrintable := by
  simp [ofStrings]

end Json

/-! ### Documents of results -/

@[simp] theorem Symbol.isPrintable_toJson (s : Symbol) : s.toJson.IsPrintable := by
  simp [toJson, members]

@[simp] theorem SymbolMatch.isPrintable_toJson (m : SymbolMatch) : m.toJson.IsPrintable := by
  simp [toJson, Symbol.members]

@[simp] theorem Range.isPrintable_toJson (r : Range) : r.toJson.IsPrintable := by
  simp [toJson]

theorem Reference.isPrintable_toJson {r : Reference} (h : r.preview.IsText) :
    r.toJson.IsPrintable := by
  simp [toJson, h.isPrintable]

theorem NameConflict.isPrintable_toJson (c : NameConflict) : c.toJson.IsPrintable := by
  simp [toJson]

theorem SafeRename.isPrintable_toJson (s : SafeRename) : s.toJson.IsPrintable := by
  simp [toJson]

theorem ConflictReport.isPrintable_toJson (r : ConflictReport) : r.toJson.IsPrintable := by
  simp [toJson, NameConflict.isPrintable_toJson, SafeRename.isPrintable_toJson]

theorem VerifyReport.isPrintable_toJson (r : VerifyReport) : r.toJson.IsPrintable := by
  simp [toJson]

theorem ApplyReport.isPrintable_toJson (r : ApplyReport) : r.toJson.IsPrintable := by
  simp [toJson]

theorem FileApplyReport.isPrintable_toJson (r : FileApplyReport) : r.toJson.IsPrintable := by
  simp [toJson]

theorem FileOp.isPrintable_toJson {op : FileOp} (h : op.opId.IsText) : op.toJson.IsPrintable := by
  simp [toJson, h.isPrintable]

theorem FileRename.Conflict.isPrintable_toJson (c : FileRename.Conflict) :
    c.toJson.IsPrintable := by
  cases hc : c.existing <;> simp [toJson, hc]

theorem FileRename.Report.isPrintable_toJson {r : FileRename.Report}
    (h : ∀ op ∈ r.safe, op.opId.IsText) : r.toJson.IsPrintable := by
  have hsafe : ∀ op ∈ r.safe, op.toJson.IsPrintable := fun op hop =>
    FileOp.isPrintable_toJson (h op hop)
  simpa [toJson, FileRename.Conflict.isPrintable_toJson] using hsafe

theorem Backend.isPrintable_describe (b : Backend) : b.describe.IsPrintable := by
  simp [describe]

/-! ### Reports -/

theorem Failure.isPrintable_envelope {f : Failure} (h : f.code ≠ 9001) :
    f.envelope.IsPrintable := by
  cases f <;> simp_all [envelope, details, code]

theorem Trouble.isPrintable_mishap (m : Mishap) :
    (Trouble.mishap m).toFailure.envelope.IsPrintable := by
  simp [toFailure, Failure.envelope, Failure.details]

/-!
## Outcomes that can be reported

An outcome `Returns` a property if its result has the property, or the report of its trouble can be
printed. A computation that reads its surroundings and keeps a state `Gives` the property if its
outcome returns it in every surroundings and from every state. Both are put together step by step,
so nothing has to be known of the state.
-/

/-- The result has the property, or the report of the trouble can be printed. -/
def Returns {α : Type} (P : α → Prop) : Outcome α → Prop
  | .ok a => P a
  | .error t => t.toFailure.envelope.IsPrintable

/-- Every outcome of the computation returns the property. -/
structure Gives {ρ σ α : Type} (P : α → Prop) (x : ReaderT ρ (ExceptT Trouble (StateM σ)) α) :
    Prop where
  returns : ∀ r s, Returns P (((x.run r).run).run s).1

section

variable {α β : Type} {P : β → Prop} {Q : α → Prop}

/-! ### Outcomes -/

theorem Returns.bind {o : Outcome α} {f : α → Outcome β} (ho : Returns Q o)
    (hf : ∀ a, Q a → Returns P (f a)) : Returns P (o >>= f) := by
  cases o with
  | ok a => exact hf a ho
  | error t => exact ho

theorem Returns.mapM {f : α → Outcome β} {xs : List α} (h : ∀ x ∈ xs, Returns P (f x)) :
    Returns (fun ys => ∀ y ∈ ys, P y) (xs.mapM f) := by
  induction xs with
  | nil => exact List.forall_mem_nil _
  | cons x xs ih =>
      rw [List.mapM_cons]
      refine (h x List.mem_cons_self).bind fun y hy =>
        (ih fun z hz => h z (List.mem_cons_of_mem _ hz)).bind fun ys hys => ?_
      exact List.forall_mem_cons.2 ⟨hy, hys⟩

theorem returns_failWith {f : Failure} (h : f.code ≠ 9001) : Returns Q (failWith f) :=
  Failure.isPrintable_envelope h

theorem returns_mishapWith (m : Mishap) : Returns Q (mishapWith m) :=
  Trouble.isPrintable_mishap m

theorem returns_onDisk {step : Except DiskFault α} (h : ∀ a, step = .ok a → Q a) :
    Returns Q (onDisk step) := by
  cases step with
  | ok a => exact h a rfl
  | error fault => exact returns_mishapWith _

theorem returns_onSourceText (step : Except Disk.SourceFault α) :
    Returns (fun _ => True) (onSourceText step) := by
  cases step with
  | ok a => trivial
  | error fault => cases fault <;> exact returns_mishapWith _

theorem returns_onRecord {e : Except Mishap α} (h : ∀ a, e = .ok a → Q a) :
    Returns Q (Search.onRecord e) := by
  cases e with
  | ok a => exact h a rfl
  | error m => exact returns_mishapWith m

/-! ### Computations -/

variable {ρ σ : Type} {x : ReaderT ρ (ExceptT Trouble (StateM σ)) α}
  {f : α → ReaderT ρ (ExceptT Trouble (StateM σ)) β}

theorem gives_pure {a : α} (h : Q a) :
    Gives Q (pure a : ReaderT ρ (ExceptT Trouble (StateM σ)) α) :=
  ⟨fun _ _ => h⟩

theorem gives_lift {o : Outcome α} (h : Returns Q o) :
    Gives Q (liftM o : ReaderT ρ (ExceptT Trouble (StateM σ)) α) := by
  refine ⟨fun r s => ?_⟩
  cases o <;> exact h

theorem gives_throw {g : Failure} (h : g.code ≠ 9001) :
    Gives Q (throw (.failure g) : ReaderT ρ (ExceptT Trouble (StateM σ)) α) :=
  ⟨fun _ _ => Failure.isPrintable_envelope h⟩

theorem gives_read : Gives (fun _ => True) (read : ReaderT ρ (ExceptT Trouble (StateM σ)) ρ) :=
  ⟨fun _ _ => trivial⟩

theorem gives_get : Gives (fun _ => True) (get : ReaderT ρ (ExceptT Trouble (StateM σ)) σ) :=
  ⟨fun _ _ => trivial⟩

theorem gives_set (s : σ) :
    Gives (fun _ => True) (set s : ReaderT ρ (ExceptT Trouble (StateM σ)) PUnit) :=
  ⟨fun _ _ => trivial⟩

theorem gives_modify (g : σ → σ) :
    Gives (fun _ => True) (modify g : ReaderT ρ (ExceptT Trouble (StateM σ)) PUnit) :=
  ⟨fun _ _ => trivial⟩

theorem Gives.bind (hx : Gives Q x) (hf : ∀ a, Q a → Gives P (f a)) : Gives P (x >>= f) := by
  refine ⟨fun r s => ?_⟩
  have hfirst := hx.returns r s
  rw [ReaderT.run_bind, ExceptT.run_bind, StateT.run_bind]
  revert hfirst
  obtain ⟨o, s'⟩ := ((x.run r).run).run s
  cases o with
  | ok a => exact fun ha => (hf a ha).returns r s'
  | error t => exact id

theorem Gives.mapM {f : α → ReaderT ρ (ExceptT Trouble (StateM σ)) β} (xs : List α)
    (h : ∀ a, Gives P (f a)) : Gives (fun ys => ∀ y ∈ ys, P y) (xs.mapM f) := by
  induction xs with
  | nil => exact gives_pure (List.forall_mem_nil _)
  | cons x xs ih =>
      rw [List.mapM_cons]
      refine (h x).bind fun y hy => ih.bind fun ys hys => gives_pure ?_
      exact List.forall_mem_cons.2 ⟨hy, hys⟩

theorem Gives.filterMapM {f : α → ReaderT ρ (ExceptT Trouble (StateM σ)) (Option β)}
    (xs : List α) (h : ∀ a, Gives (fun _ => True) (f a)) :
    Gives (fun _ => True) (xs.filterMapM f) := by
  induction xs with
  | nil => exact gives_pure trivial
  | cons x xs ih =>
      rw [List.filterMapM_cons]
      refine (h x).bind fun y _ => ?_
      cases y with
      | none => exact ih
      | some y => exact ih.bind fun _ _ => gives_pure trivial

end

end Redline
