import Mathlib.Data.List.Nodup
import Mathlib.Tactic.Common
import Redline.FileRename.Plan

/-!
# Renames that can be made together

A check of renames puts each of them on one of two sides, in order. A safe one leads to another path
than its own, is the first to claim that path, and finds it free, or taken by a name that is its own
up to case. Every other one is reported with what is in its way: the claim on a path is held by the
first rename to it, also when that one is reported itself. `Parted` says this of two lists, and what
the claim gives, the compatibility of the safe renames with each other, follows from it.
-/

namespace Redline

namespace FileRename

/-- The rename is the first one to its path. -/
def ClaimsFirst (ops : List FileOp) (op : FileOp) : Prop :=
  ∃ before after, ops = before ++ op :: after ∧ ∀ other ∈ before, other.newPath ≠ op.newPath

/-- The rename can be made with the others. -/
structure IsSafe (ops : List FileOp) (d : Disk) (root : Path) (op : FileOp) : Prop where
  moves : op.newPath ≠ op.oldPath
  first : ClaimsFirst ops op
  free : d.exists_ (root.join op.newPath) = true →
    Text.toLower op.newPath = Text.toLower op.oldPath

/-- What is reported of a rename that cannot be made with the others. -/
inductive Reports (ops : List FileOp) (d : Disk) (root : Path) (op : FileOp) : Conflict → Prop where
  | samePath (h : op.newPath = op.oldPath) :
      Reports ops d root op ⟨op.oldPath, op.newPath, .samePath, none⟩
  | duplicateTarget {first : FileOp} (moves : op.newPath ≠ op.oldPath)
      (hfirst : ClaimsFirst ops first) (shared : first.newPath = op.newPath) (apart : first ≠ op) :
      Reports ops d root op ⟨op.oldPath, op.newPath, .duplicateTarget, some first.oldPath⟩
  | targetExists (moves : op.newPath ≠ op.oldPath) (hfirst : ClaimsFirst ops op)
      (taken : d.exists_ (root.join op.newPath) = true)
      (other : Text.toLower op.newPath ≠ Text.toLower op.oldPath) :
      Reports ops d root op ⟨op.oldPath, op.newPath, .targetExists, some op.newPath⟩

/-- Renames set apart in order: each is safe, or there is a report of it. -/
inductive Parted (Safe : FileOp → Prop) (Reported : FileOp → Conflict → Prop) :
    List FileOp → List Conflict → List FileOp → Prop where
  | nil : Parted Safe Reported [] [] []
  | safe {op : FileOp} {ops : List FileOp} {conflicts : List Conflict} {safe : List FileOp} :
      Safe op → Parted Safe Reported ops conflicts safe →
        Parted Safe Reported (op :: ops) conflicts (op :: safe)
  | conflict {op : FileOp} {c : Conflict} {ops : List FileOp} {conflicts : List Conflict}
      {safe : List FileOp} :
      Reported op c → Parted Safe Reported ops conflicts safe →
        Parted Safe Reported (op :: ops) (c :: conflicts) safe

/-! ### Lists set apart -/

section

variable {Safe : FileOp → Prop} {Reported : FileOp → Conflict → Prop} {ops : List FileOp}
  {conflicts : List Conflict} {safe : List FileOp} {op : FileOp}

theorem parted_filterMap {report? : FileOp → Option Conflict}
    (hsafe : ∀ op ∈ ops, report? op = none → Safe op)
    (hreported : ∀ op ∈ ops, ∀ c, report? op = some c → Reported op c) :
    Parted Safe Reported ops (ops.filterMap report?)
      (ops.filter fun op => (report? op).isNone) := by
  induction ops with
  | nil => exact .nil
  | cons op ops ih =>
      rw [List.forall_mem_cons] at hsafe hreported
      have hrest := ih hsafe.2 hreported.2
      cases hop : report? op with
      | none =>
          rw [List.filterMap_cons_none hop, List.filter_cons_of_pos (by simp [hop])]
          exact .safe (hsafe.1 hop) hrest
      | some c =>
          rw [List.filterMap_cons_some hop, List.filter_cons_of_neg (by simp [hop])]
          exact .conflict (hreported.1 c hop) hrest

theorem Parted.safe_sublist (h : Parted Safe Reported ops conflicts safe) : safe.Sublist ops := by
  induction h with
  | nil => exact .slnil
  | safe _ _ ih => exact ih.cons_cons _
  | conflict _ _ ih => exact ih.cons _

theorem Parted.of_mem_safe (h : Parted Safe Reported ops conflicts safe) (hop : op ∈ safe) :
    Safe op := by
  induction h with
  | nil => cases hop
  | safe hsafe _ ih =>
      rcases List.mem_cons.1 hop with rfl | hop
      · exact hsafe
      · exact ih hop
  | conflict _ _ ih => exact ih hop

theorem Parted.of_mem (h : Parted Safe Reported ops conflicts safe) (hop : op ∈ ops) :
    Safe op ∨ ∃ c ∈ conflicts, Reported op c := by
  induction h with
  | nil => cases hop
  | safe hsafe _ ih =>
      rcases List.mem_cons.1 hop with rfl | hop
      · exact Or.inl hsafe
      · exact ih hop
  | @conflict _ c _ _ _ hreported _ ih =>
      rcases List.mem_cons.1 hop with rfl | hop
      · exact Or.inr ⟨c, List.mem_cons_self, hreported⟩
      · exact (ih hop).imp_right fun ⟨c', hc', h'⟩ => ⟨c', List.mem_cons_of_mem _ hc', h'⟩

end

/-! ### First claims -/

section

variable {ops : List FileOp} {first other op : FileOp} {d : Disk} {root : Path}

theorem claimsFirst_iff : ClaimsFirst ops op ↔ ops.find? (·.newPath == op.newPath) = some op := by
  rw [List.find?_eq_some_iff_append, ClaimsFirst]
  simp

theorem ClaimsFirst.mem (h : ClaimsFirst ops op) : op ∈ ops := by
  obtain ⟨before, after, rfl, -⟩ := h
  simp

/-- A path is claimed once. -/
theorem ClaimsFirst.unique (h : ClaimsFirst ops op) (h' : ClaimsFirst ops other)
    (hpath : op.newPath = other.newPath) : op = other := by
  rw [claimsFirst_iff] at h h'
  rw [hpath, h', Option.some.injEq] at h
  exact h.symm

/-- The path of every rename is claimed. -/
theorem exists_claimsFirst (hop : op ∈ ops) :
    ∃ first, ClaimsFirst ops first ∧ first.newPath = op.newPath ∧
      firstSource ops op.newPath = first.oldPath := by
  cases hfind : ops.find? (·.newPath == op.newPath) with
  | none =>
      have hne := List.find?_eq_none.1 hfind op hop
      simp at hne
  | some first =>
      have hpath : first.newPath = op.newPath := by simpa using List.find?_some hfind
      refine ⟨first, claimsFirst_iff.2 (by rw [hpath, hfind]), hpath, ?_⟩
      rw [firstSource, hfind]
      rfl

theorem isCaseOnly_iff :
    op.isCaseOnly = true ↔ Text.toLower op.newPath = Text.toLower op.oldPath := by
  rw [FileOp.isCaseOnly, beq_iff_eq]

theorem isSafe_of_conflict? (hops : (ops.map FileOp.oldPath).Nodup) (hop : op ∈ ops)
    (h : conflict? ops d root op = none) : IsSafe ops d root op := by
  obtain ⟨first, hfirst, hpath, hsource⟩ := exists_claimsFirst hop
  simp only [conflict?, hsource] at h
  split_ifs at h with hmoves hclaim htaken
  rw [not_ne_iff] at hclaim
  have heq : first = op := List.inj_on_of_nodup_map hops hfirst.mem hop hclaim
  subst heq
  refine ⟨hmoves, hfirst, fun hexists => isCaseOnly_iff.1 ?_⟩
  simpa [hexists] using htaken

theorem reports_of_conflict? (hops : (ops.map FileOp.oldPath).Nodup) (hop : op ∈ ops) {c : Conflict}
    (h : conflict? ops d root op = some c) : Reports ops d root op c := by
  obtain ⟨first, hfirst, hpath, hsource⟩ := exists_claimsFirst hop
  simp only [conflict?, hsource] at h
  split_ifs at h with hmoves hclaim htaken
  · obtain rfl := Option.some.inj h
    exact .samePath hmoves
  · obtain rfl := Option.some.inj h
    exact .duplicateTarget hmoves hfirst hpath fun heq => hclaim (by rw [heq])
  · obtain rfl := Option.some.inj h
    rw [not_ne_iff] at hclaim
    have heq : first = op := List.inj_on_of_nodup_map hops hfirst.mem hop hclaim
    subst heq
    rw [Bool.and_eq_true, Bool.not_eq_true', ← Bool.not_eq_true, isCaseOnly_iff] at htaken
    exact .targetExists hmoves hfirst htaken.2 htaken.1

/-- A check sets the renames apart. -/
theorem parted_check (hops : (ops.map FileOp.oldPath).Nodup) (d : Disk) (root : Path) :
    Parted (IsSafe ops d root) (Reports ops d root) ops (check ops d root).conflicts
      (check ops d root).safe :=
  parted_filterMap (fun _ hop => isSafe_of_conflict? hops hop)
    fun _ hop _ => reports_of_conflict? hops hop

end

/-- A directory in which two names are equal up to case. -/
def shelf : Disk :=
  { working := ["root"]
    entries := [(["root"], .folder), (["root", "a.txt"], .file []), (["root", "A.txt"], .file []),
      (["root", "b.txt"], .file []), (["root", "c.txt"], .file [])] }

/-- A rename from one path to another. -/
def rename (oldPath newPath : String) : FileOp :=
  { opId := .null, oldPath, newPath, checksum := "" }

/-- Renames on the shelf: one to a name that is taken, but is its own up to case, two to a free
name, the first of which stays where it is, and one to a name that is taken. -/
def crowded : List FileOp :=
  [rename "a.txt" "A.txt", rename "d.txt" "d.txt", rename "b.txt" "d.txt", rename "c.txt" "b.txt"]

example : (check crowded shelf ⟨true, ["root"]⟩).safe.map FileOp.oldPath = ["a.txt"] := by
  decide +kernel

end FileRename

end Redline
