import Redline.Pattern.Template
import Redline.Proofs.Pattern.Ways

/-!
# Replacing in a text that is matched as a whole

A pattern that matches a whole text may match a part of it first, or match the empty text behind
it once more. Replacing every match in the text then expands the replacement more than once. It is
expanded once, for the match of the whole text, exactly when that match is the sole one.
-/

namespace Redline

open Pattern

namespace Pattern

variable {node : Node} {c : Cursor} {o : Outcome} {cs : List Char} {r : Match → List Char}

theorem matchAt?_false (node : Node) (c : Cursor) :
    matchAt? node false c = run node c [] fun stop caps => some (stop, caps) := by
  simp [matchAt?]

theorem matchAt?_true_of_after_eq_nil (h : c.after = []) : matchAt? node true c = none := by
  obtain ⟨ways, hways, hrun⟩ := enumerates_run node c []
  rw [matchAt?, hrun, List.findSome?_eq_none_iff]
  intro o ho
  obtain ⟨read, hafter, -⟩ := hways o ho
  rw [h] at hafter
  have hstop := (List.append_eq_nil_iff.1 hafter.symm).2
  simp [h, hstop]

/-- A match from the start of a text to its end. -/
theorem eq_of_reaches_end (h : (Cursor.atStart cs).Reaches o.1) (hend : o.1.after = []) :
    o.1 = { before := cs.reverse, after := [] } := by
  obtain ⟨⟨before, after⟩, caps⟩ := o
  obtain ⟨read, hafter, hbefore⟩ := h
  simp_all [Cursor.atStart]

end Pattern

/-- The match of a whole text: the first way to match from its start that ends at its end. -/
def Pattern.wholeMatch? (p : Pattern) (t : String) : Option Match :=
  (run p.node (.atStart t.toList) [] fun stop caps =>
    if stop.after.isEmpty then some (stop, caps) else none).map fun o =>
      { skipped := [], text := t.toList, captures := o.2, stop := o.1 }

/-- Replacing finds one match in the text, and it is of the whole text: what the pattern matches
first at the start ends at the end, and the empty text is not matched there, unless it is the whole
text. -/
structure Pattern.IsSole (p : Pattern) (t : String) : Prop where
  whole : ∃ o, matchAt? p.node false (.atStart t.toList) = some o ∧ o.1.after = []
  last : t.toList = [] ∨
    matchAt? p.node false { before := t.toList.reverse, after := [] } = none

namespace Pattern

variable {p : Pattern} {t : String} {w : Match} {node : Node} {o : Outcome} {cs : List Char}
  {r : Match → List Char}

theorem isSole_iff :
    p.IsSole t ↔
      ((matchAt? p.node false (.atStart t.toList)).any fun o => o.1.after.isEmpty) = true ∧
      (t.toList = [] ∨
        matchAt? p.node false { before := t.toList.reverse, after := [] } = none) := by
  constructor
  · rintro ⟨⟨o, ho, hend⟩, hlast⟩
    exact ⟨(Option.any_eq_true _ _).2 ⟨o, ho, List.isEmpty_iff.2 hend⟩, hlast⟩
  · rintro ⟨hwhole, hlast⟩
    obtain ⟨o, ho, hend⟩ := (Option.any_eq_true _ _).1 hwhole
    exact ⟨⟨o, ho, List.isEmpty_iff.1 hend⟩, hlast⟩

instance (p : Pattern) (t : String) : Decidable (p.IsSole t) :=
  decidable_of_iff _ isSole_iff.symm

/-- A text that is matched as a whole is matched from its start on, and if this first match ends at
the end it is the match of the whole. -/
theorem exists_matchAt?_of_wholeMatch? (h : p.wholeMatch? t = some w) :
    ∃ o, matchAt? p.node false (.atStart t.toList) = some o ∧
      (Cursor.atStart t.toList).Reaches o.1 ∧ (o.1.after = [] →
        w = { skipped := [], text := t.toList, captures := o.2, stop := o.1 }) := by
  obtain ⟨ways, hways, hrun⟩ := enumerates_run p.node (.atStart t.toList) []
  obtain ⟨o', ho', rfl⟩ := Option.map_eq_some_iff.1 h
  rw [hrun] at ho'
  cases ways with
  | nil => cases ho'
  | cons o ways =>
      refine ⟨o, ?_, hways o List.mem_cons_self, fun hend => ?_⟩
      · rw [matchAt?_false, hrun, List.findSome?_cons]
      · rw [List.findSome?_cons, if_pos (List.isEmpty_iff.2 hend)] at ho'
        rw [← Option.some.inj ho']

/-- The text is replaced up to the end of the first match, and then from there on. -/
theorem replaceFrom_atStart (h : matchAt? node false (.atStart cs) = some o) (n : Nat) :
    replaceFrom node r (n + 1) false (.atStart cs) =
      r { skipped := [], text := (Cursor.atStart cs).between o.1, captures := o.2, stop := o.1 } ++
        replaceFrom node r n ((Cursor.atStart cs).between o.1).isEmpty o.1 := by
  rw [Cursor.atStart] at h ⊢
  rw [replaceFrom, findFrom.eq_def, h]
  rfl

theorem replaceFrom_end (node : Node) (r : Match → List Char) (n : Nat) (advance : Bool)
    (before : List Char) (h : matchAt? node advance { before, after := [] } = none) :
    replaceFrom node r n advance { before, after := [] } = [] := by
  cases n with
  | zero => rfl
  | succ n => rw [replaceFrom, findFrom, h]

theorem between_end (cs before : List Char) :
    (Cursor.atStart cs).between { before, after := [] } = cs := by
  simp [Cursor.between, Cursor.atStart]

/-- The sole match of a text is replaced once. -/
theorem IsSole.replace_eq (hsole : p.IsSole t) (hw : p.wholeMatch? t = some w)
    (r : Match → List Char) : p.replace r t = String.ofList (r w) := by
  obtain ⟨o, ho, hreach, hwhole⟩ := exists_matchAt?_of_wholeMatch? hw
  obtain ⟨o', ho', hend⟩ := hsole.whole
  obtain rfl : o = o' := Option.some.inj (ho.symm.trans ho')
  have hplace := eq_of_reaches_end hreach hend
  have hrest : matchAt? p.node t.toList.isEmpty { before := t.toList.reverse, after := [] } =
      none := by
    cases hempty : t.toList.isEmpty with
    | true => exact matchAt?_true_of_after_eq_nil rfl
    | false => exact hsole.last.resolve_left fun h => by simp [h] at hempty
  have hfuel : 2 * t.length + 2 = 2 * t.length + 1 + 1 := rfl
  rw [replace, hfuel, replaceFrom_atStart ho, hplace, between_end, replaceFrom_end _ _ _ _ _ hrest,
    List.append_nil, hwhole hend, hplace]

/-- If a text that is matched as a whole becomes one character, its match is the sole one. -/
theorem isSole_of_replace_eq (hw : p.wholeMatch? t = some w) {x : Char}
    (h : p.replace (fun _ => [x]) t = String.ofList [x]) : p.IsSole t := by
  obtain ⟨o, ho, hreach, -⟩ := exists_matchAt?_of_wholeMatch? hw
  have hfuel : 2 * t.length + 2 = 2 * t.length + 1 + 1 := rfl
  rw [replace, hfuel, replaceFrom_atStart ho, String.ofList_inj, List.singleton_append,
    List.cons.injEq, replaceFrom] at h
  -- Nothing follows the first expansion, so there is neither another match nor any text.
  obtain ⟨-, h⟩ := h
  cases hnext : findFrom p.node ((Cursor.atStart t.toList).between o.1).isEmpty [] o.1.before
      o.1.after with
  | some m => simp [hnext] at h
  | none =>
      rw [hnext] at h
      have hend : o.1.after = [] := h
      have hplace := eq_of_reaches_end hreach hend
      refine ⟨⟨o, ho, hend⟩, ?_⟩
      rw [hplace, between_end, findFrom] at hnext
      refine or_iff_not_imp_left.2 fun hne => ?_
      rw [List.isEmpty_eq_false_iff.2 hne] at hnext
      cases hlast : matchAt? p.node false { before := t.toList.reverse, after := [] } with
      | none => rfl
      | some o =>
          rw [hlast] at hnext
          cases hnext

end Pattern

end Redline
