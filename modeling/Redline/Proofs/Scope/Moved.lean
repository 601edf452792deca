import Mathlib.Data.List.Forall2
import Redline.Proofs.Tree.Moved
import Redline.Scope.Walk

/-!
# The walk of a moved tree

When the tree of one file is the tree of another with its octets moved, the walks of both tell the
same events in the same order: in the same scopes, of the moved nodes, each with the text that
stands at its node in its own file. A walk decides by kinds, fields and addresses only; no text is
ever asked for.
-/

namespace Redline

/-- The same declaration in two files, the tree of the second being moved. -/
structure Declaration.Follows (f : Nat → Nat) (s s' : Source) (d d' : Declaration) : Prop where
  scope : d'.scope = d.scope
  spot : d'.spot = d.spot.moved f
  text : d.name = s.textOf d.spot.tree
  text' : d'.name = s'.textOf d'.spot.tree

/-- The same event in two files, the tree of the second being moved. -/
inductive Event.Follows (f : Nat → Nat) (s s' : Source) : Event → Event → Prop where
  | declares {d d' : Declaration} (h : d.Follows f s s' d') :
      Follows f s s' (.declares d) (.declares d')
  | uses (n : Spot) (around : List Scope) :
      Follows f s s' (.uses n (s.textOf n.tree) around)
        (.uses (n.moved f) (s'.textOf (n.moved f).tree) around)
  | property (n : Spot) :
      Follows f s s' (.property n (s.textOf n.tree))
        (.property (n.moved f) (s'.textOf (n.moved f).tree))
  | member (n : Spot) :
      Follows f s s' (.member n (s.textOf n.tree))
        (.member (n.moved f) (s'.textOf (n.moved f).tree))
  | exports (n : Spot) : Follows f s s' (.exports n) (.exports (n.moved f))

namespace Scope

variable (f : Nat → Nat) (s s' : Source)

/-! ### The names of patterns -/

mutual

theorem patternNames_moved (above : List Tree) (address : Address) (t : Tree) :
    patternNames (above.map (Tree.moved f)) address (t.moved f) =
      (patternNames above address t).map (Spot.moved f) := by
  match t with
  | .node label children =>
      rw [Tree.moved_node, patternNames, patternNames, Label.kind_moved]
      split_ifs
      · rw [List.map_singleton, Spot.moved, Tree.moved_node]
      · have h := namesInField_moved "value" (.node label children :: above) address 0 children
        rwa [List.map_cons, Tree.moved_node] at h
      · have h := namesInField_moved "left" (.node label children :: above) address 0 children
        rwa [List.map_cons, Tree.moved_node] at h
      · have h := namesInNamed_moved (.node label children :: above) address 0 children
        rwa [List.map_cons, Tree.moved_node] at h
      · rfl

theorem namesInField_moved (field : String) (above : List Tree) (address : Address) (number : Nat)
    (ts : List Tree) :
    namesInField field (above.map (Tree.moved f)) address number (ts.map (Tree.moved f)) =
      (namesInField field above address number ts).map (Spot.moved f) := by
  match ts with
  | [] => rfl
  | t :: ts =>
      rw [List.map_cons, namesInField, namesInField, Tree.field_moved]
      split_ifs
      · exact patternNames_moved above (number :: address) t
      · exact namesInField_moved field above address (number + 1) ts

theorem namesInNamed_moved (above : List Tree) (address : Address) (number : Nat)
    (ts : List Tree) :
    namesInNamed (above.map (Tree.moved f)) address number (ts.map (Tree.moved f)) =
      (namesInNamed above address number ts).map (Spot.moved f) := by
  match ts with
  | [] => rfl
  | t :: ts =>
      rw [List.map_cons, namesInNamed, namesInNamed, Tree.isNamed_moved, List.map_append,
        namesInNamed_moved above address (number + 1) ts]
      split_ifs
      · rw [patternNames_moved above (number :: address) t]
      · rfl

end

theorem namesBound_moved (n : Spot) (field : String) :
    namesBound (n.moved f) field = (namesBound n field).map (Spot.moved f) := by
  rw [namesBound, namesBound, Spot.child?_moved]
  cases n.child? field with
  | none => rfl
  | some p => exact patternNames_moved f p.above p.address p.tree

/-! ### The events of a visit -/

theorem forall₂_moved (names : List Spot) :
    List.Forall₂ (fun n n' => n' = n.moved f) names (names.map (Spot.moved f)) :=
  List.forall₂_map_right_iff.2 (List.forall₂_same.2 fun _ _ => rfl)

theorem follows_declare (m : Manner) (n : Spot) :
    (declare s m n).Follows f s s' (declare s' m (n.moved f)) :=
  .declares ⟨rfl, rfl, rfl, rfl⟩

theorem follows_map_declare (m : Manner) (names : List Spot) :
    List.Forall₂ (Event.Follows f s s') (names.map (declare s m))
      ((names.map (Spot.moved f)).map (declare s' m)) := by
  refine List.rel_map ?_ (forall₂_moved f names)
  rintro n _ rfl
  exact follows_declare f s s' m n

theorem follows_declareNamed (m : Manner) (n : Spot) :
    List.Forall₂ (Event.Follows f s s') (declareNamed s m n) (declareNamed s' m (n.moved f)) := by
  rw [declareNamed, declareNamed, Spot.child?_moved]
  cases n.child? "name" with
  | none => exact .nil
  | some name => exact .cons (follows_declare f s s' m name) .nil

theorem follows_namesBound (m : Manner) (n : Spot) (field : String) :
    List.Forall₂ (Event.Follows f s s') ((namesBound n field).map (declare s m))
      ((namesBound (n.moved f) field).map (declare s' m)) := by
  rw [namesBound_moved]
  exact follows_map_declare f s s' m _

theorem follows_declareImport (scope : Scope) (from_ from' : Option String)
    (imported imported' : String) (nameSpot nameSpot' : Option Spot) (n : Spot) :
    (declareImport s scope from_ imported nameSpot n).Follows f s s'
      (declareImport s' scope from' imported' nameSpot' (n.moved f)) :=
  .declares ⟨rfl, rfl, rfl, rfl⟩

theorem follows_importEvents (scope : Scope) (from_ from' : Option String) (n : Spot) :
    List.Forall₂ (Event.Follows f s s') (importEvents s scope from_ n)
      (importEvents s' scope from' (n.moved f)) := by
  rw [importEvents, importEvents, Spot.kind_moved]
  split_ifs
  · exact .cons (follows_declareImport f s s' scope from_ from' _ _ _ _ n) .nil
  · rw [Spot.namedChildren_moved, List.filter_map]
    simp only [Function.comp_def, Spot.kind_moved]
    refine List.rel_map ?_ (forall₂_moved f _)
    rintro name _ rfl
    exact follows_declareImport f s s' scope from_ from' _ _ _ _ name
  · rw [Spot.namedChildren_moved, List.filter_map]
    simp only [Function.comp_def, Spot.kind_moved]
    refine List.rel_filterMap ?_ (forall₂_moved f _)
    rintro spec _ rfl
    dsimp only
    rw [Spot.child?_moved, Spot.child?_moved]
    cases spec.child? "name" with
    | none => exact .none
    | some name =>
        refine .some ?_
        cases spec.child? "alias" with
        | none => exact follows_declareImport f s s' scope from_ from' _ _ _ _ name
        | some a => exact follows_declareImport f s s' scope from_ from' _ _ _ _ a
  · exact .nil

theorem follows_importsOf (scope : Scope) (n : Spot) :
    List.Forall₂ (Event.Follows f s s') (importsOf s scope n) (importsOf s' scope (n.moved f)) := by
  rw [importsOf, importsOf, Spot.namedChildren_moved, List.filter_map]
  simp only [Function.comp_def, Spot.kind_moved]
  refine List.rel_flatMap (forall₂_moved f _) ?_
  rintro clause _ rfl
  dsimp only
  rw [Spot.namedChildren_moved]
  refine List.rel_flatMap (forall₂_moved f _) ?_
  rintro part _ rfl
  exact follows_importEvents f s s' scope _ _ part

theorem follows_membersOf (n : Spot) :
    List.Forall₂ (Event.Follows f s s') (membersOf s n) (membersOf s' (n.moved f)) := by
  rw [membersOf, membersOf, Spot.child?_moved]
  cases n.child? "body" with
  | none => exact .nil
  | some body =>
      dsimp only [Option.map_some]
      rw [Spot.namedChildren_moved, List.filter_map]
      simp only [Function.comp_def, Spot.kind_moved]
      refine List.rel_filterMap ?_ (forall₂_moved f _)
      rintro m _ rfl
      dsimp only
      rw [Spot.child?_moved]
      cases m.child? "name" with
      | none => exact .none
      | some name =>
          dsimp only [Option.map_some]
          rw [Spot.kind_moved]
          split_ifs
          · exact .some (.member name)
          · exact .none

theorem follows_identifierEvents (around : List Scope) (n : Spot) :
    List.Forall₂ (Event.Follows f s s') (identifierEvents s around n)
      (identifierEvents s' around (n.moved f)) := by
  rw [identifierEvents, identifierEvents, Spot.kind_moved]
  refine List.rel_append ?_ ?_
  · split_ifs
    · exact .cons (.property n) .nil
    · exact .nil
  · split_ifs
    · exact .cons (.uses n around) .nil
    · exact .nil

theorem follows_functionEvents (around : List Scope) (n : Spot) :
    List.Forall₂ (Event.Follows f s s') (functionEvents s around n)
      (functionEvents s' around (n.moved f)) := by
  rw [functionEvents, functionEvents, Spot.kind_moved]
  refine List.rel_append ?_ (follows_namesBound f s s' _ n "parameter")
  split_ifs
  · exact follows_declareNamed f s s' _ n
  · exact .nil
  · exact follows_declareNamed f s s' _ n

theorem follows_loopEvents (around : List Scope) (n : Spot) :
    List.Forall₂ (Event.Follows f s s') (loopEvents s around n)
      (loopEvents s' around (n.moved f)) := by
  rw [loopEvents, loopEvents, Spot.child?_moved]
  cases n.child? "kind" with
  | none => exact .nil
  | some kind =>
      dsimp only [Option.map_some]
      rw [Spot.kind_moved]
      exact follows_namesBound f s s' _ n "left"

theorem follows_declaratorEvents (around : List Scope) (n : Spot) :
    List.Forall₂ (Event.Follows f s s') (declaratorEvents s around n)
      (declaratorEvents s' around (n.moved f)) := by
  have hparent : (n.moved f).parent?.map Tree.kind = n.parent?.map Tree.kind := by
    rw [Spot.parent?_moved, Option.map_map]
    congr 1
    funext t
    exact Tree.kind_moved f t
  rw [declaratorEvents, declaratorEvents, hparent, Spot.parentAddress?_moved]
  exact follows_namesBound f s s' _ n "name"

theorem isFunctionBody_moved (n : Spot) : isFunctionBody (n.moved f) = isFunctionBody n := by
  have hparent : ((n.moved f).parent?.map fun p => NodeKind.isFunction p.kind) =
      n.parent?.map fun p => NodeKind.isFunction p.kind := by
    rw [Spot.parent?_moved, Option.map_map]
    congr 1
    funext t
    exact congrArg NodeKind.isFunction (Tree.kind_moved f t)
  rw [isFunctionBody, isFunctionBody, hparent, Spot.kind_moved]

/-- The same events in two files, and the same scopes after them. -/
def VisitFollows (x x' : List Event × List Scope) : Prop :=
  List.Forall₂ (Event.Follows f s s') x.1 x'.1 ∧ x'.2 = x.2

variable {f s s'} in
theorem VisitFollows.ite {c : Prop} [Decidable c] {x y x' y' : List Event × List Scope}
    (hx : VisitFollows f s s' x x') (hy : VisitFollows f s s' y y') :
    VisitFollows f s s' (if c then x else y) (if c then x' else y') := by
  split_ifs
  · exact hx
  · exact hy

/-- A visit of a moved node tells the same and opens the same scopes. -/
theorem follows_visit (around : List Scope) (n : Spot) :
    VisitFollows f s s' (visit s around n) (visit s' around (n.moved f)) := by
  have hnamed : ∀ m : Manner, List.Forall₂ (Event.Follows f s s') (declareNamed s m n)
      (declareNamed s' m (n.moved f)) := fun m => follows_declareNamed f s s' m n
  have hbound : ∀ (m : Manner) (field : String), List.Forall₂ (Event.Follows f s s')
      ((namesBound n field).map (declare s m))
      ((namesBound (n.moved f) field).map (declare s' m)) :=
    fun m field => follows_namesBound f s s' m n field
  rw [visit, visit, Spot.kind_moved, isFunctionBody_moved]
  dsimp only
  refine .ite ⟨follows_functionEvents f s s' around n, rfl⟩ ?_
  refine .ite ⟨.nil, rfl⟩ ?_
  refine .ite ⟨.nil, rfl⟩ ?_
  refine .ite ⟨hnamed _, rfl⟩ ?_
  refine .ite ⟨hnamed _, rfl⟩ ?_
  refine .ite ⟨.nil, rfl⟩ ?_
  refine .ite ⟨follows_loopEvents f s s' around n, rfl⟩ ?_
  refine .ite ⟨hbound _ _, rfl⟩ ?_
  refine .ite ⟨follows_declaratorEvents f s s' around n, rfl⟩ ?_
  refine .ite ⟨hbound _ _, rfl⟩ ?_
  refine .ite ⟨List.rel_append (hnamed _) (follows_membersOf f s s' n), rfl⟩ ?_
  refine .ite ⟨hnamed _, rfl⟩ ?_
  refine .ite ⟨hnamed _, rfl⟩ ?_
  refine .ite ⟨follows_importsOf f s s' _ n, rfl⟩ ?_
  exact .ite ⟨.cons (.exports n) .nil, rfl⟩ ⟨.nil, rfl⟩

/-! ### The events of a walk -/

mutual

theorem follows_eventsIn (around : List Scope) (above : List Tree) (address : Address) (t : Tree) :
    List.Forall₂ (Event.Follows f s s') (eventsIn s around above address t)
      (eventsIn s' around (above.map (Tree.moved f)) address (t.moved f)) := by
  match t with
  | .node label children =>
      obtain ⟨htold, hinner⟩ :=
        follows_visit f s s' around (.at (.node label children) above address)
      rw [Spot.moved, Tree.moved_node] at htold hinner
      rw [Tree.moved_node, eventsIn, eventsIn]
      dsimp only
      refine List.rel_append (List.rel_append ?_ htold) ?_
      · have h := follows_identifierEvents f s s' around (.at (.node label children) above address)
        rwa [Spot.moved, Tree.moved_node] at h
      · rw [hinner]
        have h := follows_eventsAmong
          (visit s around (.at (.node label children) above address)).2
          (.node label children :: above) address 0 children
        rwa [List.map_cons, Tree.moved_node] at h

theorem follows_eventsAmong (around : List Scope) (above : List Tree) (address : Address)
    (number : Nat) (ts : List Tree) :
    List.Forall₂ (Event.Follows f s s') (eventsAmong s around above address number ts)
      (eventsAmong s' around (above.map (Tree.moved f)) address number
        (ts.map (Tree.moved f))) := by
  match ts with
  | [] =>
      rw [List.map_nil, eventsAmong, eventsAmong]
      exact .nil
  | t :: ts =>
      rw [List.map_cons, eventsAmong, eventsAmong]
      exact List.rel_append (follows_eventsIn around above (number :: address) t)
        (follows_eventsAmong around above address (number + 1) ts)

end

variable {f s s'}

/-- The walk of a moved tree tells the same events, of the moved nodes. -/
theorem follows_events (h : s'.tree = s.tree.moved f) :
    List.Forall₂ (Event.Follows f s s') (events s) (events s') := by
  rw [events, events, h]
  exact follows_eventsIn f s s' [file] [] [] s.tree

end Scope

end Redline
