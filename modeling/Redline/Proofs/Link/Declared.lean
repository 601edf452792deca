import Redline.Proofs.Link.Chains
import Redline.Proofs.Scope.Mentions

/-!
# Links lead to declared bindings

The numbers that a file exports under names are those of its bindings, so what is found behind an
exported name is declared, an import is tied to a declared binding, and the end of the chain from a
declared binding is declared.
-/

namespace Redline

namespace Scopes

open Scope

variable {source : Source}

theorem lt_length_of_at? {start k : Nat} (h : (ofSource source).at? start = some k) :
    k < (ofSource source).bindings.length := by
  obtain ⟨m, hm, -, rfl⟩ := exists_mention_of_at? h
  obtain ⟨d, hd, -⟩ := exists_binding?_of_mem_mentions hm
  exact (List.getElem?_eq_some_iff.1 hd).1

end Scopes

namespace Scope.Exports

/-- The bindings of the file itself that are exported are among the first `size`. -/
def Within (size : Nat) (x : Exports) : Prop :=
  ∀ name number, (name, Export.own number) ∈ x.names → number < size

variable {size : Nat} {x : Exports}

theorem Within.add_own (h : x.Within size) (name : String) {number : Nat}
    (hnumber : number < size) : (x.add name (.own number)).Within size := by
  intro name' number' hmem
  rcases Assoc.mem_of_mem_put hmem with hmem | heq
  · exact h name' number' hmem
  · cases heq
    exact hnumber

theorem Within.add_passed (h : x.Within size) (name from_ imported : String) (spot : Spot) :
    (x.add name (.passed from_ imported spot)).Within size := by
  intro name' number' hmem
  rcases Assoc.mem_of_mem_put hmem with hmem | heq
  · exact h name' number' hmem
  · cases heq

theorem lt_length_of_mem_zipIdx {bs : List Declaration} {b : Declaration × Nat}
    (h : b ∈ bs.zipIdx) : b.2 < bs.length := by
  obtain ⟨d, number⟩ := b
  exact (List.getElem?_eq_some_iff.1 (List.mem_zipIdx_iff_getElem?.1 h)).1

theorem Within.addDeclared {bs : List Declaration} (h : x.Within bs.length) (isDefault : Bool)
    (statement : Address) : (x.addDeclared bs isDefault statement).Within bs.length := by
  rw [Exports.addDeclared]
  split_ifs with hdefault
  · split
    · rename_i b hb
      exact h.add_own _ (lt_length_of_mem_zipIdx (List.mem_filter.1 (List.mem_of_head? hb)).1)
    · exact h
  · exact List.foldlRecOn _ _ h fun x hx b hb =>
      hx.add_own _ (lt_length_of_mem_zipIdx (List.mem_filter.1 hb).1)

variable {source : Source} {ms : List Mention}

theorem Within.addSpecifier (h : x.Within size)
    (hms : ∀ start number, mentionedAt? ms start = some number → number < size)
    (from_ : Option String) (spec : Spot) :
    (Exports.addSpecifier source ms from_ x spec).Within size := by
  rw [Exports.addSpecifier]
  cases spec.child? "name" with
  | none => exact h
  | some name =>
      cases from_ with
      | some s => exact h.add_passed _ _ _ _
      | none =>
          dsimp only
          split
          · rename_i number hnumber
            exact h.add_own _ (hms _ _ hnumber)
          · exact h

theorem Within.addStatement {bs : List Declaration} (h : x.Within bs.length)
    (hms : ∀ start number, mentionedAt? ms start = some number → number < bs.length) (s : Spot) :
    (Exports.addStatement source bs ms x s).Within bs.length := by
  rw [Exports.addStatement]
  split
  · exact h.addDeclared _ _
  · split
    · split
      · rename_i number hnumber
        obtain ⟨v, -, hv⟩ := Option.bind_eq_some_iff.1 hnumber
        exact h.add_own _ (hms _ _ hv)
      · exact h
    · split
      · exact List.foldlRecOn _ _ h fun x hx spec _ => hx.addSpecifier hms _ spec
      · split
        · split
          · exact h
          · exact h
        · exact h

/-- A file exports its own bindings only. -/
theorem within_exports (source : Source) :
    (Scopes.ofSource source).exports.Within (Scopes.ofSource source).bindings.length :=
  have hfound : ∀ start number, (Scopes.ofSource source).at? start = some number →
      number < (Scopes.ofSource source).bindings.length := fun _ _ => Scopes.lt_length_of_at?
  List.foldlRecOn _ _ (fun _ _ hmem => by cases hmem) fun _ hx s _ => hx.addStatement hfound s

end Scope.Exports

namespace Modules

variable {m : Modules}

/-- A binding that is declared. -/
def Declares (m : Modules) (b : BindingId) : Prop :=
  ∃ d, m.declaration? b = some d

/-- Every module exports its own bindings only. -/
def ExportsOwn (m : Modules) : Prop :=
  ∀ file sc, m.scopes? file = some sc → sc.exports.Within sc.bindings.length

/-- What is behind an exported name is declared. -/
theorem declares_exportWithin (hm : m.ExportsOwn) {fuel : Nat} {file name : String} {seen : Seen}
    {b : BindingId} (h : (m.exportWithin fuel file name seen).1 = some b) : m.Declares b := by
  induction fuel generalizing file name seen with
  | zero => cases h
  | succ fuel ih =>
      rw [exportWithin] at h
      by_cases hseen : seen.contains (file, name) = true
      · rw [if_pos hseen] at h
        cases h
      rw [if_neg hseen] at h
      cases hsc : m.scopes? file with
      | none =>
          rw [hsc] at h
          cases h
      | some sc =>
          rw [hsc] at h
          dsimp only at h
          split at h
          · rename_i number hnumber
            cases h
            have hlt := hm file sc hsc _ _ (Assoc.mem_of_lookup hnumber)
            refine ⟨sc.bindings[number], ?_⟩
            rw [declaration?, hsc]
            exact List.getElem?_eq_getElem hlt
          · split at h
            · exact ih h
            · cases h
          · by_cases hdefault : name = "default"
            · rw [if_pos hdefault] at h
              cases h
            rw [if_neg hdefault] at h
            refine List.foldlRecOn
              (motive := fun (acc : Option BindingId × Seen) => acc.1 = some b → m.Declares b) _ _
              (fun hb => by cases hb) (fun acc hacc s _ => ?_) h
            split
            · exact ih
            · exact hacc

theorem declares_exportOf? (hm : m.ExportsOwn) {file name : String} {b : BindingId}
    (h : m.exportOf? file name = some b) : m.Declares b :=
  declares_exportWithin hm h

end Modules

namespace Links

variable {m : Modules} {l : Links}

/-- The end of the chain from a declared binding is declared. -/
theorem declares_canonical (hl : ∀ b t, (b, t) ∈ l.targets → m.Declares t) {b : BindingId}
    (hb : m.Declares b) : m.Declares (l.canonical m b) := by
  rw [canonical]
  generalize l.targets.length = fuel
  induction fuel generalizing b with
  | zero => exact hb
  | succ fuel ih =>
      rw [follow]
      split
      · rename_i t ht
        split_ifs
        · exact hb
        · exact ih (hl b t (Assoc.mem_of_lookup ht))
      · exact hb

theorem declares_linkWithin (hm : m.ExportsOwn) (hl : ∀ b t, (b, t) ∈ l.targets → m.Declares t)
    (fuel : Nat) (b : BindingId) :
    ∀ c t, (c, t) ∈ (l.linkWithin m fuel b).targets → m.Declares t := by
  induction fuel generalizing l b with
  | zero => exact hl
  | succ fuel ih =>
      rw [linkWithin]
      split_ifs
      · exact hl
      split
      · exact hl
      split
      · exact hl
      dsimp only
      split
      · exact hl
      split_ifs
      · exact hl
      split
      · exact hl
      · rename_i behind hbehind
        have hrest := ih (l := { l with begun := b :: l.begun }) hl behind
        split_ifs
        · exact hrest
        · intro c t hmem
          rcases List.mem_cons.1 hmem with heq | hmem
          · cases heq
            exact declares_canonical hrest (Modules.declares_exportOf? hm hbehind)
          · exact hrest c t hmem

/-- Every import is tied to a declared binding. -/
theorem declares_of_mem_targets (hm : m.ExportsOwn) {b t : BindingId}
    (h : (b, t) ∈ (m.imports.foldl (linkImport m) none).targets) : m.Declares t := by
  have hall : ∀ b t, (b, t) ∈ (m.imports.foldl (linkImport m) none).targets → m.Declares t := by
    refine List.foldlRecOn
      (motive := fun (l : Links) => ∀ b t, (b, t) ∈ l.targets → m.Declares t) _ _ ?_ ?_
    · intro b t hmem
      cases hmem
    · exact fun l hl b _ => declares_linkWithin hm hl _ b
  exact hall b t h

end Links

end Redline
