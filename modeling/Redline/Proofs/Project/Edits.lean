import Redline.Project.Rename
import Redline.Proofs.Editset.Splice
import Redline.Proofs.Symbol.Places
import Redline.Proofs.Tree.WellFormed

/-!
# An edit of a rename spans an identifier

A reference shows an identifier by lines and columns, and an edit is made of it by going back to
offsets. The way back is exact, so the edit spans the identifier and nothing else; edits of
different places in one file lie apart, since different identifiers do.
-/

namespace Redline

/-- An edit that puts the name `new` in the place of the identifier `n`, whose text is `old`. -/
structure Edit.Renames (s : Source) (n : Spot) (old new : String) (e : Edit) : Prop where
  identifier : s.Identifier n
  file : e.file = s.path
  text : s.textOf n.tree = old
  replacement : e.replacement = new
  span : ∃ start length : Nat, e.offset = start ∧ e.length = length ∧ 0 < length ∧
    s.Marks n.start start ∧ s.Marks n.stop (start + length) ∧
    (s.text.drop start).take length = old.toList

namespace Edit.Renames

variable {s : Source} {n m : Spot} {old new old' new' : String} {e f : Edit}

theorem fits (h : e.Renames s n old new) : e.Fits s.text.length := by
  obtain ⟨start, length, hoffset, hlength, -, -, hstop, -⟩ := h.span
  have hle := hstop.1
  constructor <;> omega

/-- Edits at one offset are for one identifier. -/
theorem eq_of_offset_eq (hw : s.WellFormed) (he : e.Renames s n old new)
    (hf : f.Renames s m old' new') (h : e.offset = f.offset) : n = m := by
  obtain ⟨a, -, ha, -, -, hstart, -⟩ := he.span
  obtain ⟨a', -, ha', -, -, hstart', -⟩ := hf.span
  obtain rfl : a = a' := by omega
  exact hw.eq_of_start_eq he.identifier hf.identifier ((hstart.eq_iff hstart').2 rfl)

/-- Edits of identifiers of one file are of one place or apart. -/
theorem apart (hw : s.WellFormed) (he : e.Renames s n old new) (hf : f.Renames s m old' new')
    (hne : Project.editPlace e ≠ Project.editPlace f) : e.Apart f := by
  obtain ⟨a, k, ha, hk, hkpos, hnstart, hnstop, -⟩ := he.span
  obtain ⟨b, l, hb, hl, hlpos, hmstart, hmstop, -⟩ := hf.span
  rcases hw.eq_or_apart he.identifier hf.identifier with rfl | hleft | hright
  · have hab : a = b := (hnstart.eq_iff hmstart).1 rfl
    have hkl : a + k = b + l := (hnstop.eq_iff hmstop).1 rfl
    refine absurd ?_ hne
    rw [Project.editPlace, Project.editPlace, he.file, hf.file, ha, hb, hk, hl, hab,
      show k = l by omega]
  · have hle := (hnstop.le_iff hmstart).1 hleft
    exact ⟨by omega, Or.inl (by omega)⟩
  · have hle := (hmstop.le_iff hnstart).1 hright
    exact ⟨by omega, Or.inr (by omega)⟩

end Edit.Renames

namespace Project

open Index

variable {sources : List Source}

/-- A reference to a node that covers the old name gives an edit of this node. -/
theorem editAt_referenceAt {x : Index} {s : Source} {n : Spot} {old new : String}
    {start stop : Nat} (hsource : x.source? s.path = some s) (hutf8 : s.IsUtf8)
    (hstart : s.Marks n.start start) (hstop : s.Marks n.stop stop)
    (htext : s.textOf n.tree = String.ofList ((s.text.take stop).drop start)) :
    editAt x old new (referenceAt s n) =
      if s.textOf n.tree = old then
        some { file := s.path, offset := start, length := (stop : Int) - start, replacement := new }
      else none := by
  rw [editAt, file_referenceAt, hsource]
  dsimp only
  rw [range_referenceAt, Source.rangeOf_of_marks hutf8 hstart hstop]
  dsimp only
  rw [s.offset?_lineColumn (Int.natCast_nonneg start),
    s.offset?_lineColumn (Int.natCast_nonneg stop)]
  dsimp only
  rw [Text.between_natCast hstart.1, htext]

/-- The edit of a reference spans the identifier that the reference shows. -/
theorem renames_of_editAt {x : Index} {s : Source} {n : Spot} {old new : String} {e : Edit}
    (hsource : x.source? s.path = some s) (hutf8 : s.IsUtf8) (hw : s.WellFormed)
    (hn : s.Identifier n) (h : editAt x old new (referenceAt s n) = some e) :
    e.Renames s n old new := by
  obtain ⟨start, stop, hstart, hstop, hlt, htext⟩ := hw.exists_marks hutf8 hn
  rw [editAt_referenceAt hsource hutf8 hstart hstop htext] at h
  split_ifs at h with hold
  obtain rfl := Option.some.inj h
  have hspan : (s.text.drop start).take (stop - start) = (s.text.take stop).drop start :=
    List.drop_take.symm
  refine ⟨hn, rfl, hold, rfl, start, stop - start, rfl, ?_, by omega, hstart, ?_, ?_⟩
  · dsimp only
    omega
  · rwa [Nat.add_sub_cancel' (Nat.le_of_lt hlt)]
  · rw [hspan, ← hold, htext, String.toList_ofList]

/-- A reference to an identifier with the old name gives an edit. -/
theorem exists_editAt {x : Index} {s : Source} {n : Spot} {old : String} (new : String)
    (hsource : x.source? s.path = some s) (hutf8 : s.IsUtf8) (hw : s.WellFormed)
    (hn : s.Identifier n) (hold : s.textOf n.tree = old) :
    ∃ e, editAt x old new (referenceAt s n) = some e := by
  obtain ⟨start, stop, hstart, hstop, -, htext⟩ := hw.exists_marks hutf8 hn
  rw [editAt_referenceAt hsource hutf8 hstart hstop htext, if_pos hold]
  exact ⟨_, rfl⟩

/-- Every edit of some references comes from one of them. -/
theorem exists_of_mem_editsFor {x : Index} {refs : List Reference} {old new : String} {e : Edit}
    (h : e ∈ editsFor x refs old new) : ∃ r ∈ refs, editAt x old new r = some e :=
  List.mem_filterMap.1 (mem_of_mem_distinctBy _ h)

/-- Edits of different places that rename in well-formed files lie apart, file by file. -/
theorem pairwise_apart_of_nodup {edits : List Edit} (source? : String → Option Source)
    (hplaces : (edits.map editPlace).Nodup)
    (h : ∀ e ∈ edits, ∃ s n old new, source? e.file = some s ∧ s.WellFormed ∧
      e.Renames s n old new) (file : String) :
    (edits.filter (·.file == file)).Pairwise Edit.Apart := by
  have hne : edits.Pairwise fun e f => editPlace e ≠ editPlace f := List.pairwise_map.1 hplaces
  rw [List.pairwise_filter]
  refine hne.imp_of_mem fun {e f} he hf hef hfile hfile' => ?_
  obtain ⟨s, n, old, new, hs, hw, hrenames⟩ := h e he
  obtain ⟨s', m, old', new', hs', -, hrenames'⟩ := h f hf
  rw [beq_iff_eq] at hfile hfile'
  rw [hfile] at hs
  rw [hfile', hs] at hs'
  obtain rfl := Option.some.inj hs'
  exact hrenames.apart hw hrenames' hef

end Project

end Redline
