import Redline.Proofs.Project.Renaming
import Redline.Proofs.Scope.Edited

/-!
# What a batch does to a name

A batch makes one edit for each identifier that is `Batched`: a reference of a symbol with its text
that matches the pattern. So after the batch an identifier shows its new name or what it showed.
-/

namespace Redline

namespace Source

/-- A file with edits made: its text after one pass, and its tree with the octets moved. -/
def edited (s : Source) (edits : List Edit) : Source :=
  make s.path (Text.Utf8.encode (String.ofList (onePass edits 0 s.text)))
    (s.tree.moved (s.shift edits))

/-- The text of a node of a file after some edits. -/
def textAfter (s : Source) (edits : List Edit) (n : Spot) : String :=
  (s.edited edits).textOf (n.tree.moved (s.shift edits))

variable (s : Source) (edits : List Edit)

theorem text_edited : (s.edited edits).text = onePass edits 0 s.text := by
  rw [text_of_decode (Text.Utf8.decode_encode _), String.toList_ofList]

theorem isUtf8_edited : (s.edited edits).IsUtf8 :=
  isUtf8_of_decode (Text.Utf8.decode_encode _)

namespace Rewords

variable {s : Source} {edits : List Edit} {E : Spot → Prop} {new : Spot → String} {n m : Spot}

theorem textAfter_renamed (h : s.Rewords E new edits) (hw : s.WellFormed) (hs : s.IsUtf8)
    (hn : s.Identifier n) (hE : E n) : s.textAfter edits n = new n :=
  h.textOf_renamed hw hs (s.isUtf8_edited edits) (s.text_edited edits) hn hE

theorem textAfter_kept (h : s.Rewords E new edits) (hw : s.WellFormed) (hs : s.IsUtf8)
    (hn : s.Identifier n) (hE : ¬E n) : s.textAfter edits n = s.textOf n.tree :=
  h.textOf_kept hw hs (s.isUtf8_edited edits) (s.text_edited edits) hn hE

/-- Two different names become one when both get it, or when one of them gets the name that the
other keeps. -/
theorem textAfter_eq_iff (h : s.Rewords E new edits) (hw : s.WellFormed) (hs : s.IsUtf8)
    (hn : s.Identifier n) (hm : s.Identifier m) (hne : s.textOf n.tree ≠ s.textOf m.tree) :
    s.textAfter edits n = s.textAfter edits m ↔
      (E n ∧ E m ∧ new n = new m) ∨ (E n ∧ ¬E m ∧ new n = s.textOf m.tree) ∨
        (E m ∧ ¬E n ∧ new m = s.textOf n.tree) := by
  by_cases hEn : E n <;> by_cases hEm : E m
  · rw [h.textAfter_renamed hw hs hn hEn, h.textAfter_renamed hw hs hm hEm]
    simp [hEn, hEm]
  · rw [h.textAfter_renamed hw hs hn hEn, h.textAfter_kept hw hs hm hEm]
    simp [hEn, hEm]
  · rw [h.textAfter_kept hw hs hn hEn, h.textAfter_renamed hw hs hm hEm]
    simp [hEn, hEm, eq_comm]
  · rw [h.textAfter_kept hw hs hn hEn, h.textAfter_kept hw hs hm hEm]
    simp [hEn, hEm, hne]

end Rewords

end Source

namespace Project

variable {p : Project} {d : Disk} {pattern : Pattern} {replacement : String} {skip : List String}

/-- A batch renames an identifier: it refers to a symbol that the pattern finds and that has its
text, and the text is not skipped and becomes another. -/
structure Batched (p : Project) (d : Disk) (pattern : Pattern) (replacement : String)
    (skip : List String) (s : Source) (n : Spot) : Prop where
  found : ∃ m ∈ matchesIn (p.indexOn d) pattern, m.symbol.name = s.textOf n.tree ∧
    Index.referenceAt s n ∈ p.referencesOn d m.symbol.key.text
  changed : Naming.newName (s.textOf n.tree) pattern replacement ≠ s.textOf n.tree
  unskipped : s.textOf n.tree ∉ skip

theorem mem_edits_renameBatchOn (now : Moment) (text : String) {edit : Edit} :
    edit ∈ (p.renameBatchOn d now text pattern replacement skip).edits ↔
      edit ∈ distinctBy editPlace (((matchesIn (p.indexOn d) pattern).map
        (p.batchPartOn d pattern replacement skip)).flatMap Prod.snd) :=
  (sortEdits_perm _).mem_iff

section

variable (hread : p.Readable d) (hwell : ∀ s ∈ p.sourcesOn d, s.WellFormed) {s : Source}
  (hs : s ∈ p.sourcesOn d) (now : Moment) (text : String)

include hread hwell hs

/-- An edit of a batch is for an identifier that the batch renames. -/
theorem exists_batched_of_mem {edit : Edit}
    (h : edit ∈ (p.renameBatchOn d now text pattern replacement skip).edits)
    (hfile : edit.file = s.path) :
    ∃ n, p.Batched d pattern replacement skip s n ∧ edit.Renames s n (s.textOf n.tree)
      (Naming.newName (s.textOf n.tree) pattern replacement) := by
  have h := mem_of_mem_distinctBy _ ((mem_edits_renameBatchOn now text).1 h)
  obtain ⟨part, hpart, h⟩ := List.mem_flatMap.1 h
  obtain ⟨m, hm, rfl⟩ := List.mem_map.1 hpart
  rw [batchPartOn] at h
  dsimp only at h
  split at h
  · cases h
  · rename_i hskip
    rw [Bool.or_eq_true, not_or] at hskip
    obtain ⟨r, hr, hedit⟩ := exists_of_mem_editsFor h
    obtain ⟨s', n, hs', hpath, hn, rfl⟩ := exists_of_mem_referencesOn hwell hr
    have hmem := (Index.exists_source_of_source? hs').1
    have hutf8 := (exists_of_mem_sourcesOn hread hmem).2.2.1
    rw [← hpath] at hs'
    have hrenames := renames_of_editAt hs' hutf8 (hwell s' hmem) hn hedit
    obtain rfl := eq_of_path_eq hread hmem hs (hrenames.file.symm.trans hfile)
    have hname := hrenames.text
    rw [← hname] at hskip hrenames
    exact ⟨n, ⟨⟨m, hm, hname.symm, hr⟩, by simpa using hskip.2, by simpa using hskip.1⟩, hrenames⟩

/-- Every identifier that a batch renames has an edit. -/
theorem exists_mem_of_batched {n : Spot} (hn : s.Identifier n)
    (h : p.Batched d pattern replacement skip s n) :
    ∃ edit ∈ (p.renameBatchOn d now text pattern replacement skip).edits,
      edit.Renames s n (s.textOf n.tree)
        (Naming.newName (s.textOf n.tree) pattern replacement) := by
  obtain ⟨m, hm, hname, href⟩ := h.found
  obtain ⟨-, -, hutf8, -⟩ := exists_of_mem_sourcesOn hread hs
  have hsource := source?_of_mem_sourcesOn hread hs
  obtain ⟨edit, hedit⟩ :=
    exists_editAt (Naming.newName (s.textOf n.tree) pattern replacement) hsource hutf8 (hwell s hs)
      hn rfl
  have hrenames := renames_of_editAt hsource hutf8 (hwell s hs) hn hedit
  obtain ⟨edit₁, hedit₁, hplace₁⟩ :=
    exists_mem_distinctBy editPlace (List.mem_filterMap.2 ⟨_, href, hedit⟩)
  have hpart : edit₁ ∈ (p.batchPartOn d pattern replacement skip m).2 := by
    rw [batchPartOn, hname]
    dsimp only
    rw [if_neg (by simp [h.changed, h.unskipped])]
    exact hedit₁
  obtain ⟨edit₂, hedit₂, hplace₂⟩ := exists_mem_distinctBy editPlace
    (List.mem_flatMap.2 ⟨_, List.mem_map_of_mem hm, hpart⟩)
  have hplace := hplace₂.trans hplace₁
  rw [editPlace, editPlace, Prod.mk.injEq, Prod.mk.injEq] at hplace
  have hmem := (mem_edits_renameBatchOn now text).2 hedit₂
  obtain ⟨n', -, hrenames'⟩ := exists_batched_of_mem hread hwell hs now text hmem
    (hplace.1.trans hrenames.file)
  obtain rfl := hrenames'.eq_of_offset_eq (hwell s hs) hrenames hplace.2.1
  exact ⟨edit₂, hmem, hrenames'⟩

/-- The edits of a batch give new names to the identifiers that it renames, file by file. -/
theorem rewords_renameBatchOn (hfree : CollisionFree (p.sourcesOn d)) :
    s.Rewords (p.Batched d pattern replacement skip s)
      (fun n => Naming.newName (s.textOf n.tree) pattern replacement)
      ((p.renameBatchOn d now text pattern replacement skip).editsOf s.path) := by
  have hproposes := proposes_renameBatch hread hwell hfree now text pattern replacement skip
  constructor
  · intro edit hedit
    obtain ⟨hedit, hfile⟩ := List.mem_filter.1 hedit
    obtain ⟨n, hbatched, hrenames⟩ :=
      exists_batched_of_mem hread hwell hs now text hedit (beq_iff_eq.1 hfile)
    exact ⟨n, _, hbatched, hrenames⟩
  · intro n hn hbatched
    obtain ⟨edit, hedit, hrenames⟩ := exists_mem_of_batched hread hwell hs now text hn hbatched
    exact ⟨edit, List.mem_filter.2 ⟨hedit, beq_iff_eq.2 hrenames.file⟩, _, hrenames⟩
  · exact hproposes.apart hwell s.path

end

end Project

end Redline
