import Redline.Proofs.Editset.Shift
import Redline.Proofs.Project.Edits
import Redline.Proofs.Scope.Fresh

/-!
# The file that edits leave

The edits of a `Rewords` give some identifiers of a file new texts, those of a `Rename` the same new
name. What the analysis compares is at octets outside of these edits: no edit reaches into
another node than its own, and the nodes above that one begin before it. So the text of an
identifier after the edits is the new one or what it was. After a `Rename` two nodes that started
apart still do, as the text between them does not vanish; the file with the edits is then `Renamed`,
and its names mean what they meant.
-/

namespace Redline

open Text.Utf8

namespace Edit.Renames

variable {s : Source} {n : Spot} {old new : String} {e : Edit}

theorem length_pos (h : e.Renames s n old new) : 0 < e.length := by
  obtain ⟨-, k, -, hk, hpos, -⟩ := h.span
  omega

/-- What lies before or behind the identifier is outside of the edit. -/
theorem outside (h : e.Renames s n old new) {low high b c : Nat} (hb : s.Marks low b)
    (hc : s.Marks high c) (hout : n.stop ≤ low ∨ high ≤ n.start) : e.Outside b c := by
  obtain ⟨a, k, ha, hk, -, hstart, hstop, -⟩ := h.span
  refine ⟨h.length_pos, ?_⟩
  rcases hout with hbehind | hbefore
  · have hle := (hstop.le_iff hb).1 hbehind
    exact Or.inl (by omega)
  · have hle := (hc.le_iff hstart).1 hbefore
    exact Or.inr (by omega)

end Edit.Renames

namespace Source

/-- No node ends before it starts, and each starts where a character does. -/
def Framed (s : Source) : Prop :=
  ∀ n, (Spot.root s.tree).Under n → n.start ≤ n.stop ∧ s.IsBoundary n.start

/-- Between an identifier with the name `old` and the next name there is some text. -/
def Spaced (s : Source) (old : String) : Prop :=
  ∀ n m, s.Identifier n → s.textOf n.tree = old → s.Compared m → n.stop ≠ m.start

/-- The edits give each identifier in `E` its new text and do nothing else. -/
structure Rewords (s : Source) (E : Spot → Prop) (new : Spot → String) (edits : List Edit) :
    Prop where
  sound : ∀ e ∈ edits, ∃ n old, E n ∧ e.Renames s n old (new n)
  complete : ∀ n, s.Identifier n → E n → ∃ e ∈ edits, ∃ old, e.Renames s n old (new n)
  apart : edits.Pairwise Edit.Apart

/-- The edits rename the identifiers in `E` and nothing else. -/
structure Rename (s : Source) (E : Spot → Prop) (old new : String) (edits : List Edit) :
    Prop where
  sound : ∀ e ∈ edits, ∃ n, E n ∧ e.Renames s n old new
  complete : ∀ n, s.Identifier n → E n → ∃ e ∈ edits, e.Renames s n old new
  apart : edits.Pairwise Edit.Apart

/-- Every identifier leads to the declaration that it led to, where the edits leave both. -/
structure Retains (edits : List Edit) (s s' : Source) : Prop where
  path : s'.path = s.path
  identifiers : ∀ n', s'.Identifier n' ↔ ∃ n, s.Identifier n ∧ n' = n.moved (s.shift edits)
  declarations : ∀ n, s.Identifier n →
    (Scopes.ofSource s').declarationAt? (n.moved (s.shift edits)).start =
      ((Scopes.ofSource s).declarationAt? n.start).map (Spot.moved (s.shift edits))

variable {s s' : Source} {n m : Spot}

theorem identifier_moved_iff {f : Nat → Nat}
    (h : s'.tree = s.tree.moved f) {n' : Spot} :
    s'.Identifier n' ↔ ∃ n, s.Identifier n ∧ n' = n.moved f := by
  constructor
  · rintro ⟨hunder, hkind⟩
    rw [h, ← Spot.moved_root] at hunder
    obtain ⟨n, hn, rfl⟩ := Spot.Under.exists_of_moved hunder
    exact ⟨n, ⟨hn, by rwa [Spot.kind_moved] at hkind⟩, rfl⟩
  · rintro ⟨n, ⟨hunder, hkind⟩, rfl⟩
    refine ⟨?_, by rwa [Spot.kind_moved]⟩
    rw [h, ← Spot.moved_root]
    exact hunder.moved

theorem Compared.under (h : s.Compared n) : (Spot.root s.tree).Under n := by
  rcases h with hn | ⟨p, hp, -, hc⟩
  · exact hn.under
  · exact Spot.under_of_child? hp hc

/-- A node begins before an identifier or behind it. -/
theorem WellFormed.stop_le_or_start_le (hw : s.WellFormed) (hframed : s.Framed)
    (hn : s.Identifier n) (hm : (Spot.root s.tree).Under m) :
    n.stop ≤ m.start ∨ m.start ≤ n.start := by
  rcases hw.laid.under_or_apart hm hn.under with habove | hbelow | hbefore | hbehind
  · exact Or.inr (hw.laid.range_under hm habove).1
  · rcases hbelow.eq_or_under_child with rfl | ⟨number, child, hchild, -⟩
    · exact Or.inr (Nat.le_refl _)
    · simp [hw.leaf n hn] at hchild
  · exact Or.inr (Nat.le_trans (hframed m hm).1 hbefore)
  · exact Or.inl hbehind

/-- An identifier ends before another does, or behind where it ends. -/
theorem WellFormed.stop_le_or_stop_le (hw : s.WellFormed) (hn : s.Identifier n)
    (hm : s.Identifier m) : n.stop ≤ m.stop ∨ m.stop ≤ n.start := by
  rcases hw.eq_or_apart hn hm with rfl | hbefore | hbehind
  · exact Or.inl (Nat.le_refl _)
  · exact Or.inl (Nat.le_trans hbefore (Nat.le_of_lt (hw.nonempty m hm)))
  · exact Or.inr hbehind

/-- An identifier begins before another does, or behind where it ends. -/
theorem WellFormed.stop_le_or_start_le_start (hw : s.WellFormed) (hn : s.Identifier n)
    (hm : s.Identifier m) : n.stop ≤ m.start ∨ m.start ≤ n.start := by
  rcases hw.eq_or_apart hn hm with rfl | hbefore | hbehind
  · exact Or.inr (Nat.le_refl _)
  · exact Or.inl hbefore
  · exact Or.inr (Nat.le_trans (Nat.le_of_lt (hw.nonempty m hm)) hbehind)

namespace Rewords

variable {E : Spot → Prop} {new : Spot → String} {edits : List Edit}
  (h : s.Rewords E new edits) (hw : s.WellFormed)

include h

theorem fits : ∀ e ∈ edits, e.Fits s.text.length := by
  intro e he
  obtain ⟨n, old, -, hrenames⟩ := h.sound e he
  exact hrenames.fits

/-- An edit puts its replacement in the place of its identifier. -/
theorem passed_renamed (hn : s.Identifier n) (hE : E n) {b c : Nat} (hb : s.Marks n.start b)
    (hc : s.Marks n.stop c) : passed edits b ((s.text.take c).drop b) = (new n).toList := by
  obtain ⟨e, he, old, hrenames⟩ := h.complete n hn hE
  obtain ⟨before, after, rfl⟩ := List.append_of_mem he
  have hperm : (before ++ e :: after).Perm (e :: (before ++ after)) := List.perm_middle
  have hapart := List.pairwise_cons.1 ((hperm.pairwise_iff fun h => h.symm).1 h.apart)
  obtain ⟨a, k, ha, hk, hpos, hstart, hstop, -⟩ := hrenames.span
  obtain rfl := (hstart.eq_iff hb).1 rfl
  obtain rfl := (hstop.eq_iff hc).1 rfl
  have hlength : ((s.text.take (a + k)).drop a).length = k := by
    have hle := hstop.1
    rw [List.length_drop, List.length_take]
    omega
  rw [passed_perm hperm h.apart, passed_at ha (by rw [hk, hlength]) hrenames.length_pos,
    hrenames.replacement]
  intro f hf
  obtain ⟨m, old', -, hother⟩ := h.sound f (hperm.mem_iff.2 (List.mem_cons_of_mem _ hf))
  refine ⟨hother.length_pos, ?_⟩
  rw [hlength]
  rcases (hapart.1 f hf).disjoint with hleft | hright
  · exact Or.inr (by omega)
  · exact Or.inl (by omega)

include hw

/-- Where a node begins that is compared is outside of all edits. -/
theorem outside_start (hframed : s.Framed) (hm : s.Compared m) {c : Nat}
    (hc : s.Marks m.start c) : ∀ e ∈ edits, e.Outside c c := by
  intro e he
  obtain ⟨n, old, -, hrenames⟩ := h.sound e he
  exact hrenames.outside hc hc (hw.stop_le_or_start_le hframed hrenames.identifier hm.under)

/-- Where an identifier begins is outside of all edits. -/
theorem outside_identifier (hm : s.Identifier m) {c : Nat} (hc : s.Marks m.start c) :
    ∀ e ∈ edits, e.Outside c c := by
  intro e he
  obtain ⟨n, old, -, hrenames⟩ := h.sound e he
  exact hrenames.outside hc hc (hw.stop_le_or_start_le_start hrenames.identifier hm)

/-- Where an identifier ends is outside of all edits. -/
theorem outside_stop (hm : s.Identifier m) {c : Nat} (hc : s.Marks m.stop c) :
    ∀ e ∈ edits, e.Outside c c := by
  intro e he
  obtain ⟨n, old, -, hrenames⟩ := h.sound e he
  exact hrenames.outside hc hc (hw.stop_le_or_stop_le hrenames.identifier hm)

/-- An identifier that no edit renames is outside of all edits. -/
theorem outside_of_kept (hm : s.Identifier m) (hE : ¬E m) {b c : Nat} (hb : s.Marks m.start b)
    (hc : s.Marks m.stop c) : ∀ e ∈ edits, e.Outside b c := by
  intro e he
  obtain ⟨n, old, hEn, hrenames⟩ := h.sound e he
  refine hrenames.outside hb hc ?_
  rcases hw.eq_or_apart hrenames.identifier hm with rfl | hapart
  · exact absurd hEn hE
  · exact hapart

variable (hs : s.IsUtf8) (hs' : s'.IsUtf8) (htext : s'.text = onePass edits 0 s.text)

include hs hs' htext

/-- A moved identifier covers what the pass puts out for it. -/
theorem exists_passed (hn : s.Identifier n) :
    ∃ b c, s.Marks n.start b ∧ s.Marks n.stop c ∧ b < c ∧
      s.textOf n.tree = String.ofList ((s.text.take c).drop b) ∧
      s'.textOf (n.tree.moved (s.shift edits)) =
        String.ofList (passed edits b ((s.text.take c).drop b)) := by
  obtain ⟨b, c, hb, hc, hlt, hold⟩ := hw.exists_marks hs hn
  exact ⟨b, c, hb, hc, hlt, hold, textOf_moved hs h.fits h.apart htext hs' hb hc (Nat.le_of_lt hlt)
    (h.outside_identifier hw hn hb) (h.outside_stop hw hn hc)⟩

/-- An identifier that an edit is for has its new text. -/
theorem textOf_renamed (hn : s.Identifier n) (hE : E n) :
    s'.textOf (n.tree.moved (s.shift edits)) = new n := by
  obtain ⟨b, c, hb, hc, -, -, hnew⟩ := h.exists_passed hw hs hs' htext hn
  rwa [h.passed_renamed hn hE hb hc, String.ofList_toList] at hnew

/-- An identifier that no edit is for has the text that it had. -/
theorem textOf_kept (hn : s.Identifier n) (hE : ¬E n) :
    s'.textOf (n.tree.moved (s.shift edits)) = s.textOf n.tree := by
  obtain ⟨b, c, hb, hc, hlt, hold, hnew⟩ := h.exists_passed hw hs hs' htext hn
  rw [hnew, hold, passed_of_outside]
  intro e he
  refine (h.outside_of_kept hw hn hE hb hc e he).mono (Nat.le_refl b) ?_
  rw [List.length_drop, List.length_take]
  have := hc.1
  omega

end Rewords

namespace Rename

variable {E : Spot → Prop} {old new : String} {edits : List Edit}
  (h : s.Rename E old new edits) (hw : s.WellFormed)

include h

theorem rewords : s.Rewords E (fun _ => new) edits := by
  refine ⟨fun e he => ?_, fun n hn hE => ?_, h.apart⟩
  · obtain ⟨n, hE, hrenames⟩ := h.sound e he
    exact ⟨n, old, hE, hrenames⟩
  · obtain ⟨e, he, hrenames⟩ := h.complete n hn hE
    exact ⟨e, he, old, hrenames⟩

include hw

/-- The text between two nodes does not vanish. -/
theorem passed_between (hframed : s.Framed) (hspaced : new = "" → s.Spaced old) (hn : s.Compared n)
    (hm : s.Compared m) {b c : Nat} (hb : s.Marks n.start b) (hc : s.Marks m.start c)
    (hlt : b < c) : passed edits b ((s.text.take c).drop b) ≠ [] := by
  have hend : b + ((s.text.take c).drop b).length = c := by
    have hle := hc.1
    rw [List.length_drop, List.length_take]
    omega
  cases hgone : isReplaced edits b with
  | false => exact passed_ne_nil (Nat.le_refl b) (by omega) (Or.inl hgone)
  | true =>
      -- an edit that takes the first character away begins with it
      obtain ⟨e, he, hcovers⟩ := List.any_eq_true.1 hgone
      rw [Bool.and_eq_true, decide_eq_true_eq, decide_eq_true_eq] at hcovers
      obtain ⟨i, -, hrenames⟩ := h.sound e he
      have hout := (h.rewords.outside_start hw hframed hn hb e he).outside
      have hout' := (h.rewords.outside_start hw hframed hm hc e he).outside
      obtain ⟨a, k, ha, hk, hpos, hstart, hstop, -⟩ := hrenames.span
      obtain rfl : a = b := by omega
      by_cases hnew : new = ""
      · -- with nothing put in its place, the character behind it stays
        have hne := hspaced hnew i m hrenames.identifier hrenames.text hm
        have hak : a + k ≠ c := fun heq => hne ((hstop.eq_iff hc).2 heq)
        refine passed_ne_nil (i := a + k) (by omega) (by omega) (Or.inl ?_)
        rw [isReplaced, List.any_eq_false]
        intro f hf
        obtain ⟨j, -, hother⟩ := h.sound f hf
        obtain ⟨a', k', ha', hk', hpos', hstart', hstop', -⟩ := hother.span
        have hne' : a + k ≠ a' := fun heq =>
          hspaced hnew i j hrenames.identifier hrenames.text (Or.inl hother.identifier)
            ((hstop.eq_iff hstart').2 heq)
        have hle : a' + k' ≤ a ∨ a + k ≤ a' ∨ a' = a ∧ a' + k' = a + k := by
          rcases hw.eq_or_apart hrenames.identifier hother.identifier with rfl | hleft | hright
          · exact Or.inr (Or.inr ⟨(hstart'.eq_iff hstart).1 rfl, (hstop'.eq_iff hstop).1 rfl⟩)
          · exact Or.inr (Or.inl ((hstop.le_iff hstart').1 hleft))
          · exact Or.inl ((hstop'.le_iff hstart).1 hright)
        rw [Bool.and_eq_true, decide_eq_true_eq, decide_eq_true_eq]
        omega
      · refine passed_ne_nil (Nat.le_refl a) (by omega) (Or.inr fun hnil => hnew ?_)
        rw [inserted, List.flatMap_eq_nil_iff] at hnil
        have hreplacement := hnil e (List.mem_filter.2 ⟨he, beq_iff_eq.2 ha⟩)
        rw [hrenames.replacement] at hreplacement
        exact String.toList_inj.1 hreplacement

/-- Nodes that start apart are moved apart. -/
theorem start_eq_of_shift_eq (hs : s.IsUtf8) (hframed : s.Framed)
    (hspaced : new = "" → s.Spaced old) (hn : s.Compared n) (hm : s.Compared m)
    (heq : s.shift edits n.start = s.shift edits m.start) : n.start = m.start := by
  have hlt : ∀ {n m : Spot}, s.Compared n → s.Compared m → n.start < m.start →
      s.shift edits n.start < s.shift edits m.start := by
    intro n m hn hm hlt
    obtain ⟨b, hb⟩ := (hframed n hn.under).2
    obtain ⟨c, hc⟩ := (hframed m hm.under).2
    have hbc := (hb.lt_iff hc).1 hlt
    have hpos := List.length_pos_iff.2 (h.passed_between hw hframed hspaced hn hm hb hc hbc)
    have hwidth := length_le_width (passed edits b ((s.text.take c).drop b))
    rw [shift_add_width hs h.rewords.fits h.apart hb hc (Nat.le_of_lt hbc)
      (h.rewords.outside_start hw hframed hn hb) (h.rewords.outside_start hw hframed hm hc)]
    omega
  rcases Nat.lt_trichotomy n.start m.start with hleft | hsame | hright
  · exact absurd heq (Nat.ne_of_lt (hlt hn hm hleft))
  · exact hsame
  · exact absurd heq.symm (Nat.ne_of_lt (hlt hm hn hright))

/-- The file with the edits made has the new name where the old was renamed, and other names as they
were. -/
theorem renamed (hs : s.IsUtf8) (hframed : s.Framed) (hspaced : new = "" → s.Spaced old)
    (hs' : s'.IsUtf8) (htext : s'.text = onePass edits 0 s.text)
    (htree : s'.tree = s.tree.moved (s.shift edits))
    (hfresh : ∀ n, s.Identifier n → s.textOf n.tree ≠ new)
    (hclosed : ∀ m ∈ (Scopes.ofSource s).mentions, ∀ m' ∈ (Scopes.ofSource s).mentions,
      m.binding = m'.binding → E m.spot → E m'.spot) :
    Scope.Renamed (s.shift edits) E old new s s' := by
  refine ⟨htree, fun n m hn hm => h.start_eq_of_shift_eq hw hs hframed hspaced hn hm, ?_, ?_,
    hfresh, hclosed⟩
  · intro n hn hE
    obtain ⟨e, -, hrenames⟩ := h.complete n hn hE
    exact ⟨hrenames.text, h.rewords.textOf_renamed hw hs hs' htext hn hE⟩
  · intro n hn hE
    exact h.rewords.textOf_kept hw hs hs' htext hn hE

/-- The file with the edits made keeps its declarations. -/
theorem retains (hs : s.IsUtf8) (hframed : s.Framed) (hspaced : new = "" → s.Spaced old)
    (hs' : s'.IsUtf8) (htext : s'.text = onePass edits 0 s.text)
    (htree : s'.tree = s.tree.moved (s.shift edits))
    (hfresh : ∀ n, s.Identifier n → s.textOf n.tree ≠ new)
    (hclosed : ∀ m ∈ (Scopes.ofSource s).mentions, ∀ m' ∈ (Scopes.ofSource s).mentions,
      m.binding = m'.binding → E m.spot → E m'.spot) (hpath : s'.path = s.path) :
    s.Retains edits s' := by
  have hrenamed := h.renamed hw hs hframed hspaced hs' htext htree hfresh hclosed
  exact ⟨hpath, fun n' => identifier_moved_iff htree, fun n hn => hrenamed.declarationAt?_eq hw hn⟩

end Rename

end Source

end Redline
