import Mathlib.Tactic.Common
import Redline.Text.Lines

/-!
# Parts between separators

Cutting a text at a separator takes apart what was put together with separators between, when the
parts have none, and the parts of any text put together again are the text. So a text with a number
of parts behind it, each after a separator, tells the text in front and the parts.
-/

namespace Redline

namespace Text

theorem splitAtChar_of_notMem {sep : Char} {cs : List Char} (h : sep ∉ cs) :
    splitAtChar sep cs = [cs] := by
  induction cs with
  | nil => rfl
  | cons c cs ih =>
      have hc : c ≠ sep := fun hc => h (by simp [hc])
      rw [splitAtChar, if_neg hc, ih fun hmem => h (List.mem_cons_of_mem _ hmem)]

theorem splitAtChar_append_cons {sep : Char} {cs : List Char} (h : sep ∉ cs) (ds : List Char) :
    splitAtChar sep (cs ++ sep :: ds) = cs :: splitAtChar sep ds := by
  induction cs with
  | nil => rw [List.nil_append, splitAtChar, if_pos rfl]
  | cons c cs ih =>
      have hc : c ≠ sep := fun hc => h (by simp [hc])
      rw [List.cons_append, splitAtChar, if_neg hc, ih fun hmem => h (List.mem_cons_of_mem _ hmem)]

/-- A part between separators has none. -/
theorem notMem_of_mem_splitAtChar {sep : Char} {cs part : List Char}
    (h : part ∈ splitAtChar sep cs) : sep ∉ part := by
  induction cs generalizing part with
  | nil =>
      rw [splitAtChar, List.mem_singleton] at h
      subst h
      exact List.not_mem_nil
  | cons c cs ih =>
      rw [splitAtChar] at h
      split_ifs at h with hc
      · rcases List.mem_cons.1 h with rfl | h
        · exact List.not_mem_nil
        · exact ih h
      · cases hsplit : splitAtChar sep cs with
        | nil =>
            rw [hsplit, List.mem_singleton] at h
            subst h
            simpa using Ne.symm hc
        | cons first rest =>
            rw [hsplit] at h ih
            rcases List.mem_cons.1 h with rfl | h
            · intro hmem
              rcases List.mem_cons.1 hmem with hsep | hmem
              · exact hc hsep.symm
              · exact ih (by simp) hmem
            · exact ih (List.mem_cons_of_mem _ h)

theorem splitAtChar_ne_nil (sep : Char) (cs : List Char) : splitAtChar sep cs ≠ [] := by
  cases cs with
  | nil => simp [splitAtChar]
  | cons c cs =>
      rw [splitAtChar]
      split
      · simp
      · split <;> simp

/-- The parts of two texts with a separator between are those of the one and of the other. -/
theorem splitAtChar_append (sep : Char) (cs ds : List Char) :
    splitAtChar sep (cs ++ sep :: ds) = splitAtChar sep cs ++ splitAtChar sep ds := by
  induction cs with
  | nil => simp [splitAtChar]
  | cons c cs ih =>
      rw [List.cons_append, splitAtChar, splitAtChar, ih]
      split_ifs with hc
      · rw [List.cons_append]
      · cases hparts : splitAtChar sep cs with
        | nil => exact absurd hparts (splitAtChar_ne_nil sep cs)
        | cons part parts => rfl

/-- Parts without separators, each behind one, are the last parts of a text. -/
theorem splitAtChar_append_parts {sep : Char} (cs : List Char) {parts : List (List Char)}
    (h : ∀ part ∈ parts, sep ∉ part) :
    splitAtChar sep (cs ++ parts.flatMap (sep :: ·)) = splitAtChar sep cs ++ parts := by
  induction parts generalizing cs with
  | nil => rw [List.flatMap_nil, List.append_nil, List.append_nil]
  | cons part parts ih =>
      rw [List.flatMap_cons, List.cons_append, splitAtChar_append,
        ih part fun p hp => h p (List.mem_cons_of_mem _ hp),
        splitAtChar_of_notMem (h part List.mem_cons_self), List.singleton_append]

/-- The parts of a text with separators between are the text. -/
theorem intercalate_splitAtChar (sep : Char) (cs : List Char) :
    (String.singleton sep).intercalate ((splitAtChar sep cs).map String.ofList) =
      String.ofList cs := by
  induction cs with
  | nil => rfl
  | cons c cs ih =>
      rw [splitAtChar]
      cases hparts : splitAtChar sep cs with
      | nil => exact absurd hparts (splitAtChar_ne_nil sep cs)
      | cons part parts =>
          rw [hparts] at ih
          split_ifs with hc
          · subst hc
            rw [List.map_cons, List.map_cons, String.intercalate_cons_cons, ← List.map_cons, ih]
            apply String.toList_injective
            simp
          · cases parts with
            | nil =>
                rw [List.map_singleton, String.intercalate_singleton] at ih ⊢
                apply String.toList_injective
                have hlist := congrArg String.toList ih
                simpa using hlist
            | cons next parts =>
                rw [List.map_cons, List.map_cons, String.intercalate_cons_cons] at ih ⊢
                apply String.toList_injective
                have hlist := congrArg String.toList ih
                simpa using hlist

theorem splitAtChar_injective (sep : Char) : Function.Injective (splitAtChar sep) := by
  intro cs ds h
  have hcs := intercalate_splitAtChar sep cs
  rw [h, intercalate_splitAtChar] at hcs
  exact (String.ofList_injective hcs).symm

/-- A text with as many parts behind it, none with a separator, is put together in one way. -/
theorem eq_of_append_parts_eq {sep : Char} {cs ds : List Char} {ps qs : List (List Char)}
    (hps : ∀ part ∈ ps, sep ∉ part) (hqs : ∀ part ∈ qs, sep ∉ part)
    (hlength : ps.length = qs.length)
    (h : cs ++ ps.flatMap (sep :: ·) = ds ++ qs.flatMap (sep :: ·)) : cs = ds ∧ ps = qs := by
  have hparts := congrArg (splitAtChar sep) h
  rw [splitAtChar_append_parts cs hps, splitAtChar_append_parts ds hqs] at hparts
  obtain ⟨hfront, hback⟩ := List.append_inj' hparts hlength
  exact ⟨splitAtChar_injective sep hfront, hback⟩

theorem splitOnChar_intercalate {parts : List String} (hne : parts ≠ [])
    (h : ∀ part ∈ parts, '/' ∉ part.toList) :
    splitOnChar '/' ("/".intercalate parts) = parts := by
  induction parts with
  | nil => exact absurd rfl hne
  | cons part rest ih =>
      have hpart := h part (by simp)
      cases rest with
      | nil =>
          rw [String.intercalate_singleton, splitOnChar, splitAtChar_of_notMem hpart]
          simp
      | cons next rest =>
          have hrest := ih (by simp) fun q hq => h q (List.mem_cons_of_mem _ hq)
          rw [splitOnChar] at hrest ⊢
          rw [String.intercalate_cons_cons, String.toList_append, String.toList_append,
            List.append_assoc]
          rw [show ("/" : String).toList ++ ("/".intercalate (next :: rest)).toList =
            '/' :: ("/".intercalate (next :: rest)).toList from rfl, splitAtChar_append_cons hpart,
            List.map_cons, hrest, String.ofList_toList]

end Text

end Redline
