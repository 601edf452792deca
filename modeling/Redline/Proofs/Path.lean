import Redline.Path
import Redline.Proofs.Text.Parts

/-!
# Normal paths and relative paths

The parts of a path that was read are `Clean`: none is empty, a single dot, or has a slash. Clean
parts written with slashes between them read back, and the relative path from one clean absolute
path to another, seen from the first, is the second. So two paths with one relative form are one.
-/

namespace Redline

namespace Path

/-- A part that a path may have after it was read. -/
structure IsPart (part : String) : Prop where
  ne_empty : part ≠ ""
  ne_dot : part ≠ "."
  no_slash : '/' ∉ part.toList

/-- An absolute path as it is read. -/
structure Clean (p : Path) : Prop where
  absolute : p.isAbsolute = true
  parts : ∀ part ∈ p.parts, IsPart part

theorem isPart_of_mem_partsOf {s part : String} (h : part ∈ partsOf s) : IsPart part := by
  obtain ⟨hmem, hkeep⟩ := List.mem_filter.1 h
  obtain ⟨cs, hcs, rfl⟩ := List.mem_map.1 hmem
  rw [decide_eq_true_eq] at hkeep
  exact ⟨hkeep.1, hkeep.2, by rw [String.toList_ofList]; exact Text.notMem_of_mem_splitAtChar hcs⟩

theorem isPart_dots : IsPart ".." := ⟨by decide, by decide, by decide⟩

theorem clean_ofString {s : String} (h : s.toList.head? = some '/') : (ofString s).Clean :=
  ⟨by simp [ofString, h], fun _ hpart => isPart_of_mem_partsOf hpart⟩

theorem Clean.join {p : Path} (h : p.Clean) (s : String) : (p.join s).Clean := by
  simp only [Path.join]
  split_ifs with habs
  · exact ⟨habs, fun _ hpart => isPart_of_mem_partsOf hpart⟩
  · refine ⟨h.absolute, fun part hpart => ?_⟩
    rcases List.mem_append.1 hpart with hpart | hpart
    · exact h.parts part hpart
    · exact isPart_of_mem_partsOf hpart

theorem Clean.parent {p : Path} (h : p.Clean) : p.parent.Clean :=
  ⟨h.absolute, fun part hpart => h.parts part (List.dropLast_subset _ hpart)⟩

theorem partsOf_intercalate {parts : List String} (hne : parts ≠ [])
    (h : ∀ part ∈ parts, IsPart part) : partsOf ("/".intercalate parts) = parts := by
  rw [partsOf, Text.splitOnChar_intercalate hne fun part hpart => (h part hpart).no_slash,
    List.filter_eq_self]
  intro part hpart
  rw [decide_eq_true_eq]
  exact ⟨(h part hpart).ne_empty, (h part hpart).ne_dot⟩

theorem head?_intercalate {parts : List String} (h : ∀ part ∈ parts, IsPart part) :
    ("/".intercalate parts).toList.head? ≠ some '/' := by
  cases parts with
  | nil => simp
  | cons part rest =>
      have hpart := h part (by simp)
      obtain ⟨c, cs, hcs⟩ : ∃ c cs, part.toList = c :: cs := by
        cases hcs : part.toList with
        | nil => exact absurd (String.toList_eq_nil_iff.1 hcs) hpart.ne_empty
        | cons c cs => exact ⟨c, cs, rfl⟩
      have hc : c ≠ '/' := fun hc => hpart.no_slash (by simp [hcs, hc])
      have hhead : ("/".intercalate (part :: rest)).toList.head? = some c := by
        cases rest with
        | nil => rw [String.intercalate_singleton, hcs, List.head?_cons]
        | cons next rest =>
            rw [String.intercalate_cons_cons, String.toList_append, String.toList_append, hcs]
            rfl
      rw [hhead]
      simpa using hc

/-! ### Two dots -/

/-- In an absolute path two dots take away the part before them. -/
theorem collapse_dots {done : List String} (h : ".." ∉ done) (rest : List String) :
    collapse true done (".." :: rest) = collapse true done.tail rest := by
  cases done with
  | nil => rfl
  | cons part done =>
      have hpart : part ≠ ".." := fun hpart => h (by simp [hpart])
      rw [collapse]
      · rfl
      · exact hpart

theorem collapse_part (isAbsolute : Bool) (done : List String) {part : String} (h : part ≠ "..")
    (rest : List String) :
    collapse isAbsolute done (part :: rest) = collapse isAbsolute (part :: done) rest := by
  rw [collapse]
  exact h

theorem dots_notMem_collapse {done parts : List String} (h : ".." ∉ done) :
    ".." ∉ collapse true done parts := by
  induction parts generalizing done with
  | nil => simpa [collapse] using h
  | cons part rest ih =>
      by_cases hpart : part = ".."
      · subst hpart
        rw [collapse_dots h]
        exact ih fun hmem => h (List.mem_of_mem_tail hmem)
      · rw [collapse_part _ _ hpart]
        refine ih fun hmem => ?_
        rcases List.mem_cons.1 hmem with heq | hmem
        · exact hpart heq.symm
        · exact h hmem

theorem collapse_append {done : List String} (h : ".." ∉ done) (xs ys : List String) :
    collapse true done (xs ++ ys) = collapse true (collapse true done xs).reverse ys := by
  induction xs generalizing done with
  | nil => rw [List.nil_append, collapse, List.reverse_reverse]
  | cons x xs ih =>
      by_cases hx : x = ".."
      · subst hx
        rw [List.cons_append, collapse_dots h, collapse_dots h,
          ih fun hmem => h (List.mem_of_mem_tail hmem)]
      · rw [List.cons_append, collapse_part _ _ hx, collapse_part _ _ hx, ih]
        intro hmem
        rcases List.mem_cons.1 hmem with heq | hmem
        · exact hx heq.symm
        · exact h hmem

theorem collapse_of_no_dots (done : List String) {parts : List String} (h : ".." ∉ parts) :
    collapse true done parts = done.reverse ++ parts := by
  induction parts generalizing done with
  | nil => rw [collapse, List.append_nil]
  | cons part rest ih =>
      have hpart : part ≠ ".." := fun hpart => h (by simp [hpart])
      rw [collapse_part _ _ hpart, ih _ fun hmem => h (List.mem_cons_of_mem _ hmem)]
      simp

/-- Going up takes away parts from the end. -/
theorem collapse_up {done : List String} (h : ".." ∉ done) (up rest : List String) :
    collapse true done (up.map (fun _ => "..") ++ rest) =
      collapse true (done.drop up.length) rest := by
  induction up generalizing done with
  | nil => rfl
  | cons u up ih =>
      rw [List.map_cons, List.cons_append, collapse_dots h,
        ih fun hmem => h (List.mem_of_mem_tail hmem), List.length_cons, List.drop_tail]

theorem dropShared_spec (xs ys : List String) :
    ∃ shared, xs = shared ++ (dropShared xs ys).1 ∧ ys = shared ++ (dropShared xs ys).2 := by
  induction xs generalizing ys with
  | nil => exact ⟨[], by simp [dropShared]⟩
  | cons x xs ih =>
      cases ys with
      | nil => exact ⟨[], by simp [dropShared]⟩
      | cons y ys =>
          by_cases hxy : x = y
          · subst hxy
            obtain ⟨shared, hxs, hys⟩ := ih ys
            refine ⟨x :: shared, ?_, ?_⟩
            · rw [dropShared, if_pos rfl, List.cons_append, ← hxs]
            · rw [dropShared, if_pos rfl, List.cons_append, ← hys]
          · exact ⟨[], by simp [dropShared, hxy]⟩

theorem normalize_parts (p : Path) : p.normalize.parts = collapse p.isAbsolute [] p.parts := rfl

theorem isPart_of_mem_collapse {done parts : List String} (hdone : ".." ∉ done)
    (h : ∀ part ∈ parts, IsPart part) (h' : ∀ part ∈ done, IsPart part) :
    ∀ part ∈ collapse true done parts, IsPart part := by
  induction parts generalizing done with
  | nil => simpa [collapse] using h'
  | cons p rest ih =>
      have hrest : ∀ part ∈ rest, IsPart part :=
        fun part hpart => h part (List.mem_cons_of_mem _ hpart)
      by_cases hp : p = ".."
      · subst hp
        rw [collapse_dots hdone]
        exact ih (fun hmem => hdone (List.mem_of_mem_tail hmem)) hrest
          fun part hpart => h' part (List.mem_of_mem_tail hpart)
      · rw [collapse_part _ _ hp]
        refine ih ?_ hrest ?_
        · intro hmem
          rcases List.mem_cons.1 hmem with heq | hmem
          · exact hp heq.symm
          · exact hdone hmem
        · intro part hpart
          rcases List.mem_cons.1 hpart with rfl | hpart
          · exact h part (by simp)
          · exact h' part hpart

theorem Clean.normalize {p : Path} (h : p.Clean) : p.normalize.Clean := by
  refine ⟨h.absolute, ?_⟩
  rw [normalize_parts, h.absolute]
  exact isPart_of_mem_collapse List.not_mem_nil h.parts (by simp)

theorem Clean.dots_notMem {p : Path} (h : p.Clean) : ".." ∉ p.normalize.parts := by
  rw [normalize_parts, h.absolute]
  exact dots_notMem_collapse List.not_mem_nil

/-- The parts of a relative path are parts of paths. -/
theorem isPart_of_mem_way {target : Path} (ht : target.Clean) (start : Path) :
    ∀ part ∈ (dropShared target.normalize.parts start.normalize.parts).2.map (fun _ => "..")
      ++ (dropShared target.normalize.parts start.normalize.parts).1, IsPart part := by
  obtain ⟨shared, htarget, -⟩ := dropShared_spec target.normalize.parts start.normalize.parts
  intro part hpart
  rcases List.mem_append.1 hpart with hpart | hpart
  · obtain ⟨_, _, rfl⟩ := List.mem_map.1 hpart
    exact isPart_dots
  · exact ht.normalize.parts part (by rw [htarget]; exact List.mem_append_right _ hpart)

/-- The relative path from one path to another, seen from the first, is the second. -/
theorem join_relative {target start : Path} (ht : target.Clean) (hs : start.Clean) :
    (start.join (target.relative start)).normalize.parts = target.normalize.parts := by
  obtain ⟨shared, htarget, hstart⟩ :=
    dropShared_spec target.normalize.parts start.normalize.parts
  have hparts := isPart_of_mem_way ht start
  generalize hdown : (dropShared target.normalize.parts start.normalize.parts).1 = down at *
  generalize hup : (dropShared target.normalize.parts start.normalize.parts).2 = up at *
  have hjoin : start.join (target.relative start) =
      { start with parts := start.parts ++ (up.map (fun _ => "..") ++ down) } := by
    simp only [relative, hdown, hup]
    by_cases hempty : (up.map (fun _ => "..") ++ down) = []
    · rw [hempty]
      rfl
    · have hhead := beq_eq_false_iff_ne.2 (head?_intercalate hparts)
      rw [if_neg (by simpa using hempty)]
      simp only [Path.join, ofString, partsOf_intercalate hempty hparts, hhead]
      rfl
  have hnodots : ".." ∉ shared := fun hmem =>
    hs.dots_notMem (by rw [hstart]; exact List.mem_append_left _ hmem)
  have hdots : ".." ∉ down := fun hmem =>
    ht.dots_notMem (by rw [htarget]; exact List.mem_append_right _ hmem)
  have hstart' : collapse true [] start.parts = shared ++ up := by
    rw [← hstart, normalize_parts, hs.absolute]
  rw [hjoin, normalize_parts, hs.absolute]
  show collapse true [] (start.parts ++ _) = _
  rw [collapse_append List.not_mem_nil, hstart', collapse_up, List.reverse_append,
    List.drop_left' (by simp), collapse_of_no_dots _ hdots, List.reverse_reverse, ← htarget]
  rw [List.mem_reverse, ← hstart]
  exact hs.dots_notMem

theorem relative_congr {target target' start : Path}
    (h : target.normalize.parts = target'.normalize.parts) :
    target.relative start = target'.relative start := by
  rw [relative, relative, h]

/-- A relative path does not start with a single dot that is followed by a slash. -/
theorem relative_ne_dot_slash {target start : Path} (ht : target.Clean) (rest : List Char) :
    (target.relative start).toList ≠ '.' :: '/' :: rest := by
  have hparts := isPart_of_mem_way ht start
  simp only [relative]
  cases hway : (dropShared target.normalize.parts start.normalize.parts).2.map (fun _ => "..")
      ++ (dropShared target.normalize.parts start.normalize.parts).1 with
  | nil => simp
  | cons part more =>
      rw [hway] at hparts
      have hpart := hparts part (by simp)
      intro heq
      obtain ⟨after, hafter⟩ : ∃ after,
          ("/".intercalate (part :: more)).toList = part.toList ++ after := by
        cases more with
        | nil => exact ⟨[], by simp⟩
        | cons next more => exact ⟨_, by rw [String.intercalate_cons_cons, String.toList_append,
            String.toList_append, List.append_assoc]⟩
      rw [if_neg (by simp), hafter] at heq
      cases hchars : part.toList with
      | nil => exact hpart.ne_empty (String.toList_eq_nil_iff.1 hchars)
      | cons c cs =>
          rw [hchars, List.cons_append, List.cons.injEq] at heq
          cases cs with
          | nil =>
              refine hpart.ne_dot (String.toList_injective ?_)
              rw [hchars, heq.1]
              rfl
          | cons c' cs =>
              rw [List.cons_append, List.cons.injEq] at heq
              exact hpart.no_slash (by rw [hchars, heq.2.1]; simp)

end Path

end Redline
