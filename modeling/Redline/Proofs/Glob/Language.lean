import Mathlib.Data.List.Basic
import Mathlib.Data.List.Flatten
import Mathlib.Data.List.Forall2
import Mathlib.Data.List.Infix
import Mathlib.Tactic.Common
import Redline.Glob.Basic
import Redline.Glob.Braces

/-!
# What alternatives in braces expand to

A pattern is expanded by writing each alternative of its first group in the place of the group and
expanding what this gives from its start. A pair of braces goes with every step, so this ends for
any text. A `Braced` pattern is a tree of characters and groups; what it is written as expands to
the texts that the tree stands for, with the choices made from left to right.
-/

namespace Redline.Glob

variable {before cs o : List Char} {g : Group}

/-! ### The steps end -/

theorem length_le_of_mem_alternatives {depth : Int} {part : List Char}
    (h : o ∈ alternatives depth part cs) : o.length ≤ part.length + cs.length := by
  fun_induction alternatives depth part cs with
  | case1 => simp_all
  | case2 depth part c rest hcut ih =>
      rcases List.mem_cons.1 h with rfl | h
      · simp
      · have := ih h
        grind
  | case3 | case4 | case5 => grind

mutual

theorem length_lt_of_findGroup {before cs : List Char} (h : findGroup before cs = some g)
    (ho : o ∈ g.options) :
    g.before.length + o.length + g.after.length < before.length + cs.length :=
  match cs with
  | [] => by simp [findGroup] at h
  | c :: rest => by
      rw [findGroup] at h
      split_ifs at h with hopen
      · have := length_lt_of_inGroup h ho
        grind
      · have := length_lt_of_findGroup h ho
        grind

theorem length_lt_of_inGroup {before : List Char} {depth : Nat} {body cs : List Char}
    (h : inGroup before depth body cs = some g) (ho : o ∈ g.options) :
    g.before.length + o.length + g.after.length < before.length + body.length + cs.length + 1 :=
  match cs with
  | [] => by simp [inGroup] at h
  | c :: rest => by
      unfold inGroup at h
      split_ifs at h with hopen hclose
      · have := length_lt_of_inGroup h ho
        grind
      · cases depth with
        | succ depth =>
            have := length_lt_of_inGroup h ho
            grind
        | zero =>
            dsimp only at h
            split_ifs at h with hfew
            · have := length_lt_of_findGroup h ho
              grind
            · obtain rfl := Option.some.inj h
              have := length_le_of_mem_alternatives ho
              grind
      · have := length_lt_of_inGroup h ho
        grind

end

/-- As many steps as the text has characters are enough, and more change nothing. -/
theorem expandChars_of_length_le {m n : Nat} (hm : cs.length ≤ m) (hn : cs.length ≤ n) :
    expandChars m cs = expandChars n cs := by
  induction m generalizing n cs with
  | zero =>
      obtain rfl := List.length_eq_zero_iff.1 (Nat.le_zero.1 hm)
      cases n with
      | zero => rfl
      | succ n => simp [expandChars, findGroup]
  | succ m ih =>
      cases n with
      | zero =>
          obtain rfl := List.length_eq_zero_iff.1 (Nat.le_zero.1 hn)
          simp [expandChars, findGroup]
      | succ n =>
          simp only [expandChars]
          cases hg : findGroup [] cs with
          | none => rfl
          | some g =>
              refine List.flatMap_congr fun o ho => ih ?_ ?_
              all_goals
                have := length_lt_of_findGroup hg ho
                simp only [List.length_append, List.length_nil] at this ⊢
                omega

/-- The rewritings of a pattern, one for each alternative of its first group. -/
def rewritings? (pattern : String) : Option (List String) :=
  (findGroup [] pattern.toList).map fun g =>
    g.options.map fun o => String.ofList (g.before ++ o ++ g.after)

/-- One text is a rewriting of another. -/
def Rewriting (text pattern : String) : Prop :=
  ∃ texts, rewritings? pattern = some texts ∧ text ∈ texts

/-- There is no endless chain of rewritings. -/
theorem wellFounded_rewriting : WellFounded Rewriting := by
  refine Subrelation.wf ?_ (measure fun pattern : String => pattern.toList.length).wf
  rintro text pattern ⟨texts, htexts, htext⟩
  obtain ⟨g, hg, rfl⟩ := Option.map_eq_some_iff.1 htexts
  obtain ⟨o, ho, rfl⟩ := List.mem_map.1 htext
  have := length_lt_of_findGroup hg ho
  show (String.ofList _).toList.length < pattern.toList.length
  simp only [String.toList_ofList, List.length_append, List.length_nil] at this ⊢
  omega

/-- A pattern without a group stands for itself, any other for what its rewritings stand for. -/
theorem expand_eq (pattern : String) :
    expand pattern =
      match rewritings? pattern with
      | none => [pattern]
      | some texts => texts.flatMap expand := by
  have hlength : pattern.length = pattern.toList.length := String.length_toList.symm
  have hmore := Nat.le_succ pattern.toList.length
  rw [expand, hlength, expandChars_of_length_le (Nat.le_refl _) hmore, expandChars, rewritings?]
  cases hg : findGroup [] pattern.toList with
  | none => simp
  | some g =>
      simp only [Option.map_some, List.map_flatMap, List.flatMap_map]
      refine List.flatMap_congr fun o ho => ?_
      have := length_lt_of_findGroup hg ho
      rw [expand, String.length_ofList, String.toList_ofList]
      refine congrArg _ (expandChars_of_length_le ?_ (Nat.le_refl _))
      simp only [List.length_append, List.length_nil] at this ⊢
      omega

/-! ### Trees of groups -/

mutual

/-- A pattern of literal characters and groups. Neither brace is a literal, and a comma is none
inside of a group. -/
inductive Braced : Bool → Type
  | nil {inside : Bool} : Braced inside
  | char {inside : Bool} (c : Char) (hopen : c ≠ '\x7b') (hclose : c ≠ '\x7d')
      (hcomma : inside = true → c ≠ ',') (rest : Braced inside) : Braced inside
  | group {inside : Bool} (options : Options) (rest : Braced inside) : Braced inside

/-- The alternatives of a group, which are two or more. -/
inductive Options : Type
  | pair (first second : Braced true) : Options
  | more (first : Braced true) (others : Options) : Options

end

mutual

/-- What a pattern is written as. -/
def Braced.written {inside : Bool} : Braced inside → List Char
  | .nil => []
  | .char c _ _ _ rest => c :: rest.written
  | .group options rest => '\x7b' :: options.written ++ '\x7d' :: rest.written

/-- What stands between the braces of a group. -/
def Options.written : Options → List Char
  | .pair first second => first.written ++ ',' :: second.written
  | .more first others => first.written ++ ',' :: others.written

end

mutual

/-- The texts that a pattern stands for, the choices made from left to right. -/
def Braced.texts {inside : Bool} : Braced inside → List (List Char)
  | .nil => [[]]
  | .char c _ _ _ rest => rest.texts.map (c :: ·)
  | .group options rest => options.texts.flatMap fun o => rest.texts.map (o ++ ·)

/-- The texts that the alternatives of a group stand for. -/
def Options.texts : Options → List (List Char)
  | .pair first second => first.texts ++ second.texts
  | .more first others => first.texts ++ others.texts

end

/-- The alternatives of a group, one by one. -/
def Options.members : Options → List (Braced true)
  | .pair first second => [first, second]
  | .more first others => first :: others.members

/-- An alternative with a pattern behind it. -/
def Braced.append {inside : Bool} : Braced true → Braced inside → Braced inside
  | .nil, q => q
  | .char c hopen hclose hcomma rest, q =>
      .char c hopen hclose (fun _ => hcomma rfl) (rest.append q)
  | .group options rest, q => .group options (rest.append q)

variable {inside : Bool}

theorem Braced.written_append (p : Braced true) (q : Braced inside) :
    (p.append q).written = p.written ++ q.written :=
  match p with
  | .nil => by simp only [append, written, List.nil_append]
  | .char c _ _ _ rest => by
      simp only [append, written, rest.written_append q, List.cons_append]
  | .group options rest => by
      simp only [append, written, rest.written_append q, List.cons_append, List.append_assoc]

theorem Braced.texts_append (p : Braced true) (q : Braced inside) :
    (p.append q).texts = p.texts.flatMap fun o => q.texts.map (o ++ ·) :=
  match p with
  | .nil => by simp [append, texts]
  | .char c _ _ _ rest => by
      simp only [append, texts, rest.texts_append q, List.map_flatMap, List.flatMap_map,
        List.map_map, List.cons_append, Function.comp_def]
  | .group options rest => by
      simp only [append, texts, rest.texts_append q, List.map_flatMap, List.flatMap_map,
        List.map_map, List.flatMap_assoc, List.append_assoc, Function.comp_def]

theorem Options.texts_eq_flatMap (options : Options) :
    options.texts = options.members.flatMap Braced.texts :=
  match options with
  | .pair first second => by simp [texts, members]
  | .more first others => by rw [texts, members, List.flatMap_cons, others.texts_eq_flatMap]

theorem Options.two_le_length_members (options : Options) : 2 ≤ options.members.length :=
  match options with
  | .pair _ _ => Nat.le_refl 2
  | .more _ others => Nat.le_succ_of_le others.two_le_length_members

/-! ### The scan of a tree -/

section Scan

variable {part body : List Char} {c : Char}

theorem findGroup_literal (h : c ≠ '\x7b') :
    findGroup before (c :: cs) = findGroup (c :: before) cs := by
  rw [findGroup, if_neg h]

theorem inGroup_literal {depth : Nat} (hopen : c ≠ '\x7b') (hclose : c ≠ '\x7d') :
    inGroup before depth body (c :: cs) = inGroup before depth (c :: body) cs := by
  rw [inGroup.eq_def]
  simp only [if_neg hopen, if_neg hclose]

theorem inGroup_open {depth : Nat} :
    inGroup before depth body ('\x7b' :: cs) = inGroup before (depth + 1) ('\x7b' :: body) cs := by
  rw [inGroup.eq_def]
  simp only [if_true]

theorem inGroup_close {depth : Nat} :
    inGroup before (depth + 1) body ('\x7d' :: cs) = inGroup before depth ('\x7d' :: body) cs := by
  rw [inGroup.eq_def]
  simp

theorem alternatives_comma :
    alternatives 0 part (',' :: cs) = part.reverse :: alternatives 0 [] cs := by
  rw [alternatives, if_pos ⟨rfl, rfl⟩]

theorem alternatives_literal {depth : Int} (hcomma : ¬(c = ',' ∧ depth = 0)) (hopen : c ≠ '\x7b')
    (hclose : c ≠ '\x7d') :
    alternatives depth part (c :: cs) = alternatives depth (c :: part) cs := by
  rw [alternatives, if_neg hcomma, if_neg hopen, if_neg hclose]

theorem alternatives_open {depth : Int} :
    alternatives depth part ('\x7b' :: cs) = alternatives (depth + 1) ('\x7b' :: part) cs := by
  rw [alternatives]
  simp

theorem alternatives_close {depth : Int} :
    alternatives (depth + 1) part ('\x7d' :: cs) = alternatives depth ('\x7d' :: part) cs := by
  rw [alternatives]
  simp

end Scan

mutual

/-- Inside of a group a tree is passed as a whole: the depth is the same before and after it. -/
theorem inGroup_braced {inside : Bool} (p : Braced inside) (before : List Char) (depth : Nat)
    (body cs : List Char) :
    inGroup before depth body (p.written ++ cs) =
      inGroup before depth (p.written.reverse ++ body) cs :=
  match p with
  | .nil => by simp only [Braced.written, List.nil_append, List.reverse_nil]
  | .char c hopen hclose _ rest => by
      simp only [Braced.written, List.cons_append, inGroup_literal hopen hclose,
        inGroup_braced rest, List.reverse_cons, List.append_assoc, List.nil_append]
  | .group options rest => by
      simp only [Braced.written, List.cons_append, List.append_assoc, inGroup_open,
        inGroup_options options, inGroup_close, inGroup_braced rest, List.reverse_cons,
        List.reverse_append, List.nil_append]

theorem inGroup_options (options : Options) (before : List Char) (depth : Nat)
    (body cs : List Char) :
    inGroup before depth body (options.written ++ cs) =
      inGroup before depth (options.written.reverse ++ body) cs := by
  have hcomma (body cs : List Char) : inGroup before depth body (',' :: cs) =
      inGroup before depth (',' :: body) cs := inGroup_literal (by decide) (by decide)
  match options with
  | .pair first second =>
      simp only [Options.written, List.append_assoc, List.cons_append, inGroup_braced first, hcomma,
        inGroup_braced second, List.reverse_append, List.reverse_cons, List.nil_append]
  | .more first others =>
      simp only [Options.written, List.append_assoc, List.cons_append, inGroup_braced first, hcomma,
        inGroup_options others, List.reverse_append, List.reverse_cons, List.nil_append]

end

mutual

/-- The search for commas passes a tree as a whole: those it has are in its groups. -/
theorem alternatives_braced (p : Braced true) {depth : Int} (hdepth : 0 ≤ depth)
    (part cs : List Char) :
    alternatives depth part (p.written ++ cs) = alternatives depth (p.written.reverse ++ part) cs :=
  match p with
  | .nil => by simp only [Braced.written, List.nil_append, List.reverse_nil]
  | .char c hopen hclose hcomma rest => by
      have hliteral : ¬(c = ',' ∧ depth = 0) := fun h => hcomma rfl h.1
      simp only [Braced.written, List.cons_append, alternatives_literal hliteral hopen hclose,
        alternatives_braced rest hdepth, List.reverse_cons, List.append_assoc, List.nil_append]
  | .group options rest => by
      have hinner : 0 < depth + 1 := Int.lt_add_one_of_le hdepth
      simp only [Braced.written, List.cons_append, List.append_assoc, alternatives_open,
        alternatives_options options hinner, alternatives_close, alternatives_braced rest hdepth,
        List.reverse_cons, List.reverse_append, List.nil_append]

theorem alternatives_options (options : Options) {depth : Int} (hdepth : 0 < depth)
    (part cs : List Char) :
    alternatives depth part (options.written ++ cs) =
      alternatives depth (options.written.reverse ++ part) cs := by
  have hle := Int.le_of_lt hdepth
  have hcomma : ¬(',' = ',' ∧ depth = 0) := fun h => Int.ne_of_gt hdepth h.2
  match options with
  | .pair first second =>
      simp only [Options.written, List.append_assoc, List.cons_append,
        alternatives_braced first hle, alternatives_literal hcomma (by decide) (by decide),
        alternatives_braced second hle, List.reverse_append, List.reverse_cons, List.nil_append]
  | .more first others =>
      simp only [Options.written, List.append_assoc, List.cons_append,
        alternatives_braced first hle, alternatives_literal hcomma (by decide) (by decide),
        alternatives_options others hdepth, List.reverse_append, List.reverse_cons, List.nil_append]

end

/-- At the commas of its own a group is cut into its alternatives. -/
theorem alternatives_written (options : Options) :
    alternatives 0 [] options.written = options.members.map Braced.written := by
  have hlast (p : Braced true) : alternatives 0 [] p.written = [p.written] := by
    have h := alternatives_braced p (Int.le_refl 0) [] []
    rw [List.append_nil, List.append_nil] at h
    rw [h, alternatives, List.reverse_reverse]
  have hcut (p : Braced true) (cs : List Char) :
      alternatives 0 [] (p.written ++ ',' :: cs) = p.written :: alternatives 0 [] cs := by
    rw [alternatives_braced p (Int.le_refl 0), alternatives_comma, List.append_nil,
      List.reverse_reverse]
  exact match options with
  | .pair first second => by
      rw [Options.written, hcut, hlast, Options.members, List.map_cons, List.map_singleton]
  | .more first others => by
      rw [Options.written, hcut, alternatives_written others, Options.members, List.map_cons]

/-- The first group of a text is found behind characters of which none opens a group. -/
theorem findGroup_lead {lead : List Char} (hlead : '\x7b' ∉ lead) (before cs : List Char) :
    findGroup before (lead ++ cs) = findGroup (lead.reverse ++ before) cs := by
  induction lead generalizing before with
  | nil => rfl
  | cons c lead ih =>
      rw [List.mem_cons, not_or] at hlead
      obtain ⟨hc, hlead⟩ := hlead
      rw [List.cons_append, findGroup_literal (Ne.symm hc), ih hlead, List.reverse_cons,
        List.append_assoc, List.singleton_append]

theorem findGroup_group {lead : List Char} (hlead : '\x7b' ∉ lead) (options : Options)
    (rest : Braced inside) :
    findGroup [] (lead ++ (Braced.group options rest).written) =
      some ⟨lead, options.members.map Braced.written, rest.written⟩ := by
  have hmany : ¬options.members.length < 2 := Nat.not_lt.2 options.two_le_length_members
  rw [findGroup_lead hlead, Braced.written, List.cons_append, findGroup, if_pos rfl,
    inGroup_options, inGroup.eq_def]
  simp [alternatives_written, hmany]

/-- A tree expands to the texts that it stands for, each with the characters that stand before the
tree. -/
theorem expandChars_written {lead : List Char} (hlead : '\x7b' ∉ lead) (p : Braced false) {n : Nat}
    (hn : (lead ++ p.written).length ≤ n) :
    expandChars n (lead ++ p.written) = p.texts.map (lead ++ ·) := by
  -- The length of what `p` is written as goes down: a literal moves to `lead`, and a group
  -- leaves one alternative and what follows.
  induction hsize : p.written.length using Nat.strongRecOn generalizing lead p n with
  | ind size ih =>
  match p with
  | .nil =>
      have hnone : findGroup [] (lead ++ []) = none := by
        rw [findGroup_lead hlead, findGroup]
      have hself : expandChars n (lead ++ []) = [lead ++ []] := by
        cases n <;> simp only [expandChars, hnone]
      simpa only [Braced.written, Braced.texts, List.map_singleton] using hself
  | .char c hopen hclose hcomma rest =>
      simp only [Braced.written, List.length_cons] at hsize hn
      have hlead' : '\x7b' ∉ lead ++ [c] := by simp [hlead, Ne.symm hopen]
      have hshift := List.append_cons lead c rest.written
      have h := ih rest.written.length (by omega) hlead' rest (n := n) (by grind) rfl
      rw [Braced.written, hshift, h]
      simp only [Braced.texts, List.map_map, List.append_assoc, List.singleton_append,
        Function.comp_def]
  | .group options rest =>
      have hgroup := findGroup_group hlead options rest
      have hshorter (q : Braced true) (hq : q ∈ options.members) :
          lead.length + (q.append rest).written.length <
            lead.length + (Braced.group options rest).written.length := by
        have := length_lt_of_findGroup hgroup (List.mem_map_of_mem hq)
        simpa [Braced.written_append, Nat.add_assoc] using this
      have hmember (q : Braced true) (hq : q ∈ options.members) (m : Nat) (hm : n = m + 1) :
          expandChars m (lead ++ q.written ++ rest.written) =
            (q.append rest).texts.map (lead ++ ·) := by
        have := hshorter q hq
        rw [List.length_append] at hn
        rw [List.append_assoc, ← Braced.written_append]
        refine ih _ (by omega) hlead (q.append rest) ?_ rfl
        rw [List.length_append]
        omega
      cases n with
      | zero => simp [Braced.written] at hn
      | succ m =>
          rw [expandChars, hgroup]
          simp only [List.flatMap_map]
          rw [List.flatMap_congr fun q hq => hmember q hq m rfl]
          simp only [Braced.texts, Options.texts_eq_flatMap, Braced.texts_append, List.map_flatMap,
            List.flatMap_assoc, List.map_map]

/-- What a tree is written as expands to the texts that the tree stands for. -/
theorem expand_written (p : Braced false) :
    expand (String.ofList p.written) = p.texts.map String.ofList := by
  have h := expandChars_written List.not_mem_nil p (Nat.le_refl _)
  rw [expand, String.length_ofList, String.toList_ofList]
  refine congrArg _ (h.trans ?_)
  simp

example : expand "\x7ba,b\x7bc,d\x7d\x7d.ts" = ["a.ts", "bc.ts", "bd.ts"] := by decide +kernel

/-!
## Which paths a pattern matches

A path matches an expanded pattern when its segments can be cut into runs, one for each segment of
the pattern in turn: two stars cover a run of any length, every other segment covers a run of one.
The search through all ends of a path finds such a cut whenever there is one.
-/

/-- A segment of a pattern covers a run of segments of a path. -/
def Covers (head : String) (run : List String) : Prop :=
  head = "**" ∨ ∃ segment, run = [segment] ∧ matchSegment head segment = true

/-- The segments of a path are cut into runs which those of a pattern cover. -/
def Aligned (pattern path : List String) : Prop :=
  ∃ runs : List (List String), path = runs.flatten ∧ List.Forall₂ Covers pattern runs

/-- The parts between the slashes of an expanded pattern, without the blanks around it and one `./`
at its start. -/
def patternParts (pattern : String) : List String :=
  let trimmed := Text.trimChars pattern.toList
  let cs := if ['.', '/'] <+: trimmed then trimmed.drop 2 else trimmed
  (Text.splitAtChar '/' cs).map String.ofList

theorem endParts_eq_tails {α : Type} (l : List α) : endParts l = l.tails := by
  induction l with
  | nil => rfl
  | cons x l ih => rw [endParts, List.tails_cons, ih]

variable {head : String} {pattern path run : List String}

theorem covers_of_ne (h : head ≠ "**") :
    Covers head run ↔ ∃ segment, run = [segment] ∧ matchSegment head segment = true :=
  or_iff_right h

theorem aligned_nil : Aligned [] path ↔ path = [] := by
  simp [Aligned]

theorem aligned_cons :
    Aligned (head :: pattern) path ↔
      ∃ run rest, path = run ++ rest ∧ Covers head run ∧ Aligned pattern rest := by
  constructor
  · rintro ⟨runs, rfl, h⟩
    cases h with
    | cons hrun h => exact ⟨_, _, List.flatten_cons, hrun, _, rfl, h⟩
  · rintro ⟨run, rest, rfl, hrun, runs, rfl, h⟩
    exact ⟨run :: runs, List.flatten_cons.symm, .cons hrun h⟩

/-- The search through the ends of a path finds every alignment. -/
theorem matchSegments_iff (pattern path : List String) :
    matchSegments pattern path = true ↔ Aligned pattern path := by
  induction pattern generalizing path with
  | nil => rw [matchSegments, List.isEmpty_iff, aligned_nil]
  | cons head pattern ih =>
      rw [aligned_cons, matchSegments.eq_def]
      dsimp only
      split_ifs with hhead
      · rw [endParts_eq_tails, List.any_eq_true]
        simp only [List.mem_tails, ih]
        constructor
        · rintro ⟨rest, ⟨run, rfl⟩, h⟩
          exact ⟨run, rest, rfl, .inl hhead, h⟩
        · rintro ⟨run, rest, rfl, -, h⟩
          exact ⟨rest, List.suffix_append run rest, h⟩
      · simp only [covers_of_ne hhead]
        cases path with
        | nil => simp
        | cons segment rest =>
            rw [Bool.and_eq_true, ih]
            constructor
            · rintro ⟨hsegment, h⟩
              exact ⟨[segment], rest, rfl, ⟨segment, rfl, hsegment⟩, h⟩
            · rintro ⟨_, _, hpath, ⟨_, rfl, hsegment⟩, h⟩
              obtain ⟨rfl, rfl⟩ := List.cons.inj hpath
              exact ⟨hsegment, h⟩

instance : Decidable (Aligned pattern path) :=
  decidable_of_iff _ (matchSegments_iff pattern path)

theorem patternSegments_eq_filter (pattern : String) :
    patternSegments pattern = (patternParts pattern).filter (· ≠ "") := by
  rw [patternSegments, patternParts]
  refine congrArg (fun cs => ((Text.splitAtChar '/' cs).map String.ofList).filter
    fun part => part ≠ "") ?_
  split
  · next h => simp [h]
  · next h =>
      rw [if_neg]
      rintro ⟨rest, hrest⟩
      exact h rest hrest.symm

/-- The language of patterns. A tree of characters and groups expands to the texts that it stands
for. Any text at all expands in finitely many rewritings, and a path matches it exactly when its
segments can be aligned with the parts, other than empty ones, of a text that it expands to. -/
theorem matchPath_language :
    (∀ p : Braced false, expand (String.ofList p.written) = p.texts.map String.ofList) ∧
    (WellFounded Rewriting ∧ ∀ pattern, expand pattern =
      match rewritings? pattern with
      | none => [pattern]
      | some texts => texts.flatMap expand) ∧
    ∀ path pattern, matchPath path pattern = true ↔
      ∃ text ∈ expand pattern,
        Aligned ((patternParts text).filter (· ≠ "")) (pathSegments path) := by
  refine ⟨expand_written, ⟨wellFounded_rewriting, expand_eq⟩, fun path pattern => ?_⟩
  simp only [matchPath, List.any_eq_true, matchSegments_iff, patternSegments_eq_filter]

/-- The empty part between two slashes would have to cover a segment; as it is dropped, the pattern
matches. -/
theorem matchPath_doubled_slash :
    matchPath "a/b" "a//b" = true ∧
      ¬∃ text ∈ expand "a//b", Aligned (patternParts text) (pathSegments "a/b") := by
  decide +kernel

end Redline.Glob
