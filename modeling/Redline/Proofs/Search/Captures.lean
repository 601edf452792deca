import Mathlib.Data.List.Basic
import Mathlib.Data.List.TakeWhile
import Mathlib.Tactic.Common
import Redline.Pattern.Template
import Redline.Proofs.Pattern.Groups
import Redline.Proofs.Pattern.Literal
import Redline.Proofs.Search.Expansions
import Redline.Proofs.Text.Numerals
import Redline.Search.Template

/-!
# What a capture template stands for

`Reads` reads a capture template from left to right, and there is one way to do it. The template is
written anew in the notation of substitutions, and read back there token by token: each piece gives
tokens of its own, so a backslash of the one never meets what follows it in the next. For a pattern
with the groups that are referred to, every match is then replaced by the text of the pieces, filled
with its groups.
-/

namespace Redline

namespace Search

open Pattern

/-! ### Reading a template -/

/-- What follows a dollar sign makes a reference with it: another dollar sign, a name in braces, or
as many digits as there are. -/
inductive References : List Char → CapturePiece → List Char → Prop where
  | dollar {rest : List Char} : References ('$' :: rest) .dollar rest
  | named {name rest : List Char} (hne : name ≠ []) (hword : ∀ c ∈ name, Text.isWord c = true) :
      References ('\x7b' :: (name ++ '\x7d' :: rest)) (.group name) rest
  | numbered {digits rest : List Char} (hne : digits ≠ [])
      (hdigits : ∀ c ∈ digits, Text.isDecimal c = true)
      (hlongest : ∀ c ∈ rest.head?, Text.isDecimal c = false) :
      References (digits ++ rest) (.group digits) rest

/-- The pieces of a template from left to right. A dollar sign that makes no reference is a
character like any other. -/
inductive Reads : List Char → List CapturePiece → Prop where
  | nil : Reads [] []
  | char {c : Char} {rest : List Char} {ps : List CapturePiece} (hc : c ≠ '$') (h : Reads rest ps) :
      Reads (c :: rest) (.literal c :: ps)
  | reference {after rest : List Char} {piece : CapturePiece} {ps : List CapturePiece}
      (href : References after piece rest) (h : Reads rest ps) : Reads ('$' :: after) (piece :: ps)
  | lone {after : List Char} {ps : List CapturePiece}
      (hno : ∀ piece rest, ¬ References after piece rest) (h : Reads after ps) :
      Reads ('$' :: after) (.literal '$' :: ps)

section

variable {cs after rest name digits : List Char} {piece : CapturePiece} {ps : List CapturePiece}

theorem takeWhile_append_of_head? {p : Char → Bool} (h : ∀ c ∈ name, p c = true)
    (hrest : ∀ c ∈ rest.head?, p c = false) : (name ++ rest).takeWhile p = name := by
  rw [List.takeWhile_append_of_pos h]
  cases rest with
  | nil => simp
  | cons c rest => simp [hrest c (by simp)]

theorem drop_takeWhile (p : Char → Bool) (cs : List Char) :
    cs.drop (cs.takeWhile p).length = cs.dropWhile p := by
  nth_rewrite 2 [← List.takeWhile_append_dropWhile (p := p) (l := cs)]
  exact List.drop_left

theorem bracedName?_eq_some_iff :
    bracedName? after = some name ↔ name ≠ [] ∧ (∀ c ∈ name, Text.isWord c = true) ∧
      ∃ rest, after = '\x7b' :: (name ++ '\x7d' :: rest) := by
  constructor
  · intro h
    rw [bracedName?.eq_def] at h
    split at h
    · rename_i rest
      dsimp only at h
      split_ifs at h with hempty hclosed
      obtain rfl := Option.some.inj h
      rw [List.head?_eq_some_iff] at hclosed
      obtain ⟨deeper, hdeeper⟩ := hclosed
      refine ⟨fun h => hempty (List.isEmpty_iff.2 h), fun c hc => List.mem_takeWhile_imp hc, deeper,
        ?_⟩
      rw [← hdeeper, drop_takeWhile, List.takeWhile_append_dropWhile]
    · exact absurd h (by simp)
  · rintro ⟨hne, hword, rest, rfl⟩
    have hclosing : ∀ c ∈ ('\x7d' :: rest).head?, Text.isWord c = false := by
      rintro c ⟨⟩
      decide +kernel
    have htake := takeWhile_append_of_head? hword hclosing
    rw [bracedName?]
    simp only [htake, List.isEmpty_iff, hne, List.drop_left, List.head?_cons, if_false, if_true]

theorem bracedName?_eq_none (h : after.head? ≠ some '\x7b') : bracedName? after = none := by
  rw [Option.eq_none_iff_forall_ne_some]
  intro name hname
  obtain ⟨-, -, rest, rfl⟩ := bracedName?_eq_some_iff.1 hname
  exact h rfl

theorem reference?_eq_some_iff :
    References after piece rest ↔
      ∃ size, reference? after = some (piece, size) ∧ after.drop size = rest := by
  constructor
  · intro h
    cases h with
    | dollar => exact ⟨1, rfl, rfl⟩
    | @named name rest hne hword =>
        refine ⟨name.length + 2, ?_, ?_⟩
        · rw [reference?, bracedName?_eq_some_iff.2 ⟨hne, hword, rest, rfl⟩]
        · rw [List.drop_succ_cons, List.drop_append, List.drop_eq_nil_of_le (by omega)]
          simp
    | @numbered digits rest hne hdigits hlongest =>
        refine ⟨digits.length, ?_, List.drop_left⟩
        obtain ⟨d, ds, rfl⟩ := List.exists_cons_of_ne_nil hne
        have hbrace : ((d :: ds) ++ rest).head? ≠ some '\x7b' := by
          intro h
          obtain rfl := Option.some.inj h
          exact absurd (hdigits '\x7b' (by simp)) (by decide)
        rw [reference?, bracedName?_eq_none hbrace]
        simp only [takeWhile_append_of_head? hdigits hlongest]
        rfl
  · rintro ⟨size, h, rfl⟩
    rw [reference?] at h
    split at h
    · rename_i name hname
      obtain ⟨hne, hword, rest, rfl⟩ := bracedName?_eq_some_iff.1 hname
      obtain ⟨rfl, rfl⟩ := Prod.mk.inj (Option.some.inj h)
      have hdrop : ('\x7b' :: (name ++ '\x7d' :: rest)).drop (name.length + 2) = rest := by
        rw [List.drop_succ_cons, List.drop_append, List.drop_eq_nil_of_le (by omega)]
        simp
      rw [hdrop]
      exact .named hne hword
    · dsimp only at h
      split_ifs at h with hempty hdollar
      · obtain ⟨rest, rfl⟩ := List.head?_eq_some_iff.1 hdollar
        obtain ⟨rfl, rfl⟩ := Prod.mk.inj (Option.some.inj h)
        exact .dollar
      · obtain ⟨rfl, rfl⟩ := Prod.mk.inj (Option.some.inj h)
        rw [drop_takeWhile]
        nth_rewrite 1 [← List.takeWhile_append_dropWhile (p := Text.isDecimal) (l := after)]
        refine .numbered (fun h => hempty (List.isEmpty_iff.2 h))
          (fun c hc => List.mem_takeWhile_imp hc) fun c hc => ?_
        have hstop := List.head?_dropWhile_not Text.isDecimal after
        rw [Option.mem_def.1 hc] at hstop
        exact hstop

theorem capturePiecesFrom_eq_drop (skip : Nat) (cs : List Char) :
    capturePiecesFrom skip cs = capturePiecesFrom 0 (cs.drop skip) := by
  induction cs generalizing skip with
  | nil => rw [List.drop_nil, capturePiecesFrom, capturePiecesFrom]
  | cons c cs ih =>
      cases skip with
      | zero => rfl
      | succ skip => rw [capturePiecesFrom, ih, List.drop_succ_cons]

theorem capturePiecesFrom_reference (h : References after piece rest) :
    capturePiecesFrom 0 ('$' :: after) = piece :: capturePiecesFrom 0 rest := by
  obtain ⟨size, hsize, rfl⟩ := reference?_eq_some_iff.1 h
  rw [capturePiecesFrom, if_pos rfl, hsize]
  exact congrArg _ (capturePiecesFrom_eq_drop size after)

theorem capturePiecesFrom_lone (h : ∀ piece rest, ¬ References after piece rest) :
    capturePiecesFrom 0 ('$' :: after) = .literal '$' :: capturePiecesFrom 0 after := by
  have hnone : reference? after = none := by
    rw [Option.eq_none_iff_forall_ne_some]
    intro found hfound
    exact h found.1 _ (reference?_eq_some_iff.2 ⟨found.2, hfound, rfl⟩)
  rw [capturePiecesFrom, if_pos rfl, hnone]

theorem reads_capturePiecesFrom (cs : List Char) : Reads cs (capturePiecesFrom 0 cs) := by
  -- by the length, as a reference has several characters
  induction h : cs.length using Nat.strongRecOn generalizing cs with
  | _ n ih =>
      subst h
      cases cs with
      | nil => exact .nil
      | cons c after =>
          by_cases hc : c = '$'
          · subst hc
            by_cases href : ∃ piece rest, References after piece rest
            · obtain ⟨piece, rest, href⟩ := href
              rw [capturePiecesFrom_reference href]
              obtain ⟨size, -, rfl⟩ := reference?_eq_some_iff.1 href
              refine .reference href (ih _ ?_ _ rfl)
              rw [List.length_drop, List.length_cons]
              omega
            · have hno : ∀ piece rest, ¬ References after piece rest := fun piece rest h =>
                href ⟨piece, rest, h⟩
              rw [capturePiecesFrom_lone hno]
              exact .lone hno (ih _ (Nat.lt_succ_self _) _ rfl)
          · rw [capturePiecesFrom, if_neg hc]
            exact .char hc (ih _ (Nat.lt_succ_self _) _ rfl)

/-- A template is read in one way. -/
theorem reads_iff : Reads cs ps ↔ ps = capturePiecesFrom 0 cs := by
  constructor
  · intro h
    induction h with
    | nil => rfl
    | char hc _ ih => rw [capturePiecesFrom, if_neg hc, ih]
    | reference href _ ih => rw [capturePiecesFrom_reference href, ih]
    | lone hno _ ih => rw [capturePiecesFrom_lone hno, ih]
  · rintro rfl
    exact reads_capturePiecesFrom cs

end

/-! ### The groups that a template refers to -/

/-- The group that a name refers to in a pattern, if the pattern has it: an identifier is one of its
names, and digits of ASCII, not too many to be read, are the number of a group. -/
def groupOf? (p : Pattern) (name : List Char) : Option Nat :=
  if isName (String.ofList name) then p.names.lookup (String.ofList name)
  else if name ≠ [] ∧ name.all isDigit ∧ name.length ≤ digitLimit ∧ valueIn 10 name ≤ p.groups then
    some (valueIn 10 name)
  else none

/-- Whether a pattern has the group that a name refers to. -/
def HasGroup (p : Pattern) (name : List Char) : Prop :=
  (groupOf? p name).isSome

/-- The text of a group in a match: the whole match for group 0, and no text for a group that took
no part in it. -/
def groupText (m : Match) (index : Nat) : List Char :=
  if index = 0 then m.text else (m.captures.lookup index).getD []

/-- The text of a piece for a match. -/
def CapturePiece.text (p : Pattern) (m : Match) : CapturePiece → List Char
  | .literal c => [c]
  | .dollar => ['$']
  | .group name => ((groupOf? p name).map (groupText m)).getD []

/-! ### Digits -/

section

variable {c : Char} {cs digits : List Char}

theorem exists_digitChar_of_isDigit (h : isDigit c = true) :
    ∃ d < 10, c = Nat.digitChar d ∧ valueIn.digitValue c = d := by
  have hvalue : valueIn.digitValue c = c.toNat - 48 := if_pos h
  rw [isDigit, Bool.and_eq_true, decide_eq_true_eq, decide_eq_true_eq] at h
  have hlow : 48 ≤ c.toNat := h.1
  have hhigh : c.toNat ≤ 57 := h.2
  have hchars : ∀ d : Fin 10, (Nat.digitChar d).toNat = d + 48 := by decide
  refine ⟨c.toNat - 48, by omega, ?_, hvalue⟩
  rw [← Char.toNat_inj, hchars ⟨c.toNat - 48, by omega⟩]
  exact (Nat.sub_add_cancel hlow).symm

theorem digits?_of_isDigit (h : ∀ c ∈ cs, isDigit c = true) (value : Nat) (afterDigit : Bool)
    (hne : afterDigit = true ∨ cs ≠ []) :
    Text.Numeral.digits? value afterDigit cs =
      some (cs.foldl (fun n c => n * 10 + valueIn.digitValue c) value) := by
  induction cs generalizing value afterDigit with
  | nil => rw [Text.Numeral.digits?, if_pos (hne.resolve_right fun h => h rfl), List.foldl_nil]
  | cons c cs ih =>
      obtain ⟨d, hd, rfl, hvalue⟩ := exists_digitChar_of_isDigit (h c (by simp))
      rw [Text.Numeral.digits?_digitChar hd, List.foldl_cons, hvalue,
        ih (fun c hc => h c (List.mem_cons_of_mem _ hc)) _ _ (.inl rfl)]

theorem signed?_of_isDigit (h : ∀ c ∈ digits, isDigit c = true) (hne : digits ≠ []) :
    Text.Numeral.signed? digits = some (valueIn 10 digits : Int) := by
  have hread := digits?_of_isDigit h 0 false (.inr hne)
  obtain ⟨c, cs, rfl⟩ := List.exists_cons_of_ne_nil hne
  rw [Text.Numeral.signed?]
  · rw [hread]
    rfl
  · rintro rest ⟨⟩
    exact absurd (h '-' (by simp)) (by decide)
  · rintro rest ⟨⟩
    exact absurd (h '+' (by simp)) (by decide)

theorem isMargin_of_isDigit (h : isDigit c = true) : Text.Numeral.isMargin c = false := by
  obtain ⟨d, hd, rfl, -⟩ := exists_digitChar_of_isDigit h
  exact (Text.Numeral.digitChar_spec hd).2.2.2.2.2

theorem isDecimal_of_isDigit (h : isDigit c = true) : Text.isDecimal c = true := by
  obtain ⟨d, hd, rfl, -⟩ := exists_digitChar_of_isDigit h
  rw [Text.isDecimal, (Text.Numeral.digitChar_spec hd).1]
  rfl

/-- Digits of ASCII are read to their value, unless there are too many. -/
theorem groupNumber?_of_isDigit (h : ∀ c ∈ digits, isDigit c = true) (hne : digits ≠ []) :
    groupNumber? (String.ofList digits) =
      if digits.length ≤ digitLimit then some (valueIn 10 digits : Int) else none := by
  have hfilter : digits.filter Text.isDecimal = digits :=
    List.filter_eq_self.2 fun c hc => isDecimal_of_isDigit (h c hc)
  have hmargin : ∀ c ∈ digits, Text.Numeral.isMargin c = false := fun c hc =>
    isMargin_of_isDigit (h c hc)
  rw [groupNumber?, String.toList_ofList, hfilter]
  by_cases hlimit : digits.length ≤ digitLimit
  · rw [if_neg (Nat.not_lt.2 hlimit), if_pos hlimit, Text.Numeral.toInt?, String.toList_ofList,
      Text.Numeral.dropWhile_eq_self hmargin,
      Text.Numeral.dropWhile_eq_self fun c hc => hmargin c (List.mem_reverse.1 hc),
      List.reverse_reverse, signed?_of_isDigit h hne]
  · rw [if_pos (Nat.not_le.1 hlimit), if_neg hlimit]

end

/-! ### Reading the substitution -/

/-- The tokens of a piece in the notation of substitutions. -/
def CapturePiece.tokens : CapturePiece → List Token
  | .literal c => if c = '\\' then [.escape '\\'] else [.plain c]
  | .dollar => [.plain '$']
  | .group name => .escape 'g' :: .plain '<' :: (name.map .plain ++ [.plain '>'])

/-- The piece of a substitution that stands for a piece of the template. -/
def CapturePiece.compiled (p : Pattern) : CapturePiece → Piece
  | .literal c => .char c
  | .dollar => .char '$'
  | .group name => .group ((groupOf? p name).getD 0)

section

variable {p : Pattern} {name : List Char} {c : Char} {rest cs : List Char} {ts : List Token}
  {t : Token} {piece : CapturePiece} {ps : List CapturePiece} {n fuel : Nat}

theorem tokens_cons_of_ne (h : c ≠ '\\') : tokens (c :: rest) = .plain c :: tokens rest := by
  rw [tokens]
  · exact fun h' => absurd h' h
  · exact fun _ _ h' => absurd h' h

theorem tokens_append_of_notMem (h : '\\' ∉ name) (rest : List Char) :
    tokens (name ++ rest) = name.map .plain ++ tokens rest := by
  induction name with
  | nil => rfl
  | cons c name ih =>
      rw [List.mem_cons, not_or] at h
      rw [List.cons_append, tokens_cons_of_ne (Ne.symm h.1), ih h.2, List.map_cons,
        List.cons_append]

theorem mem_of_isName (h : isName (String.ofList name) = true) (hc : c ∈ name) :
    Text.isNameStart c = true ∨ Text.isNamePart c = true := by
  rw [isName, String.toList_ofList] at h
  cases name with
  | nil => exact absurd h (by simp)
  | cons d name =>
      rw [Bool.and_eq_true, List.all_eq_true] at h
      rcases List.mem_cons.1 hc with rfl | hc
      · exact .inl h.1
      · exact .inr (h.2 c hc)

/-- A character that no name and no number is made of does not stand in the name of a group. -/
theorem HasGroup.notMem (h : HasGroup p name)
    (hc : Text.isNameStart c = false ∧ Text.isNamePart c = false ∧ isDigit c = false) :
    c ∉ name := by
  intro hmem
  obtain ⟨index, h⟩ := Option.isSome_iff_exists.1 h
  rw [groupOf?] at h
  split_ifs at h with hname hdigits
  · rcases mem_of_isName hname hmem with hstart | hpart
    · exact absurd hstart (by rw [hc.1]; simp)
    · exact absurd hpart (by rw [hc.2.1]; simp)
  · exact absurd (List.all_eq_true.1 hdigits.2.1 c hmem) (by rw [hc.2.2]; simp)

theorem HasGroup.backslash_notMem (h : HasGroup p name) : '\\' ∉ name :=
  h.notMem (by decide +kernel)

theorem HasGroup.angle_notMem (h : HasGroup p name) : '>' ∉ name :=
  h.notMem (by decide +kernel)

theorem HasGroup.ne_nil (h : HasGroup p name) : name ≠ [] := by
  rintro rfl
  exact absurd h (by simp [HasGroup, groupOf?, isName])

/-- A group that a name refers to is a group of the pattern. -/
theorem le_of_groupOf?_eq_some {index : Nat} (hp : Grouped p.groups p.names)
    (h : groupOf? p name = some index) : index ≤ p.groups := by
  rw [groupOf?] at h
  split_ifs at h with hname hdigits
  · obtain ⟨_, _, hnames, -⟩ := List.lookup_eq_some_iff.1 h
    exact hp.named (String.ofList name, index) (by rw [hnames]; simp)
  · obtain rfl := Option.some.inj h
    exact hdigits.2.2.2

/-- The tokens of a written piece do not depend on what follows it. -/
theorem tokens_written (h : ∀ name, piece = .group name → '\\' ∉ name) (rest : List Char) :
    tokens (piece.written ++ rest) = piece.tokens ++ tokens rest := by
  cases piece with
  | literal c =>
      rw [CapturePiece.written, CapturePiece.tokens]
      split_ifs with hc
      · rfl
      · exact tokens_cons_of_ne hc
  | dollar => rfl
  | group name =>
      have hname : '\\' ∉ '<' :: (name ++ ['>']) := by
        simpa using h name rfl
      have htokens := tokens_append_of_notMem hname rest
      rw [CapturePiece.written, CapturePiece.tokens]
      show Token.escape 'g' :: tokens ('<' :: (name ++ ['>']) ++ rest) = _
      rw [htokens]
      simp

theorem tokens_flatMap_written (h : ∀ name, .group name ∈ ps → '\\' ∉ name) :
    tokens (ps.flatMap CapturePiece.written) = ps.flatMap CapturePiece.tokens := by
  induction ps with
  | nil => rfl
  | cons piece ps ih =>
      rw [List.flatMap_cons, List.flatMap_cons,
        tokens_written fun name hname => h name (hname ▸ List.mem_cons_self),
        ih fun name hname => h name (List.mem_cons_of_mem _ hname)]

theorem dangling_notMem_tokens (ps : List CapturePiece) :
    Token.dangling ∉ ps.flatMap CapturePiece.tokens := by
  rw [List.mem_flatMap]
  rintro ⟨piece, -, hmem⟩
  cases piece with
  | literal c =>
      rw [CapturePiece.tokens] at hmem
      split_ifs at hmem <;> simp at hmem
  | dollar => simp [CapturePiece.tokens] at hmem
  | group name => simp [CapturePiece.tokens] at hmem

theorem checked_of_notMem (h : .dangling ∉ ts) :
    Pattern.Source.checked { size := n, rest := ts } = .ok { size := n, rest := ts } :=
  Pattern.Source.checked_of_ne fun hrest : ts = [.dangling] => h (by simp [hrest])

theorem drop_of_notMem (h : .dangling ∉ ts) :
    Pattern.Source.drop { size := n, rest := t :: ts } = .ok { size := n, rest := ts } :=
  checked_of_notMem h

/-- The characters up to an angle bracket are read as a name. -/
theorem nameBody_map_plain (h : .dangling ∉ ts) (hcs : '>' ∉ cs) (what : String)
    (done : List Char) (hne : done ++ cs ≠ []) (hfuel : cs.length < fuel) :
    Pattern.Source.nameBody '>' what fuel done
        { size := n, rest := cs.map .plain ++ .plain '>' :: ts } =
      .ok (String.ofList (done ++ cs), { size := n, rest := ts }) := by
  obtain ⟨fuel, rfl⟩ := Nat.exists_eq_add_one_of_ne_zero (Nat.ne_zero_of_lt hfuel)
  induction cs generalizing done fuel with
  | nil =>
      rw [List.append_nil] at hne ⊢
      have hdone : ¬ (done.isEmpty = true) := fun h => hne (List.isEmpty_iff.1 h)
      rw [List.map_nil, List.nil_append, Pattern.Source.nameBody]
      simp only [drop_of_notMem h, bind, Except.bind, if_true, if_neg hdone]
      rfl
  | cons c cs ih =>
      rw [List.mem_cons, not_or] at hcs
      have hrest : Token.dangling ∉ cs.map .plain ++ .plain '>' :: ts := by simp [h]
      obtain ⟨fuel, rfl⟩ := Nat.exists_eq_add_one_of_ne_zero
        (Nat.ne_zero_of_lt (Nat.lt_of_succ_lt_succ hfuel))
      have hc : ¬ (Token.plain c = .plain '>') := fun h => hcs.1 (Token.plain.inj h).symm
      rw [List.map_cons, List.cons_append, Pattern.Source.nameBody]
      simp only [drop_of_notMem hrest, bind, Except.bind, if_neg hc, Token.chars]
      rw [ih hcs.2 (done ++ [c]) (by simp) fuel (Nat.lt_of_succ_lt_succ hfuel), List.append_assoc,
        List.singleton_append]

theorem accept_plain (h : .dangling ∉ ts) (c : Char) :
    Pattern.Source.accept { size := n, rest := .plain c :: ts } c =
      .ok (true, { size := n, rest := ts }) := by
  rw [Pattern.Source.accept, if_pos (by simp [Pattern.Source.nextIs]), drop_of_notMem h]
  rfl

theorem groupPiece_of_le {s : Pattern.Source} {index : Nat} (h : index ≤ p.groups) (back : Nat) :
    groupPiece p s index back = .ok (.group index) :=
  if_neg (Nat.not_lt.2 h)

/-- A name between angle brackets is read up to the closing one. -/
theorem namedPiece_map_plain (hangle : '>' ∉ name) (hne : name ≠ []) (h : .dangling ∉ ts) :
    namedPiece p { size := n, rest := .plain '<' :: (name.map .plain ++ .plain '>' :: ts) } =
      (namedGroup p { size := n, rest := ts } (String.ofList name)).map
        fun piece => (piece, { size := n, rest := ts }) := by
  have hrest : Token.dangling ∉ name.map .plain ++ .plain '>' :: ts := by simp [h]
  have hfuel : name.length < (name.map Token.plain ++ .plain '>' :: ts).length + 1 := by
    rw [List.length_append, List.length_map]
    omega
  have hbody := nameBody_map_plain (n := n) h hangle "group name" [] hne hfuel
  rw [namedPiece, accept_plain hrest]
  simp only [lift, Except.mapError, bind, Except.bind, Pattern.Source.name, Bool.not_true,
    Bool.false_eq_true, if_false, hbody, List.nil_append]
  rfl

/-- A reference to a group that the pattern has is read as that group. -/
theorem namedGroup_of_hasGroup (hp : Grouped p.groups p.names) (hname : HasGroup p name)
    (s : Pattern.Source) :
    namedGroup p s (String.ofList name) = .ok (.group ((groupOf? p name).getD 0)) := by
  obtain ⟨index, hindex⟩ := Option.isSome_iff_exists.1 hname
  have hle := le_of_groupOf?_eq_some hp hindex
  rw [hindex, namedGroup]
  rw [groupOf?] at hindex
  split_ifs at hindex ⊢ with hid hdigits
  · rw [hindex]
    exact groupPiece_of_le hle _
  · obtain rfl := Option.some.inj hindex
    have hnumber : groupNumber? (String.ofList name) = some (Int.ofNat (valueIn 10 name)) := by
      rw [groupNumber?_of_isDigit (List.all_eq_true.1 hdigits.2.1) hdigits.1]
      exact if_pos hdigits.2.2.1
    have hlimit : ¬ groupLimit ≤ valueIn 10 name :=
      Nat.not_le.2 (Nat.lt_of_le_of_lt hle hp.limited)
    simp only [hnumber, if_neg hlimit]
    exact groupPiece_of_le hle _

/-- The tokens of a piece are read as what it stands for. -/
theorem tokenPieces_of_tokens (hp : Grouped p.groups p.names)
    (hgroup : ∀ name, piece = .group name → HasGroup p name) (h : .dangling ∉ ts) :
    ∃ t rest, piece.tokens ++ ts = t :: rest ∧ .dangling ∉ rest ∧
      tokenPieces p t { size := n, rest } =
        .ok ([piece.compiled p], { size := n, rest := ts }) := by
  cases piece with
  | literal c =>
      rw [CapturePiece.tokens]
      split_ifs with hc
      · exact ⟨.escape '\\', ts, rfl, h, by rw [hc]; rfl⟩
      · exact ⟨.plain c, ts, rfl, h, rfl⟩
  | dollar => exact ⟨.plain '$', ts, rfl, h, rfl⟩
  | group name =>
      refine ⟨.escape 'g', .plain '<' :: (name.map .plain ++ .plain '>' :: ts), ?_, ?_, ?_⟩
      · simp [CapturePiece.tokens]
      · simp [h]
      · have hname := hgroup name rfl
        rw [tokenPieces, namedPiece_map_plain hname.angle_notMem hname.ne_nil h,
          namedGroup_of_hasGroup hp hname]
        rfl

theorem piecesFrom_flatMap_tokens (hp : Grouped p.groups p.names)
    (hgroup : ∀ name, .group name ∈ ps → HasGroup p name) (hfuel : ps.length < fuel) :
    piecesFrom p fuel { size := n, rest := ps.flatMap CapturePiece.tokens } =
      .ok (ps.map (CapturePiece.compiled p)) := by
  induction ps generalizing fuel with
  | nil =>
      obtain ⟨fuel, rfl⟩ := Nat.exists_eq_add_one_of_ne_zero (Nat.ne_zero_of_lt hfuel)
      rfl
  | cons piece ps ih =>
      obtain ⟨fuel, rfl⟩ := Nat.exists_eq_add_one_of_ne_zero (Nat.ne_zero_of_lt hfuel)
      have hpiece : ∀ name, piece = .group name → HasGroup p name := fun name hname =>
        hgroup name (hname ▸ List.mem_cons_self)
      obtain ⟨t, rest, heq, hrest, hpieces⟩ :=
        tokenPieces_of_tokens (n := n) hp hpiece (dangling_notMem_tokens ps)
      rw [List.flatMap_cons, heq, piecesFrom]
      simp only [drop_of_notMem hrest, lift, Except.mapError, bind, Except.bind, hpieces,
        ih (fun name hname => hgroup name (List.mem_cons_of_mem _ hname))
          (Nat.lt_of_succ_lt_succ hfuel)]
      rfl

theorem length_le_length_flatMap_tokens (ps : List CapturePiece) :
    ps.length ≤ (ps.flatMap CapturePiece.tokens).length := by
  induction ps with
  | nil => exact Nat.le_refl 0
  | cons piece ps ih =>
      have hpos : 0 < piece.tokens.length := by
        cases piece with
        | literal c =>
            rw [CapturePiece.tokens]
            split_ifs <;> exact Nat.one_pos
        | dollar => exact Nat.one_pos
        | group name => exact Nat.succ_pos _
      rw [List.flatMap_cons, List.length_append, List.length_cons]
      omega

/-- The written pieces are read back piece by piece. -/
theorem templatePieces_written (hp : Grouped p.groups p.names)
    (hgroup : ∀ name, .group name ∈ ps → HasGroup p name) :
    templatePieces p (String.ofList (ps.flatMap CapturePiece.written)) =
      .ok (ps.map (CapturePiece.compiled p)) := by
  have hfuel := Nat.lt_succ_of_le (length_le_length_flatMap_tokens ps)
  have htokens := tokens_flatMap_written fun name hname => (hgroup name hname).backslash_notMem
  rw [templatePieces, Pattern.Source.ofString, String.toList_ofList, htokens,
    checked_of_notMem (dangling_notMem_tokens ps)]
  exact piecesFrom_flatMap_tokens hp hgroup hfuel

/-- A piece that has been read stands for the text of the piece of the template. -/
theorem expand_compiled (hgroup : ∀ name, piece = .group name → HasGroup p name) (m : Match) :
    (piece.compiled p).expand m = piece.text p m := by
  cases piece with
  | literal c => rfl
  | dollar => rfl
  | group name =>
      obtain ⟨index, hindex⟩ := Option.isSome_iff_exists.1 (hgroup name rfl)
      rw [CapturePiece.compiled, CapturePiece.text, hindex]
      cases index with
      | zero => rfl
      | succ index => rfl

theorem expand_map_compiled (hgroup : ∀ name, .group name ∈ ps → HasGroup p name) (m : Match) :
    expand (ps.map (CapturePiece.compiled p)) m = ps.flatMap (CapturePiece.text p m) := by
  rw [expand, List.flatMap_map]
  exact List.flatMap_congr fun piece hmem =>
    expand_compiled (fun name hname => hgroup name (hname ▸ hmem)) m

end

/-! ### What a substitution gives -/

/-- A template is read in one way. Where a pattern has the groups that the template refers to,
substituting gives every match the text of the template's pieces. -/
theorem substitution_gives_reading (template : String) :
    ∃ ps, (∀ qs, Reads template.toList qs ↔ qs = ps) ∧
      ∀ text ignoreCase p, Pattern.read text ignoreCase = .ok p →
        (∀ name, .group name ∈ ps → HasGroup p name) →
        ∀ s, p.substitute (substitution template) s =
          .ok (p.replace (fun m => ps.flatMap (CapturePiece.text p m)) s) := by
  refine ⟨capturePieces template, fun qs => reads_iff, fun text ignoreCase p hread hgroup s => ?_⟩
  have hexpand := funext (expand_map_compiled (p := p) hgroup)
  rw [Pattern.substitute, substitution, templatePieces_written (grouped_of_read hread) hgroup,
    ← hexpand]
  rfl

/-- Backslashes are copied with what follows them, and a group that took no part gives nothing. -/
theorem substitution_gives_reading_backslashes :
    ∃ p, Pattern.read "(a)(?P<x>b)?" false = .ok p ∧
      p.substitute (substitution "\\n$1$\x7bx\x7d$$\\g<1>$") "ca ab" =
        .ok "c\\na$\\g<1>$ \\nab$\\g<1>$" := by
  obtain ⟨ps, hreads, hfaithful⟩ := substitution_gives_reading "\\n$1$\x7bx\x7d$$\\g<1>$"
  obtain rfl := (hreads _).1 (reads_capturePiecesFrom _)
  have hfacts : (Pattern.read "(a)(?P<x>b)?" false).toOption.any (fun p =>
      ((capturePiecesFrom 0 "\\n$1$\x7bx\x7d$$\\g<1>$".toList).all fun
        | .group name => (groupOf? p name).isSome
        | _ => true) &&
      p.replace (fun m => (capturePiecesFrom 0 "\\n$1$\x7bx\x7d$$\\g<1>$".toList).flatMap
        (CapturePiece.text p m)) "ca ab" == "c\\na$\\g<1>$ \\nab$\\g<1>$") = true := by
    decide +kernel
  obtain ⟨p, hread, hfacts⟩ := exists_of_any_toOption hfacts
  rw [Bool.and_eq_true, beq_iff_eq, List.all_eq_true] at hfacts
  refine ⟨p, hread, ?_⟩
  rw [hfaithful _ _ p hread (fun name hname => hfacts.1 (.group name) hname) "ca ab", hfacts.2]

section

variable {digits : List Char}

theorem isName_of_isDigit (h : ∀ c ∈ digits, isDigit c = true) :
    isName (String.ofList digits) = false := by
  have hfirst : ∀ d : Fin 10, Text.isNameStart (Nat.digitChar d) = false := by decide +kernel
  rw [isName, String.toList_ofList]
  cases digits with
  | nil => rfl
  | cons c digits =>
      obtain ⟨d, hd, rfl, -⟩ := exists_digitChar_of_isDigit (h c (by simp))
      exact Bool.and_eq_false_imp.2 fun hstart => absurd hstart (by rw [hfirst ⟨d, hd⟩]; simp)

theorem reads_of_isDigit (h : ∀ c ∈ digits, isDigit c = true) (hne : digits ≠ []) :
    Reads ('$' :: digits) [.group digits] := by
  have href : References (digits ++ []) (.group digits) [] :=
    .numbered hne (fun c hc => isDecimal_of_isDigit (h c hc)) (by simp)
  rw [List.append_nil] at href
  exact .reference href .nil

theorem namedGroup_of_digitLimit_lt (h : ∀ c ∈ digits, isDigit c = true)
    (hlong : digitLimit < digits.length) (p : Pattern) (s : Pattern.Source) :
    namedGroup p s (String.ofList digits) =
      lift (s.fault (.badGroupName (String.ofList digits)) (digits.length + 1)) := by
  have hne : digits ≠ [] := List.ne_nil_of_length_pos (Nat.zero_lt_of_lt hlong)
  have hnumber : groupNumber? (String.ofList digits) = none := by
    rw [groupNumber?_of_isDigit h hne]
    exact if_neg (Nat.not_le.2 hlong)
  rw [namedGroup, isName_of_isDigit h, hnumber, String.length_ofList]
  rfl

/-- A template that is one reference is read as the group of its name. -/
theorem templatePieces_group {name : List Char} (hplain : '\\' ∉ name) (hangle : '>' ∉ name)
    (hne : name ≠ []) (p : Pattern) :
    templatePieces p (String.ofList (CapturePiece.group name).written) =
      (namedGroup p { size := name.length + 4, rest := [] } (String.ofList name)).map ([·]) := by
  have htokens : tokens (CapturePiece.group name).written =
      .escape 'g' :: .plain '<' :: (name.map .plain ++ [.plain '>']) := by
    have hone : ∀ other, CapturePiece.group name = .group other → '\\' ∉ other := by
      rintro _ ⟨⟩
      exact hplain
    have hread := tokens_written hone []
    rwa [List.append_nil, tokens, List.append_nil] at hread
  have hlength : (String.ofList (CapturePiece.group name).written).length = name.length + 4 := by
    rw [String.length_ofList]
    simp [CapturePiece.written]
  have hrest : Token.dangling ∉ .plain '<' :: (name.map .plain ++ [.plain '>']) := by simp
  have hpiece := namedPiece_map_plain (p := p) (n := name.length + 4) hangle hne List.not_mem_nil
  rw [templatePieces, Pattern.Source.ofString, String.toList_ofList, htokens, hlength,
    checked_of_notMem (by simp)]
  simp only [bind, Except.bind, lift, Except.mapError, piecesFrom, drop_of_notMem hrest,
    tokenPieces, hpiece]
  cases namedGroup p _ (String.ofList name) <;> rfl

/-- A number of more digits than are read refers to no group, whatever its value. -/
theorem substitute_of_digitLimit_lt (h : ∀ c ∈ digits, isDigit c = true)
    (hlong : digitLimit < digits.length) (p : Pattern) (s : String) :
    p.substitute (substitution (String.ofList ('$' :: digits))) s =
      .error (.invalid { defect := .badGroupName (String.ofList digits), place := some 3 }) := by
  have hne : digits ≠ [] := List.ne_nil_of_length_pos (Nat.zero_lt_of_lt hlong)
  have hpieces : capturePieces (String.ofList ('$' :: digits)) = [.group digits] := by
    rw [capturePieces, String.toList_ofList, ← reads_iff.1 (reads_of_isDigit h hne)]
  have hplain : ∀ c, isDigit c = false → c ∉ digits := fun c hc hmem => by
    rw [h c hmem] at hc
    exact absurd hc (by simp)
  have hplace : digits.length + 4 - (digits.length + 1) = 3 := by omega
  rw [Pattern.substitute, substitution, hpieces, List.flatMap_singleton,
    templatePieces_group (hplain '\\' (by decide)) (hplain '>' (by decide)) hne,
    namedGroup_of_digitLimit_lt h hlong, Pattern.Source.fault, Pattern.Source.place,
    List.foldr_nil, hplace]
  rfl

theorem valueIn_replicate_zero (n : Nat) : valueIn 10 (List.replicate n '0' ++ ['1']) = 1 := by
  induction n with
  | zero => rfl
  | succ n ih => exact ih

/-- Zeros in front of a number keep its value, and yet too many of them make it refer to no
group. -/
theorem substitution_refuses_zeros :
    ∃ p digits, Pattern.read "(a)" false = .ok p ∧ 1 ≤ p.groups ∧
      digits = List.replicate digitLimit '0' ++ ['1'] ∧ valueIn 10 digits = 1 ∧
      Reads ('$' :: digits) [.group digits] ∧ p.replace (fun m => groupText m 1) "a" = "a" ∧
      p.substitute (substitution (String.ofList ('$' :: digits))) "a" ≠ .ok "a" := by
  have hfacts : (Pattern.read "(a)" false).toOption.any (fun p =>
      decide (1 ≤ p.groups) && p.replace (fun m => groupText m 1) "a" == "a") = true := by
    decide +kernel
  obtain ⟨p, hread, hfacts⟩ := exists_of_any_toOption hfacts
  rw [Bool.and_eq_true, decide_eq_true_iff, beq_iff_eq] at hfacts
  have hdigits : ∀ c ∈ List.replicate digitLimit '0' ++ ['1'], isDigit c = true := by
    intro c hc
    rcases List.mem_append.1 hc with hc | hc
    · rw [List.eq_of_mem_replicate hc]
      rfl
    · rw [List.mem_singleton.1 hc]
      rfl
  refine ⟨p, _, hread, hfacts.1, rfl, valueIn_replicate_zero _,
    reads_of_isDigit hdigits (by simp), hfacts.2, ?_⟩
  rw [substitute_of_digitLimit_lt hdigits (by simp)]
  simp

end

end Search

end Redline
