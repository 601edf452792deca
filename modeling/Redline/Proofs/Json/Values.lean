import Redline.Proofs.Json.Layout
import Redline.Proofs.Json.Strings

/-!
# Documents read back

A value without floating-point numbers, in whose objects each key stands once, is read from what is
written for it, in every layout. The induction is on the fuel of the reader: a value takes at most
two steps for each of its characters. What the reader gives has each key once.
-/

namespace Redline.Json

/-- No floating-point number is part of the value. -/
inductive FloatFree : Json → Prop where
  | null : FloatFree .null
  | bool (b : Bool) : FloatFree (.bool b)
  | int (n : Int) : FloatFree (.int n)
  | str (s : String) : FloatFree (.str s)
  | arr {items : List Json} (h : ∀ j ∈ items, FloatFree j) : FloatFree (.arr items)
  | obj {members : List (String × Json)} (h : ∀ m ∈ members, FloatFree m.2) :
      FloatFree (.obj members)

/-- Every object in the value has each key once. -/
inductive Keyed : Json → Prop where
  | null : Keyed .null
  | bool (b : Bool) : Keyed (.bool b)
  | int (n : Int) : Keyed (.int n)
  | float (x : Binary64) : Keyed (.float x)
  | str (s : String) : Keyed (.str s)
  | arr {items : List Json} (h : ∀ j ∈ items, Keyed j) : Keyed (.arr items)
  | obj {members : List (String × Json)} (hkeys : (members.map Prod.fst).Nodup)
      (h : ∀ m ∈ members, Keyed m.2) : Keyed (.obj members)

theorem floatFree_arr_iff {items : List Json} :
    FloatFree (.arr items) ↔ ∀ j ∈ items, FloatFree j :=
  ⟨fun h => by cases h; assumption, .arr⟩

theorem floatFree_obj_iff {members : List (String × Json)} :
    FloatFree (.obj members) ↔ ∀ m ∈ members, FloatFree m.2 :=
  ⟨fun h => by cases h; assumption, .obj⟩

theorem keyed_arr_iff {items : List Json} : Keyed (.arr items) ↔ ∀ j ∈ items, Keyed j :=
  ⟨fun h => by cases h; assumption, .arr⟩

theorem keyed_obj_iff {members : List (String × Json)} :
    Keyed (.obj members) ↔ (members.map Prod.fst).Nodup ∧ ∀ m ∈ members, Keyed m.2 :=
  ⟨fun h => by cases h; exact ⟨‹_›, ‹_›⟩, fun h => .obj h.1 h.2⟩

/-! ### Steps of the reader -/

section Steps

variable {fuel : Nat} {cs rest more : List Char} {v : Json}

theorem value_scalar {c : Char} (hquote : c ≠ '"') (hbracket : c ≠ '[') (hbrace : c ≠ '\x7b') :
    value (fuel + 1) (c :: cs) = scalar (c :: cs) := by
  rw [value]
  all_goals
    intros
    simp_all

theorem value_bracket {c : Char} (h : skipSpace cs = c :: more) (hc : c ≠ ']') :
    value (fuel + 1) ('[' :: cs) = elements fuel [] (c :: more) := by
  rw [value, h]
  split
  · exact absurd (List.cons.inj ‹_›).1 hc
  · rfl

theorem value_brace {c : Char} (h : skipSpace cs = c :: more) (hc : c ≠ '\x7d') :
    value (fuel + 1) ('\x7b' :: cs) = members fuel [] (c :: more) := by
  rw [value, h]
  split
  · exact absurd (List.cons.inj ‹_›).1 hc
  · rfl

theorem elements_close {done : List Json} (hv : value fuel cs = .ok (v, rest))
    (h : skipSpace rest = ']' :: more) :
    elements (fuel + 1) done cs = .ok (.arr (v :: done).reverse, more) := by
  rw [elements, hv]
  dsimp only
  rw [h]
  rfl

theorem elements_comma {done : List Json} (hv : value fuel cs = .ok (v, rest))
    (h : skipSpace rest = ',' :: more) :
    elements (fuel + 1) done cs = elements fuel (v :: done) (skipSpace more) := by
  rw [elements, hv]
  dsimp only
  rw [h]
  rfl

variable {done : List (String × Json)} {key : String} {afterKey afterColon : List Char}

theorem members_close (hkey : string cs = .ok (key, afterKey))
    (hcolon : colon afterKey = .ok afterColon) (hv : value fuel afterColon = .ok (v, rest))
    (h : skipSpace rest = '\x7d' :: more) :
    members (fuel + 1) done ('"' :: cs) = .ok (.obj (Assoc.put done key v), more) := by
  rw [members, hkey]
  dsimp only
  rw [hcolon]
  dsimp only
  rw [hv]
  dsimp only
  rw [h]
  rfl

theorem members_comma (hkey : string cs = .ok (key, afterKey))
    (hcolon : colon afterKey = .ok afterColon) (hv : value fuel afterColon = .ok (v, rest))
    (h : skipSpace rest = ',' :: more) :
    members (fuel + 1) done ('"' :: cs) =
      members fuel (Assoc.put done key v) (skipSpace more) := by
  rw [members, hkey]
  dsimp only
  rw [hcolon]
  dsimp only
  rw [hv]
  dsimp only
  rw [h]
  rfl

end Steps

/-! ### What stands around values -/

/-- A text that starts a value: no blank and no closing bracket. -/
def StartsValue (cs : List Char) : Prop :=
  ∃ c more, cs = c :: more ∧ isSpace c = false ∧ c ≠ ']' ∧ c ≠ '\x7d'

theorem skipSpace_append {cs : List Char} (h : StartsValue cs) (rest : List Char) :
    skipSpace (cs ++ rest) = cs ++ rest := by
  obtain ⟨c, more, rfl, hspace, -⟩ := h
  rw [skipSpace, List.cons_append, List.dropWhile_cons_of_neg (by simp [hspace])]

theorem skipSpace_blank {blank : List Char} (h : ∀ c ∈ blank, isSpace c = true)
    (cs : List Char) : skipSpace (blank ++ cs) = skipSpace cs :=
  List.dropWhile_append_of_pos h

theorem endsNumber_cons {c : Char} {rest : List Char}
    (hc : isDigit c = false ∧ c ≠ '.' ∧ c ≠ 'e' ∧ c ≠ 'E') : EndsNumber (c :: rest) := by
  intro d hd
  cases hd
  exact hc

theorem endsNumber_space {c : Char} {rest : List Char} (hc : isSpace c = true) :
    EndsNumber (c :: rest) := by
  refine endsNumber_cons ?_
  simp only [isSpace, Bool.or_eq_true, beq_iff_eq] at hc
  rcases hc with ((rfl | rfl) | rfl) | rfl
  all_goals decide

theorem endsNumber_blank {blank rest : List Char} (h : ∀ c ∈ blank, isSpace c = true)
    (hrest : EndsNumber rest) : EndsNumber (blank ++ rest) := by
  cases blank with
  | nil => exact hrest
  | cons c blank => exact endsNumber_space (h c List.mem_cons_self)

theorem endsNumber_writeItems (l : Layout) (level outer : Nat) (items : List Json)
    (cs : List Char) : EndsNumber (l.writeItems level items ++ (l.line outer ++ ']' :: cs)) := by
  cases items with
  | nil =>
      rw [Layout.writeItems, List.nil_append]
      exact endsNumber_blank (l.line_blank outer) (endsNumber_cons (by decide))
  | cons item rest =>
      rw [Layout.writeItems]
      exact endsNumber_cons (by decide)

theorem endsNumber_writeMembers (l : Layout) (level outer : Nat) (members : List (String × Json))
    (cs : List Char) :
    EndsNumber (l.writeMembers level members ++ (l.line outer ++ '\x7d' :: cs)) := by
  cases members with
  | nil =>
      rw [Layout.writeMembers, List.nil_append]
      exact endsNumber_blank (l.line_blank outer) (endsNumber_cons (by decide))
  | cons m rest =>
      rw [Layout.writeMembers]
      exact endsNumber_cons (by decide)

/-- A text that starts with a digit, with a sign before it or not. -/
def StartsNumber (cs : List Char) : Prop :=
  ∃ c more, isDigit c = true ∧ (cs = c :: more ∨ cs = '-' :: c :: more)

theorem StartsNumber.append {cs : List Char} (h : StartsNumber cs) (rest : List Char) :
    StartsNumber (cs ++ rest) := by
  obtain ⟨c, more, hc, rfl | rfl⟩ := h
  · exact ⟨c, more ++ rest, hc, Or.inl rfl⟩
  · exact ⟨c, more ++ rest, hc, Or.inr rfl⟩

theorem startsNumber_ofInt (k : Int) : StartsNumber (Text.Numeral.ofInt k).toList := by
  have hfirst : ∀ (n : Nat), ∃ c cs, Text.Numeral.digitsOf n = c :: cs ∧ isDigit c = true := by
    intro n
    obtain ⟨c, cs, hcs⟩ := List.exists_cons_of_ne_nil (Text.Numeral.digitsOf_ne_nil n)
    exact ⟨c, cs, hcs, isDigit_of_mem_digitsOf (n := n) (by simp [hcs])⟩
  cases k with
  | ofNat n =>
      obtain ⟨c, cs, hcs, hc⟩ := hfirst n
      exact ⟨c, cs, hc, Or.inl (by rw [Text.Numeral.ofInt, String.toList_ofList, hcs])⟩
  | negSucc n =>
      obtain ⟨c, cs, hcs, hc⟩ := hfirst (n + 1)
      exact ⟨c, cs, hc, Or.inr (by rw [Text.Numeral.ofInt, String.toList_ofList, hcs])⟩

/-- The first character of a number is a sign or a digit. -/
theorem StartsNumber.exists_eq_cons {cs : List Char} (h : StartsNumber cs) :
    ∃ c more, cs = c :: more ∧ (c = '-' ∨ isDigit c = true) := by
  obtain ⟨c, more, hc, rfl | rfl⟩ := h
  · exact ⟨c, more, rfl, Or.inr hc⟩
  · exact ⟨'-', c :: more, rfl, Or.inl rfl⟩

/-- What starts a number is no other mark of the notation. -/
theorem ne_of_number {c d : Char} (h : c = '-' ∨ isDigit c = true) (hd : d ≠ '-')
    (hdigit : isDigit d = false) : c ≠ d := by
  rintro rfl
  rcases h with h | h
  · exact hd h
  · rw [hdigit] at h
    cases h

theorem StartsNumber.startsValue {cs : List Char} (h : StartsNumber cs) : StartsValue cs := by
  obtain ⟨c, more, hcs, hc⟩ := h.exists_eq_cons
  refine ⟨c, more, hcs, ?_, ne_of_number hc (by decide) (by decide),
    ne_of_number hc (by decide) (by decide)⟩
  simp only [isSpace, Bool.or_eq_false_iff, beq_eq_false_iff_ne]
  refine ⟨⟨⟨?_, ?_⟩, ?_⟩, ?_⟩
  all_goals exact ne_of_number hc (by decide) (by decide)

theorem startsValue_write (l : Layout) {j : Json} (h : FloatFree j) (level : Nat) :
    StartsValue (l.write level j) := by
  cases h with
  | null => exact ⟨'n', _, rfl, by decide⟩
  | bool b => cases b <;> exact ⟨_, _, rfl, by decide⟩
  | int n =>
      rw [Layout.write]
      exact (startsNumber_ofInt n).startsValue
  | str s => exact ⟨'"', _, rfl, by decide⟩
  | @arr items _ => cases items <;> exact ⟨'[', _, rfl, by decide⟩
  | @obj members _ => cases members <;> exact ⟨'\x7b', _, rfl, by decide⟩

/-! ### Scalars -/

theorem scalar_null (rest : List Char) : scalar ("null".toList ++ rest) = .ok (.null, rest) := rfl

theorem scalar_true (rest : List Char) :
    scalar ("true".toList ++ rest) = .ok (.bool true, rest) := rfl

theorem scalar_false (rest : List Char) :
    scalar ("false".toList ++ rest) = .ok (.bool false, rest) := rfl

/-- A text that starts with none of the words is no word. -/
theorem scalar_number {cs rest : List Char} {j : Json}
    (hwords : ∀ w ∈ words, w.1.isPrefixOf cs = false) (h : number? cs = some (j, rest)) :
    scalar cs = .ok (j, rest) := by
  have hnone :
      (words.findSome? fun w => (dropWord? w.1 cs).map fun rest => (w.2, rest)) = none := by
    refine List.findSome?_eq_none_iff.2 fun w hw => ?_
    rw [dropWord?, if_neg (by simp [hwords w hw])]
    rfl
  rw [scalar, hnone]
  dsimp only
  rw [h]

/-- What starts a number starts no word. -/
theorem StartsNumber.not_word {cs : List Char} (h : StartsNumber cs) {w : List Char × Json}
    (hw : w ∈ words) : w.1.isPrefixOf cs = false := by
  have hletter : ∀ {c d}, isDigit c = true → isDigit d = false → (d == c) = false := by
    intro c d hc hd
    refine beq_false_of_ne ?_
    rintro rfl
    rw [hc] at hd
    cases hd
  -- Every word but one starts with a letter; the last has a letter after its sign.
  have hword : ∃ d more, isDigit d = false ∧
      (w.1 = d :: more ∧ d ≠ '-' ∨ w.1 = '-' :: d :: more) := by
    simp only [words, List.mem_cons, List.not_mem_nil, or_false] at hw
    rcases hw with rfl | rfl | rfl | rfl | rfl | rfl
    · exact ⟨'n', _, by decide, Or.inl ⟨rfl, by decide⟩⟩
    · exact ⟨'t', _, by decide, Or.inl ⟨rfl, by decide⟩⟩
    · exact ⟨'f', _, by decide, Or.inl ⟨rfl, by decide⟩⟩
    · exact ⟨'N', _, by decide, Or.inl ⟨rfl, by decide⟩⟩
    · exact ⟨'I', _, by decide, Or.inl ⟨rfl, by decide⟩⟩
    · exact ⟨'I', _, by decide, Or.inr rfl⟩
  obtain ⟨d, more, hd, hw⟩ := hword
  obtain ⟨c, rest, hc, rfl | rfl⟩ := h
  · rcases hw with ⟨hw, -⟩ | hw
    · simp [hw, List.isPrefixOf, hletter hc hd]
    · simp [hw, List.isPrefixOf, hletter hc (show isDigit '-' = false by decide)]
  · rcases hw with ⟨hw, hsign⟩ | hw
    · simp [hw, List.isPrefixOf, hsign]
    · simp [hw, List.isPrefixOf, hletter hc hd]

theorem scalar_ofInt (k : Int) {rest : List Char} (h : EndsNumber rest) :
    scalar ((Text.Numeral.ofInt k).toList ++ rest) = .ok (.int k, rest) :=
  scalar_number (fun _ hw => ((startsNumber_ofInt k).append rest).not_word hw) (number?_ofInt k h)

/-! ### Values -/

theorem writeString_append (s : String) (rest : List Char) :
    writeString s ++ rest = '"' :: (s.toList.flatMap writeChar ++ '"' :: rest) := by
  simp [writeString]

/-- What one amount of fuel is enough for: a value that takes half of it, and the elements and
members of a value with what follows them. -/
structure Reads (l : Layout) (fuel : Nat) : Prop where
  value : ∀ {j : Json} (level : Nat) {rest : List Char}, FloatFree j → Keyed j →
    EndsNumber rest → 2 * (l.write level j).length ≤ fuel →
    Json.value fuel (l.write level j ++ rest) = .ok (j, rest)
  elements : ∀ {item : Json} {items : List Json} (done : List Json) (level outer : Nat)
    (rest : List Char), (∀ j ∈ item :: items, FloatFree j ∧ Keyed j) →
    2 * (l.write level item ++ l.writeItems level items).length + 1 ≤ fuel →
    Json.elements fuel done (l.write level item ++ (l.writeItems level items
      ++ (l.line outer ++ ']' :: rest))) = .ok (.arr (done.reverse ++ item :: items), rest)
  members : ∀ {m : String × Json} {more : List (String × Json)} (done : List (String × Json))
    (level outer : Nat) (rest : List Char), (∀ e ∈ m :: more, FloatFree e.2 ∧ Keyed e.2) →
    ((done ++ m :: more).map Prod.fst).Nodup →
    2 * (l.write level m.2 ++ l.writeMembers level more).length + 1 ≤ fuel →
    Json.members fuel done (writeString m.1 ++ (':' :: (l.gap ++ (l.write level m.2
      ++ (l.writeMembers level more ++ (l.line outer ++ '\x7d' :: rest)))))) =
        .ok (.obj (done ++ m :: more), rest)

section

variable {l : Layout} {fuel : Nat}

theorem Reads.elements_succ (h : Reads l fuel) {item : Json} {items done : List Json}
    {level outer : Nat} {rest : List Char} (hall : ∀ j ∈ item :: items, FloatFree j ∧ Keyed j)
    (hfuel : 2 * (l.write level item ++ l.writeItems level items).length + 1 ≤ fuel + 1) :
    Json.elements (fuel + 1) done (l.write level item ++ (l.writeItems level items
      ++ (l.line outer ++ ']' :: rest))) = .ok (.arr (done.reverse ++ item :: items), rest) := by
  obtain ⟨hfloat, hkeyed⟩ := hall item List.mem_cons_self
  rw [List.length_append] at hfuel
  have hvalue := h.value level hfloat hkeyed
    (endsNumber_writeItems l level outer items rest) (by omega)
  cases items with
  | nil =>
      have hclose : skipSpace (l.writeItems level [] ++ (l.line outer ++ ']' :: rest)) =
          ']' :: rest := by
        rw [Layout.writeItems, List.nil_append, skipSpace_blank (l.line_blank outer)]
        rfl
      rw [elements_close hvalue hclose, List.reverse_cons]
  | cons next items =>
      have hnext : ∀ j ∈ next :: items, FloatFree j ∧ Keyed j := fun j hj =>
        hall j (List.mem_cons_of_mem _ hj)
      have hmore : skipSpace (l.writeItems level (next :: items)
          ++ (l.line outer ++ ']' :: rest)) =
          ',' :: (l.line level ++ (l.write level next ++ (l.writeItems level items
            ++ (l.line outer ++ ']' :: rest)))) := by
        rw [Layout.writeItems]
        simp only [List.cons_append, List.append_assoc]
        rfl
      rw [Layout.writeItems] at hfuel
      simp only [List.length_append, List.length_cons] at hfuel
      rw [elements_comma hvalue hmore, skipSpace_blank (l.line_blank level),
        skipSpace_append (startsValue_write l (hnext next List.mem_cons_self).1 level),
        h.elements _ level outer rest hnext (by rw [List.length_append]; omega), List.reverse_cons,
        List.append_assoc, List.singleton_append]

theorem Reads.members_succ (h : Reads l fuel) {m : String × Json}
    {more done : List (String × Json)} {level outer : Nat} {rest : List Char}
    (hall : ∀ e ∈ m :: more, FloatFree e.2 ∧ Keyed e.2)
    (hkeys : ((done ++ m :: more).map Prod.fst).Nodup)
    (hfuel : 2 * (l.write level m.2 ++ l.writeMembers level more).length + 1 ≤ fuel + 1) :
    Json.members (fuel + 1) done (writeString m.1 ++ (':' :: (l.gap ++ (l.write level m.2
      ++ (l.writeMembers level more ++ (l.line outer ++ '\x7d' :: rest)))))) =
        .ok (.obj (done ++ m :: more), rest) := by
  obtain ⟨key, v⟩ := m
  dsimp only at hfuel ⊢
  obtain ⟨hfloat, hkeyed⟩ : FloatFree v ∧ Keyed v := hall _ List.mem_cons_self
  rw [List.length_append] at hfuel
  have hcolon : ∀ cs, colon (':' :: (l.gap ++ (l.write level v ++ cs))) =
      .ok (l.write level v ++ cs) := by
    intro cs
    have hspace : colon (':' :: (l.gap ++ (l.write level v ++ cs)))
        = .ok (skipSpace (l.gap ++ (l.write level v ++ cs))) := rfl
    rw [hspace, skipSpace_blank l.gap_blank, skipSpace_append (startsValue_write l hfloat level)]
  have hput : Assoc.put done key v = done ++ [(key, v)] := by
    refine Assoc.put_of_lookup_eq_none (List.lookup_eq_none_iff.2 fun e he => ?_) v
    rw [List.map_append, List.nodup_append] at hkeys
    have hne := hkeys.2.2 e.1 (List.mem_map.2 ⟨e, he, rfl⟩) key (by simp)
    simpa using Ne.symm hne
  have hvalue := h.value level hfloat hkeyed
    (endsNumber_writeMembers l level outer more rest) (by omega)
  rw [writeString_append]
  cases more with
  | nil =>
      have hclose : skipSpace (l.writeMembers level [] ++ (l.line outer ++ '\x7d' :: rest)) =
          '\x7d' :: rest := by
        rw [Layout.writeMembers, List.nil_append, skipSpace_blank (l.line_blank outer)]
        rfl
      rw [members_close (string_writeString key _) (hcolon _) hvalue hclose, hput]
  | cons next more =>
      obtain ⟨nextKey, nextValue⟩ := next
      have hnext : ∀ e ∈ (nextKey, nextValue) :: more, FloatFree e.2 ∧ Keyed e.2 := fun e he =>
        hall e (List.mem_cons_of_mem _ he)
      have hmore : skipSpace (l.writeMembers level ((nextKey, nextValue) :: more)
          ++ (l.line outer ++ '\x7d' :: rest)) =
          ',' :: (l.line level ++ (writeString nextKey ++ (':' :: (l.gap
            ++ (l.write level nextValue ++ (l.writeMembers level more
              ++ (l.line outer ++ '\x7d' :: rest))))))) := by
        rw [Layout.writeMembers]
        simp only [List.cons_append, List.append_assoc]
        rfl
      have hquote : StartsValue (writeString nextKey) := ⟨'"', _, rfl, by decide⟩
      rw [Layout.writeMembers] at hfuel
      simp only [List.length_append, List.length_cons] at hfuel
      rw [members_comma (string_writeString key _) (hcolon _) hvalue hmore, hput,
        skipSpace_blank (l.line_blank level), skipSpace_append hquote,
        h.members _ level outer rest hnext (by simpa using hkeys)
          (by rw [List.length_append]; dsimp only; omega),
        List.append_assoc, List.singleton_append]

theorem Reads.value_succ (h : Reads l fuel) {j : Json} {level : Nat} {rest : List Char}
    (hfloat : FloatFree j) (hkeyed : Keyed j) (hrest : EndsNumber rest)
    (hfuel : 2 * (l.write level j).length ≤ fuel + 1) :
    Json.value (fuel + 1) (l.write level j ++ rest) = .ok (j, rest) := by
  cases hfloat with
  | null => exact (value_scalar (by decide) (by decide) (by decide)).trans (scalar_null rest)
  | bool b =>
      cases b with
      | true => exact (value_scalar (by decide) (by decide) (by decide)).trans (scalar_true rest)
      | false => exact (value_scalar (by decide) (by decide) (by decide)).trans (scalar_false rest)
  | int n =>
      rw [Layout.write]
      have hscalar := scalar_ofInt n hrest
      obtain ⟨c, more, hcs, hc⟩ := (startsNumber_ofInt n).exists_eq_cons
      rw [hcs, List.cons_append] at hscalar ⊢
      rw [value_scalar (ne_of_number hc (by decide) (by decide))
        (ne_of_number hc (by decide) (by decide)) (ne_of_number hc (by decide) (by decide)),
        hscalar]
  | str s => rw [Layout.write, writeString_append, Json.value, string_writeString]
  | @arr items hall =>
      cases hkeyed with
      | arr hkeyed =>
          cases items with
          | nil => rfl
          | cons item items =>
              rw [Layout.write] at hfuel ⊢
              simp only [List.length_append, List.length_cons] at hfuel
              have hread := h.elements [] (level + 1) level rest
                (fun j hj => ⟨hall j hj, hkeyed j hj⟩) (by rw [List.length_append]; omega)
              have hstarts := startsValue_write l (hall item List.mem_cons_self) (level + 1)
              have hskip : ∀ cs, skipSpace (l.line (level + 1) ++ (l.write (level + 1) item ++ cs))
                  = l.write (level + 1) item ++ cs := fun cs => by
                rw [skipSpace_blank (l.line_blank _), skipSpace_append hstarts]
              obtain ⟨c, more, hc, -, hbracket, -⟩ := hstarts
              simp only [hc, List.cons_append, List.append_assoc, List.nil_append] at hread hskip ⊢
              rw [value_bracket (hskip _) hbracket, hread, List.reverse_nil, List.nil_append]
  | @obj members hall =>
      cases hkeyed with
      | obj hkeys hkeyed =>
          cases members with
          | nil => rfl
          | cons m members =>
              obtain ⟨key, v⟩ := m
              rw [Layout.write] at hfuel ⊢
              simp only [List.length_append, List.length_cons] at hfuel
              have hread := h.members [] (level + 1) level rest
                (fun e he => ⟨hall e he, hkeyed e he⟩) hkeys
                (by rw [List.length_append]; dsimp only; omega)
              have hskip : ∀ cs, skipSpace (l.line (level + 1) ++ (writeString key ++ cs)) =
                  writeString key ++ cs := fun cs => by
                rw [skipSpace_blank (l.line_blank _)]
                exact skipSpace_append ⟨'"', _, rfl, by decide⟩ cs
              simp only [List.cons_append, List.append_assoc, List.nil_append, writeString_append]
                at hread hskip ⊢
              rw [value_brace (hskip _) (by decide), hread]

theorem reads (l : Layout) (fuel : Nat) : Reads l fuel := by
  induction fuel with
  | zero =>
      refine ⟨fun {j} level {rest} hfloat _ _ hfuel => ?_, ?_, ?_⟩
      · obtain ⟨c, more, hc, -⟩ := startsValue_write l hfloat level
        rw [hc, List.length_cons] at hfuel
        omega
      · intros
        omega
      · intros
        omega
  | succ fuel ih =>
      exact ⟨fun _ => ih.value_succ, fun _ _ _ _ => ih.elements_succ,
        fun _ _ _ _ => ih.members_succ⟩

end

/-! ### Documents -/

/-- What reading a text comes down to that starts with neither a blank nor a byte order mark. -/
theorem document_eq_ok_iff {c : Char} {cs : List Char} {j : Json} (hspace : isSpace c = false)
    (hmark : c ≠ '\uFEFF') :
    document (c :: cs) = .ok j ↔
      ∃ rest, value (2 * (c :: cs).length + 2) (c :: cs) = .ok (j, rest) ∧ skipSpace rest = [] := by
  have hskip : skipSpace (c :: cs) = c :: cs := List.dropWhile_cons_of_neg (by simp [hspace])
  rw [document.eq_2 _ (by simpa using hmark), hskip]
  cases hvalue : value (2 * (c :: cs).length + 2) (c :: cs) with
  | error e => simp
  | ok found =>
      obtain ⟨v, rest⟩ := found
      cases hrest : skipSpace rest with
      | nil => simp [hrest]
      | cons c more =>
          simp only [hrest, faultAt, reduceCtorEq, false_iff, not_exists, not_and]
          rintro r heq hnil
          cases heq
          rw [hrest] at hnil
          cases hnil

theorem write_obj (l : Layout) (level : Nat) (members : List (String × Json)) :
    ∃ more, l.write level (.obj members) = '\x7b' :: more := by
  cases members <;> exact ⟨_, rfl⟩

/-- No value is written with a byte order mark at its start. -/
theorem ne_mark_of_write {l : Layout} {j : Json} (h : FloatFree j) {level : Nat} {c : Char}
    {more : List Char} (hwrite : l.write level j = c :: more) : c ≠ '\uFEFF' := by
  have hfirst : ∀ d rest, l.write level j = d :: rest → d ≠ '\uFEFF' → c ≠ '\uFEFF' := by
    intro d rest hd hne
    rw [hwrite] at hd
    rwa [(List.cons.inj hd).1]
  cases h with
  | null => exact hfirst 'n' _ rfl (by decide)
  | bool b => cases b <;> exact hfirst _ _ rfl (by decide)
  | int n =>
      rw [Layout.write] at hwrite hfirst
      obtain ⟨d, rest, hd, hnumber⟩ := (startsNumber_ofInt n).exists_eq_cons
      exact hfirst d rest hd (ne_of_number hnumber (by decide) (by decide))
  | str s => exact hfirst '"' _ rfl (by decide)
  | @arr items _ => cases items <;> exact hfirst '[' _ rfl (by decide)
  | @obj members _ => cases members <;> exact hfirst '\x7b' _ rfl (by decide)

/-- A value that was written is read as itself, whatever blanks follow it. -/
theorem parse_write (l : Layout) {j : Json} (hfloat : FloatFree j) (hkeyed : Keyed j)
    {blank : List Char} (hblank : ∀ c ∈ blank, isSpace c = true) :
    parse (String.ofList (l.write 0 j ++ blank)) = .ok j := by
  obtain ⟨c, more, hmore, hspace, -⟩ := startsValue_write l hfloat 0
  have hends : EndsNumber blank := by
    have h : EndsNumber (blank ++ []) := endsNumber_blank hblank fun _ hc => by cases hc
    rwa [List.append_nil] at h
  have hread := (reads l (2 * (l.write 0 j ++ blank).length + 2)).value 0 hfloat hkeyed hends
    (by rw [List.length_append]; omega)
  have hnone : skipSpace blank = [] := by
    rw [← List.append_nil blank, skipSpace_blank hblank]
    rfl
  have hmark := ne_mark_of_write hfloat hmore
  rw [hmore, List.cons_append] at hread
  rw [parse, String.toList_ofList, hmore, List.cons_append,
    (document_eq_ok_iff hspace hmark).2 ⟨blank, hread, hnone⟩]
  rfl

theorem parse_pretty {j : Json} (hfloat : FloatFree j) (hkeyed : Keyed j) :
    parse (pretty j ++ "\n") = .ok j := by
  have htext : pretty j ++ "\n" = String.ofList (Layout.pretty.write 0 j ++ ['\n']) := by
    rw [String.ofList_append, Layout.write_pretty]
    rfl
  rw [htext, parse_write _ hfloat hkeyed (by simp [isSpace])]

theorem parse_compact {members : List (String × Json)} (hfloat : FloatFree (.obj members))
    (hkeyed : Keyed (.obj members)) : parse (compact (.obj members)) = .ok (.obj members) := by
  have h := parse_write Layout.compact hfloat hkeyed (List.forall_mem_nil _)
  rwa [List.append_nil] at h

/-! ### What the reader gives -/

theorem keyed_number {cs rest : List Char} {j : Json} (h : number? cs = some (j, rest)) :
    Keyed j := by
  unfold number? at h
  split at h
  rename_i negative unsigned _
  split at h
  · cases h
  · split at h
    · cases h
      exact .float _
    · split at h
      · cases h
        exact .float _
      · cases h
        exact .int _

theorem keyed_scalar {cs rest : List Char} {j : Json} (h : scalar cs = .ok (j, rest)) :
    Keyed j := by
  rw [scalar] at h
  split at h
  · rename_i found hfound
    cases h
    obtain ⟨w, hw, hsome⟩ := List.exists_of_findSome?_eq_some hfound
    obtain ⟨more, -, heq⟩ := Option.map_eq_some_iff.1 hsome
    cases heq
    simp only [words, List.mem_cons, List.not_mem_nil, or_false] at hw
    rcases hw with rfl | rfl | rfl | rfl | rfl | rfl
    · exact .null
    · exact .bool _
    · exact .bool _
    · exact .float _
    · exact .float _
    · exact .float _
  · split at h
    · rename_i found hfound
      cases h
      exact keyed_number hfound
    · cases h

/-- What the readers give has each key once, as it had before. -/
structure Keeps (fuel : Nat) : Prop where
  value : ∀ {cs rest : List Char} {j : Json}, Json.value fuel cs = .ok (j, rest) → Keyed j
  elements : ∀ {done : List Json} {cs rest : List Char} {j : Json}, (∀ i ∈ done, Keyed i) →
    Json.elements fuel done cs = .ok (j, rest) → Keyed j
  members : ∀ {done : List (String × Json)} {cs rest : List Char} {j : Json},
    (done.map Prod.fst).Nodup → (∀ e ∈ done, Keyed e.2) →
    Json.members fuel done cs = .ok (j, rest) → Keyed j

theorem Keeps.value_succ {fuel : Nat} (h : Keeps fuel) {cs rest : List Char} {j : Json}
    (hread : Json.value (fuel + 1) cs = .ok (j, rest)) : Keyed j := by
  rw [Json.value.eq_def] at hread
  dsimp only at hread
  split at hread
  · split at hread
    · cases hread
    · cases hread
      exact .str _
  · split at hread
    · cases hread
      exact .arr fun i hi => by cases hi
    · exact h.elements (fun i hi => by cases hi) hread
  · split at hread
    · cases hread
      exact .obj List.nodup_nil fun e he => by cases he
    · exact h.members (by simp) (by simp) hread
  · exact keyed_scalar hread

theorem Keeps.elements_succ {fuel : Nat} (h : Keeps fuel) {done : List Json}
    {cs rest : List Char} {j : Json} (hdone : ∀ i ∈ done, Keyed i)
    (hread : Json.elements (fuel + 1) done cs = .ok (j, rest)) : Keyed j := by
  rw [Json.elements] at hread
  split at hread
  · cases hread
  · rename_i v more hvalue
    have hall : ∀ i ∈ v :: done, Keyed i := by
      intro i hi
      rcases List.mem_cons.1 hi with rfl | hi
      · exact h.value hvalue
      · exact hdone i hi
    split at hread
    · cases hread
      exact .arr fun i hi => hall i (List.mem_reverse.1 hi)
    · exact h.elements hall hread
    · cases hread

theorem Keeps.members_succ {fuel : Nat} (h : Keeps fuel) {done : List (String × Json)}
    {cs rest : List Char} {j : Json} (hkeys : (done.map Prod.fst).Nodup)
    (hdone : ∀ e ∈ done, Keyed e.2)
    (hread : Json.members (fuel + 1) done cs = .ok (j, rest)) : Keyed j := by
  rw [Json.members.eq_def] at hread
  dsimp only at hread
  split at hread
  · split at hread
    · cases hread
    · rename_i key afterKey hkey
      split at hread
      · cases hread
      · split at hread
        · cases hread
        · rename_i v more hvalue
          have hput := Assoc.nodup_keys_put hkeys key v
          have hall : ∀ e ∈ Assoc.put done key v, Keyed e.2 := by
            intro e he
            rcases Assoc.mem_of_mem_put he with he | rfl
            · exact hdone e he
            · exact h.value hvalue
          split at hread
          · cases hread
            exact .obj hput hall
          · exact h.members hput hall hread
          · cases hread
  · cases hread

theorem keeps (fuel : Nat) : Keeps fuel := by
  induction fuel with
  | zero =>
      refine ⟨?_, ?_, ?_⟩
      · intro cs rest j h
        cases h
      · intro done cs rest j _ h
        cases h
      · intro done cs rest j _ _ h
        cases h
  | succ fuel ih => exact ⟨ih.value_succ, ih.elements_succ, ih.members_succ⟩

/-- A document that was read has each key once. -/
theorem keyed_of_parse {s : String} {j : Json} (h : parse s = .ok j) : Keyed j := by
  rw [parse] at h
  cases hdocument : document s.toList with
  | error f =>
      rw [hdocument] at h
      cases h
  | ok v =>
      rw [hdocument] at h
      cases h
      rw [document.eq_def] at hdocument
      split at hdocument
      · cases hdocument
      · split at hdocument
        · cases hdocument
        · rename_i hvalue
          split at hdocument
          · cases hdocument
            exact (keeps _).value hvalue
          · cases hdocument

end Redline.Json
