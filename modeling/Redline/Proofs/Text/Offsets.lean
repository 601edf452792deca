import Mathlib.Tactic.Common
import Redline.Position
import Redline.Proofs.Text.Utf8

/-!
# Octets and characters of a text

`width` counts the octets of the written form of some characters. `Marks cs n c` says that octet `n`
of the written form is where character `c` starts, or its end. On such places the way from octets to
characters is exact and keeps the order, and what lies between two of them is the written form of
the characters between.
-/

namespace Redline

namespace Text.Utf8

/-- The number of octets of some characters. -/
def width (cs : List Char) : Nat :=
  (cs.flatMap String.utf8EncodeChar).length

theorem length_encode (s : String) : (encode s).length = width s.toList := rfl

@[simp] theorem width_nil : width [] = 0 := rfl

theorem width_cons (c : Char) (cs : List Char) :
    width (c :: cs) = (String.utf8EncodeChar c).length + width cs := by
  rw [width, width, List.flatMap_cons, List.length_append]

theorem width_append (cs ds : List Char) : width (cs ++ ds) = width cs + width ds := by
  rw [width, width, width, List.flatMap_append, List.length_append]

theorem one_le_length_encodeChar (c : Char) : 1 ≤ (String.utf8EncodeChar c).length :=
  List.length_pos_iff.2 String.utf8EncodeChar_ne_nil

theorem length_le_width (cs : List Char) : cs.length ≤ width cs := by
  induction cs with
  | nil => exact Nat.le_refl 0
  | cons c cs ih =>
      have hc := one_le_length_encodeChar c
      rw [width_cons, List.length_cons]
      omega

theorem width_take_add_width_drop (cs : List Char) (n : Nat) :
    width (cs.take n) + width (cs.drop n) = width cs := by
  rw [← width_append, List.take_append_drop]

/-- Where all characters are one octet, so are those at the start. -/
theorem width_take_of_width_eq {cs : List Char} (h : width cs = cs.length) {n : Nat}
    (hn : n ≤ cs.length) : width (cs.take n) = n := by
  have hsum := width_take_add_width_drop cs n
  have htake := length_le_width (cs.take n)
  have hdrop := length_le_width (cs.drop n)
  rw [List.length_take, Nat.min_eq_left hn] at htake
  rw [List.length_drop] at hdrop
  omega

/-- More characters are more octets. -/
theorem width_take_lt {cs : List Char} {m n : Nat} (hmn : m < n) (hn : n ≤ cs.length) :
    width (cs.take m) < width (cs.take n) := by
  have hsplit : cs.take n = cs.take m ++ (cs.take n).drop m := by
    conv_lhs => rw [← List.take_append_drop m (cs.take n)]
    rw [List.take_take, Nat.min_eq_left (Nat.le_of_lt hmn)]
  have hlength := length_le_width ((cs.take n).drop m)
  rw [List.length_drop, List.length_take, Nat.min_eq_left hn] at hlength
  rw [hsplit, width_append]
  omega

theorem take_width (cs : List Char) (n : Nat) :
    (cs.flatMap String.utf8EncodeChar).take (width (cs.take n)) =
      (cs.take n).flatMap String.utf8EncodeChar := by
  conv_lhs => rw [← List.take_append_drop n cs, List.flatMap_append]
  rw [List.take_append_drop, width, List.take_left']
  rfl

theorem drop_width (cs : List Char) (n : Nat) :
    (cs.flatMap String.utf8EncodeChar).drop (width (cs.take n)) =
      (cs.drop n).flatMap String.utf8EncodeChar := by
  conv_lhs => rw [← List.take_append_drop n cs, List.flatMap_append]
  rw [List.take_append_drop, width, List.drop_left']
  rfl

end Text.Utf8

namespace Text

theorem place_natCast (size n : Nat) : place size (n : Int) = min n size := by
  rw [place, if_neg (by omega), Int.toNat_natCast]

theorem before_natCast {α : Type} (xs : List α) (n : Nat) : before xs (n : Int) = xs.take n := by
  rw [before, place_natCast, ← List.take_eq_take_min]

theorem onward_natCast {α : Type} (xs : List α) (n : Nat) : onward xs (n : Int) = xs.drop n := by
  rw [onward, place_natCast]
  rcases Nat.le_total n xs.length with h | h
  · rw [Nat.min_eq_left h]
  · rw [Nat.min_eq_right h, List.drop_length, List.drop_of_length_le h]

theorem between_natCast {α : Type} {xs : List α} {m n : Nat} (hm : m ≤ xs.length) :
    between xs (m : Int) (n : Int) = (xs.take n).drop m := by
  rw [between, before_natCast, place_natCast, Nat.min_eq_left hm]

end Text

namespace Text.Utf8

/-- Octet `n` is where character `c` starts, or the end. -/
def Marks (cs : List Char) (n c : Nat) : Prop :=
  c ≤ cs.length ∧ n = width (cs.take c)

variable {cs : List Char} {n m c e : Nat}

theorem Marks.lt_iff (hn : Marks cs n c) (hm : Marks cs m e) : n < m ↔ c < e := by
  constructor
  · intro h
    by_contra hce
    rcases Nat.lt_or_eq_of_le (Nat.le_of_not_lt hce) with hlt | rfl
    · have := width_take_lt hlt hn.1
      rw [← hn.2, ← hm.2] at this
      omega
    · rw [hn.2, hm.2] at h
      exact Nat.lt_irrefl _ h
  · intro h
    rw [hn.2, hm.2]
    exact width_take_lt h hm.1

theorem Marks.le_iff (hn : Marks cs n c) (hm : Marks cs m e) : n ≤ m ↔ c ≤ e := by
  have h := hm.lt_iff hn
  omega

theorem Marks.le_width (h : Marks cs n c) : n ≤ width cs := by
  have hsum := width_take_add_width_drop cs c
  rw [h.2]
  omega

theorem Marks.append (h : Marks cs n c) (ds : List Char) : Marks (cs ++ ds) n c := by
  refine ⟨?_, ?_⟩
  · rw [List.length_append]
    exact Nat.le_add_right_of_le h.1
  · rw [List.take_append_of_le_length h.1, h.2]

theorem Marks.prepend (h : Marks cs n c) (ds : List Char) :
    Marks (ds ++ cs) (width ds + n) (ds.length + c) := by
  refine ⟨?_, ?_⟩
  · rw [List.length_append]
    exact Nat.add_le_add_left h.1 _
  · rw [List.take_length_add_append, width_append, h.2]

/-- The octets before a character. -/
theorem Marks.take_encode {text : String} (h : Marks text.toList n c) :
    (encode text).take n = encode (String.ofList (text.toList.take c)) := by
  rw [h.2, encode, take_width, encode_ofList]

/-- The octets between two characters. -/
theorem Marks.between_encode {text : String} (hn : Marks text.toList n c)
    (hm : Marks text.toList m e) (hle : n ≤ m) :
    ((encode text).take m).drop n =
      encode (String.ofList ((text.toList.take e).drop c)) := by
  have hce : c ≤ e := (hn.le_iff hm).1 hle
  rw [hm.take_encode, hn.2, encode_ofList, encode_ofList, ← drop_width, List.take_take,
    Nat.min_eq_left hce]

/-- The number of characters before an octet where one starts. -/
theorem Marks.charOffset_eq {text : String} (h : Marks text.toList n c) :
    Position.charOffset (encode text) n = c := by
  rw [Position.charOffset, before_natCast, h.take_encode,
    decodeLossy_encode, String.length_ofList, List.length_take, Nat.min_eq_left h.1]

end Text.Utf8

end Redline
