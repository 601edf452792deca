import Mathlib.Tactic.Common
import Redline.Text.Utf8

/-!
# Reading and writing UTF-8 are inverse

What is read at the head of a written character is that character, and a character that is read is
the written one at the head. So strict reading succeeds on written texts and nothing else, and on
them lenient reading gives the text back.
-/

namespace Redline.Text.Utf8

theorem valid_toNat (c : Char) : c.toNat < 0xD800 ∨ 0xDFFF < c.toNat ∧ c.toNat < 0x110000 := by
  have h := c.valid
  simpa [UInt32.isValidChar, Nat.isValidChar] using h

/-! After some first octets the second one has a bound of its own. -/

theorem ite_toNat_le {b special own usual : UInt8} {n : Nat} :
    (if b = special then own else usual).toNat ≤ n ↔
      (b.toNat = special.toNat → own.toNat ≤ n) ∧
        (b.toNat ≠ special.toNat → usual.toNat ≤ n) := by
  rw [UInt8.toNat_inj, Ne, UInt8.toNat_inj]
  split_ifs with h <;> simp [h]

theorem le_ite_toNat {b special own usual : UInt8} {n : Nat} :
    n ≤ (if b = special then own else usual).toNat ↔
      (b.toNat = special.toNat → n ≤ own.toNat) ∧
        (b.toNat ≠ special.toNat → n ≤ usual.toNat) := by
  rw [UInt8.toNat_inj, Ne, UInt8.toNat_inj]
  split_ifs with h <;> simp [h]

theorem piece_one {b : UInt8} (hb : b.toNat < 128) (tail : Bytes) :
    piece b tail = .char (Char.ofNat b.toNat) 1 := by
  rw [piece, if_pos (UInt8.lt_iff_toNat_lt.2 hb)]

theorem piece_two {b x : UInt8} {p q : Nat} (hb : b.toNat = 192 + p) (hp : 2 ≤ p) (hp' : p < 32)
    (hx : x.toNat = 128 + q) (hq : q < 64) (tail : Bytes) :
    piece b (x :: tail) = .char (Char.ofNat (p * 64 + q)) 2 := by
  have e : b.toNat % 32 * 64 + x.toNat % 64 = p * 64 + q := by omega
  simp only [piece, continuation, UInt8.lt_iff_toNat_lt, UInt8.le_iff_toNat_le,
    UInt8.reduceToNat, e]
  rw [if_neg (by omega), if_neg (by omega), if_pos (by omega), if_pos (by omega)]

theorem piece_three {b x y : UInt8} {p q r : Nat} (hb : b.toNat = 224 + p) (hp : p < 16)
    (hx : x.toNat = 128 + q) (hq : q < 64) (hy : y.toNat = 128 + r) (hr : r < 64)
    (hlow : 0x800 ≤ p * 4096 + q * 64 + r)
    (hgap : p * 4096 + q * 64 + r < 0xD800 ∨ 0xDFFF < p * 4096 + q * 64 + r) (tail : Bytes) :
    piece b (x :: y :: tail) = .char (Char.ofNat (p * 4096 + q * 64 + r)) 3 := by
  have e : (b.toNat % 16 * 64 + x.toNat % 64) * 64 + y.toNat % 64 = p * 4096 + q * 64 + r := by
    omega
  simp only [piece, UInt8.lt_iff_toNat_lt, UInt8.reduceToNat]
  rw [if_neg (by omega), if_neg (by omega), if_neg (by omega), if_pos (by omega)]
  rw [continuation, if_pos, continuation, if_pos, continuation, e]
  · simp only [UInt8.le_iff_toNat_le, UInt8.reduceToNat]; omega
  · simp only [UInt8.le_iff_toNat_le, ite_toNat_le, le_ite_toNat, UInt8.reduceToNat]
    omega

theorem piece_four {b x y z : UInt8} {p q r t : Nat} (hb : b.toNat = 240 + p)
    (hx : x.toNat = 128 + q) (hq : q < 64) (hy : y.toNat = 128 + r) (hr : r < 64)
    (hz : z.toNat = 128 + t) (ht : t < 64)
    (hlow : 0x10000 ≤ p * 262144 + q * 4096 + r * 64 + t)
    (hhigh : p * 262144 + q * 4096 + r * 64 + t < 0x110000) (tail : Bytes) :
    piece b (x :: y :: z :: tail) = .char (Char.ofNat (p * 262144 + q * 4096 + r * 64 + t)) 4 := by
  have e : ((b.toNat % 8 * 64 + x.toNat % 64) * 64 + y.toNat % 64) * 64 + z.toNat % 64 =
      p * 262144 + q * 4096 + r * 64 + t := by
    omega
  simp only [piece, UInt8.lt_iff_toNat_lt, UInt8.reduceToNat]
  rw [if_neg (by omega), if_neg (by omega), if_neg (by omega), if_neg (by omega),
    if_pos (by omega)]
  rw [continuation, if_pos, continuation, if_pos, continuation, if_pos, continuation, e]
  · simp only [UInt8.le_iff_toNat_le, UInt8.reduceToNat]; omega
  · simp only [UInt8.le_iff_toNat_le, UInt8.reduceToNat]; omega
  · simp only [UInt8.le_iff_toNat_le, ite_toNat_le, le_ite_toNat, UInt8.reduceToNat]
    omega

/-- What is read at the head of a written character is the character. -/
theorem piece_encodeChar (c : Char) (tail : Bytes) :
    ∃ b rest, String.utf8EncodeChar c = b :: rest ∧
      piece b (rest ++ tail) = .char c (rest.length + 1) := by
  have hv := valid_toNat c
  have hc : Char.ofNat c.toNat = c := Char.ofNat_toNat c
  unfold String.utf8EncodeChar
  simp only [show c.val.toNat = c.toNat from rfl]
  generalize c.toNat = v at *
  have oct : ∀ n, n < 256 → (UInt8.ofNat n).toNat = n := fun n hn => by
    rw [UInt8.toNat_ofNat']; omega
  split_ifs with h1 h2 h3
  · refine ⟨_, _, rfl, ?_⟩
    rw [piece_one (by rw [oct _ (by omega)]; omega), oct _ (by omega), hc]
    rfl
  · refine ⟨_, _, rfl, ?_⟩
    refine (piece_two (p := v / 64) (q := v % 64)
      ?_ (by omega) (by omega) ?_ (by omega) tail).trans ?_
    · rw [oct _ (by omega)]; omega
    · rw [oct _ (by omega)]; omega
    · rw [show v / 64 * 64 + v % 64 = v by omega, hc]
      rfl
  · refine ⟨_, _, rfl, ?_⟩
    have e : v / 4096 * 4096 + v / 64 % 64 * 64 + v % 64 = v := by omega
    refine (piece_three (p := v / 4096) (q := v / 64 % 64) (r := v % 64) ?_ (by omega) ?_ (by omega)
      ?_ (by omega) (by omega) (by omega) tail).trans ?_
    · rw [oct _ (by omega)]; omega
    · rw [oct _ (by omega)]; omega
    · rw [oct _ (by omega)]; omega
    · rw [e, hc]
      rfl
  · refine ⟨_, _, rfl, ?_⟩
    have e : v / 262144 * 262144 + v / 4096 % 64 * 4096 + v / 64 % 64 * 64 + v % 64 = v := by omega
    refine (piece_four (p := v / 262144) (q := v / 4096 % 64) (r := v / 64 % 64) (t := v % 64)
      ?_ ?_ (by omega) ?_ (by omega) ?_ (by omega) (by omega) (by omega) tail).trans ?_
    · rw [oct _ (by omega)]; omega
    · rw [oct _ (by omega)]; omega
    · rw [oct _ (by omega)]; omega
    · rw [oct _ (by omega)]; omega
    · rw [e, hc]
      rfl

theorem toNat_charOfNat {v : Nat} (h : v < 0xD800 ∨ 0xDFFF < v ∧ v < 0x110000) :
    (Char.ofNat v).toNat = v := by
  have hv : v.isValidChar := h
  rw [Char.ofNat, dif_pos hv]
  rfl

theorem exists_of_continuation_char {owed : Nat} {low high : UInt8} {value size n : Nat} {c : Char}
    {rest : Bytes} (h : continuation (owed + 1) low high value size rest = .char c n) :
    ∃ x tail, rest = x :: tail ∧ low.toNat ≤ x.toNat ∧ x.toNat ≤ high.toNat ∧
      continuation owed 0x80 0xBF (value * 64 + x.toNat % 64) (size + 1) tail = .char c n := by
  cases rest with
  | nil => cases h
  | cons x tail =>
      rw [continuation] at h
      split_ifs at h with hx
      exact ⟨x, tail, rfl, UInt8.le_iff_toNat_le.1 hx.1, UInt8.le_iff_toNat_le.1 hx.2, h⟩

theorem eq_ofNat_of_toNat {x : UInt8} {n : Nat} (h : x.toNat = n) : x = UInt8.ofNat n := by
  rw [← h, UInt8.ofNat_toNat]

theorem encodeChar_one {b : UInt8} (hb : b.toNat < 128) :
    String.utf8EncodeChar (Char.ofNat b.toNat) = [b] := by
  rw [String.utf8EncodeChar]
  simp only [show (Char.ofNat b.toNat).val.toNat = b.toNat from toNat_charOfNat (by omega)]
  rw [if_pos (by omega), ← eq_ofNat_of_toNat rfl]

theorem encodeChar_two {b x : UInt8} {v : Nat} (hb : b.toNat = v / 64 % 32 + 192)
    (hx : x.toNat = v % 64 + 128) (hlow : 0x80 ≤ v) (hhigh : v < 0x800) :
    String.utf8EncodeChar (Char.ofNat v) = [b, x] := by
  rw [String.utf8EncodeChar]
  simp only [show (Char.ofNat v).val.toNat = v from toNat_charOfNat (by omega)]
  rw [if_neg (by omega), if_pos (by omega), ← eq_ofNat_of_toNat hb, ← eq_ofNat_of_toNat hx]

theorem encodeChar_three {b x y : UInt8} {v : Nat} (hb : b.toNat = v / 4096 % 16 + 224)
    (hx : x.toNat = v / 64 % 64 + 128) (hy : y.toNat = v % 64 + 128) (hlow : 0x800 ≤ v)
    (hgap : v < 0xD800 ∨ 0xDFFF < v) (hhigh : v < 0x10000) :
    String.utf8EncodeChar (Char.ofNat v) = [b, x, y] := by
  rw [String.utf8EncodeChar]
  simp only [show (Char.ofNat v).val.toNat = v from toNat_charOfNat (by omega)]
  rw [if_neg (by omega), if_neg (by omega), if_pos (by omega), ← eq_ofNat_of_toNat hb,
    ← eq_ofNat_of_toNat hx, ← eq_ofNat_of_toNat hy]

theorem encodeChar_four {b x y z : UInt8} {v : Nat} (hb : b.toNat = v / 262144 % 8 + 240)
    (hx : x.toNat = v / 4096 % 64 + 128) (hy : y.toNat = v / 64 % 64 + 128)
    (hz : z.toNat = v % 64 + 128) (hlow : 0x10000 ≤ v) (hhigh : v < 0x110000) :
    String.utf8EncodeChar (Char.ofNat v) = [b, x, y, z] := by
  rw [String.utf8EncodeChar]
  simp only [show (Char.ofNat v).val.toNat = v from toNat_charOfNat (by omega)]
  rw [if_neg (by omega), if_neg (by omega), if_neg (by omega), ← eq_ofNat_of_toNat hb,
    ← eq_ofNat_of_toNat hx, ← eq_ofNat_of_toNat hy, ← eq_ofNat_of_toNat hz]

/-- A character that is read is the written one at the head. -/
theorem encodeChar_of_piece {b : UInt8} {rest : Bytes} {c : Char} {n : Nat}
    (h : piece b rest = .char c n) :
    b :: rest = String.utf8EncodeChar c ++ rest.drop (n - 1) := by
  simp only [piece, UInt8.lt_iff_toNat_lt, UInt8.reduceToNat] at h
  by_cases c1 : b.toNat < 128
  · rw [if_pos c1] at h
    cases h
    rw [encodeChar_one c1]
    rfl
  rw [if_neg c1] at h
  by_cases c2 : b.toNat < 194
  · rw [if_pos c2] at h
    cases h
  rw [if_neg c2] at h
  by_cases c3 : b.toNat < 224
  · rw [if_pos c3] at h
    obtain ⟨x, tail, rfl, hx, hx', h⟩ := exists_of_continuation_char h
    cases h
    simp only [UInt8.reduceToNat] at hx hx'
    rw [encodeChar_two (b := b) (x := x) (by omega) (by omega) (by omega) (by omega)]
    rfl
  rw [if_neg c3] at h
  by_cases c4 : b.toNat < 240
  · rw [if_pos c4] at h
    obtain ⟨x, tail, rfl, hx, hx', h⟩ := exists_of_continuation_char h
    obtain ⟨y, tail, rfl, hy, hy', h⟩ := exists_of_continuation_char h
    cases h
    simp only [ite_toNat_le, le_ite_toNat, UInt8.reduceToNat] at hx hx' hy hy'
    rw [encodeChar_three (b := b) (x := x) (y := y) (by omega) (by omega) (by omega) (by omega)
      (by omega) (by omega)]
    rfl
  rw [if_neg c4] at h
  by_cases c5 : b.toNat < 245
  · rw [if_pos c5] at h
    obtain ⟨x, tail, rfl, hx, hx', h⟩ := exists_of_continuation_char h
    obtain ⟨y, tail, rfl, hy, hy', h⟩ := exists_of_continuation_char h
    obtain ⟨z, tail, rfl, hz, hz', h⟩ := exists_of_continuation_char h
    cases h
    simp only [ite_toNat_le, le_ite_toNat, UInt8.reduceToNat] at hx hx' hy hy' hz hz'
    rw [encodeChar_four (b := b) (x := x) (y := y) (z := z) (by omega) (by omega) (by omega)
      (by omega) (by omega) (by omega)]
    rfl
  · rw [if_neg c5] at h
    cases h

theorem encode_ofList (cs : List Char) :
    encode (String.ofList cs) = cs.flatMap String.utf8EncodeChar := by
  rw [encode, String.toList_ofList]

theorem pieces_encodeChar_append (c : Char) (tail : Bytes) :
    pieces (String.utf8EncodeChar c ++ tail) =
      .char c (String.utf8EncodeChar c).length :: pieces tail := by
  obtain ⟨b, rest, hc, hpiece⟩ := piece_encodeChar c tail
  rw [hc, List.cons_append, pieces, hpiece]
  simp [Piece.size]

theorem pieces_encode_append (cs : List Char) (tail : Bytes) :
    pieces (cs.flatMap String.utf8EncodeChar ++ tail) =
      (cs.map fun c => .char c (String.utf8EncodeChar c).length) ++ pieces tail := by
  induction cs with
  | nil => rfl
  | cons c cs ih =>
      rw [List.flatMap_cons, List.append_assoc, pieces_encodeChar_append, ih, List.map_cons,
        List.cons_append]

theorem pieces_encode (s : String) :
    pieces (encode s) = s.toList.map fun c => .char c (String.utf8EncodeChar c).length := by
  have h := pieces_encode_append s.toList []
  rwa [List.append_nil, pieces, List.append_nil] at h

@[simp] theorem decodeLossy_encode (s : String) : decodeLossy (encode s) = s := by
  rw [decodeLossy, pieces_encode, List.map_map]
  have h : Piece.toChar ∘ (fun c => Piece.char c (String.utf8EncodeChar c).length) = id := rfl
  rw [h, List.map_id, String.ofList_toList]

theorem encode_injective : Function.Injective encode := fun a b h => by
  have hdecode := congrArg decodeLossy h
  rwa [decodeLossy_encode, decodeLossy_encode] at hdecode

theorem collect_chars (bytes : Bytes) (cs : List Char) (position : Nat) :
    collect bytes (cs.map fun c => .char c (String.utf8EncodeChar c).length) position = .ok cs := by
  induction cs generalizing position with
  | nil => rfl
  | cons c cs ih =>
      rw [List.map_cons, collect, ih]
      rfl

theorem decode_encode (s : String) : decode (encode s) = .ok s := by
  rw [decode, pieces_encode, collect_chars]
  simp [Except.map]

/-- Octets whose pieces are all characters are the written ones. -/
theorem encode_of_collect {whole : Bytes} (bytes : Bytes) {position : Nat} {cs : List Char}
    (h : collect whole (pieces bytes) position = .ok cs) :
    bytes = cs.flatMap String.utf8EncodeChar := by
  induction bytes using pieces.induct generalizing position cs with
  | case1 =>
      rw [pieces] at h
      cases h
      rfl
  | case2 b rest p =>
      rename_i ih
      rw [pieces] at h
      cases hp : piece b rest with
      | ill defect n =>
          simp only [hp, collect] at h
          cases h
      | char c n =>
          simp only [hp, collect, Piece.size] at h
          cases hrest : collect whole (pieces (rest.drop (n - 1))) (position + n) with
          | error f =>
              rw [hrest] at h
              cases h
          | ok cs' =>
              rw [hrest] at h
              cases h
              have hsize : p.size = n := by
                rw [show p = piece b rest from rfl, hp, Piece.size]
              rw [hsize] at ih
              rw [List.flatMap_cons, ← ih hrest]
              exact encodeChar_of_piece hp

/-- Strict reading succeeds on the written form of a text only. -/
theorem decode_eq_ok_iff {bytes : Bytes} {text : String} :
    decode bytes = .ok text ↔ bytes = encode text := by
  constructor
  · intro h
    rw [decode] at h
    cases hcs : collect bytes (pieces bytes) 0 with
    | error f =>
        rw [hcs] at h
        cases h
    | ok cs =>
        rw [hcs] at h
        cases h
        rw [encode_ofList]
        exact encode_of_collect bytes hcs
  · rintro rfl
    exact decode_encode text

end Redline.Text.Utf8
