import Redline.Proofs.Tree.Positions

/-!
# Octets and characters lead back to each other

In a file that is UTF-8 the way from characters to octets and back is the identity, and the way from
octets to characters and back is the identity on the boundaries and nowhere else. In any file with
as many characters as octets, ill-formed or not, an octet is its own character: a piece that is cut
has the octets that are left of it (`size_piece_take`), so where every piece is one octet a cut
changes none of those before it (`length_pieces_take`).
-/

namespace Redline

namespace Text.Utf8

theorem le_size_continuation (owed : Nat) (low high : UInt8) (value size : Nat) (bytes : Bytes) :
    size ≤ (continuation owed low high value size bytes).size := by
  induction owed generalizing low high value size bytes with
  | zero => exact Nat.le_refl size
  | succ owed ih =>
      cases bytes with
      | nil => exact Nat.le_refl size
      | cons b rest =>
          rw [continuation]
          split_ifs
          · exact Nat.le_of_succ_le (ih _ _ _ _ rest)
          · exact Nat.le_refl size

/-- Continuation octets are read up to a cut. -/
theorem size_continuation_take (owed : Nat) (low high : UInt8) (value size : Nat) (bytes : Bytes)
    (n : Nat) :
    (continuation owed low high value size (bytes.take n)).size =
      min (continuation owed low high value size bytes).size (size + n) := by
  induction owed generalizing low high value size bytes n with
  | zero => exact (Nat.min_eq_left (Nat.le_add_right size n)).symm
  | succ owed ih =>
      cases bytes with
      | nil =>
          rw [List.take_nil]
          exact (Nat.min_eq_left (Nat.le_add_right size n)).symm
      | cons b rest =>
          cases n with
          | zero => exact (Nat.min_eq_right (le_size_continuation _ _ _ _ _ _)).symm
          | succ n =>
              rw [List.take_succ_cons, continuation, continuation]
              split_ifs
              · rw [ih, Nat.add_right_comm, Nat.add_assoc]
              · exact (Nat.min_eq_left (Nat.le_add_right size (n + 1))).symm

/-- The first octet of a piece tells the piece, or what must follow it. -/
theorem piece_eq (b : UInt8) :
    (∃ p : Piece, p.size = 1 ∧ ∀ rest, piece b rest = p) ∨
      ∃ owed low high value, ∀ rest, piece b rest = continuation owed low high value 1 rest := by
  by_cases hascii : b < 0x80
  · exact .inl ⟨_, rfl, fun rest => by rw [piece, if_pos hascii]⟩
  by_cases hbad : b < 0xC2
  · exact .inl ⟨_, rfl, fun rest => by rw [piece, if_neg hascii, if_pos hbad]⟩
  by_cases htwo : b < 0xE0
  · exact .inr ⟨_, _, _, _, fun rest => by
      rw [piece, if_neg hascii, if_neg hbad, if_pos htwo]⟩
  by_cases hthree : b < 0xF0
  · exact .inr ⟨_, _, _, _, fun rest => by
      rw [piece, if_neg hascii, if_neg hbad, if_neg htwo, if_pos hthree]⟩
  by_cases hfour : b < 0xF5
  · exact .inr ⟨_, _, _, _, fun rest => by
      rw [piece, if_neg hascii, if_neg hbad, if_neg htwo, if_neg hthree, if_pos hfour]⟩
  · exact .inl ⟨_, rfl, fun rest => by
      rw [piece, if_neg hascii, if_neg hbad, if_neg htwo, if_neg hthree, if_neg hfour]⟩

theorem one_le_size_piece (b : UInt8) (rest : Bytes) : 1 ≤ (piece b rest).size := by
  obtain ⟨p, hsize, hp⟩ | ⟨owed, low, high, value, hp⟩ := piece_eq b
  · rw [hp]
    exact Nat.le_of_eq hsize.symm
  · rw [hp]
    exact le_size_continuation owed low high value 1 rest

/-- A piece that is cut has the octets that are left of it. -/
theorem size_piece_take (b : UInt8) (rest : Bytes) (n : Nat) :
    (piece b (rest.take n)).size = min (piece b rest).size (n + 1) := by
  obtain ⟨p, hsize, hp⟩ | ⟨owed, low, high, value, hp⟩ := piece_eq b
  · rw [hp, hp, hsize]
    exact (Nat.min_eq_left (Nat.le_add_left 1 n)).symm
  · rw [hp, hp, size_continuation_take, Nat.add_comm]

theorem size_piece_le (b : UInt8) (rest : Bytes) : (piece b rest).size ≤ rest.length + 1 := by
  have h := size_piece_take b rest rest.length
  rw [List.take_length] at h
  omega

theorem length_pieces_cons (b : UInt8) (rest : Bytes) :
    (pieces (b :: rest)).length =
      (pieces (rest.drop ((piece b rest).size - 1))).length + 1 := by
  rw [pieces, List.length_cons]

theorem length_pieces_le (bytes : Bytes) : (pieces bytes).length ≤ bytes.length := by
  induction bytes using pieces.induct with
  | case1 => rw [pieces]; exact Nat.le_refl 0
  | case2 b rest p ih =>
      rw [length_pieces_cons, List.length_cons]
      rw [List.length_drop] at ih
      exact Nat.succ_le_succ (Nat.le_trans ih (Nat.sub_le _ _))

/-- Where there are as many pieces as octets, the first is one octet and so it is behind it. -/
theorem size_piece_of_length_pieces {b : UInt8} {rest : Bytes}
    (h : (pieces (b :: rest)).length = rest.length + 1) :
    (piece b rest).size = 1 ∧ (pieces rest).length = rest.length := by
  rw [length_pieces_cons] at h
  have hsize : (piece b rest).size = 1 := by
    have hle := length_pieces_le (rest.drop ((piece b rest).size - 1))
    have hone := one_le_size_piece b rest
    have hrest := size_piece_le b rest
    rw [List.length_drop] at hle
    omega
  rw [hsize] at h
  exact ⟨hsize, Nat.succ.inj h⟩

/-- Where there are as many pieces as octets, so there are before every cut. -/
theorem length_pieces_take {bytes : Bytes} (h : (pieces bytes).length = bytes.length) (n : Nat) :
    (pieces (bytes.take n)).length = (bytes.take n).length := by
  -- Octet by octet: each piece is one, so the pieces behind it are those of the octets behind it.
  induction bytes generalizing n with
  | nil => rw [List.take_nil, pieces, List.length_nil, List.length_nil]
  | cons b rest ih =>
      obtain ⟨hsize, hrest⟩ := size_piece_of_length_pieces h
      cases n with
      | zero => rw [List.take_zero, pieces, List.length_nil, List.length_nil]
      | succ n =>
          have hcut : (piece b (rest.take n)).size = 1 := by
            rw [size_piece_take, hsize]
            exact Nat.min_eq_left (Nat.le_add_left 1 n)
          rw [List.take_succ_cons, length_pieces_cons, hcut, List.length_cons]
          exact congrArg Nat.succ (ih hrest n)

theorem length_decodeLossy (bytes : Bytes) :
    (decodeLossy bytes).length = (pieces bytes).length := by
  rw [decodeLossy, String.length_ofList, List.length_map]

end Text.Utf8

namespace Source

open Text Text.Utf8

variable {s : Source} {text : String}

theorem length_pieces_of_isPlain (h : s.isPlain = true) :
    (pieces s.bytes).length = s.bytes.length := by
  rw [isPlain, beq_iff_eq, s.size_eq, s.text_eq, String.length_toList, length_decodeLossy] at h
  exact h.symm

/-- In a file with as many characters as octets, the octets before a place are as many
characters. -/
theorem charOffset_of_isPlain (h : s.isPlain = true) {b : Nat} (hb : b ≤ s.bytes.length) :
    Position.charOffset s.bytes b = b := by
  rw [Position.charOffset, before_natCast, length_decodeLossy,
    length_pieces_take (length_pieces_of_isPlain h), List.length_take, Nat.min_eq_left hb]

/-- The octets before a character are those of the characters before it. -/
theorem Marks.take_bytes {n c : Nat} (hs : s.IsUtf8) (h : s.Marks n c) :
    s.bytes.take n = encode (String.ofList (before s.text (c : Int))) := by
  rw [hs, h.ofText.take_encode, String.toList_ofList, before_natCast]

/-- In a file of characters of one octet each octet is where one starts. -/
theorem IsUtf8.marks_of_isPlain (hs : s.IsUtf8) (h : s.isPlain = true) {b : Nat}
    (hb : b ≤ s.bytes.length) : s.Marks b b := by
  have hwidth := hs.width_eq_of_isPlain h
  have hle : b ≤ s.text.length := by rwa [← hwidth, ← hs.size_eq_width, s.size_eq]
  exact ⟨hle, (width_take_of_width_eq hwidth hle).symm⟩

/-- The way from characters to octets ends on boundaries only. -/
theorem IsUtf8.isBoundary_of_byteOffset (hs : s.IsUtf8) {b : Nat} (hb : b ≤ s.bytes.length)
    (h : s.byteOffset (s.charOffset b) = b) : s.IsBoundary b := by
  by_cases hplain : s.isPlain = true
  · exact ⟨b, hs.marks_of_isPlain hplain hb⟩
  · -- The octets of whole characters are counted, of all if there are not so many.
    rw [byteOffset, charOffset, if_neg hplain, if_neg hplain, before_natCast, encode_ofList] at h
    refine ⟨min (Position.charOffset s.bytes b) s.text.length, Nat.min_le_right _ _, ?_⟩
    rw [← List.take_eq_take_min, Utf8.width]
    exact (Int.ofNat.inj h).symm

/-- The boundaries of a file are the octets to which the way over the characters leads back. -/
theorem IsUtf8.isBoundary_iff (hs : s.IsUtf8) {b : Nat} :
    s.IsBoundary b ↔ b ≤ s.bytes.length ∧ s.byteOffset (s.charOffset b) = b := by
  constructor
  · rintro ⟨c, hc⟩
    rw [hc.charOffset_eq hs, hc.byteOffset_eq hs]
    exact ⟨hc.le_size hs, rfl⟩
  · rintro ⟨hb, h⟩
    exact hs.isBoundary_of_byteOffset hb h

/-- The ways between octets and characters are inverse, and the short way is exact. In a file that
is UTF-8 every character, the end included, leads to an octet and from there back; an octet leads to
a character and from there back exactly if it is a boundary, and the octets before a boundary are
the written form of the characters before the character that it leads to. In every file with as many
characters as octets, be it UTF-8 or not, the number of an octet is the number of characters that
the octets before it are read as. -/
theorem offsets_inverse (s : Source) :
    (∀ text, decode s.bytes = .ok text →
      (∀ c : Nat, c ≤ text.length → s.charOffset (s.byteOffset c) = c) ∧
      (∀ b : Nat, s.IsBoundary b ↔
        b ≤ s.bytes.length ∧ s.byteOffset (s.charOffset b) = b) ∧
      ∀ b : Nat, s.IsBoundary b →
        s.bytes.take b = encode (String.ofList (before text.toList (s.charOffset b)))) ∧
    (s.isPlain = true → ∀ b : Nat, b ≤ s.bytes.length →
      s.charOffset b = b ∧ Position.charOffset s.bytes b = b) := by
  refine ⟨fun text h => ?_, fun h b hb => ?_⟩
  · have hs : s.IsUtf8 := isUtf8_of_decode h
    have htext : s.text = text.toList := text_of_decode h
    refine ⟨fun c hc => ?_, fun b => hs.isBoundary_iff, ?_⟩
    · have hmarks : s.Marks (Utf8.width (s.text.take c)) c :=
        ⟨by rwa [htext, String.length_toList], rfl⟩
      rw [hmarks.byteOffset_eq hs, hmarks.charOffset_eq hs]
    · rintro b ⟨c, hc⟩
      rw [hc.charOffset_eq hs, hc.take_bytes hs, htext]
  · refine ⟨?_, charOffset_of_isPlain h hb⟩
    rw [charOffset, if_pos h]

/-- A file with characters of one, two, three and four octets. -/
def mixed : Source :=
  make "a.ts" (encode "aé€𝒳") default

/-- A file that is not UTF-8 and has as many characters as octets: a surrogate, and the start of a
character that breaks off. -/
def broken : Source :=
  make "b.ts" [0xED, 0xA0, 0x80, 0xF0, 0x28] default

theorem offsets_inverse_mixed :
    decode mixed.bytes = .ok "aé€𝒳" ∧ mixed.charOffset (mixed.byteOffset (3 : Nat)) = (3 : Nat) ∧
      mixed.IsBoundary 6 ∧ mixed.byteOffset (mixed.charOffset (6 : Nat)) = (6 : Nat) ∧
      broken.isPlain = true ∧ Position.charOffset broken.bytes (4 : Nat) = (4 : Nat) := by
  have h : decode mixed.bytes = .ok "aé€𝒳" := decode_encode "aé€𝒳"
  have hplain : broken.isPlain = true := by decide +kernel
  have hboundary : mixed.IsBoundary 6 := ⟨3, by decide +kernel, by decide +kernel⟩
  obtain ⟨hchar, hoctet, -⟩ := (offsets_inverse mixed).1 _ h
  exact ⟨h, hchar 3 (by decide), hboundary, ((hoctet 6).1 hboundary).2, hplain,
    ((offsets_inverse broken).2 hplain 4 (by decide)).2⟩

end Source

end Redline
