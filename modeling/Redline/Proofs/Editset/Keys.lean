import Mathlib.Data.List.Basic
import Redline.Editset.Basic
import Redline.Proofs.Symbol.Keys
import Redline.Proofs.Text.Utf8

/-!
# The texts that name a place

A key is read back from its text exactly if its name has no colon. The text that identifies a place
of a file is that of no other place, whatever the file is called: both are cut from the right, where
numbers stand that have no colon. So two places share an identity only if two messages share the
first digits of their digests.
-/

namespace Redline

namespace Range

/-- The numbers of a range, as the text that identifies a place has them. -/
def numerals (r : Range) : List (List Char) :=
  [r.startLine, r.startColumn, r.endLine, r.endColumn].map fun k => (Text.Numeral.ofInt k).toList

theorem toList_key (file : String) (r : Range) :
    (r.key file).toList = file.toList ++ r.numerals.flatMap (':' :: ·) := by
  simp [key, numerals]

theorem colon_notMem_numerals (r : Range) : ∀ part ∈ r.numerals, ':' ∉ part := by
  intro part hpart
  obtain ⟨k, -, rfl⟩ := List.mem_map.1 hpart
  exact SymbolKey.colon_notMem_ofInt k

theorem numerals_injective : Function.Injective numerals := by
  intro r r' h
  have hints := List.map_injective_iff.2
    (fun k l hkl => Text.Numeral.ofInt_injective (String.toList_injective hkl)) h
  cases r
  cases r'
  simpa using hints

/-- The text that identifies a place is that of no other place. -/
theorem key_eq_key_iff {file file' : String} {r r' : Range} :
    r.key file = r'.key file' ↔ file = file' ∧ r = r' := by
  refine ⟨fun h => ?_, by rintro ⟨rfl, rfl⟩; rfl⟩
  have hchars := congrArg String.toList h
  rw [toList_key, toList_key] at hchars
  obtain ⟨hfile, hnumerals⟩ := Text.eq_of_append_parts_eq r.colon_notMem_numerals
    r'.colon_notMem_numerals rfl hchars
  exact ⟨String.toList_injective hfile, numerals_injective hnumerals⟩

end Range

/-- Two messages are different, and the first `n` digits of their digests are the same. -/
def Digest.Collide (n : Nat) (m m' : Bytes) : Prop :=
  m ≠ m' ∧ short n m = short n m'

/-- Two places share an identity only if they are one, or their messages collide. -/
theorem Range.refId_eq_refId_iff {file file' : String} {r r' : Range} :
    r.refId file = r'.refId file' ↔ file = file' ∧ r = r' ∨
      Digest.Collide 8 (Text.Utf8.encode (r.key file)) (Text.Utf8.encode (r'.key file')) := by
  constructor
  · intro h
    by_cases hplace : file = file' ∧ r = r'
    · exact .inl hplace
    · exact .inr ⟨fun hmessage =>
        hplace (key_eq_key_iff.1 (Text.Utf8.encode_injective hmessage)), h⟩
  · rintro (⟨rfl, rfl⟩ | ⟨-, h⟩)
    · rfl
    · exact h

/-- The texts that name a place tell which it is. The text of a key is read as the key exactly if
the name of the key has no colon. The text that identifies a place of a file is that of no other
place and of no other file, and the identity of a place is the start of the digest of this text: so
two places with one identity are the same, or two different messages have digests that start in the
same way. -/
theorem location_keys_unique :
    (∀ k : SymbolKey, SymbolKey.ofText k.text = .ok k ↔ ':' ∉ k.name.toList) ∧
    (∀ (file file' : String) (r r' : Range),
      r.key file = r'.key file' ↔ file = file' ∧ r = r') ∧
    ∀ (file file' : String) (r r' : Range),
      r.refId file = Digest.short 8 (Text.Utf8.encode (r.key file)) ∧
        (r.refId file = r'.refId file' ↔ file = file' ∧ r = r' ∨
          Digest.Collide 8 (Text.Utf8.encode (r.key file)) (Text.Utf8.encode (r'.key file'))) :=
  ⟨SymbolKey.ofText_text_eq_ok_iff, fun _ _ _ _ => Range.key_eq_key_iff,
    fun _ _ _ _ => ⟨rfl, Range.refId_eq_refId_iff⟩⟩

end Redline
