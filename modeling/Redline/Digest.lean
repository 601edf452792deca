import Redline.Text.Utf8

/-!
# SHA-256

The digest of some octets, as lower-case hexadecimal digits. Checksums and identities are the first
digits of it.
-/

namespace Redline.Digest

/-- The words of the round constants. -/
def roundConstants : Array UInt32 := #[
  0x428a2f98, 0x71374491, 0xb5c0fbcf, 0xe9b5dba5, 0x3956c25b, 0x59f111f1, 0x923f82a4, 0xab1c5ed5,
  0xd807aa98, 0x12835b01, 0x243185be, 0x550c7dc3, 0x72be5d74, 0x80deb1fe, 0x9bdc06a7, 0xc19bf174,
  0xe49b69c1, 0xefbe4786, 0x0fc19dc6, 0x240ca1cc, 0x2de92c6f, 0x4a7484aa, 0x5cb0a9dc, 0x76f988da,
  0x983e5152, 0xa831c66d, 0xb00327c8, 0xbf597fc7, 0xc6e00bf3, 0xd5a79147, 0x06ca6351, 0x14292967,
  0x27b70a85, 0x2e1b2138, 0x4d2c6dfc, 0x53380d13, 0x650a7354, 0x766a0abb, 0x81c2c92e, 0x92722c85,
  0xa2bfe8a1, 0xa81a664b, 0xc24b8b70, 0xc76c51a3, 0xd192e819, 0xd6990624, 0xf40e3585, 0x106aa070,
  0x19a4c116, 0x1e376c08, 0x2748774c, 0x34b0bcb5, 0x391c0cb3, 0x4ed8aa4a, 0x5b9cca4f, 0x682e6ff3,
  0x748f82ee, 0x78a5636f, 0x84c87814, 0x8cc70208, 0x90befffa, 0xa4506ceb, 0xbef9a3f7, 0xc67178f2]

/-- The chaining state: eight words. -/
structure State where
  a : UInt32
  b : UInt32
  c : UInt32
  d : UInt32
  e : UInt32
  f : UInt32
  g : UInt32
  h : UInt32
  deriving DecidableEq, Repr, Inhabited

/-- The state before the first block. -/
def State.start : State :=
  { a := 0x6a09e667, b := 0xbb67ae85, c := 0x3c6ef372, d := 0xa54ff53a
    e := 0x510e527f, f := 0x9b05688c, g := 0x1f83d9ab, h := 0x5be0cd19 }

/-- A word turned right by `n` bits. -/
def rotate (x : UInt32) (n : UInt32) : UInt32 :=
  (x >>> n) ||| (x <<< (32 - n))

/-- A natural number as `n` octets, the most significant first. -/
def bigEndian (n value : Nat) : Bytes :=
  match n with
  | 0 => []
  | n + 1 => bigEndian n (value / 256) ++ [UInt8.ofNat (value % 256)]

/-- The message with its end mark, zeros and bit length: a whole number of blocks. -/
def pad (message : Bytes) : Bytes :=
  let zeros := (119 - message.length % 64) % 64
  message ++ 0x80 :: List.replicate zeros 0 ++ bigEndian 8 (8 * message.length)

/-- The words of some octets, four octets each. -/
def words : Bytes → List UInt32
  | a :: b :: c :: d :: rest =>
    (a.toUInt32 <<< 24 ||| b.toUInt32 <<< 16 ||| c.toUInt32 <<< 8 ||| d.toUInt32) :: words rest
  | _ => []

/-- The word of the schedule after the words `w`. -/
def nextWord (w : Array UInt32) : UInt32 :=
  let at_ (back : Nat) : UInt32 := w.getD (w.size - back) 0
  let x := at_ 15
  let y := at_ 2
  let s0 := rotate x 7 ^^^ rotate x 18 ^^^ (x >>> 3)
  let s1 := rotate y 17 ^^^ rotate y 19 ^^^ (y >>> 10)
  at_ 16 + s0 + at_ 7 + s1

/-- The sixty-four words of a block's schedule. -/
def schedule (block : List UInt32) : Array UInt32 :=
  (List.range 48).foldl (fun w _ => w.push (nextWord w)) block.toArray

/-- One round with the word and the constant of that round. -/
def State.round (s : State) (word constant : UInt32) : State :=
  let s1 := rotate s.e 6 ^^^ rotate s.e 11 ^^^ rotate s.e 25
  let choice := (s.e &&& s.f) ^^^ (s.e.complement &&& s.g)
  let t1 := s.h + s1 + choice + constant + word
  let s0 := rotate s.a 2 ^^^ rotate s.a 13 ^^^ rotate s.a 22
  let majority := (s.a &&& s.b) ^^^ (s.a &&& s.c) ^^^ (s.b &&& s.c)
  { a := t1 + (s0 + majority), b := s.a, c := s.b, d := s.c
    e := s.d + t1, f := s.e, g := s.f, h := s.g }

/-- The state after a block. -/
def State.compress (s : State) (block : List UInt32) : State :=
  let w := schedule block
  let t := (List.range 64).foldl
    (fun t i => t.round (w.getD i 0) (roundConstants.getD i 0)) s
  { a := s.a + t.a, b := s.b + t.b, c := s.c + t.c, d := s.d + t.d
    e := s.e + t.e, f := s.f + t.f, g := s.g + t.g, h := s.h + t.h }

/-- The state after all words, `blocks` blocks of sixteen. -/
def State.absorb (s : State) (blocks : Nat) (ws : List UInt32) : State :=
  match blocks with
  | 0 => s
  | blocks + 1 => (s.compress (ws.take 16)).absorb blocks (ws.drop 16)

/-- Eight hexadecimal digits of a word. -/
def hexWord (x : UInt32) : String :=
  String.join ((bigEndian 4 x.toNat).map Text.Utf8.hexOctet)

/-- The sixty-four hexadecimal digits of the digest. -/
def sha256 (message : Bytes) : String :=
  let ws := words (pad message)
  let s := State.start.absorb (ws.length / 16) ws
  String.join ([s.a, s.b, s.c, s.d, s.e, s.f, s.g, s.h].map hexWord)

/-- The first `n` digits of the digest. -/
def short (n : Nat) (message : Bytes) : String :=
  String.ofList ((sha256 message).toList.take n)

/-- The first `n` digits of the digest of a text. -/
def ofText (n : Nat) (s : String) : String :=
  short n (Text.Utf8.encode s)

end Redline.Digest
