/-!
# SHA-256

The hash function of FIPS 180-4 on lists of bytes.

* `Sha256.pad` completes a message to whole blocks of 64 bytes, `Sha256.schedule` stretches a block
  to 64 words, and `Sha256.compress` works one block into the state of eight words.
* `sha256` folds `compress` over the blocks and gives the 32 bytes of the final state.
-/

set_option autoImplicit false

namespace RightOfWay

namespace Sha256

/-- The first thirty-two bits of the fractional parts of the cube roots of the first 64 primes. -/
def roundConstants : List UInt32 := [
  0x428a2f98, 0x71374491, 0xb5c0fbcf, 0xe9b5dba5, 0x3956c25b, 0x59f111f1, 0x923f82a4, 0xab1c5ed5,
  0xd807aa98, 0x12835b01, 0x243185be, 0x550c7dc3, 0x72be5d74, 0x80deb1fe, 0x9bdc06a7, 0xc19bf174,
  0xe49b69c1, 0xefbe4786, 0x0fc19dc6, 0x240ca1cc, 0x2de92c6f, 0x4a7484aa, 0x5cb0a9dc, 0x76f988da,
  0x983e5152, 0xa831c66d, 0xb00327c8, 0xbf597fc7, 0xc6e00bf3, 0xd5a79147, 0x06ca6351, 0x14292967,
  0x27b70a85, 0x2e1b2138, 0x4d2c6dfc, 0x53380d13, 0x650a7354, 0x766a0abb, 0x81c2c92e, 0x92722c85,
  0xa2bfe8a1, 0xa81a664b, 0xc24b8b70, 0xc76c51a3, 0xd192e819, 0xd6990624, 0xf40e3585, 0x106aa070,
  0x19a4c116, 0x1e376c08, 0x2748774c, 0x34b0bcb5, 0x391c0cb3, 0x4ed8aa4a, 0x5b9cca4f, 0x682e6ff3,
  0x748f82ee, 0x78a5636f, 0x84c87814, 0x8cc70208, 0x90befffa, 0xa4506ceb, 0xbef9a3f7, 0xc67178f2]

/-- The eight words that a block is worked into. -/
structure State where
  a : UInt32
  b : UInt32
  c : UInt32
  d : UInt32
  e : UInt32
  f : UInt32
  g : UInt32
  h : UInt32
  deriving DecidableEq

namespace State

/-- The first thirty-two bits of the fractional parts of the square roots of the first 8 primes. -/
def initial : State :=
  ⟨0x6a09e667, 0xbb67ae85, 0x3c6ef372, 0xa54ff53a, 0x510e527f, 0x9b05688c, 0x1f83d9ab, 0x5be0cd19⟩

def words (s : State) : List UInt32 := [s.a, s.b, s.c, s.d, s.e, s.f, s.g, s.h]

/-- Word by word, modulo `2 ^ 32`. -/
def add (s t : State) : State :=
  ⟨s.a + t.a, s.b + t.b, s.c + t.c, s.d + t.d, s.e + t.e, s.f + t.f, s.g + t.g, s.h + t.h⟩

end State

/-- The word turned right by `n` bits, for `0 < n < 32`. -/
def rotate (x n : UInt32) : UInt32 := (x >>> n) ||| (x <<< (32 - n))

/-- One round, with the round's constant and its word of the schedule. -/
def round (s : State) (constant word : UInt32) : State :=
  let mixedE := rotate s.e 6 ^^^ rotate s.e 11 ^^^ rotate s.e 25
  let choice := (s.e &&& s.f) ^^^ (~~~s.e &&& s.g)
  let first := s.h + mixedE + choice + constant + word
  let mixedA := rotate s.a 2 ^^^ rotate s.a 13 ^^^ rotate s.a 22
  let majority := (s.a &&& s.b) ^^^ (s.a &&& s.c) ^^^ (s.b &&& s.c)
  ⟨first + (mixedA + majority), s.a, s.b, s.c, s.d + first, s.e, s.f, s.g⟩

/-- The sixteen words of a block stretched to sixty-four. -/
def schedule (block : List UInt32) : Array UInt32 :=
  (List.range 48).foldl (fun w i ↦
      let x := w.getD (i + 1) 0
      let y := w.getD (i + 14) 0
      let mixedX := rotate x 7 ^^^ rotate x 18 ^^^ (x >>> 3)
      let mixedY := rotate y 17 ^^^ rotate y 19 ^^^ (y >>> 10)
      w.push (w.getD i 0 + mixedX + w.getD (i + 9) 0 + mixedY))
    block.toArray

/-- The state after one more block of sixteen words. -/
def compress (s : State) (block : List UInt32) : State :=
  s.add ((roundConstants.zip (schedule block).toList).foldl (fun s (k, w) ↦ round s k w) s)

/-- The `width` bytes of a number, most significant first. -/
def bigEndian (width n : Nat) : List UInt8 :=
  (List.range width).map fun i ↦ UInt8.ofNat (n >>> (8 * (width - 1 - i)))

@[simp] theorem length_bigEndian (width n : Nat) : (bigEndian width n).length = width := by
  simp [bigEndian]

/-- The message completed to whole blocks: a one bit, zeros, and its length in bits. -/
def pad (message : List UInt8) : List UInt8 :=
  message ++ 0x80 :: List.replicate ((119 - message.length % 64) % 64) 0 ++
    bigEndian 8 (8 * message.length)

theorem length_pad_mod (message : List UInt8) : (pad message).length % 64 = 0 := by
  simp [pad]; omega

/-- The words of a list of bytes, most significant byte first; bytes short of a
word are left out. -/
def words : List UInt8 → List UInt32
  | p :: q :: r :: s :: rest =>
    (p.toUInt32 <<< 24 ||| q.toUInt32 <<< 16 ||| r.toUInt32 <<< 8 ||| s.toUInt32) :: words rest
  | _ => []

/-- A list cut into pieces of sixteen; what is left over is dropped. -/
def blocks (ws : List UInt32) : List (List UInt32) :=
  (List.range (ws.length / 16)).map fun i ↦ (ws.drop (16 * i)).take 16

end Sha256

/-- The thirty-two bytes of the SHA-256 hash. -/
def sha256 (message : List UInt8) : List UInt8 :=
  ((Sha256.blocks (Sha256.words (Sha256.pad message))).foldl Sha256.compress
    Sha256.State.initial).words.flatMap fun w ↦ Sha256.bigEndian 4 w.toNat

theorem length_sha256 (message : List UInt8) : (sha256 message).length = 32 := by
  simp [sha256, Sha256.State.words]

end RightOfWay
