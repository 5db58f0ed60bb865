import ProxyPlane.Text.Utf8

/-!
# SHA-256

The digest of 256 bits by which documents are told apart.

## What is here

* `Sha256.pad`, the message followed by its padding up to whole blocks.
* `Sha256.digest`, the eight words of the digest of a message.
* `Sha256.hexDigest`, the digest as 64 lower-case hexadecimal digits.
-/

set_option autoImplicit false
namespace ProxyPlane
namespace Sha256

/-- The round constants: the first 32 bits of the fractional parts of the cube roots of the first 64
primes. -/
def roundConstants : List UInt32 :=
  [0x428a2f98, 0x71374491, 0xb5c0fbcf, 0xe9b5dba5, 0x3956c25b, 0x59f111f1, 0x923f82a4, 0xab1c5ed5,
   0xd807aa98, 0x12835b01, 0x243185be, 0x550c7dc3, 0x72be5d74, 0x80deb1fe, 0x9bdc06a7, 0xc19bf174,
   0xe49b69c1, 0xefbe4786, 0x0fc19dc6, 0x240ca1cc, 0x2de92c6f, 0x4a7484aa, 0x5cb0a9dc, 0x76f988da,
   0x983e5152, 0xa831c66d, 0xb00327c8, 0xbf597fc7, 0xc6e00bf3, 0xd5a79147, 0x06ca6351, 0x14292967,
   0x27b70a85, 0x2e1b2138, 0x4d2c6dfc, 0x53380d13, 0x650a7354, 0x766a0abb, 0x81c2c92e, 0x92722c85,
   0xa2bfe8a1, 0xa81a664b, 0xc24b8b70, 0xc76c51a3, 0xd192e819, 0xd6990624, 0xf40e3585, 0x106aa070,
   0x19a4c116, 0x1e376c08, 0x2748774c, 0x34b0bcb5, 0x391c0cb3, 0x4ed8aa4a, 0x5b9cca4f, 0x682e6ff3,
   0x748f82ee, 0x78a5636f, 0x84c87814, 0x8cc70208, 0x90befffa, 0xa4506ceb, 0xbef9a3f7, 0xc67178f2]

/-- The eight words that the digest is computed in. -/
structure State where
  a : UInt32
  b : UInt32
  c : UInt32
  d : UInt32
  e : UInt32
  f : UInt32
  g : UInt32
  h : UInt32
deriving DecidableEq, Repr

/-- The state before the first block: the first 32 bits of the fractional parts of the square roots
of the first eight primes. -/
def start : State :=
  ⟨0x6a09e667, 0xbb67ae85, 0x3c6ef372, 0xa54ff53a, 0x510e527f, 0x9b05688c, 0x1f83d9ab, 0x5be0cd19⟩

/-- A word rotated to the right. -/
def rotate (x : UInt32) (n : UInt32) : UInt32 := (x >>> n) ||| (x <<< (32 - n))

/-- One round on the state, with a word of the schedule and a round constant. -/
def round (s : State) (w k : UInt32) : State :=
  let sum₁ := rotate s.e 6 ^^^ rotate s.e 11 ^^^ rotate s.e 25
  let choice := (s.e &&& s.f) ^^^ (~~~ s.e &&& s.g)
  let t₁ := s.h + sum₁ + choice + k + w
  let sum₀ := rotate s.a 2 ^^^ rotate s.a 13 ^^^ rotate s.a 22
  let majority := (s.a &&& s.b) ^^^ (s.a &&& s.c) ^^^ (s.b &&& s.c)
  ⟨t₁ + (sum₀ + majority), s.a, s.b, s.c, s.d + t₁, s.e, s.f, s.g⟩

/-- The next word of the schedule after the latest sixteen, which stand latest first. -/
def nextWord (latest : List UInt32) : UInt32 :=
  let word (i : Nat) := latest.getD i 0
  let x := word 14
  let y := word 1
  word 15 + (rotate x 7 ^^^ rotate x 18 ^^^ (x >>> 3)) + word 6 +
    (rotate y 17 ^^^ rotate y 19 ^^^ (y >>> 10))

/-- The rounds of a block.  The first sixteen words are those of the block; `latest` holds those
used so far, latest first. -/
def rounds (s : State) (latest : List UInt32) : List UInt32 → List UInt32 → State
  | [], _ => s
  | k :: ks, w :: ws => rounds (round s w k) (w :: latest) ks ws
  | k :: ks, [] =>
    let w := nextWord latest
    rounds (round s w k) (w :: latest.take 15) ks []

/-- The state after a block of sixteen words. -/
def block (s : State) (words : List UInt32) : State :=
  let t := rounds s [] roundConstants words
  ⟨s.a + t.a, s.b + t.b, s.c + t.c, s.d + t.d, s.e + t.e, s.f + t.f, s.g + t.g, s.h + t.h⟩

/-- The words of a byte string, four bytes each, the first byte highest. -/
def words : Bytes → List UInt32
  | a :: b :: c :: d :: rest =>
    ((a.toUInt32 <<< 24) ||| (b.toUInt32 <<< 16) ||| (c.toUInt32 <<< 8) ||| d.toUInt32) ::
      words rest
  | _ => []

/-- The low bytes of a number, highest first. -/
def bigEndian : Nat → Nat → Bytes
  | 0, _ => []
  | width + 1, n => bigEndian width (n / 256) ++ [(n % 256).toUInt8]

/-- A message with its padding: a one bit, zeros, and the length in bits, up to whole blocks of 64
bytes. -/
def pad (bs : Bytes) : Bytes :=
  let n := bs.length
  bs ++ 0x80 :: List.replicate ((119 - n % 64) % 64) 0 ++ bigEndian 8 (8 * n)

/-- The state after all whole blocks of a list of words. -/
def blocks : Nat → State → List UInt32 → State
  | 0, s, _ => s
  | n + 1, s, ws => blocks n (block s (ws.take 16)) (ws.drop 16)

/-- The words of the digest of a message. -/
def digest (bs : Bytes) : List UInt32 :=
  let ws := words (pad bs)
  let s := blocks (ws.length / 16) start ws
  [s.a, s.b, s.c, s.d, s.e, s.f, s.g, s.h]

/-- A word as eight hexadecimal digits. -/
def hexWord (w : UInt32) : List Char :=
  let ds := Nat.toDigits 16 w.toNat
  List.replicate (8 - ds.length) '0' ++ ds

/-- The digest of a message in hexadecimal. -/
def hexDigest (bs : Bytes) : String := String.ofList ((digest bs).flatMap hexWord)

end Sha256
end ProxyPlane
