import SpotGateway.Text.Digits

/-!
# SHA-256

The 256-bit hash of a sequence of bytes: the bytes are padded to blocks of 64, and each block is
mixed into a state of eight words.

* `State` — eight words, with `State.initial`;
* `pad` — whole blocks that end in the length of the message;
* `compress` — one block mixed into a state;
* `sha256` — the hash as 32 bytes.
-/

set_option autoImplicit false

namespace SpotGateway.Crypto

/-- The first 32 bits of the fractional parts of the cube roots of the first 64 primes. -/
def roundConstants : List UInt32 :=
  [0x428a2f98, 0x71374491, 0xb5c0fbcf, 0xe9b5dba5, 0x3956c25b, 0x59f111f1, 0x923f82a4, 0xab1c5ed5,
    0xd807aa98, 0x12835b01, 0x243185be, 0x550c7dc3, 0x72be5d74, 0x80deb1fe, 0x9bdc06a7, 0xc19bf174,
    0xe49b69c1, 0xefbe4786, 0x0fc19dc6, 0x240ca1cc, 0x2de92c6f, 0x4a7484aa, 0x5cb0a9dc, 0x76f988da,
    0x983e5152, 0xa831c66d, 0xb00327c8, 0xbf597fc7, 0xc6e00bf3, 0xd5a79147, 0x06ca6351, 0x14292967,
    0x27b70a85, 0x2e1b2138, 0x4d2c6dfc, 0x53380d13, 0x650a7354, 0x766a0abb, 0x81c2c92e, 0x92722c85,
    0xa2bfe8a1, 0xa81a664b, 0xc24b8b70, 0xc76c51a3, 0xd192e819, 0xd6990624, 0xf40e3585, 0x106aa070,
    0x19a4c116, 0x1e376c08, 0x2748774c, 0x34b0bcb5, 0x391c0cb3, 0x4ed8aa4a, 0x5b9cca4f, 0x682e6ff3,
    0x748f82ee, 0x78a5636f, 0x84c87814, 0x8cc70208, 0x90befffa, 0xa4506ceb, 0xbef9a3f7, 0xc67178f2]

/-- Eight words. -/
structure State where
  a : UInt32
  b : UInt32
  c : UInt32
  d : UInt32
  e : UInt32
  f : UInt32
  g : UInt32
  h : UInt32
  deriving DecidableEq, Repr

namespace State

/-- The first 32 bits of the fractional parts of the square roots of the first eight primes. -/
def initial : State :=
  ⟨0x6a09e667, 0xbb67ae85, 0x3c6ef372, 0xa54ff53a, 0x510e527f, 0x9b05688c, 0x1f83d9ab, 0x5be0cd19⟩

def words (s : State) : List UInt32 := [s.a, s.b, s.c, s.d, s.e, s.f, s.g, s.h]

/-- Word by word sum. -/
def add (s t : State) : State :=
  ⟨s.a + t.a, s.b + t.b, s.c + t.c, s.d + t.d, s.e + t.e, s.f + t.f, s.g + t.g, s.h + t.h⟩

end State

/-- The word turned right by `k` bits, for `k` between 1 and 31. -/
def rotateRight (x k : UInt32) : UInt32 := (x >>> k) ||| (x <<< (32 - k))

def schedule0 (x : UInt32) : UInt32 := rotateRight x 7 ^^^ rotateRight x 18 ^^^ (x >>> 3)

def schedule1 (x : UInt32) : UInt32 := rotateRight x 17 ^^^ rotateRight x 19 ^^^ (x >>> 10)

def mix0 (x : UInt32) : UInt32 := rotateRight x 2 ^^^ rotateRight x 13 ^^^ rotateRight x 22

def mix1 (x : UInt32) : UInt32 := rotateRight x 6 ^^^ rotateRight x 11 ^^^ rotateRight x 25

/-- One round with its constant and its word of the message. -/
def round (s : State) (constant word : UInt32) : State :=
  let choice := (s.e &&& s.f) ^^^ (~~~s.e &&& s.g)
  let majority := (s.a &&& s.b) ^^^ (s.a &&& s.c) ^^^ (s.b &&& s.c)
  let t := s.h + mix1 s.e + choice + constant + word
  ⟨t + mix0 s.a + majority, s.a, s.b, s.c, s.d + t, s.e, s.f, s.g⟩

/-- The next sixteen words of the message schedule after these sixteen, moved on by one. -/
def slide (window : List UInt32) : List UInt32 :=
  let word := fun i => window.getD i 0
  window.drop 1 ++ [schedule1 (word 14) + word 9 + schedule0 (word 1) + word 0]

/-- A block of sixteen words mixed into a state. -/
def compress (s : State) (block : List UInt32) : State :=
  let mixed := roundConstants.foldl
    (fun (t, window) constant => (round t constant (window.getD 0 0), slide window)) (s, block)
  s.add mixed.1

/-- Bytes, most significant first, as a number. -/
def bigEndian (bytes : List UInt8) : Nat := bytes.foldl (fun n b => n * 256 + b.toNat) 0

/-- A number as `count` bytes, most significant first. -/
def toBigEndian (count n : Nat) : List UInt8 :=
  (List.range count).reverse.map fun i => (n / twoPow (8 * i)).toUInt8

/-- Pieces of `size` items, the last one shorter if the items run out. -/
def pieces {α : Type} (size : Nat) : Nat → List α → List (List α)
  | 0, _ => []
  | _, [] => []
  | fuel + 1, items => items.take size :: pieces size fuel (items.drop size)

/-- The message followed by a one bit, zeros, and its length in bits, in whole blocks. -/
def pad (message : List UInt8) : List UInt8 :=
  let n := message.length
  message ++ 0x80 :: List.replicate ((119 - n % 64) % 64) 0 ++ toBigEndian 8 (n * 8)

/-- The words of each block. -/
def blocks (bytes : List UInt8) : List (List UInt32) :=
  (pieces 64 bytes.length bytes).map fun block =>
    (pieces 4 16 block).map fun w => (bigEndian w).toUInt32

/-- The hash of a message. -/
def sha256 (message : List UInt8) : List UInt8 :=
  ((blocks (pad message)).foldl compress State.initial).words.flatMap fun w =>
    toBigEndian 4 w.toNat

/-- Two lower-case hexadecimal digits for each byte. -/
def hexText (bytes : List UInt8) : String :=
  String.join (bytes.map fun b => Text.paddedHexadecimal 2 b.toNat)

end SpotGateway.Crypto
