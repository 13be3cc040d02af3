/-
**The hash function SHA-256.**

Fingerprints, the tags of private messages and the padding of the handshake's envelopes rest on one
hash.  The message is followed by a set bit, zeros and its length in bits, and every block of 64
bytes of that is mixed into a state of eight words.

Main definitions:

* `LineChat.Sha256.State` — the eight words between blocks;
* `LineChat.Sha256.compress` — one block mixed into the state;
* `LineChat.Sha256.digest` — **the hash of a message**, 32 bytes.

Main results:

* `LineChat.Sha256.length_padding_mod` — a message with its padding is a sequence of whole blocks.
-/

import LineChat.Bytes

set_option autoImplicit false

namespace LineChat.Sha256

/-! ### Words -/

/-- A word turned right by `n` bits, `0 < n < 32`. -/
def rotr (x n : UInt32) : UInt32 := (x >>> n) ||| (x <<< (32 - n))

/-- The word that four bytes denote. -/
def word (bs : Bytes) : UInt32 := bs.foldl (fun w b => (w <<< 8) ||| b.toUInt32) 0

/-- The words added in each round: the fractions of the cube roots of the first 64 primes. -/
def roundWords : List UInt32 :=
  [0x428a2f98, 0x71374491, 0xb5c0fbcf, 0xe9b5dba5, 0x3956c25b, 0x59f111f1, 0x923f82a4, 0xab1c5ed5,
   0xd807aa98, 0x12835b01, 0x243185be, 0x550c7dc3, 0x72be5d74, 0x80deb1fe, 0x9bdc06a7, 0xc19bf174,
   0xe49b69c1, 0xefbe4786, 0x0fc19dc6, 0x240ca1cc, 0x2de92c6f, 0x4a7484aa, 0x5cb0a9dc, 0x76f988da,
   0x983e5152, 0xa831c66d, 0xb00327c8, 0xbf597fc7, 0xc6e00bf3, 0xd5a79147, 0x06ca6351, 0x14292967,
   0x27b70a85, 0x2e1b2138, 0x4d2c6dfc, 0x53380d13, 0x650a7354, 0x766a0abb, 0x81c2c92e, 0x92722c85,
   0xa2bfe8a1, 0xa81a664b, 0xc24b8b70, 0xc76c51a3, 0xd192e819, 0xd6990624, 0xf40e3585, 0x106aa070,
   0x19a4c116, 0x1e376c08, 0x2748774c, 0x34b0bcb5, 0x391c0cb3, 0x4ed8aa4a, 0x5b9cca4f, 0x682e6ff3,
   0x748f82ee, 0x78a5636f, 0x84c87814, 0x8cc70208, 0x90befffa, 0xa4506ceb, 0xbef9a3f7, 0xc67178f2]

/-! ### One block -/

/-- The eight words between blocks. -/
structure State where
  a : UInt32
  b : UInt32
  c : UInt32
  d : UInt32
  e : UInt32
  f : UInt32
  g : UInt32
  h : UInt32
  deriving DecidableEq, Repr

/-- The state before the first block: the fractions of the square roots of the first 8 primes. -/
def State.start : State :=
  ⟨0x6a09e667, 0xbb67ae85, 0x3c6ef372, 0xa54ff53a, 0x510e527f, 0x9b05688c, 0x1f83d9ab, 0x5be0cd19⟩

/-- The wordwise sum of two states. -/
def State.add (s t : State) : State :=
  ⟨s.a + t.a, s.b + t.b, s.c + t.c, s.d + t.d, s.e + t.e, s.f + t.f, s.g + t.g, s.h + t.h⟩

/-- The bytes of a state, 32 of them. -/
def State.bytes (s : State) : Vector UInt8 32 :=
  ⟨#[(s.a >>> 24).toUInt8, (s.a >>> 16).toUInt8, (s.a >>> 8).toUInt8, s.a.toUInt8,
     (s.b >>> 24).toUInt8, (s.b >>> 16).toUInt8, (s.b >>> 8).toUInt8, s.b.toUInt8,
     (s.c >>> 24).toUInt8, (s.c >>> 16).toUInt8, (s.c >>> 8).toUInt8, s.c.toUInt8,
     (s.d >>> 24).toUInt8, (s.d >>> 16).toUInt8, (s.d >>> 8).toUInt8, s.d.toUInt8,
     (s.e >>> 24).toUInt8, (s.e >>> 16).toUInt8, (s.e >>> 8).toUInt8, s.e.toUInt8,
     (s.f >>> 24).toUInt8, (s.f >>> 16).toUInt8, (s.f >>> 8).toUInt8, s.f.toUInt8,
     (s.g >>> 24).toUInt8, (s.g >>> 16).toUInt8, (s.g >>> 8).toUInt8, s.g.toUInt8,
     (s.h >>> 24).toUInt8, (s.h >>> 16).toUInt8, (s.h >>> 8).toUInt8, s.h.toUInt8], rfl⟩

/-- One round, with the sum of its two words. -/
def State.round (s : State) (w : UInt32) : State :=
  let s1 := rotr s.e 6 ^^^ rotr s.e 11 ^^^ rotr s.e 25
  let ch := (s.e &&& s.f) ^^^ (~~~s.e &&& s.g)
  let t1 := s.h + s1 + ch + w
  let s0 := rotr s.a 2 ^^^ rotr s.a 13 ^^^ rotr s.a 22
  let maj := (s.a &&& s.b) ^^^ (s.a &&& s.c) ^^^ (s.b &&& s.c)
  ⟨t1 + (s0 + maj), s.a, s.b, s.c, s.d + t1, s.e, s.f, s.g⟩

/-- The next word of the message schedule, from those so far. -/
def scheduleWord (ws : Array UInt32) : UInt32 :=
  let n := ws.size
  let w15 := ws.getD (n - 15) 0
  let w2 := ws.getD (n - 2) 0
  let s0 := rotr w15 7 ^^^ rotr w15 18 ^^^ (w15 >>> 3)
  let s1 := rotr w2 17 ^^^ rotr w2 19 ^^^ (w2 >>> 10)
  ws.getD (n - 16) 0 + s0 + ws.getD (n - 7) 0 + s1

/-- The 64 words that a block of 64 bytes stands for. -/
def schedule (block : Bytes) : Array UInt32 :=
  Nat.fold 48 (fun _ _ ws => ws.push (scheduleWord ws)) ((blocks 4 block).map word).toArray

/-- **One block mixed into the state.** -/
def compress (s : State) (block : Bytes) : State :=
  s.add ((List.zipWith (· + ·) roundWords (schedule block).toList).foldl State.round s)

/-! ### A message -/

/-- What follows a message of `n` bytes: a set bit, zeros, and the length in bits. -/
def padding (n : Nat) : Bytes :=
  0x80 :: List.replicate ((119 - n % 64) % 64) 0 ++ Bytes.ofNat 8 (8 * n)

/-- A message with its padding is a sequence of whole blocks. -/
theorem length_padding_mod (n : Nat) : (n + (padding n).length) % 64 = 0 := by
  simp only [padding, List.cons_append, List.length_cons, List.length_append,
    List.length_replicate, Bytes.length_ofNat]
  omega

/-- **The hash of a message.** -/
def digest (message : Bytes) : Vector UInt8 32 :=
  ((blocks 64 (message ++ padding message.length)).foldl compress State.start).bytes

end LineChat.Sha256
