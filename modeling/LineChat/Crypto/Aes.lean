/-
**The block cipher AES with keys of 32 bytes.**

A block of 16 bytes is a square of four columns.  Every round replaces each byte by a table, turns
the rows, mixes the columns and adds a round key; the last one mixes no columns.  Only the
encrypting direction is needed, since the cipher serves to produce keystream.

Main definitions:

* `LineChat.Aes.Block`, `LineChat.Aes.Key` — blocks and keys;
* `LineChat.Aes.roundKeys` — the fifteen round keys of a key;
* `LineChat.Aes.encryptBlock` — **the encryption of one block**.
-/

import LineChat.Bytes

set_option autoImplicit false

namespace LineChat.Aes

/-- A block: four columns of four bytes, column by column. -/
abbrev Block := Vector UInt8 16

/-- A key of 256 bits. -/
abbrev Key := Vector UInt8 32

/-! ### Bytes -/

/-- The replacement of every byte: its inverse in the field of 256 elements, then an affine map. -/
def substitution : Array UInt8 :=
  #[0x63, 0x7c, 0x77, 0x7b, 0xf2, 0x6b, 0x6f, 0xc5, 0x30, 0x01, 0x67, 0x2b, 0xfe, 0xd7, 0xab, 0x76,
    0xca, 0x82, 0xc9, 0x7d, 0xfa, 0x59, 0x47, 0xf0, 0xad, 0xd4, 0xa2, 0xaf, 0x9c, 0xa4, 0x72, 0xc0,
    0xb7, 0xfd, 0x93, 0x26, 0x36, 0x3f, 0xf7, 0xcc, 0x34, 0xa5, 0xe5, 0xf1, 0x71, 0xd8, 0x31, 0x15,
    0x04, 0xc7, 0x23, 0xc3, 0x18, 0x96, 0x05, 0x9a, 0x07, 0x12, 0x80, 0xe2, 0xeb, 0x27, 0xb2, 0x75,
    0x09, 0x83, 0x2c, 0x1a, 0x1b, 0x6e, 0x5a, 0xa0, 0x52, 0x3b, 0xd6, 0xb3, 0x29, 0xe3, 0x2f, 0x84,
    0x53, 0xd1, 0x00, 0xed, 0x20, 0xfc, 0xb1, 0x5b, 0x6a, 0xcb, 0xbe, 0x39, 0x4a, 0x4c, 0x58, 0xcf,
    0xd0, 0xef, 0xaa, 0xfb, 0x43, 0x4d, 0x33, 0x85, 0x45, 0xf9, 0x02, 0x7f, 0x50, 0x3c, 0x9f, 0xa8,
    0x51, 0xa3, 0x40, 0x8f, 0x92, 0x9d, 0x38, 0xf5, 0xbc, 0xb6, 0xda, 0x21, 0x10, 0xff, 0xf3, 0xd2,
    0xcd, 0x0c, 0x13, 0xec, 0x5f, 0x97, 0x44, 0x17, 0xc4, 0xa7, 0x7e, 0x3d, 0x64, 0x5d, 0x19, 0x73,
    0x60, 0x81, 0x4f, 0xdc, 0x22, 0x2a, 0x90, 0x88, 0x46, 0xee, 0xb8, 0x14, 0xde, 0x5e, 0x0b, 0xdb,
    0xe0, 0x32, 0x3a, 0x0a, 0x49, 0x06, 0x24, 0x5c, 0xc2, 0xd3, 0xac, 0x62, 0x91, 0x95, 0xe4, 0x79,
    0xe7, 0xc8, 0x37, 0x6d, 0x8d, 0xd5, 0x4e, 0xa9, 0x6c, 0x56, 0xf4, 0xea, 0x65, 0x7a, 0xae, 0x08,
    0xba, 0x78, 0x25, 0x2e, 0x1c, 0xa6, 0xb4, 0xc6, 0xe8, 0xdd, 0x74, 0x1f, 0x4b, 0xbd, 0x8b, 0x8a,
    0x70, 0x3e, 0xb5, 0x66, 0x48, 0x03, 0xf6, 0x0e, 0x61, 0x35, 0x57, 0xb9, 0x86, 0xc1, 0x1d, 0x9e,
    0xe1, 0xf8, 0x98, 0x11, 0x69, 0xd9, 0x8e, 0x94, 0x9b, 0x1e, 0x87, 0xe9, 0xce, 0x55, 0x28, 0xdf,
    0x8c, 0xa1, 0x89, 0x0d, 0xbf, 0xe6, 0x42, 0x68, 0x41, 0x99, 0x2d, 0x0f, 0xb0, 0x54, 0xbb, 0x16]

/-- The replacement of a byte. -/
def substitute (b : UInt8) : UInt8 := substitution.getD b.toNat 0

/-- A byte doubled in the field of 256 elements. -/
def double (b : UInt8) : UInt8 := (b <<< 1) ^^^ (if b < 0x80 then 0 else 0x1b)

/-! ### Rounds -/

/-- Two blocks added bytewise. -/
def addKey (s k : Block) : Block := Vector.zipWith (· ^^^ ·) s k

/-- Every byte replaced, and row `r` turned left by `r` columns. -/
def substituteShift (s : Block) : Block :=
  Vector.ofFn fun i => substitute (s.get ⟨(i.val + 4 * (i.val % 4)) % 16, Nat.mod_lt _ (by decide)⟩)

/-- Every column multiplied by the fixed matrix. -/
def mixColumns (s : Block) : Block :=
  Vector.ofFn fun i =>
    let entry (r : Nat) : UInt8 :=
      s.get ⟨i.val / 4 * 4 + (i.val + r) % 4, by omega⟩
    double (entry 0) ^^^ (double (entry 1) ^^^ entry 1) ^^^ entry 2 ^^^ entry 3

/-- The rounds with the given keys, the last of which mixes no columns. -/
def rounds : List Block → Block → Block
  | [], s => s
  | [k], s => addKey (substituteShift s) k
  | k :: ks, s => rounds ks (addKey (mixColumns (substituteShift s)) k)

/-! ### The key schedule -/

/-- A word of the key schedule. -/
structure Word where
  b0 : UInt8
  b1 : UInt8
  b2 : UInt8
  b3 : UInt8
  deriving DecidableEq, Repr

/-- Two words added bytewise. -/
def Word.xor (u v : Word) : Word := ⟨u.b0 ^^^ v.b0, u.b1 ^^^ v.b1, u.b2 ^^^ v.b2, u.b3 ^^^ v.b3⟩

/-- Every byte of a word replaced. -/
def Word.substitute (w : Word) : Word :=
  ⟨Aes.substitute w.b0, Aes.substitute w.b1, Aes.substitute w.b2, Aes.substitute w.b3⟩

/-- A word turned left by one byte. -/
def Word.rotate (w : Word) : Word := ⟨w.b1, w.b2, w.b3, w.b0⟩

/-- Half a step of the schedule: four words, the first of them added to `mixed` and every other to
the one before it. -/
def extend (mixed : Word) (ws : List Word) : List Word :=
  (ws.foldl (fun (acc : Word × List Word) w =>
    let v := acc.1.xor w
    (v, v :: acc.2)) (mixed, [])).2.reverse

/-- The words from a step of the schedule on: the eight words `ws` of the step and those after it,
with one step for each of the round constants. -/
def scheduleFrom : List UInt8 → List Word → List Word
  | [], ws => ws
  | c :: cs, ws =>
      let last := ws.getLastD ⟨0, 0, 0, 0⟩
      let low := extend (last.rotate.substitute.xor ⟨c, 0, 0, 0⟩) (ws.take 4)
      let high := extend (low.getLastD ⟨0, 0, 0, 0⟩).substitute (ws.drop 4)
      ws ++ scheduleFrom cs (low ++ high)

/-- The words of a key. -/
def keyWords (key : Key) : List Word :=
  (blocks 4 key.toList).map fun bs => ⟨bs.getD 0 0, bs.getD 1 0, bs.getD 2 0, bs.getD 3 0⟩

/-- The block that four words make up. -/
def blockOfWords (ws : List Word) : Block :=
  let bytes := (ws.flatMap fun w => [w.b0, w.b1, w.b2, w.b3]).toArray
  Vector.ofFn fun i => bytes.getD i.val 0

/-- **The fifteen round keys of a key.** -/
def roundKeys (key : Key) : List Block :=
  let words := scheduleFrom [0x01, 0x02, 0x04, 0x08, 0x10, 0x20, 0x40] (keyWords key)
  ((blocks 4 words).map blockOfWords).take 15

/-- **The encryption of one block** under given round keys. -/
def encryptBlock : List Block → Block → Block
  | [], s => s
  | k :: ks, s => rounds ks (addKey s k)

end LineChat.Aes
