/-
**Base64.**

Ciphertexts, challenges and tags cross the wire as base64: the standard alphabet, padding required,
the unused bits of the last symbol zero.  So a byte string has one spelling only, and a reader that
accepts another one would let a line be changed without anybody noticing.

A text is read four symbols at a time; the last group may be short, and carries the padding.  The
first fault in reading order is reported, with one exception: a text with one symbol too many is
first refused for that symbol, if it is none.

Main definitions:

* `LineChat.Base64.encode` — the spelling of a byte string;
* `LineChat.Base64.Fault` — what can be wrong with a text, with its wording;
* `LineChat.Base64.decode`, `LineChat.Base64.decodeText` — the bytes that a text spells;
* `LineChat.Base64.encodedLength` — the length of the spelling.

Main results:

* `LineChat.Base64.value?_symbol` — reading a symbol inverts writing it.
-/

import LineChat.Text.Utf8

set_option autoImplicit false

namespace LineChat.Base64

/-! ### The alphabet -/

/-- The byte that fills up the last group. -/
def pad : UInt8 := 61

/-- The symbol for six bits. -/
def symbol (v : Nat) : UInt8 :=
  if v < 26 then UInt8.ofNat (65 + v)
  else if v < 52 then UInt8.ofNat (71 + v)
  else if v < 62 then UInt8.ofNat (v - 4)
  else if v = 62 then 43
  else 47

/-- The six bits a symbol stands for. -/
def value? (b : UInt8) : Option Nat :=
  if 65 ≤ b ∧ b ≤ 90 then some (b.toNat - 65)
  else if 97 ≤ b ∧ b ≤ 122 then some (b.toNat - 71)
  else if 48 ≤ b ∧ b ≤ 57 then some (b.toNat + 4)
  else if b = 43 then some 62
  else if b = 47 then some 63
  else none

/-- Reading a symbol inverts writing it. -/
theorem value?_symbol : ∀ v < 64, value? (symbol v) = some v := by decide

/-! ### Writing -/

/-- The four symbols for up to three bytes. -/
def encodeGroup : Bytes → Bytes
  | [a] =>
      let n := a.toNat * 16
      [symbol (n / 64), symbol (n % 64), pad, pad]
  | [a, b] =>
      let n := (a.toNat * 256 + b.toNat) * 4
      [symbol (n / 4096), symbol (n / 64 % 64), symbol (n % 64), pad]
  | a :: b :: c :: _ =>
      let n := (a.toNat * 256 + b.toNat) * 256 + c.toNat
      [symbol (n / 262144), symbol (n / 4096 % 64), symbol (n / 64 % 64), symbol (n % 64)]
  | [] => []

/-- The spelling of a byte string, as bytes. -/
def encodeBytes (bs : Bytes) : Bytes := (blocks 3 bs).flatMap encodeGroup

/-- **The spelling of a byte string.** -/
def encode (bs : Bytes) : String :=
  String.ofList ((encodeBytes bs).map fun b => Char.ofNat b.toNat)

/-- The length of the spelling of `n` bytes. -/
def encodedLength (n : Nat) : Nat := (n + 2) / 3 * 4

/-! ### Reading -/

/-- What can be wrong with a text. -/
inductive Fault where
  | invalidSymbol (byte : UInt8) (offset : Nat)
  | invalidLength (length : Nat)
  | invalidLastSymbol (byte : UInt8) (offset : Nat)
  | invalidPadding
  deriving DecidableEq, Repr

/-- The wording of a fault. -/
def Fault.message : Fault → String
  | .invalidSymbol byte offset => s!"Invalid symbol {byte.toNat}, offset {offset}."
  | .invalidLength length => s!"Invalid input length: {length}"
  | .invalidLastSymbol byte offset => s!"Invalid last symbol {byte.toNat}, offset {offset}."
  | .invalidPadding => "Invalid padding"

/-- The first byte that is no symbol, as a fault; `offset` is the place of the first byte. -/
def stray? (offset : Nat) : Bytes → Option Fault
  | [] => none
  | b :: bs => if (value? b).isSome then stray? (offset + 1) bs else some (.invalidSymbol b offset)

/-- The number that some symbols denote, most significant first. -/
def number (symbols : Bytes) : Nat :=
  symbols.foldl (fun n b => n * 64 + (value? b).getD 0) 0

/-- The three bytes of four symbols. -/
def decodeGroup (symbols : Bytes) : Bytes := Bytes.ofNat 3 (number symbols)

/-- The whole bytes that up to four symbols hold. -/
def wholeBytes (symbols : Bytes) : Bytes :=
  let bits := symbols.length * 6
  Bytes.ofNat (bits / 8) (number symbols >>> (bits % 8))

/-- Whether the bits that up to four symbols hold beyond their whole bytes are all zero. -/
def spareBitsZero (symbols : Bytes) : Bool :=
  number symbols % Nat.pow 2 (symbols.length * 6 % 8) = 0

/-- Reads the last group, which starts at `offset` and carries the padding. -/
def decodeLast (offset : Nat) (group : Bytes) : Except Fault Bytes :=
  let symbols := group.takeWhile (· ≠ pad)
  let padding := group.dropWhile (· ≠ pad)
  match stray? offset symbols with
  | some fault => .error fault
  | none =>
      if padding ≠ [] ∧ (symbols.length < 2 ∨ padding.any (· ≠ pad)) then
        .error (.invalidSymbol pad (offset + symbols.length))
      else if group ≠ [] ∧ symbols.length < 2 then
        .error (.invalidLength (offset + symbols.length))
      else if group.length % 4 ≠ 0 then .error .invalidPadding
      else if spareBitsZero symbols then .ok (wholeBytes symbols)
      else .error (.invalidLastSymbol (symbols.getLastD 0) (offset + symbols.length - 1))

/-- The number of bytes in front of the last group. -/
def lastGroupAt (length : Nat) : Nat :=
  if length % 4 = 0 then length - 4 else length - length % 4

/-- A lone symbol after whole groups that is none. -/
def strayLast? (text : Bytes) : Option Fault :=
  if text.length % 4 = 1 then
    let last := text.getLastD pad
    if last ≠ pad ∧ value? last = none then some (.invalidSymbol last (text.length - 1)) else none
  else none

/-- **The bytes that a text spells**, or the fault that is reported for it. -/
def decode (text : Bytes) : Except Fault Bytes :=
  match strayLast? text with
  | some fault => .error fault
  | none =>
      let offset := lastGroupAt text.length
      let groups := text.take offset
      match stray? 0 groups with
      | some fault => .error fault
      | none => do
          let last ← decodeLast offset (text.drop offset)
          return (blocks 4 groups).flatMap decodeGroup ++ last

/-- The bytes that a text spells. -/
def decodeText (s : String) : Except Fault Bytes := decode (Text.utf8 s)

end LineChat.Base64
