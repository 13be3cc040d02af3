/-
**Hexadecimal.**

A shared secret is kept as hexadecimal digits, two for a byte.  Reading takes either case, refuses
an odd number of digits before it looks at any of them, and names the first character that is no
digit, which stands for the byte at its place whatever text that byte is part of.

Main definitions:

* `LineChat.Hex.encode` — the digits of a byte string, in lower case;
* `LineChat.Hex.Fault` — what can be wrong with digits, with its wording;
* `LineChat.Hex.decode` — the bytes that some digits denote.

Main results:

* `LineChat.Hex.length_encode` — a byte has two digits.
-/

import LineChat.Text.Quoted
import LineChat.Text.Utf8

set_option autoImplicit false

namespace LineChat.Hex

/-- What can be wrong with hexadecimal digits. -/
inductive Fault where
  | oddLength
  | invalidDigit (byte : UInt8) (index : Nat)
  deriving DecidableEq, Repr

/-- The wording of a fault. -/
def Fault.message : Fault → String
  | .oddLength => "Odd number of digits"
  | .invalidDigit byte index =>
      s!"Invalid character {Text.quoteChar (Char.ofNat byte.toNat)} at position {index}"

/-- The digits of one byte. -/
def digits (b : UInt8) : List Char := [Nat.digitChar (b.toNat / 16), Nat.digitChar (b.toNat % 16)]

/-- **The digits of a byte string**, in lower case. -/
def encode (bs : Bytes) : String := String.ofList (bs.flatMap digits)

/-- The value of a digit of either case. -/
def value? (b : UInt8) : Option Nat :=
  if 0x30 ≤ b ∧ b ≤ 0x39 then some (b.toNat - 0x30)
  else if 0x41 ≤ b ∧ b ≤ 0x46 then some (b.toNat - 0x41 + 10)
  else if 0x61 ≤ b ∧ b ≤ 0x66 then some (b.toNat - 0x61 + 10)
  else none

/-- Reads pairs of digits from the place `index` on, collecting the bytes in reverse order. -/
def decodeOnto (index : Nat) (done : Bytes) : Bytes → Except Fault Bytes
  | hi :: lo :: rest =>
      match value? hi, value? lo with
      | some h, some l => decodeOnto (index + 2) (UInt8.ofNat (h * 16 + l) :: done) rest
      | none, _ => .error (.invalidDigit hi index)
      | some _, none => .error (.invalidDigit lo (index + 1))
  | _ => .ok done.reverse

/-- **The bytes that some digits denote.** -/
def decode (s : String) : Except Fault Bytes :=
  let bs := Text.utf8 s
  if bs.length % 2 = 1 then .error .oddLength else decodeOnto 0 [] bs

/-- A byte has two digits. -/
theorem length_encode (bs : Bytes) : (encode bs).length = 2 * bs.length := by
  induction bs with
  | nil => rfl
  | cons b bs ih =>
      have h : (encode (b :: bs)).length = 2 + (encode bs).length := by
        simp [encode, digits]
        omega
      rw [h, ih, List.length_cons]
      omega

end LineChat.Hex
