/-
**Numbers in digits.**

Ports, sizes and settings are written as digits in some base, most significant digit first.  The
letters of either case stand for the digits from ten on.

Main definitions:

* `LineChat.Text.digitValue?` — the value of a digit in a base;
* `LineChat.Text.ofDigits` — the number that a run of digits denotes;
* `LineChat.Text.natural?` — a whole text read as a number;
* `LineChat.Text.hexDigits` — a number written in digits.
-/

set_option autoImplicit false

namespace LineChat.Text

/-- The value of a digit in a base up to thirty-six. -/
def digitValue? (base : Nat) (c : Char) : Option Nat :=
  let value :=
    if '0' ≤ c ∧ c ≤ '9' then c.toNat - '0'.toNat
    else if 'a' ≤ c ∧ c ≤ 'z' then c.toNat - 'a'.toNat + 10
    else if 'A' ≤ c ∧ c ≤ 'Z' then c.toNat - 'A'.toNat + 10
    else base
  if value < base then some value else none

/-- Whether a character is a digit in a base. -/
def isDigit (base : Nat) (c : Char) : Bool := (digitValue? base c).isSome

/-- **The number that a run of digits denotes**, most significant digit first. -/
def ofDigits (base : Nat) (cs : List Char) : Nat :=
  cs.foldl (fun n c => n * base + (digitValue? base c).getD 0) 0

/-- **A whole text read as a decimal number**: digits, and at least one of them, perhaps after a
plus sign. -/
def natural? (s : String) : Option Nat :=
  let digits := match s.toList with
    | '+' :: rest => rest
    | cs => cs
  if digits ≠ [] ∧ digits.all (isDigit 10) then some (ofDigits 10 digits) else none

/-- The digits of a number in lower-case hexadecimal. -/
def hexDigits (n : Nat) : List Char := Nat.toDigits 16 n

end LineChat.Text
