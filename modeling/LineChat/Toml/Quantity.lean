/-
**Numbers, dates and times in a configuration document.**

A number is written in decimal digits, with single underscores allowed between two digits, or in
hexadecimal, octal or binary digits behind a prefix.  A point or an exponent makes it a
floating-point number.  An integer must fit into sixty-four bits with a sign.  A date has a year, a
month and a day that exists in it; a time has hours, minutes and seconds; both may stand together
and then may name an offset.

Main definitions:

* `LineChat.Toml.takeInteger` — **integers**;
* `LineChat.Toml.takeFloat` — **floating-point numbers**;
* `LineChat.Toml.takeMoment` — **dates and times**, which are only checked;
* `LineChat.Toml.takeQuantity` — any of them.
-/

import LineChat.Toml.Node
import LineChat.Toml.Quoted

set_option autoImplicit false

namespace LineChat.Toml

open Text (Scan isDigit ofDigits)

/-! ### Numbers -/

/-- Whether digits with underscores are well formed: every underscore is between two digits. -/
def isGrouped (run : List Char) : Bool :=
  (run.splitOn '_').all (· ≠ [])

/-- Takes digits with underscores between them. -/
def takeDigits (base : Nat) : Scan (List Char) := fun cs =>
  let isPart (c : Char) : Bool := isDigit base c || c = '_'
  let run := cs.takeWhile isPart
  if isGrouped run then some (run.filter (· ≠ '_'), cs.dropWhile isPart) else none

/-- Takes a sign, if there is one; whether it is a minus comes with the rest. -/
def takeSign : List Char → Bool × List Char
  | '-' :: rest => (true, rest)
  | '+' :: rest => (false, rest)
  | cs => (false, cs)

/-- Takes the digits of a decimal number in front of the point, of which the first is a zero only if
it is the only one. -/
def takeWhole : Scan (List Char) := fun cs =>
  match takeDigits 10 cs with
  | some (ds, rest) =>
      if ds.head? = some '0' ∧ ds ≠ ['0'] then none else some (ds, rest)
  | none => none

/-- The largest integer. -/
def maxInteger : Int := 9223372036854775807

/-- An integer that must fit. -/
def fitting? (n : Int) : Option Int :=
  if -maxInteger - 1 ≤ n ∧ n ≤ maxInteger then some n else none

/-- Takes an integer in a base other than ten, behind its prefix. -/
def takeBased (base : Nat) : Scan Int := fun cs => do
  let (ds, rest) ← takeDigits base cs
  return (← fitting? (ofDigits base ds), rest)

/-- **Takes an integer.** -/
def takeInteger : Scan Int
  | '0' :: 'x' :: rest => takeBased 16 rest
  | '0' :: 'o' :: rest => takeBased 8 rest
  | '0' :: 'b' :: rest => takeBased 2 rest
  | cs => do
      let (negative, rest) := takeSign cs
      let (ds, rest) ← takeWhole rest
      let n : Int := ofDigits 10 ds
      return (← fitting? (if negative then -n else n), rest)

/-- Takes the digits behind a point, if there is one. -/
def takeFraction : Scan (List Char)
  | '.' :: rest => takeDigits 10 rest
  | cs => some ([], cs)

/-- Takes an exponent, if there is one. -/
def takeExponent (cs : List Char) : Option (Int × List Char) :=
  match cs with
  | c :: rest =>
      if c = 'e' ∨ c = 'E' then do
        let (negative, rest) := takeSign rest
        let (ds, rest) ← takeDigits 10 rest
        let n : Int := ofDigits 10 ds
        return (if negative then -n else n, rest)
      else some (0, cs)
  | [] => some (0, [])

/-- Takes one of the special values. -/
def takeSpecial (negative : Bool) (cs : List Char) : Option (Binary64 × List Char) :=
  match Text.expectAll "inf".toList cs with
  | some rest => some (.infinite negative, rest)
  | none => (Text.expectAll "nan".toList cs).map fun rest => (.nan, rest)

/-- **Takes a floating-point number**, which must have a point or an exponent, or be a special
value.  One that is too large is refused, unless it is negative. -/
def takeFloat : Scan Binary64 := fun cs =>
  let (negative, body) := takeSign cs
  match takeSpecial negative body with
  | some found => some found
  | none => do
      let (whole, rest) ← takeWhole body
      let (fraction, behind) ← takeFraction rest
      let (exponent, behind) ← takeExponent behind
      if behind.length = rest.length then none
      else
        let x := Binary64.ofDecimal negative (ofDigits 10 (whole ++ fraction))
          (exponent - fraction.length)
        if x = .infinite false then none else some (x, behind)

/-! ### Dates and times -/

/-- Takes a number of so many digits that is in a range. -/
def takeField (digits low high : Nat) : Scan Nat := fun cs => do
  let (ds, rest) ← Text.exactly digits (isDigit 10) cs
  let n := ofDigits 10 ds
  if low ≤ n ∧ n ≤ high then some (n, rest) else none

/-- The number of days of a month. -/
def daysOf (year month : Nat) : Nat :=
  if month = 2 then
    if year % 4 = 0 ∧ (year % 100 ≠ 0 ∨ year % 400 = 0) then 29 else 28
  else if month = 4 ∨ month = 6 ∨ month = 9 ∨ month = 11 then 30
  else 31

/-- Takes a date. -/
def takeDate (cs : List Char) : Option (List Char) := do
  let (year, cs) ← takeField 4 0 9999 cs
  let (month, cs) ← takeField 2 1 12 (← Text.expect '-' cs)
  let (_, cs) ← takeField 2 1 (daysOf year month) (← Text.expect '-' cs)
  return cs

/-- Takes the parts of a second, if there are any. -/
def takeSubsecond (cs : List Char) : List Char :=
  match cs with
  | '.' :: d :: rest => if isDigit 10 d then rest.dropWhile (isDigit 10) else cs
  | _ => cs

/-- Takes a time. -/
def takeTime (cs : List Char) : Option (List Char) := do
  let (_, cs) ← takeField 2 0 23 cs
  let (_, cs) ← takeField 2 0 59 (← Text.expect ':' cs)
  let (_, cs) ← takeField 2 0 60 (← Text.expect ':' cs)
  return takeSubsecond cs

/-- Takes an offset, if there is one. -/
def takeOffset (cs : List Char) : List Char :=
  match cs with
  | c :: rest =>
      if c = 'Z' ∨ c = 'z' then rest
      else if c = '+' ∨ c = '-' then
        let offset : Option (List Char) := do
          let (_, rest) ← takeField 2 0 23 rest
          let (_, rest) ← takeField 2 0 59 (← Text.expect ':' rest)
          return rest
        offset.getD cs
      else cs
  | [] => cs

/-- Takes a time behind a date, if there is one. -/
def takeTimeOfDate (cs : List Char) : List Char :=
  match cs with
  | c :: rest =>
      if c = 'T' ∨ c = 't' ∨ c = ' ' then ((takeTime rest).map takeOffset).getD cs else cs
  | [] => cs

/-- **Takes a date, a time, or both.** -/
def takeMoment (cs : List Char) : Option (List Char) :=
  match takeDate cs with
  | some rest => some (takeTimeOfDate rest)
  | none => takeTime cs

/-- **Takes a number, a date or a time.** -/
def takeQuantity : Scan Scalar := fun cs =>
  match takeMoment cs with
  | some rest => some (.moment, rest)
  | none =>
      match takeFloat cs with
      | some (x, rest) => some (.float x, rest)
      | none => (takeInteger cs).map fun (n, rest) => (.integer n, rest)

end LineChat.Toml
