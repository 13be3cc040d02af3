/-
**Binary floating-point numbers and their decimals.**

A decimal stands for the nearest number of the form m · 2 ^ q with m below 2 ^ 53 and q between
-1074 and 971, the one with an even m if two are equally near.  What is too large stands for
infinity.  Such a number is written with as few digits as read back as the number itself, and, of
the decimals with that many digits, the nearest one, the larger one of two.  It is written without
an exponent and always has a point.

All of it is exact arithmetic on natural numbers: a positive number is a quotient, and a decimal is
compared with the ends of the interval of what rounds to the number.

Main definitions:

* `LineChat.Binary64` — the numbers;
* `LineChat.Binary64.ofDecimal` — **the number that a decimal stands for**;
* `LineChat.Binary64.shortest` — **the fewest digits that read back**;
* `LineChat.Binary64.render` — the number as it is written.
-/

set_option autoImplicit false

namespace LineChat

/-- **A binary floating-point number**: a sign with a mantissa and an exponent of two, or one of the
special values. -/
inductive Binary64 where
  | finite (negative : Bool) (mantissa : Nat) (exponent : Int)
  | infinite (negative : Bool)
  | nan
  deriving DecidableEq, Repr

namespace Binary64

/-- The number of values of the mantissa. -/
def mantissaLimit : Nat := Nat.pow 2 53

/-- The smallest exponent. -/
def minExponent : Int := -1074

/-- The largest exponent. -/
def maxExponent : Int := 971

/-! ### Quotients -/

/-- The numerator and the denominator of `n · b ^ e`. -/
def scaled (n b : Nat) (e : Int) : Nat × Nat :=
  if 0 ≤ e then (n * Nat.pow b e.toNat, 1) else (n, Nat.pow b (-e).toNat)

/-- A quotient rounded to the nearest number, a half to the even one. -/
def roundHalfEven (n d : Nat) : Nat :=
  let whole := n / d
  let rest := 2 * (n % d)
  if rest < d then whole
  else if d < rest then whole + 1
  else if whole % 2 = 0 then whole else whole + 1

/-- A quotient divided by a power of two. -/
def overPower (n d : Nat) (q : Int) : Nat × Nat :=
  if 0 ≤ q then (n, d * Nat.pow 2 q.toNat) else (n * Nat.pow 2 (-q).toNat, d)

/-! ### From decimals -/

/-- The exponent that leaves fifty-three digits before the point, and no less than the smallest. -/
def exponentOf (n d : Nat) : Int :=
  let q : Int := (n.log2 : Int) - d.log2 - 53
  let (a, b) := overPower n d q
  max minExponent (if mantissaLimit ≤ a / b then q + 1 else q)

/-- The nearest number to a positive quotient. -/
def nearest (negative : Bool) (n d : Nat) : Binary64 :=
  let q := exponentOf n d
  let (a, b) := overPower n d q
  let m := roundHalfEven a b
  let (m, q) := if m = mantissaLimit then (mantissaLimit / 2, q + 1) else (m, q)
  if maxExponent < q then infinite negative else finite negative m q

/-- **The number that a decimal stands for**: `digits · 10 ^ exponent`.  Decimals far out of range
are not written out. -/
def ofDecimal (negative : Bool) (digits : Nat) (exponent : Int) : Binary64 :=
  let places : Int := (Nat.toDigits 10 digits).length
  if digits = 0 ∨ exponent + places < -330 then finite negative 0 minExponent
  else if 310 < exponent + places then infinite negative
  else
    let (n, d) := scaled digits 10 exponent
    nearest negative n d

/-! ### To decimals -/

/-- The ends of the interval of what rounds to a number, as quotients with one denominator; the
interval below a power of two is half as long. -/
def interval (m : Nat) (q : Int) : Nat × Nat × Nat × Nat :=
  let low := if m = mantissaLimit / 2 ∧ minExponent < q then 4 * m - 1 else 4 * m - 2
  let (one, d) := scaled 1 2 (q - 2)
  (low * one, 4 * m * one, (4 * m + 2) * one, d)

/-- The place of the first digit of a quotient: the least power of ten that is above it. -/
def firstPlace (n d : Nat) : Int :=
  if d ≤ n then (Nat.toDigits 10 (n / d)).length
  else
    let zeros := ((List.range 400).find? fun k => d ≤ n * Nat.pow 10 (k + 1)).getD 400
    Int.negOfNat zeros

/-- A decimal of at most `count` digits that rounds to a number, the nearest one, if there is one;
with the power of ten that it counts. -/
def ofLength? (m : Nat) (q : Int) (count : Nat) : Option (Nat × Int) :=
  let (low, value, high, d) := interval m q
  let place := firstPlace value d - count
  let (unit, e) := scaled 1 10 place
  -- the numbers in units of the last digit, over the denominator `d * unit`
  let below := value * e / (d * unit)
  let isClose (c : Nat) : Bool :=
    let scaledUp := c * unit * d
    if m % 2 = 0 then low * e ≤ scaledUp && scaledUp ≤ high * e
    else low * e < scaledUp && scaledUp < high * e
  let toBelow := value * e - below * unit * d
  let toAbove := (below + 1) * unit * d - value * e
  let digits? := match isClose below, isClose (below + 1) with
    | true, true => some (if toAbove ≤ toBelow then below + 1 else below)
    | true, false => some below
    | false, true => some (below + 1)
    | false, false => none
  -- the number above may have one digit more, which then is a zero
  digits?.map fun c =>
    if c = Nat.pow 10 count then (Nat.pow 10 (count - 1), place + 1) else (c, place)

/-- **The fewest digits that read back** as a number that is not zero, with the power of ten that
they count. -/
def shortest (m : Nat) (q : Int) : Nat × Int :=
  ((List.range 17).findSome? fun n => ofLength? m q (n + 1)).getD (m, 0)

/-- Digits that count a power of ten, with a point. -/
def positional (digits : Nat) (place : Int) : String :=
  let ds := Nat.toDigits 10 digits
  if 0 ≤ place then String.ofList (ds ++ List.replicate place.toNat '0') ++ ".0"
  else
    let places := (-place).toNat
    let ds := List.replicate (places + 1 - ds.length) '0' ++ ds
    String.ofList (ds.take (ds.length - places)) ++ "." ++
      String.ofList (ds.drop (ds.length - places))

/-- **The number as it is written.** -/
def render : Binary64 → String
  | finite negative m q =>
      let sign := if negative then "-" else ""
      if m = 0 then sign ++ "0.0"
      else
        let (digits, place) := shortest m q
        sign ++ positional digits place
  | infinite negative => if negative then "-inf" else "inf"
  | nan => "NaN"

end Binary64

end LineChat
