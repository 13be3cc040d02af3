/-
**Prime numbers.**

Large primes are found by trying one odd number after the other.  A number is taken for a prime if
no small prime divides it and if it passes the strong test to many bases: a prime's only square
roots of one are one and minus one, so on the way from a base to its power by the number less one,
by repeated squaring, one comes from one or from minus one only.  A number that is not prime fails
that for three bases out of four.

Main definitions:

* `LineChat.Prime.smallPrimes` — the primes below two thousand;
* `LineChat.Prime.isStrong` — the strong test to one base;
* `LineChat.Prime.isProbable` — **whether a number is taken for a prime**;
* `LineChat.Prime.search` — **the next one from a number on**;
* `LineChat.inverse?` — the inverse of a number modulo another.
-/

import LineChat.Crypto.Modular

set_option autoImplicit false

namespace LineChat

namespace Prime

/-- Whether no number from two on, below the number itself, divides it. -/
def isSmallPrime (n : Nat) : Bool := 2 ≤ n && (List.range n).all fun d => d < 2 || n % d ≠ 0

/-- The primes below two thousand. -/
def smallPrimes : List Nat := (List.range 2000).filter isSmallPrime

/-- An odd number and a power of two whose product is a number, which is not zero; `fuel` bounds the
power. -/
def splitTwos : Nat → Nat → Nat × Nat
  | 0, n => (n, 0)
  | fuel + 1, n =>
      if n % 2 = 0 then
        let (odd, twos) := splitTwos fuel (n / 2)
        (odd, twos + 1)
      else (n, 0)

/-- Whether minus one is among a number and its next squares. -/
def meetsMinusOne (n : Nat) : Nat → Nat → Bool
  | 0, _ => false
  | count + 1, x => x == n - 1 || meetsMinusOne n count (x * x % n)

/-- **The strong test** of an odd number to a base. -/
def isStrong (n base : Nat) : Bool :=
  let (odd, twos) := splitTwos n.log2 (n - 1)
  let x := powMod base odd n
  x == 1 || meetsMinusOne n twos x

/-- **Whether an odd number is taken for a prime**, after the strong test to so many bases. -/
def isProbable (count : Nat) (base : Nat → Nat) (n : Nat) : Bool :=
  smallPrimes.all (fun p => n % p ≠ 0 || n == p) &&
    (List.range count).all fun i => isStrong n (base i)

/-- **The first of some odd numbers that passes a test**, from a number on. -/
def search (isGood : Nat → Bool) : Nat → Nat → Option Nat
  | 0, _ => none
  | fuel + 1, n => if isGood n then some n else search isGood fuel (n + 2)

end Prime

/-- The greatest common divisor of two numbers as a sum of multiples of them. -/
def bezout (a b : Nat) : Nat × Int × Int :=
  if _h : b = 0 then (a, 1, 0)
  else
    let (g, x, y) := bezout b (a % b)
    (g, y, x - a / b * y)
termination_by b
decreasing_by exact Nat.mod_lt _ (Nat.pos_of_ne_zero _h)

/-- **The inverse of a number modulo another**, if it has one. -/
def inverse? (a n : Nat) : Option Nat :=
  let (g, x, _) := bezout a n
  if g = 1 then some (x % n).toNat else none

end LineChat
