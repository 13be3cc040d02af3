/-
**Random values.**

Keys, challenges and seeds are drawn from a source of random bytes, which the operating system
provides when the program runs.  Where many values are needed and nobody says how many, they are
made from a single one by hashing it with their number.

Main definitions:

* `LineChat.RandomSource` — **a source of random bytes**;
* `LineChat.seedsFrom` — **as many values as are needed**, from one.
-/

import LineChat.Crypto.Oaep

set_option autoImplicit false

namespace LineChat

/-- **A source of random bytes.** -/
class RandomSource (m : Type → Type) where
  /-- As many bytes as are asked for. -/
  draw : (n : Nat) → m (Vector UInt8 n)

/-- **As many values as are needed**, from one: each is its hash together with a number. -/
def seedsFrom (master : Bytes) (i : Nat) : Oaep.Seed :=
  Sha256.digest (master ++ Bytes.ofNat 8 i)

end LineChat
