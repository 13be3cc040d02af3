/-
**Key pairs and envelopes: RSA.**

A public key is a modulus and an exponent; a private key adds the secret exponent and the two
primes.  Keys that cannot work are refused when they are read.  An envelope is a message hidden in a
block and raised to the public exponent; opening it raises it to the secret one, and checks the
result by closing the envelope again.

Main definitions:

* `LineChat.PublicKey`, `LineChat.PrivateKey` — keys, with `isValid`;
* `LineChat.PublicKey.takes` — how long a message may be;
* `LineChat.PublicKey.seal?` — **a message put in an envelope**, `none` if it does not fit;
* `LineChat.PrivateKey.unseal` — **an envelope opened**;
* `LineChat.EnvelopeFault` — why one cannot be opened.
-/

import LineChat.Crypto.Modular
import LineChat.Crypto.Oaep

set_option autoImplicit false

namespace LineChat

/-! ### Keys -/

/-- **A public key.** -/
structure PublicKey where
  modulus : Nat
  exponent : Nat
  deriving DecidableEq, Repr

/-- **A private key.** -/
structure PrivateKey where
  modulus : Nat
  exponent : Nat
  secretExponent : Nat
  prime1 : Nat
  prime2 : Nat
  deriving DecidableEq, Repr

/-- The number of bits of a number. -/
def bitLength (n : Nat) : Nat := if n = 0 then 0 else n.log2 + 1

namespace PublicKey

/-- The number of bits of the modulus. -/
def bits (k : PublicKey) : Nat := bitLength k.modulus

/-- The number of bytes of the modulus, and of every envelope. -/
def size (k : PublicKey) : Nat := (k.bits + 7) / 8

/-- The most bits a public key may have. -/
def maxBits : Nat := 4096

/-- Whether the two numbers can be a key: both odd, and the exponent at least 2, smaller than the
modulus and below 2³³. -/
def isSound (k : PublicKey) : Bool :=
  k.exponent < k.modulus && k.modulus % 2 == 1 && k.exponent % 2 == 1 && 2 ≤ k.exponent &&
    k.exponent < Nat.pow 2 33

/-- **Whether a public key is accepted.** -/
def isValid (k : PublicKey) : Bool := k.bits ≤ maxBits && k.isSound

end PublicKey

namespace PrivateKey

/-- The public half of a private key. -/
def toPublic (k : PrivateKey) : PublicKey := ⟨k.modulus, k.exponent⟩

/-- Whether the two exponents undo each other modulo a prime. -/
def inverts (k : PrivateKey) (prime : Nat) : Bool :=
  1 < prime && k.secretExponent * k.exponent % (prime - 1) == 1

/-- **Whether a private key is accepted.** -/
def isValid (k : PrivateKey) : Bool :=
  k.toPublic.isSound && k.prime1 * k.prime2 == k.modulus && k.inverts k.prime1 &&
    k.inverts k.prime2

end PrivateKey

/-! ### Envelopes -/

/-- Why an envelope cannot be opened. -/
inductive EnvelopeFault where
  /-- It is no envelope for this key. -/
  | decryption
  /-- The two exponents do not undo each other. -/
  | inconsistent
  deriving DecidableEq, Repr

/-- The wording of a fault. -/
def EnvelopeFault.message : EnvelopeFault → String
  | decryption => "decryption error"
  | inconsistent => "internal error"

/-- Whether a message of so many bytes can be put in an envelope.  A private key may have any size,
and so may its public half, but no envelope is made for a key of more than `maxBits` bits. -/
def PublicKey.takes (k : PublicKey) (length : Nat) : Bool :=
  k.bits ≤ maxBits && Oaep.fits k.size length

/-- What is wrong where a message cannot be put in an envelope.  The size of the key is looked at
first. -/
def PublicKey.refusal (k : PublicKey) : String :=
  if k.bits ≤ maxBits then "message too long" else "modulus too large"

/-- **A message put in an envelope**, if it fits. -/
def PublicKey.seal? (k : PublicKey) (seed : Oaep.Seed) (message : Bytes) : Option Bytes :=
  if k.takes message.length then
    let block := Bytes.toNat (Oaep.encode k.size seed message)
    some (Bytes.ofNat k.size (powMod block k.exponent k.modulus))
  else none

/-- **An envelope opened.** -/
def PrivateKey.unseal (k : PrivateKey) (envelope : Bytes) : Except EnvelopeFault Bytes :=
  let size := k.toPublic.size
  let c := Bytes.toNat envelope
  if envelope.length ≠ size ∨ k.modulus ≤ c then .error .decryption
  else
    let m := powMod c k.secretExponent k.modulus
    if powMod m k.exponent k.modulus ≠ c then .error .inconsistent
    else match Oaep.decode (Bytes.ofNat size m) with
      | some message => .ok message
      | none => .error .decryption

end LineChat
