/-
**New key pairs.**

A new key pair is made of two primes of half its size, each found from a random number on.  Their
two highest bits are set, so that their product has the full size.  The private key is written with
its algorithm and with the numbers that speed up its use, the public key with its algorithm.

Main definitions:

* `LineChat.PrivateKey.ofRandom?` — **a key pair from random bytes**;
* `LineChat.PrivateKey.write`, `LineChat.PrivateKey.toText`, `LineChat.PublicKey.toText` — the
  text of key files.
-/

import LineChat.Crypto.Prime
import LineChat.Host.Random
import LineChat.Key.File

set_option autoImplicit false

namespace LineChat

/-! ### Numbers -/

/-- The public exponent of new keys. -/
def newExponent : Nat := 65537

/-- The number of bases that a new prime is tested to. -/
def testBases : Nat := 20

/-- An odd number of so many bits, the two highest of them set, from random bytes. -/
def startOf (bits : Nat) (random : Bytes) : Nat :=
  (Bytes.toNat random % Nat.pow 2 bits) ||| Nat.pow 2 (bits - 1) ||| Nat.pow 2 (bits - 2) ||| 1

/-- Whether a number is taken for a prime that the public exponent fits. -/
def isKeyPrime (random : Bytes) (n : Nat) : Bool :=
  let base (i : Nat) : Nat := 2 + Bytes.toNat (seedsFrom random i).toList % (n - 3)
  Prime.isProbable testBases base n && (n - 1) % newExponent ≠ 0

/-- A prime of so many bits from random bytes; among a hundred odd numbers for each bit there is
one. -/
def primeOf? (bits : Nat) (random : Bytes) : Option Nat :=
  Prime.search (isKeyPrime random) (100 * bits) (startOf bits random)

/-- **A key pair of so many bits from random bytes**, half of them for each prime. -/
def PrivateKey.ofRandom? (bits : Nat) (random : Bytes) : Option PrivateKey := do
  let (front, back) := random.splitAt (random.length / 2)
  let p ← primeOf? (bits - bits / 2) front
  let q ← primeOf? (bits / 2) back
  let d ← inverse? newExponent ((p - 1) * (q - 1))
  let key : PrivateKey := ⟨p * q, newExponent, d, p, q⟩
  if key.isValid && key.toPublic.bits == bits && p ≠ q then some key else none

/-! ### Text -/

/-- The content of a block in lines of 64 characters. -/
def Armor.lines (symbols : List Char) : String :=
  String.join ((LineChat.blocks 64 symbols).map fun line => String.ofList line ++ "\n")

/-- **A block as text.** -/
def Armor.render (label : String) (content : Bytes) : String :=
  "-----BEGIN " ++ label ++ "-----\n" ++ Armor.lines (Base64.encode content).toList ++
    "-----END " ++ label ++ "-----\n"

namespace PrivateKey

/-- The bytes of a bare private key: a version, the numbers of the key, the secret exponent modulo
either prime less one, and the inverse of the second prime modulo the first. -/
def write (k : PrivateKey) : Bytes :=
  let numbers := [0, k.modulus, k.exponent, k.secretExponent, k.prime1, k.prime2,
    k.secretExponent % (k.prime1 - 1), k.secretExponent % (k.prime2 - 1),
    (inverse? k.prime2 k.prime1).getD 0]
  Der.write Der.sequenceTag (numbers.flatMap Der.writeUnsigned)

/-- The bytes of a private key with its algorithm. -/
def wrap (k : PrivateKey) : Bytes :=
  Der.write Der.sequenceTag
    (Der.writeUnsigned 0 ++ Der.write Der.sequenceTag rsaAlgorithm ++
      Der.write Der.octetStringTag k.write)

/-- **The text of a private key's file.** -/
def toText (k : PrivateKey) : String := Armor.render "PRIVATE KEY" k.wrap

end PrivateKey

/-- **The text of a public key's file.** -/
def PublicKey.toText (k : PublicKey) : String := Armor.render "PUBLIC KEY" k.wrap

end LineChat
