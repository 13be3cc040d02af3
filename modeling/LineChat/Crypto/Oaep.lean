/-
**The padding OAEP with SHA-256.**

A message is hidden in a block as long as the modulus before it is raised to a power: it is marked
off by a one after zeros, and masked with a stream made from a random seed, which in turn is masked
with a stream made from the masked message.  The label that both sides could agree on is empty.

Main definitions:

* `LineChat.Oaep.mask` — the stream made from a seed;
* `LineChat.Oaep.fits` — whether a message of a given length fits a block of `k` bytes;
* `LineChat.Oaep.encode`, `LineChat.Oaep.decode` — **hiding a message and finding it again**.
-/

import LineChat.Crypto.Sha256

set_option autoImplicit false

namespace LineChat.Oaep

/-- The random value that a block is hidden with. -/
abbrev Seed := Vector UInt8 32

/-- The length of the hash. -/
def hashLength : Nat := 32

/-- The hash of the empty label. -/
def labelHash : Bytes := (Sha256.digest []).toList

/-- **The stream made from a seed**, `length` bytes of it. -/
def mask (seed : Bytes) (length : Nat) : Bytes :=
  ((List.range ((length + 31) / 32)).flatMap fun i =>
    (Sha256.digest (seed ++ Bytes.ofNat 4 i)).toList).take length

/-- The bytes of a block that carry no message. -/
def overhead : Nat := 2 * hashLength + 2

/-- Whether a message of `length` bytes fits a block of `k` bytes. -/
def fits (k length : Nat) : Bool := length + overhead ≤ k

/-- The message with the label's hash, zeros and the mark in front of it, `k - 33` bytes. -/
def dataBlock (k : Nat) (message : Bytes) : Bytes :=
  labelHash ++ List.replicate (k - message.length - overhead) 0 ++ 1 :: message

/-- **Hides a message that fits** in a block of `k` bytes. -/
def encode (k : Nat) (seed : Seed) (message : Bytes) : Bytes :=
  let block := dataBlock k message
  let maskedBlock := Bytes.xor block (mask seed.toList block.length)
  let maskedSeed := Bytes.xor seed.toList (mask maskedBlock hashLength)
  0 :: maskedSeed ++ maskedBlock

/-- The message of an unmasked block, behind the zeros and the mark. -/
def unmark (rest : Bytes) : Option Bytes :=
  match rest.dropWhile (· = 0) with
  | 1 :: message => some message
  | _ => none

/-- **Finds the message hidden in a block.** -/
def decode (block : Bytes) : Option Bytes :=
  match block with
  | 0 :: masked =>
      if block.length < overhead then none
      else
        let maskedSeed := masked.take hashLength
        let maskedBlock := masked.drop hashLength
        let seed := Bytes.xor maskedSeed (mask maskedBlock hashLength)
        let data := Bytes.xor maskedBlock (mask seed maskedBlock.length)
        if data.take hashLength = labelHash then unmark (data.drop hashLength) else none
  | _ => none

end LineChat.Oaep
