/-
**Keyed hashes: HMAC with SHA-256.**

A tag over a message that only holders of a key can compute.  The key is brought to the size of one
block, and masked in two ways for an inner and an outer hash.

Main definitions:

* `LineChat.Hmac.blockKey` — a key as one block of 64 bytes;
* `LineChat.Hmac.tag` — **the tag of a message under a key**, 32 bytes.
-/

import LineChat.Crypto.Sha256

set_option autoImplicit false

namespace LineChat.Hmac

/-- A key as one block: a longer key is hashed, a shorter one filled up with zeros. -/
def blockKey (key : Bytes) : Bytes :=
  let short := if 64 < key.length then (Sha256.digest key).toList else key
  short ++ List.replicate (64 - short.length) 0

/-- **The tag of a message under a key.** -/
def tag (key message : Bytes) : Vector UInt8 32 :=
  let block := blockKey key
  let inner := Sha256.digest (block.map (· ^^^ 0x36) ++ message)
  Sha256.digest (block.map (· ^^^ 0x5c) ++ inner.toList)

end LineChat.Hmac
