/-
**The cipher of the handshake's first two messages.**

A line put in an envelope for the peer's public key, or taken out of one with one's own private
key.  Either key may be missing: the server can only open envelopes until it knows who is talking to
it.  Every envelope takes a fresh random seed.

Main definitions:

* `LineChat.EnvelopeCipher` — the cipher, with `encrypt` and `decrypt`;
* `LineChat.EnvelopeCipher.openOnly` — one that cannot encrypt.
-/

import LineChat.Channel.Cipher
import LineChat.Key.Rsa

set_option autoImplicit false

namespace LineChat

/-- **A cipher with one key for each direction**, and the random seeds it is going to use. -/
structure EnvelopeCipher where
  peer : Option PublicKey
  own : Option PrivateKey
  seeds : Nat → Oaep.Seed

namespace EnvelopeCipher

/-- A cipher that can only open envelopes. -/
def openOnly (own : PrivateKey) (seeds : Nat → Oaep.Seed) : EnvelopeCipher :=
  ⟨none, some own, seeds⟩

/-- A cipher for both directions. -/
def between (peer : PublicKey) (own : PrivateKey) (seeds : Nat → Oaep.Seed) : EnvelopeCipher :=
  ⟨some peer, some own, seeds⟩

/-- Puts one line in an envelope. -/
def encrypt (c : EnvelopeCipher) (line : String) : Except LineError String × EnvelopeCipher :=
  match c.peer with
  | none => (.error (.invalidKey "no encryption key set"), c)
  | some key =>
      match key.seal? (c.seeds 0) (Text.utf8 line) with
      | none => (.error (.brokenMessage s!"rsa encryption: {key.refusal}"), c)
      | some envelope =>
          (.ok (Base64.encode envelope), { c with seeds := fun i => c.seeds (i + 1) })

/-- Takes one line out of an envelope. -/
def decrypt (c : EnvelopeCipher) (line : String) : Except LineError String × EnvelopeCipher :=
  match c.own with
  | none => (.error (.invalidKey "no decryption key set"), c)
  | some key =>
      match decodeBase64 line with
      | .error e => (.error e, c)
      | .ok envelope =>
          match key.unseal envelope with
          | .error fault => (.error (.brokenMessage s!"rsa decryption: {fault.message}"), c)
          | .ok bytes => (decodeUtf8 bytes, c)

/-- The cipher as diagnostics show it. -/
def debug (c : EnvelopeCipher) : String :=
  Text.record "RsaCryptor"
    [("can_encrypt", Text.ofBool c.peer.isSome), ("can_decrypt", Text.ofBool c.own.isSome)]

end EnvelopeCipher

instance : LineCipher EnvelopeCipher where
  encrypt := EnvelopeCipher.encrypt
  decrypt := EnvelopeCipher.decrypt

end LineChat
