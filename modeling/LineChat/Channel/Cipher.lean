/-
**Ciphers on lines.**

A line cipher turns single lines of plaintext into single lines of ciphertext and back.  It has a
state, which every call may change, also one that fails: a line that cannot be read may still have
used up its place in the keystream.

Main definitions:

* `LineChat.LineCipher` — **what a channel needs of a cipher**;
* `LineChat.decodeBase64`, `LineChat.decodeUtf8` — the two faults that any ciphertext line may have,
  as errors of lines.
-/

import LineChat.Channel.Error
import LineChat.Text.Base64

set_option autoImplicit false

namespace LineChat

/-- **A cipher on lines with states of type `σ`.** -/
class LineCipher (σ : Type) where
  /-- Encrypts one line. -/
  encrypt : σ → String → Except LineError String × σ
  /-- Decrypts one line. -/
  decrypt : σ → String → Except LineError String × σ
  /-- The length of the ciphertext for a plaintext of the given length, if it is known before
  encrypting; both in bytes. -/
  ciphertextLength? : σ → Nat → Option Nat := fun _ _ => none

/-- One of two ciphers, which stays the one it is. -/
instance {σ τ : Type} [LineCipher σ] [LineCipher τ] : LineCipher (σ ⊕ τ) where
  encrypt
    | .inl c, line => (LineCipher.encrypt c line).map id .inl
    | .inr c, line => (LineCipher.encrypt c line).map id .inr
  decrypt
    | .inl c, line => (LineCipher.decrypt c line).map id .inl
    | .inr c, line => (LineCipher.decrypt c line).map id .inr
  ciphertextLength?
    | .inl c, n => LineCipher.ciphertextLength? c n
    | .inr c, n => LineCipher.ciphertextLength? c n

/-- The bytes that a ciphertext line spells. -/
def decodeBase64 (line : String) : Except LineError Bytes :=
  match Base64.decodeText line with
  | .ok bytes => .ok bytes
  | .error fault => .error (.brokenMessage s!"invalid base64: {fault.message}")

/-- The text that decrypted bytes spell. -/
def decodeUtf8 (bytes : Bytes) : Except LineError String :=
  match Text.ofUtf8 bytes with
  | .ok text => .ok text
  | .error fault => .error (.brokenMessage s!"plaintext is not utf-8: {fault.message}")

end LineChat
