/-
**Challenges and session keys.**

A challenge is a random byte string that proves freshness: only the holder of a key can send it
back.  A session key is what the server hands out once for a connection: a key for the cipher and
the counter to start from.  Both travel as base64, with exactly the right number of bytes, and are
never shown.

Main definitions:

* `LineChat.Challenge`, `LineChat.SessionKey` — the values;
* `LineChat.decodeFixed` — **base64 with a fixed number of bytes**;
* `LineChat.Challenge.ofBase64`, `LineChat.SessionKey.ofBase64` — reading them.
-/

import LineChat.Channel.Error
import LineChat.Text.Base64

set_option autoImplicit false

namespace LineChat

/-- A list as a vector, if it has the right length. -/
def Bytes.toVector? (n : Nat) (bs : Bytes) : Option (Vector UInt8 n) :=
  if h : bs.length = n then some ⟨bs.toArray, by simpa using h⟩ else none

@[simp] theorem Bytes.toVector?_toList {n : Nat} (v : Vector UInt8 n) :
    Bytes.toVector? n v.toList = some v := by
  have h : v.toList.toArray = v.toArray := by rw [← Vector.toList_toArray, Array.toArray_toList]
  simp [Bytes.toVector?, h]

/-- **Base64 with a fixed number of bytes**; `what` names the value in the error. -/
def decodeFixed (n : Nat) (what encoded : String) : Except LineError (Vector UInt8 n) :=
  match Base64.decodeText encoded with
  | .error fault => .error (.brokenMessage s!"{what} is not base64: {fault.message}")
  | .ok bytes =>
      match Bytes.toVector? n bytes with
      | some v => .ok v
      | none => .error (.brokenMessage s!"{what} has {bytes.length} bytes, expected {n}")

/-! ### Challenges -/

/-- **A single-use random value** that proves freshness. -/
structure Challenge where
  bytes : Vector UInt8 32
  deriving DecidableEq, Repr

namespace Challenge

/-- Reads a challenge as sent on the wire. -/
def ofBase64 (encoded : String) : Except LineError Challenge :=
  (decodeFixed 32 "challenge" encoded).map .mk

/-- A challenge as sent on the wire. -/
def toBase64 (c : Challenge) : String := Base64.encode c.bytes.toList

/-- A challenge as diagnostics show it. -/
def debug (_ : Challenge) : String := Text.wrapped "Challenge" Text.redacted

end Challenge

/-! ### Session keys -/

/-- **The key material of one session**: a cipher key and the counter to start from. -/
structure SessionKey where
  key : Vector UInt8 32
  iv : Vector UInt8 16
  deriving DecidableEq, Repr

namespace SessionKey

/-- Reads a session key from its two parts as sent on the wire; the key is read first. -/
def ofBase64 (key iv : String) : Except LineError SessionKey := do
  let key ← decodeFixed 32 "session key" key
  let iv ← decodeFixed 16 "session iv" iv
  return ⟨key, iv⟩

/-- The two parts of a session key as sent on the wire. -/
def toBase64 (s : SessionKey) : String × String :=
  (Base64.encode s.key.toList, Base64.encode s.iv.toList)

/-- A session key as diagnostics show it. -/
def debug (_ : SessionKey) : String :=
  Text.record "SessionKey"
    [("key", Text.quote Text.redacted), ("iv", Text.quote Text.redacted)]

end SessionKey

end LineChat
