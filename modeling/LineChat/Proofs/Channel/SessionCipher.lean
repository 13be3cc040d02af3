/-
**What the cipher of a session does.**

The cipher either claims the counter of the next line or refuses it, and what it does then is the
same in both directions: it adds the keystream from that counter on, and counts the line.

Main results:

* `LineChat.SessionCipher.encrypt_of_lt`, `LineChat.SessionCipher.encrypt_of_le` — **what encrypting
  a line gives** below the limit and at it;
* `LineChat.SessionCipher.decrypt_of_lt`, `LineChat.SessionCipher.decrypt_of_le`,
  `LineChat.SessionCipher.decrypt_of_error` — the same for decrypting a line, with lines that are
  not base64 refused first.
-/

import LineChat.Channel.SessionCipher

set_option autoImplicit false

namespace LineChat

open CounterMode (Counter)

theorem Direction.claim_of_lt {d : Direction} {limit : UInt64} (mode : KeystreamMode)
    (h : d.lines < limit.toNat) :
    d.claim mode limit =
      .ok (lineCounter mode d.base d.lines, { d with lines := d.lines + 1 }) := by
  rw [Direction.claim, if_neg (Nat.not_le.2 h)]

theorem Direction.claim_of_le {d : Direction} {limit : UInt64} (mode : KeystreamMode)
    (h : limit.toNat ≤ d.lines) :
    d.claim mode limit = .error (.keystreamExhausted limit.toNat) := by
  rw [Direction.claim, if_pos h]

namespace SessionCipher

/-- The counter of the next line to encrypt. -/
def nextOut (s : SessionCipher) : Counter := lineCounter s.mode s.outbound.base s.outbound.lines

/-- The counter of the next line to decrypt. -/
def nextIn (s : SessionCipher) : Counter := lineCounter s.mode s.inbound.base s.inbound.lines

/-- The cipher with one more line encrypted. -/
def countOut (s : SessionCipher) : SessionCipher :=
  { s with outbound := { s.outbound with lines := s.outbound.lines + 1 } }

/-- The cipher with one more line decrypted. -/
def countIn (s : SessionCipher) : SessionCipher :=
  { s with inbound := { s.inbound with lines := s.inbound.lines + 1 } }

/-- **Below the limit a line is encrypted** with the next counter, and counted. -/
theorem encrypt_of_lt {s : SessionCipher} (h : s.linesSent < s.maxLines.toNat) (line : String) :
    s.encrypt line =
      (.ok (Base64.encode (s.applyFrom s.nextOut (Text.utf8 line))), s.countOut) := by
  rw [encrypt, Direction.claim_of_lt s.mode h]
  rfl

theorem encrypt_of_le {s : SessionCipher} (h : s.maxLines.toNat ≤ s.linesSent) (line : String) :
    s.encrypt line = (.error (.keystreamExhausted s.maxLines.toNat), s) := by
  rw [encrypt, Direction.claim_of_le s.mode h]

theorem decrypt_of_error {s : SessionCipher} {line : String} {e : LineError}
    (h : decodeBase64 line = .error e) : s.decrypt line = (.error e, s) := by
  rw [decrypt, h]

/-- **Below the limit a line of base64 is decrypted** with the next counter, and counted, whatever
comes out of it. -/
theorem decrypt_of_lt {s : SessionCipher} {line : String} {bytes : Bytes}
    (hb : decodeBase64 line = .ok bytes) (h : s.linesReceived < s.maxLines.toNat) :
    s.decrypt line = (decodeUtf8 (s.applyFrom s.nextIn bytes), s.countIn) := by
  rw [decrypt, hb]
  simp only [Direction.claim_of_lt s.mode h]
  rfl

theorem decrypt_of_le {s : SessionCipher} {line : String} {bytes : Bytes}
    (hb : decodeBase64 line = .ok bytes) (h : s.maxLines.toNat ≤ s.linesReceived) :
    s.decrypt line = (.error (.keystreamExhausted s.maxLines.toNat), s) := by
  rw [decrypt, hb]
  simp only [Direction.claim_of_le s.mode h]

theorem decrypt_snd (s : SessionCipher) (line : String) :
    (s.decrypt line).2 = s ∨ (s.decrypt line).2 = s.countIn := by
  cases hb : decodeBase64 line with
  | error e => exact Or.inl (by rw [decrypt_of_error hb])
  | ok bytes =>
      rcases Nat.lt_or_ge s.linesReceived s.maxLines.toNat with h | h
      · exact Or.inr (by rw [decrypt_of_lt hb h])
      · exact Or.inl (by rw [decrypt_of_le hb h])

end SessionCipher

end LineChat
