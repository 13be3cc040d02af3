/-
**Lines in envelopes.**

A line that is opened spells one envelope, and the envelope holds the text that comes out of it.  A
line that is put in an envelope is written as the base64 of it, unless it does not fit the key.

Main results:

* `LineChat.EnvelopeCipher.decrypt_eq_ok_iff` — **what is taken out of an envelope**;
* `LineChat.LineCodec.encode_of_fits`, `LineChat.LineCodec.encode_of_not_fits` — what writing a line
  in an envelope comes to;
* `LineChat.Link.send_envelope` — **what sending a line in an envelope comes to**.
-/

import LineChat.Channel.EnvelopeCipher
import LineChat.Channel.Link
import LineChat.Proofs.Channel.SessionLine
import LineChat.Proofs.Key.Envelope

set_option autoImplicit false

namespace LineChat

namespace EnvelopeCipher

/-- **A text is taken out of an envelope** if a line spells the envelope in base64, and the key
opens it to the bytes of the text. -/
theorem decrypt_eq_ok_iff {cipher c : EnvelopeCipher} {key : PrivateKey} {line text : String}
    (hown : cipher.own = some key) :
    cipher.decrypt line = (.ok text, c) ↔
      c = cipher ∧
        ∃ envelope, line = Base64.encode envelope ∧ key.unseal envelope = .ok (Text.utf8 text) := by
  unfold decrypt
  simp only [hown]
  constructor
  · intro h
    cases hb : decodeBase64 line with
    | error e => simp [hb] at h
    | ok envelope =>
        cases hu : key.unseal envelope with
        | error fault => simp [hb, hu] at h
        | ok bytes =>
            simp only [hb, hu] at h
            obtain ⟨htext, rfl⟩ := Prod.mk.inj h
            refine ⟨rfl, envelope, eq_encode_of_decodeBase64 hb, ?_⟩
            rw [← decodeUtf8_eq_ok_iff.1 htext, hu]
  · rintro ⟨rfl, envelope, rfl, hu⟩
    simp only [decodeBase64_encode, hu, decodeUtf8_utf8]

theorem decrypt_openOnly_eq_ok_iff {key : PrivateKey} {seeds : Nat → Oaep.Seed}
    {line text : String} {c : EnvelopeCipher} :
    (openOnly key seeds).decrypt line = (.ok text, c) ↔
      c = openOnly key seeds ∧
        ∃ envelope, line = Base64.encode envelope ∧ key.unseal envelope = .ok (Text.utf8 text) :=
  decrypt_eq_ok_iff rfl

end EnvelopeCipher

variable {key : PublicKey} {own : PrivateKey} {seeds : Nat → Oaep.Seed} {line : String}

theorem EnvelopeCipher.encrypt_between (key : PublicKey) (own : PrivateKey)
    (seeds : Nat → Oaep.Seed) (line : String) :
    (EnvelopeCipher.between key own seeds).encrypt line =
      match key.seal? (seeds 0) (Text.utf8 line) with
      | none =>
          (.error (.brokenMessage s!"rsa encryption: {key.refusal}"), .between key own seeds)
      | some envelope =>
          (.ok (Base64.encode envelope), .between key own fun i => seeds (i + 1)) := by
  have hpeer : (EnvelopeCipher.between key own seeds).peer = some key := rfl
  unfold EnvelopeCipher.encrypt
  simp only [hpeer]
  rfl

/-- **What writing a line in an envelope comes to**: it is written, if it fits the key. -/
theorem LineCodec.encode_envelope {c : LineCodec EnvelopeCipher}
    (hcipher : c.cipher = .between key own seeds) (hpolicy : c.policy = .fail)
    (hline : hasLineEnd line = false) :
    (∃ envelope, key.seal? (seeds 0) (Text.utf8 line) = some envelope ∧
        c.encode line = (.ok (frameLine (Base64.encode envelope)),
          { c with cipher := .between key own fun i => seeds (i + 1) })) ∨
      (key.seal? (seeds 0) (Text.utf8 line) = none ∧ ∃ e c', c.encode line = (.error e, c')) := by
  -- how long an envelope is shows only once it is there
  have hunknown : isTooLong c.cipher line = false := rfl
  have hencrypt := EnvelopeCipher.encrypt_between key own seeds line
  rw [← hcipher] at hencrypt
  change LineCipher.encrypt c.cipher line = _ at hencrypt
  cases hseal : key.seal? (seeds 0) (Text.utf8 line) with
  | none =>
      rw [hseal] at hencrypt
      refine Or.inr ⟨rfl, _, _, encode_of_not_encrypted hline hunknown hencrypt ?_⟩
      rintro ⟨hdrop, -⟩
      cases hpolicy.symm.trans hdrop
  | some envelope =>
      rw [hseal] at hencrypt
      refine Or.inl ⟨envelope, rfl, encode_of_encrypted hline hunknown hencrypt ?_⟩
      rw [Base64.utf8_encode]
      exact PublicKey.length_encodeBytes_le hseal

/-- A line that fits the key is written, in an envelope. -/
theorem LineCodec.encode_of_fits {c : LineCodec EnvelopeCipher}
    (hcipher : c.cipher = .between key own seeds) (hpolicy : c.policy = .fail)
    (hline : hasLineEnd line = false) (htakes : key.takes (Text.utf8 line).length = true) :
    ∃ envelope, key.seal? (seeds 0) (Text.utf8 line) = some envelope ∧
      c.encode line = (.ok (frameLine (Base64.encode envelope)),
        { c with cipher := .between key own fun i => seeds (i + 1) }) := by
  obtain ⟨envelope, hseal⟩ := PublicKey.exists_seal? (seeds 0) htakes
  rcases encode_envelope hcipher hpolicy hline with hwritten | ⟨hnone, -⟩
  · exact hwritten
  · cases hseal.symm.trans hnone

/-- A line that does not fit the key is refused. -/
theorem LineCodec.encode_of_not_fits {c : LineCodec EnvelopeCipher}
    (hcipher : c.cipher = .between key own seeds) (hpolicy : c.policy = .fail)
    (hline : hasLineEnd line = false) (htakes : ¬ key.takes (Text.utf8 line).length = true) :
    ∃ e c', c.encode line = (.error e, c') := by
  rcases encode_envelope hcipher hpolicy hline with ⟨envelope, hseal, -⟩ | ⟨-, herror⟩
  · exact absurd (PublicKey.takes_of_seal? hseal) htakes
  · exact herror

/-- **What sending a line in an envelope comes to** on a connection that takes it: it is written, if
it fits the key, and nothing is written otherwise. -/
theorem Link.send_envelope {l : Link (LineCodec EnvelopeCipher)} {c : Connection}
    (hcipher : l.format.cipher = .between key own seeds) (hpolicy : l.format.policy = .fail)
    (hline : LineCodec.hasLineEnd line = false) (hbroken : c.broken = false) :
    (∃ envelope, key.seal? (seeds 0) (Text.utf8 line) = some envelope ∧
        l.send line c = (.ok (),
          { l with format :=
              { l.format with cipher := .between key own fun i => seeds (i + 1) } },
          { c with outgoing := c.outgoing ++ frameLine (Base64.encode envelope) })) ∨
      (key.seal? (seeds 0) (Text.utf8 line) = none ∧
        ∃ e l', l.send line c = (.error e, l', c)) := by
  rcases LineCodec.encode_envelope hcipher hpolicy hline with
    ⟨envelope, hseal, hencode⟩ | ⟨hnone, e, codec, hencode⟩
  · refine Or.inl ⟨envelope, hseal, ?_⟩
    have hne : frameLine (Base64.encode envelope) ≠ [] := by simp [frameLine]
    have hbreach : c.breach = none := by simpa [Connection.broken] using hbroken
    simp only [send, LineFormat.encode, hencode, Connection.write, if_neg hne, hbreach]
  · refine Or.inr ⟨hnone, e, { l with format := codec }, ?_⟩
    simp only [send, LineFormat.encode, hencode]

end LineChat
