/-
**What can be seen without a key does not depend on it.**

Two ciphers with different key material are asked the same things.  Whoever sees how many lines they
have counted, what diagnostics say of them, how long their ciphertexts are, and which lines they
refuse for the limit or because they are not base64, cannot tell one from the other.  Whether
decrypted bytes are text does depend on the key, but nothing that is seen later depends on that:
such a line is counted before its bytes are looked at.

Diagnostics show keys, challenges and secrets of no kind.

Main definitions:

* `LineChat.SessionCipher.InStep` — two ciphers that have come equally far;
* `LineChat.SessionCipher.Indistinct` — **two ciphers that look the same from outside**;
* `LineChat.ShowsOnly` — a text that shows only a part of a value.

Main results:

* `LineChat.SessionCipher.InStep.after`, `LineChat.SessionCipher.InStep.run` — ciphers stay in step
  with each call, and so over any calls;
* `LineChat.SessionCipher.InStep.indistinct` — ciphers in step look the same;
* `LineChat.secrets_do_not_show` — **no secret shows** in what a cipher does over any calls, or in
  diagnostics.
-/

import LineChat.Handshake.Party
import LineChat.Private.Sealed
import LineChat.Proofs.Channel.LineCounts

set_option autoImplicit false

namespace LineChat

/-! ### Errors that no key has a part in -/

/-- **An error that no key has a part in**: the limit is reached, or a line is not base64. -/
def LineError.IsKeyless (e : LineError) : Prop :=
  (∃ limit, e = .keystreamExhausted limit) ∨
    ∃ fault : Base64.Fault, e = .brokenMessage s!"invalid base64: {fault.message}"

/-- That decrypted bytes are not text is another error, which its wording shows. -/
theorem not_isKeyless_of_decodeUtf8 {bytes : Bytes} {e : LineError}
    (h : decodeUtf8 bytes = .error e) : ¬ e.IsKeyless := by
  rw [decodeUtf8] at h
  split at h
  · cases h
  next fault _ =>
    cases h
    rintro (⟨limit, hlimit⟩ | ⟨fault', hfault⟩)
    · cases hlimit
    · have hwording := congrArg (fun s => s.toList.head?) (LineError.brokenMessage.inj hfault)
      rw [String.toList_append, String.toList_append] at hwording
      cases hwording

/-! ### Two ciphers -/

/-- **Two results of encrypting that look the same**: ciphertexts of one length, or one error. -/
inductive SealedAlike : Except LineError String → Except LineError String → Prop
  | sealed {a b : String} (h : (Text.utf8 a).length = (Text.utf8 b).length) :
      SealedAlike (.ok a) (.ok b)
  | refused (e : LineError) : SealedAlike (.error e) (.error e)

namespace SessionCipher

/-- **Two ciphers that look the same from outside**, whatever line comes next. -/
structure Indistinct (s t : SessionCipher) : Prop where
  linesSent_eq : s.linesSent = t.linesSent
  linesReceived_eq : s.linesReceived = t.linesReceived
  debug_eq : s.debug = t.debug
  encrypt_alike : ∀ line, SealedAlike (s.encrypt line).1 (t.encrypt line).1
  /-- An error that no key has a part in comes from either cipher or from none. -/
  decrypt_iff : ∀ line e, e.IsKeyless →
    ((s.decrypt line).1 = .error e ↔ (t.decrypt line).1 = .error e)

/-- **Two ciphers that have come equally far** under the same settings. -/
structure InStep (s t : SessionCipher) : Prop where
  mode_eq : s.mode = t.mode
  maxLines_eq : s.maxLines = t.maxLines
  linesSent_eq : s.linesSent = t.linesSent
  linesReceived_eq : s.linesReceived = t.linesReceived

variable {s t : SessionCipher}

theorem inStep_start (session session' : SessionKey) (role : Role) (mode : KeystreamMode)
    (maxLines : UInt64) :
    (start session role mode maxLines).InStep (start session' role mode maxLines) :=
  ⟨rfl, rfl, rfl, rfl⟩

theorem InStep.linesSent_lt_iff (h : s.InStep t) :
    s.linesSent < s.maxLines.toNat ↔ t.linesSent < t.maxLines.toNat := by
  rw [h.linesSent_eq, h.maxLines_eq]

theorem InStep.linesReceived_lt_iff (h : s.InStep t) :
    s.linesReceived < s.maxLines.toNat ↔ t.linesReceived < t.maxLines.toNat := by
  rw [h.linesReceived_eq, h.maxLines_eq]

theorem InStep.countOut (h : s.InStep t) : s.countOut.InStep t.countOut :=
  ⟨h.mode_eq, h.maxLines_eq, congrArg (· + 1) h.linesSent_eq, h.linesReceived_eq⟩

theorem InStep.countIn (h : s.InStep t) : s.countIn.InStep t.countIn :=
  ⟨h.mode_eq, h.maxLines_eq, h.linesSent_eq, congrArg (· + 1) h.linesReceived_eq⟩

/-- **A call leaves two ciphers in step**: what it counts depends on the limit and on the line, and
not on what comes out of the line. -/
theorem InStep.after (h : s.InStep t) (call : CipherCall) :
    (s.after call).InStep (t.after call) := by
  cases call with
  | encrypt line =>
      rw [SessionCipher.after, SessionCipher.after]
      by_cases hlt : s.linesSent < s.maxLines.toNat
      · rw [encrypt_of_lt hlt, encrypt_of_lt (h.linesSent_lt_iff.1 hlt)]
        exact h.countOut
      · have hge := mt h.linesSent_lt_iff.2 hlt
        rw [encrypt_of_le (Nat.not_lt.1 hlt), encrypt_of_le (Nat.not_lt.1 hge)]
        exact h
  | decrypt line =>
      rw [SessionCipher.after, SessionCipher.after]
      cases hb : decodeBase64 line with
      | error e =>
          rw [decrypt_of_error hb, decrypt_of_error hb]
          exact h
      | ok bytes =>
          by_cases hlt : s.linesReceived < s.maxLines.toNat
          · rw [decrypt_of_lt hb hlt, decrypt_of_lt hb (h.linesReceived_lt_iff.1 hlt)]
            exact h.countIn
          · have hge := mt h.linesReceived_lt_iff.2 hlt
            rw [decrypt_of_le hb (Nat.not_lt.1 hlt), decrypt_of_le hb (Nat.not_lt.1 hge)]
            exact h

/-- **Any calls leave two ciphers in step.** -/
theorem InStep.run (h : s.InStep t) (calls : List CipherCall) :
    (s.run calls).InStep (t.run calls) := by
  induction calls generalizing s t with
  | nil => exact h
  | cons call calls ih => exact ih (h.after call)

/-- Ciphertexts are as long as their lines make them. -/
theorem length_utf8_encrypt (h : s.linesSent < s.maxLines.toNat) (line : String) :
    ∃ sealed, (s.encrypt line).1 = .ok sealed ∧
      (Text.utf8 sealed).length = Base64.encodedLength (Text.utf8 line).length := by
  refine ⟨_, congrArg Prod.fst (encrypt_of_lt h line), ?_⟩
  rw [Base64.utf8_encode, Base64.length_encodeBytes, applyFrom, CounterMode.length_apply]

/-- **What decrypting a line comes to without a key**: an error that no key has a part in shows that
the line is not base64, or that the limit is reached. -/
theorem decrypt_eq_keyless_iff {line : String} {e : LineError} (he : e.IsKeyless) :
    (s.decrypt line).1 = .error e ↔
      decodeBase64 line = .error e ∨
        (decodeBase64 line).isOk = true ∧ s.maxLines.toNat ≤ s.linesReceived ∧
          e = .keystreamExhausted s.maxLines.toNat := by
  cases hb : decodeBase64 line with
  | error fault =>
      rw [decrypt_of_error hb]
      constructor
      · intro h
        cases h
        exact Or.inl rfl
      · rintro (h | ⟨hok, -⟩)
        · cases h
          rfl
        · cases hok
  | ok bytes =>
      rcases Nat.lt_or_ge s.linesReceived s.maxLines.toNat with hlt | hle
      · rw [decrypt_of_lt hb hlt]
        constructor
        · intro h
          exact absurd he (not_isKeyless_of_decodeUtf8 h)
        · rintro (h | ⟨-, hle, -⟩)
          · cases h
          · omega
      · rw [decrypt_of_le hb hle]
        constructor
        · intro h
          cases h
          exact Or.inr ⟨rfl, hle, rfl⟩
        · rintro (h | ⟨-, -, rfl⟩)
          · cases h
          · rfl

/-- **Two ciphers in step look the same from outside.** -/
theorem InStep.indistinct (h : s.InStep t) : s.Indistinct t := by
  refine ⟨h.linesSent_eq, h.linesReceived_eq, ?_, fun line => ?_, fun line e he => ?_⟩
  · rw [debug, debug, h.mode_eq, h.linesSent_eq, h.linesReceived_eq]
  · by_cases hlt : s.linesSent < s.maxLines.toNat
    · obtain ⟨a, ha, hlength⟩ := length_utf8_encrypt hlt line
      obtain ⟨b, hb, hlength'⟩ := length_utf8_encrypt (h.linesSent_lt_iff.1 hlt) line
      rw [ha, hb]
      exact .sealed (hlength.trans hlength'.symm)
    · have hge := mt h.linesSent_lt_iff.2 hlt
      rw [encrypt_of_le (Nat.not_lt.1 hlt), encrypt_of_le (Nat.not_lt.1 hge), h.maxLines_eq]
      exact .refused _
  · rw [decrypt_eq_keyless_iff he, decrypt_eq_keyless_iff he, h.maxLines_eq, h.linesReceived_eq]

end SessionCipher

/-! ### Diagnostics -/

/-- **A text that shows only a part of a value**: values with the same part have the same text. -/
def ShowsOnly {α β : Type} (text : α → String) (part : α → β) : Prop :=
  ∀ a b, part a = part b → text a = text b

theorem showsOnly_serverHandshake :
    ShowsOnly (fun x : ServerHandshake × ServerHandshake.State => x.1.debug x.2.phase)
      (fun x => (x.2.phase, x.1.options)) := by
  intro a b h
  obtain ⟨hphase, hoptions⟩ := Prod.mk.inj h
  simp only [ServerHandshake.debug, hphase, hoptions]

theorem showsOnly_clientHandshake :
    ShowsOnly (fun x : ClientHandshake × ClientHandshake.State => x.1.debug x.2.phase)
      (fun x => (x.2.phase, x.1.options, x.1.username)) := by
  intro a b h
  obtain ⟨hphase, hrest⟩ := Prod.mk.inj h
  obtain ⟨hoptions, husername⟩ := Prod.mk.inj hrest
  simp only [ClientHandshake.debug, hphase, hoptions, husername]

theorem showsOnly_envelopeCipher :
    ShowsOnly EnvelopeCipher.debug (fun c => (c.peer.isSome, c.own.isSome)) := by
  intro a b h
  obtain ⟨hpeer, hown⟩ := Prod.mk.inj h
  simp only [EnvelopeCipher.debug, hpeer, hown]

theorem showsOnly_authenticate : ShowsOnly Authenticate.debug (·.username) := by
  intro a b h
  simp only [Authenticate.debug, h, Challenge.debug]

/-- **No secret shows.**  Two ciphers for different session keys look the same from outside after
any calls, and diagnostics show nothing of a session key, a challenge or a shared secret, of the
messages that carry them nothing but the username, of an envelope cipher only which keys it has, and
of a handshake only its phase, its options and the client's username. -/
theorem secrets_do_not_show :
    (∀ (session session' : SessionKey) (role : Role) (mode : KeystreamMode) (maxLines : UInt64)
        (calls : List CipherCall),
      ((SessionCipher.start session role mode maxLines).run calls).Indistinct
        ((SessionCipher.start session' role mode maxLines).run calls)) ∧
      ShowsOnly SessionKey.debug (fun _ => ()) ∧
      ShowsOnly Challenge.debug (fun _ => ()) ∧
      ShowsOnly Authenticate.debug (·.username) ∧
      ShowsOnly ServerOk.debug (fun _ => ()) ∧
      ShowsOnly SharedSecret.debug (fun _ => ()) ∧
      ShowsOnly EnvelopeCipher.debug (fun c => (c.peer.isSome, c.own.isSome)) ∧
      ShowsOnly (fun x : ServerHandshake × ServerHandshake.State => x.1.debug x.2.phase)
        (fun x => (x.2.phase, x.1.options)) ∧
      ShowsOnly (fun x : ClientHandshake × ClientHandshake.State => x.1.debug x.2.phase)
        (fun x => (x.2.phase, x.1.options, x.1.username)) := by
  refine ⟨fun session session' role mode maxLines calls => ?_, fun _ _ _ => rfl, fun _ _ _ => rfl,
    showsOnly_authenticate, fun _ _ _ => rfl, fun _ _ _ => rfl, showsOnly_envelopeCipher,
    showsOnly_serverHandshake, showsOnly_clientHandshake⟩
  have hstart := SessionCipher.inStep_start session session' role mode maxLines
  exact (hstart.run calls).indistinct

end LineChat
