/-
**How many lines a key protects.**

A cipher counts the lines of each direction, and both counts stop at the limit.  What is counted is
every line that it is asked to encrypt, and of those that it is asked to decrypt every line that is
base64, whether text comes out of it or not.  At the limit a line is refused, which changes nothing.
Neither direction has a part in what the other one counts or answers.

Main definitions:

* `LineChat.SessionCipher.run` — a cipher after some calls;
* `LineChat.CipherCall.isEncrypt`, `LineChat.CipherCall.isReadable` — the calls that are counted;
* `LineChat.SessionCipher.CountsLines` — **what is to be true after any calls**.

Main results:

* `LineChat.SessionCipher.run_start` — **a cipher after some calls** is known from two numbers;
* `LineChat.SessionCipher.countsLines` — what is to be true is true.
-/

import LineChat.Proofs.Channel.Keystream
import LineChat.Proofs.Channel.TwoWay

set_option autoImplicit false

namespace LineChat

namespace CipherCall

/-- A line is to be encrypted. -/
def isEncrypt : CipherCall → Bool
  | encrypt _ => true
  | decrypt _ => false

/-- A line of base64 is to be decrypted. -/
def isReadable : CipherCall → Bool
  | encrypt _ => false
  | decrypt line => (decodeBase64 line).isOk

end CipherCall

namespace SessionCipher

/-- **A cipher after some calls.** -/
def run (s : SessionCipher) (calls : List CipherCall) : SessionCipher := calls.foldl after s

variable {session : SessionKey} {role : Role} {mode : KeystreamMode} {maxLines : UInt64}
  {sent received : Nat}

/-! ### Counting up to the limit -/

theorem encrypt_counted_of_le (h : maxLines.toNat ≤ sent) (text : String) :
    (counted session role mode maxLines sent received).encrypt text =
      (.error (.keystreamExhausted maxLines.toNat),
        counted session role mode maxLines sent received) :=
  encrypt_of_le (s := counted session role mode maxLines sent received) h text

/-- The cipher with both counts stopped at the limit. -/
def capped (session : SessionKey) (role : Role) (mode : KeystreamMode) (maxLines : UInt64)
    (sent received : Nat) : SessionCipher :=
  counted session role mode maxLines (min maxLines.toNat sent) (min maxLines.toNat received)

theorem after_encrypt_capped (line : String) :
    (capped session role mode maxLines sent received).after (.encrypt line) =
      capped session role mode maxLines (sent + 1) received := by
  rw [after, capped, capped]
  rcases Nat.lt_or_ge sent maxLines.toNat with hlt | hle
  · have hsent : min maxLines.toNat sent = sent := by omega
    have hnext : min maxLines.toNat (sent + 1) = sent + 1 := by omega
    rw [hsent, hnext, encrypt_counted hlt]
  · have hsent : min maxLines.toNat sent = maxLines.toNat := by omega
    have hnext : min maxLines.toNat (sent + 1) = maxLines.toNat := by omega
    rw [hsent, hnext, encrypt_counted_of_le (Nat.le_refl _)]

theorem after_decrypt_capped (line : String) :
    (capped session role mode maxLines sent received).after (.decrypt line) =
      capped session role mode maxLines sent
        (received + if (CipherCall.decrypt line).isReadable then 1 else 0) := by
  rw [after, CipherCall.isReadable]
  cases hb : decodeBase64 line with
  | error e =>
      rw [decrypt_of_error hb]
      rfl
  | ok bytes =>
      rcases Nat.lt_or_ge received maxLines.toNat with hlt | hle
      · have hlt' : (capped session role mode maxLines sent received).linesReceived <
            (capped session role mode maxLines sent received).maxLines.toNat := by
          change min maxLines.toNat received < maxLines.toNat
          omega
        have hnext : min maxLines.toNat received + 1 = min maxLines.toNat (received + 1) := by omega
        rw [decrypt_of_lt hb hlt']
        simp only [countIn, capped, counted, hnext]
        rfl
      · have hle' : (capped session role mode maxLines sent received).maxLines.toNat ≤
            (capped session role mode maxLines sent received).linesReceived := by
          change maxLines.toNat ≤ min maxLines.toNat received
          omega
        have hnext : min maxLines.toNat received = min maxLines.toNat (received + 1) := by omega
        rw [decrypt_of_le hb hle', capped, hnext]
        rfl

theorem run_capped (calls : List CipherCall) :
    (capped session role mode maxLines sent received).run calls =
      capped session role mode maxLines (sent + calls.countP CipherCall.isEncrypt)
        (received + calls.countP CipherCall.isReadable) := by
  induction calls generalizing sent received with
  | nil => rfl
  | cons call calls ih =>
      rw [run, List.foldl_cons]
      cases call with
      | encrypt line =>
          rw [after_encrypt_capped]
          refine ih.trans ?_
          rw [List.countP_cons_of_pos rfl,
            List.countP_cons_of_neg (by simp [CipherCall.isReadable]), Nat.add_right_comm,
            Nat.add_assoc]
      | decrypt line =>
          rw [after_decrypt_capped]
          refine ih.trans ?_
          rw [List.countP_cons_of_neg (by simp [CipherCall.isEncrypt]), List.countP_cons,
            Nat.add_assoc, Nat.add_comm (List.countP _ calls)]

/-- **A cipher after some calls** is known from the number of lines that it was asked to encrypt,
and of the lines of base64 that it was asked to decrypt. -/
theorem run_start (calls : List CipherCall) :
    (start session role mode maxLines).run calls =
      capped session role mode maxLines (calls.countP CipherCall.isEncrypt)
        (calls.countP CipherCall.isReadable) := by
  have hrun : (capped session role mode maxLines 0 0).run calls =
      capped session role mode maxLines (0 + calls.countP CipherCall.isEncrypt)
        (0 + calls.countP CipherCall.isReadable) := run_capped calls
  rw [Nat.zero_add, Nat.zero_add] at hrun
  rw [← hrun, capped, Nat.min_zero]
  rfl

/-! ### Each direction for itself -/

/-- What is encrypted does not depend on what was decrypted. -/
theorem fst_encrypt_capped (received' : Nat) (line : String) :
    ((capped session role mode maxLines sent received).encrypt line).1 =
      ((capped session role mode maxLines sent received').encrypt line).1 := by
  rcases Nat.lt_or_ge (min maxLines.toNat sent) maxLines.toNat with hlt | hle
  · rw [capped, capped, encrypt_counted hlt, encrypt_counted hlt]
  · rw [capped, capped, encrypt_counted_of_le hle, encrypt_counted_of_le hle]

/-- What is decrypted does not depend on what was encrypted. -/
theorem fst_decrypt_capped (sent' : Nat) (line : String) :
    ((capped session role mode maxLines sent received).decrypt line).1 =
      ((capped session role mode maxLines sent' received).decrypt line).1 := by
  have hleft := congrArg Prod.fst
    ((capped session role mode maxLines sent received).decrypt_reading line)
  have hright := congrArg Prod.fst
    ((capped session role mode maxLines sent' received).decrypt_reading line)
  exact hleft.symm.trans hright

theorem countP_filter_isEncrypt (calls : List CipherCall) :
    (calls.filter CipherCall.isEncrypt).countP CipherCall.isEncrypt =
      calls.countP CipherCall.isEncrypt := by
  rw [List.countP_filter]
  simp only [Bool.and_self]

theorem countP_filter_isReadable (calls : List CipherCall) :
    (calls.filter (!·.isEncrypt)).countP CipherCall.isReadable =
      calls.countP CipherCall.isReadable := by
  rw [List.countP_filter]
  congr 1
  funext call
  cases call with
  | encrypt line => rfl
  | decrypt line => exact Bool.and_true _

/-! ### After any calls -/

/-- **What is to be true of a fresh cipher after any calls.** -/
structure CountsLines (fresh : SessionCipher) (calls : List CipherCall) : Prop where
  linesSent_eq : (fresh.run calls).linesSent =
    min fresh.maxLines.toNat (calls.countP CipherCall.isEncrypt)
  linesReceived_eq : (fresh.run calls).linesReceived =
    min fresh.maxLines.toNat (calls.countP CipherCall.isReadable)
  /-- A line is not encrypted if and only if as many were as may be, and that changes nothing. -/
  encrypt_fails_iff : ∀ line, (∃ e, ((fresh.run calls).encrypt line).1 = .error e) ↔
    (fresh.run calls).linesSent = fresh.maxLines.toNat
  encrypt_of_fails : ∀ line e, ((fresh.run calls).encrypt line).1 = .error e →
    (fresh.run calls).encrypt line =
      (.error (.keystreamExhausted fresh.maxLines.toNat), fresh.run calls)
  /-- A line of base64 is refused for the limit if and only if as many were counted as may be, and
  that changes nothing. -/
  decrypt_exhausted_iff : ∀ line, (decodeBase64 line).isOk = true →
    ((∃ limit, ((fresh.run calls).decrypt line).1 = .error (.keystreamExhausted limit)) ↔
      (fresh.run calls).linesReceived = fresh.maxLines.toNat)
  decrypt_of_exhausted : ∀ line limit,
    ((fresh.run calls).decrypt line).1 = .error (.keystreamExhausted limit) →
      (fresh.run calls).decrypt line =
        (.error (.keystreamExhausted fresh.maxLines.toNat), fresh.run calls)
  /-- Each direction answers as if nothing had been asked of the other one. -/
  encrypt_alone : ∀ line, ((fresh.run calls).encrypt line).1 =
    ((fresh.run (calls.filter CipherCall.isEncrypt)).encrypt line).1
  decrypt_alone : ∀ line, ((fresh.run calls).decrypt line).1 =
    ((fresh.run (calls.filter (!·.isEncrypt))).decrypt line).1
  /-- The counts fit in 64 bits. -/
  linesSent_lt : (fresh.run calls).linesSent < UInt64.size
  linesReceived_lt : (fresh.run calls).linesReceived < UInt64.size

/-- A decrypted line fails for another reason than the limit. -/
theorem decodeUtf8_ne_keystreamExhausted (bs : Bytes) (limit : Nat) :
    decodeUtf8 bs ≠ .error (.keystreamExhausted limit) := by
  intro h
  rcases decodeUtf8_cases bs with ⟨text, htext⟩ | ⟨e, herror, hbroken⟩
  · rw [htext] at h
    cases h
  · rw [herror] at h
    cases h
    cases hbroken

/-- **Decrypting a line comes to the limit** for base64 only, and at the limit only. -/
theorem decrypt_eq_exhausted_iff {s : SessionCipher} {line : String} {limit : Nat} :
    (s.decrypt line).1 = .error (.keystreamExhausted limit) ↔
      (decodeBase64 line).isOk = true ∧ s.maxLines.toNat ≤ s.linesReceived ∧
        limit = s.maxLines.toNat := by
  cases hb : decodeBase64 line with
  | error e =>
      rw [decrypt_of_error hb]
      constructor
      · intro h
        cases h
        cases isBrokenMessage_of_decodeBase64 hb
      · rintro ⟨hok, -⟩
        cases hok
  | ok bytes =>
      rcases Nat.lt_or_ge s.linesReceived s.maxLines.toNat with hlt | hle
      · rw [decrypt_of_lt hb hlt]
        constructor
        · exact fun h => absurd h (decodeUtf8_ne_keystreamExhausted _ limit)
        · rintro ⟨-, hle, -⟩
          omega
      · rw [decrypt_of_le hb hle]
        constructor
        · intro h
          cases h
          exact ⟨rfl, hle, rfl⟩
        · rintro ⟨-, -, rfl⟩
          rfl

/-- And that changes nothing. -/
theorem decrypt_of_exhausted {s : SessionCipher} {line : String} {limit : Nat}
    (h : (s.decrypt line).1 = .error (.keystreamExhausted limit)) :
    s.decrypt line = (.error (.keystreamExhausted s.maxLines.toNat), s) := by
  obtain ⟨hok, hle, -⟩ := decrypt_eq_exhausted_iff.1 h
  cases hb : decodeBase64 line with
  | error e =>
      rw [hb] at hok
      cases hok
  | ok bytes => exact decrypt_of_le hb hle

theorem encrypt_fails_iff {s : SessionCipher} {line : String} :
    (∃ e, (s.encrypt line).1 = .error e) ↔ s.maxLines.toNat ≤ s.linesSent := by
  rcases Nat.lt_or_ge s.linesSent s.maxLines.toNat with hlt | hle
  · rw [encrypt_of_lt hlt]
    constructor
    · rintro ⟨e, h⟩
      cases h
    · intro hle
      exact absurd hlt (Nat.not_lt.2 hle)
  · rw [encrypt_of_le hle]
    exact ⟨fun _ => hle, fun _ => ⟨_, rfl⟩⟩

/-- **The counts of a cipher**, whatever it is asked to do. -/
theorem countsLines (session : SessionKey) (role : Role) (mode : KeystreamMode)
    (maxLines : UInt64) (calls : List CipherCall) :
    (start session role mode maxLines).CountsLines calls := by
  have hrun : ∀ calls, (start session role mode maxLines).run calls =
      capped session role mode maxLines (calls.countP CipherCall.isEncrypt)
        (calls.countP CipherCall.isReadable) := run_start
  have hsent : ((start session role mode maxLines).run calls).linesSent =
      min maxLines.toNat (calls.countP CipherCall.isEncrypt) := by rw [hrun]; rfl
  have hreceived : ((start session role mode maxLines).run calls).linesReceived =
      min maxLines.toNat (calls.countP CipherCall.isReadable) := by rw [hrun]; rfl
  have hlimit : ((start session role mode maxLines).run calls).maxLines = maxLines := by
    rw [hrun]
    rfl
  have hlt : maxLines.toNat < UInt64.size := maxLines.toNat_lt_size
  refine
    { linesSent_eq := hsent
      linesReceived_eq := hreceived
      encrypt_fails_iff := fun line => ?_
      encrypt_of_fails := fun line e he => ?_
      decrypt_exhausted_iff := fun line hok => ?_
      decrypt_of_exhausted := fun line limit he => ?_
      encrypt_alone := fun line => ?_
      decrypt_alone := fun line => ?_
      linesSent_lt := by omega
      linesReceived_lt := by omega }
  · change _ ↔ _ = maxLines.toNat
    rw [encrypt_fails_iff, hlimit]
    omega
  · have hle := encrypt_fails_iff.1 ⟨e, he⟩
    rw [encrypt_of_le hle, hlimit]
    rfl
  · change _ ↔ _ = maxLines.toNat
    simp only [decrypt_eq_exhausted_iff, hlimit, hok, true_and, exists_and_left, exists_eq,
      and_true]
    omega
  · rw [decrypt_of_exhausted he, hlimit]
    rfl
  · rw [hrun, hrun, countP_filter_isEncrypt]
    exact fst_encrypt_capped _ line
  · rw [hrun, hrun, countP_filter_isReadable]
    exact fst_decrypt_capped _ line

end SessionCipher

end LineChat
