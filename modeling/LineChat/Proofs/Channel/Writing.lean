/-
**A line is written whole or not at all.**

A line that is written becomes its ciphertext and one line feed behind what was written before.  A
line that is not written leaves no byte behind, and of a codec nothing but its cipher can have
changed, and the count of skipped lines if the line was skipped.

The cipher of a session does not change either.  It tells how long a ciphertext is going to be
before there is one, so a line that is too long is refused before it takes a number, and the look at
the ciphertext itself never finds one.  So no number is used up by a line that the peer does not
see.

Main definitions:

* `LineChat.SealsLines` — ciphers whose ciphertexts are lines;
* `LineChat.Unwritten` — why a line is refused, and the cipher then;
* `LineChat.Writes` — **what writing a line comes to**;
* `LineChat.Endpoint.CanWrite` — when a line of a session can be written;
* `LineChat.WritesCounted` — what writing a line of a session comes to.

Main results:

* `LineChat.Endpoint.writes_write` — every line is written whole, skipped, or refused;
* `LineChat.length_le_of_encrypt` — in a session the look at the ciphertext finds nothing;
* `LineChat.Writes.counted` — so there a line takes a number if and only if it is written;
* `LineChat.Endpoint.writes_whole_or_nothing` — **both, for the ciphers of a connection**.
-/

import LineChat.Channel.Endpoint
import LineChat.Channel.EnvelopeCipher
import LineChat.Proofs.Channel.SessionLine

set_option autoImplicit false

namespace LineChat

open LineCodec

/-! ### Ciphertexts -/

/-- **A cipher whose ciphertexts are lines.** -/
class SealsLines (σ : Type) [LineCipher σ] : Prop where
  hasLineEnd_of_encrypt : ∀ {cipher cipher' : σ} {line ciphertext : String},
    LineCipher.encrypt cipher line = (.ok ciphertext, cipher') → hasLineEnd ciphertext = false

instance : SealsLines SessionCipher where
  hasLineEnd_of_encrypt {cipher _ line _} h := by
    rcases Nat.lt_or_ge cipher.linesSent cipher.maxLines.toNat with hlt | hle
    · cases (SessionCipher.encrypt_of_lt hlt line).symm.trans h
      exact hasLineEnd_encode _
    · cases (SessionCipher.encrypt_of_le hle line).symm.trans h

instance : SealsLines EnvelopeCipher where
  hasLineEnd_of_encrypt {cipher _ line _} h := by
    replace h : cipher.encrypt line = _ := h
    unfold EnvelopeCipher.encrypt at h
    split at h
    · cases h
    · split at h
      · cases h
      · cases h
        exact hasLineEnd_encode _

/-! ### What writing a line comes to -/

section

variable {σ : Type} [LineCipher σ]

/-- **Why a line is refused**, and the cipher then. -/
inductive Unwritten (c : LineCodec σ) (line : String) : LineError → σ → Prop
  /-- It is not a single line. -/
  | notLine (hend : hasLineEnd line = true) :
      Unwritten c line (.invalidArgument "line contains a line terminator") c.cipher
  /-- Its ciphertext is known to be too long. -/
  | tooLong (hend : hasLineEnd line = false) (hlong : isTooLong c.cipher line = true) :
      Unwritten c line (.lineTooLong maxLineLength) c.cipher
  /-- Its ciphertext turns out to be too long. -/
  | overlong {ciphertext : String} {cipher : σ} (hend : hasLineEnd line = false)
      (hfits : isTooLong c.cipher line = false)
      (hencrypt : LineCipher.encrypt c.cipher line = (.ok ciphertext, cipher))
      (hlong : maxLineLength < (Text.utf8 ciphertext).length) :
      Unwritten c line (.lineTooLong maxLineLength) cipher
  /-- It cannot be encrypted, and is not to be skipped. -/
  | notEncrypted {err : LineError} {cipher : σ} (hend : hasLineEnd line = false)
      (hfits : isTooLong c.cipher line = false)
      (hencrypt : LineCipher.encrypt c.cipher line = (.error err, cipher))
      (hkept : ¬ (c.policy = .drop ∧ err.isBrokenMessage = true)) : Unwritten c line err cipher

/-- **What writing a line comes to** at an endpoint that encrypts its lines. -/
inductive Writes (e : Endpoint (LineCodec σ)) (line : String) :
    Except LineError Bytes × Endpoint (LineCodec σ) → Prop
  /-- The ciphertext goes out whole, and a line feed behind it. -/
  | sent {ciphertext : String} {cipher : σ} (hend : hasLineEnd line = false)
      (hfits : isTooLong e.format.cipher line = false)
      (hencrypt : LineCipher.encrypt e.format.cipher line = (.ok ciphertext, cipher))
      (hsealed : hasLineEnd ciphertext = false)
      (hlen : (Text.utf8 ciphertext).length ≤ maxLineLength) :
      Writes e line (.ok (Text.utf8 ciphertext ++ [lineFeed]),
        { e with
          format := { e.format with cipher }
          output := e.output ++ (Text.utf8 ciphertext ++ [lineFeed]) })
  /-- A broken line is skipped and counted, if that is the policy. -/
  | skipped {detail : String} {cipher : σ} (hpolicy : e.format.policy = .drop)
      (hencrypt : LineCipher.encrypt e.format.cipher line =
        (.error (.brokenMessage detail), cipher)) :
      Writes e line (.ok [],
        { e with format := { e.format with cipher, dropped := e.format.dropped + 1 } })
  /-- Any other line is refused. -/
  | refused {err : LineError} {cipher : σ} (hrefusal : Unwritten e.format line err cipher) :
      Writes e line (.error err, { e with format := { e.format with cipher } })

namespace Endpoint

variable {e : Endpoint (LineCodec σ)} {line : String} {c : LineCodec σ}

theorem write_of_ok {bytes : Bytes} (h : e.format.encode line = (.ok bytes, c)) :
    e.write line = (.ok bytes, { e with format := c, output := e.output ++ bytes }) := by
  simp only [write, LineFormat.encode, h]

theorem write_of_error {err : LineError} (h : e.format.encode line = (.error err, c)) :
    e.write line = (.error err, { e with format := c }) := by
  simp only [write, LineFormat.encode, h]

/-- **Every line is written whole, skipped, or refused.** -/
theorem writes_write [SealsLines σ] (e : Endpoint (LineCodec σ)) (line : String) :
    Writes e line (e.write line) := by
  cases hend : hasLineEnd line with
  | true =>
      rw [write_of_error (encode_of_hasLineEnd hend)]
      exact .refused (.notLine hend)
  | false =>
  cases hfits : isTooLong e.format.cipher line with
  | true =>
      rw [write_of_error (encode_of_isTooLong hend hfits)]
      exact .refused (.tooLong hend hfits)
  | false =>
  rcases hencrypt : LineCipher.encrypt e.format.cipher line with ⟨err | ciphertext, cipher⟩
  · by_cases hskip : e.format.policy = .drop ∧ err.isBrokenMessage = true
    · rw [write_of_ok (encode_of_skipped hend hfits hencrypt hskip), List.append_nil]
      obtain ⟨hpolicy, hbroken⟩ := hskip
      cases err with
      | brokenMessage detail => exact .skipped hpolicy hencrypt
      | _ => cases hbroken
    · rw [write_of_error (encode_of_not_encrypted hend hfits hencrypt hskip)]
      exact .refused (.notEncrypted hend hfits hencrypt hskip)
  · rcases Nat.lt_or_ge maxLineLength (Text.utf8 ciphertext).length with hlong | hlen
    · rw [write_of_error (encode_of_overlong hend hfits hencrypt hlong)]
      exact .refused (.overlong hend hfits hencrypt hlong)
    · rw [write_of_ok (encode_of_encrypted hend hfits hencrypt hlen)]
      exact .sent hend hfits hencrypt (SealsLines.hasLineEnd_of_encrypt hencrypt) hlen

end Endpoint

end

/-! ### Lines of a session -/

section

variable {e : Endpoint (LineCodec SessionCipher)} {line : String}
  {r : Except LineError Bytes × Endpoint (LineCodec SessionCipher)}

/-- **When a line of a session can be written**: it is a single line, it is short enough, and the
key has not protected as many lines as it may. -/
def Endpoint.CanWrite (e : Endpoint (LineCodec SessionCipher)) (line : String) : Prop :=
  hasLineEnd line = false ∧ 4 * (((Text.utf8 line).length + 2) / 3) ≤ maxLineLength ∧
    e.format.cipher.linesSent < e.format.cipher.maxLines.toNat

/-- **What writing a line of a session comes to.** -/
structure WritesCounted (e : Endpoint (LineCodec SessionCipher)) (line : String)
    (r : Except LineError Bytes × Endpoint (LineCodec SessionCipher)) : Prop where
  ok_iff : (∃ bytes, r.1 = .ok bytes) ↔ e.CanWrite line
  /-- The ciphertext has the length that was known before, and the line takes one number. -/
  of_ok : ∀ bytes, r.1 = .ok bytes →
    (∃ ciphertext, bytes = Text.utf8 ciphertext ++ [lineFeed] ∧
      LineCipher.ciphertextLength? e.format.cipher (Text.utf8 line).length =
        some (Text.utf8 ciphertext).length) ∧
    r.2.format.cipher.linesSent = e.format.cipher.linesSent + 1 ∧
    r.2 = { e with
      format := { e.format with cipher := e.format.cipher.countOut }
      output := e.output ++ bytes }
  /-- A line that is refused takes none, and changes nothing at all. -/
  of_error : ∀ err, r.1 = .error err → r.2 = e

theorem isTooLong_eq_false_iff_le {cipher : SessionCipher} :
    isTooLong cipher line = false ↔ 4 * (((Text.utf8 line).length + 2) / 3) ≤ maxLineLength := by
  rw [isTooLong_eq_false_iff, Base64.encodedLength, Nat.mul_comm]

theorem WritesCounted.of_not_canWrite {err : LineError} (h : ¬ e.CanWrite line) :
    WritesCounted e line (.error err, e) where
  ok_iff := ⟨fun ⟨_, hok⟩ => (by cases hok), fun hcan => absurd hcan h⟩
  of_ok _ hok := by cases hok
  of_error _ _ := rfl

/-- The look at the ciphertext finds none that is too long. -/
theorem length_le_of_encrypt {cipher cipher' : SessionCipher} {ciphertext : String}
    (hfits : isTooLong cipher line = false)
    (hencrypt : cipher.encrypt line = (.ok ciphertext, cipher')) :
    (Text.utf8 ciphertext).length ≤ maxLineLength := by
  rw [(SessionCipher.of_encrypt_eq_ok hencrypt).2.2]
  exact isTooLong_eq_false_iff.1 hfits

/-- **A line of a session takes a number if and only if it is written.** -/
theorem Writes.counted (h : Writes e line r) : WritesCounted e line r := by
  cases h with
  | sent hend hfits hencrypt hsealed hlen =>
      obtain ⟨hlt, rfl, hlength⟩ := SessionCipher.of_encrypt_eq_ok hencrypt
      refine ⟨⟨fun _ => ⟨hend, isTooLong_eq_false_iff_le.1 hfits, hlt⟩, fun _ => ⟨_, rfl⟩⟩, ?_,
        fun _ herr => by cases herr⟩
      rintro _ ⟨⟩
      exact ⟨⟨_, rfl, congrArg some hlength.symm⟩, rfl, rfl⟩
  | skipped _ hencrypt =>
      -- the only error of the cipher is not one that is skipped
      cases (SessionCipher.of_encrypt_eq_error hencrypt).2.1
  | refused hrefusal =>
      cases hrefusal with
      | notLine hend =>
          refine .of_not_canWrite fun hcan => ?_
          rw [hcan.1] at hend
          cases hend
      | tooLong _ hlong =>
          refine .of_not_canWrite fun hcan => ?_
          rw [isTooLong_eq_false_iff_le.2 hcan.2.1] at hlong
          cases hlong
      | overlong _ hfits hencrypt hlong =>
          exact absurd (length_le_of_encrypt hfits hencrypt) (Nat.not_le.2 hlong)
      | notEncrypted _ _ hencrypt _ =>
          obtain ⟨hle, rfl, rfl⟩ := SessionCipher.of_encrypt_eq_error hencrypt
          exact .of_not_canWrite fun hcan => Nat.not_lt.2 hle hcan.2.2

end

/-- **A line is written whole or not at all**, in envelopes and in a session; in a session it takes
a number if and only if it is written. -/
theorem Endpoint.writes_whole_or_nothing :
    (∀ (e : Endpoint (LineCodec EnvelopeCipher)) line, Writes e line (e.write line)) ∧
    (∀ (e : Endpoint (LineCodec SessionCipher)) line,
      Writes e line (e.write line) ∧ WritesCounted e line (e.write line)) :=
  ⟨writes_write, fun e line => ⟨writes_write e line, (writes_write e line).counted⟩⟩

end LineChat
