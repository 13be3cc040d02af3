/-
**Lines in envelopes come out as they went in.**

A line is put in an envelope exactly if its bytes and the overhead of the padding fit the modulus of
the peer's key, which has no more than 4096 bits.  The envelope is then as long as the modulus,
whatever it was padded with, and the holder of the other half of the key takes the very line out of
it.  Whoever has no key for a direction is told so for every line, since the key is asked for first.

Main definitions:

* `LineChat.PrivateKey.CarriesLines` — **what a key pair does for lines**;
* `LineChat.EnvelopeCipher.NeedsKeys` — what a cipher says that has no key.

Main results:

* `LineChat.EnvelopeCipher.encrypt_of_fits`, `LineChat.EnvelopeCipher.encrypt_of_not_fits` — what
  encrypting a line comes to;
* `LineChat.EnvelopeCipher.lines_come_back` — **every key pair carries lines**.
-/

import LineChat.Proofs.Channel.EnvelopeCipher
import LineChat.Proofs.Key.RoundTrip

set_option autoImplicit false

namespace LineChat

namespace EnvelopeCipher

variable {c : EnvelopeCipher} {key : PublicKey} {line sealed : String}

/-! ### Encrypting -/

/-- A line that fits is encrypted as an envelope for the key, and its seed is used up. -/
theorem encrypt_of_fits (hpeer : c.peer = some key)
    (htakes : key.takes (Text.utf8 line).length = true) :
    ∃ envelope, key.seal? (c.seeds 0) (Text.utf8 line) = some envelope ∧
      c.encrypt line =
        (.ok (Base64.encode envelope), { c with seeds := fun i => c.seeds (i + 1) }) := by
  obtain ⟨envelope, hseal⟩ := PublicKey.exists_seal? (c.seeds 0) htakes
  refine ⟨envelope, hseal, ?_⟩
  unfold encrypt
  simp only [hpeer, hseal]

/-- A line that does not fit is refused, and nothing is used up. -/
theorem encrypt_of_not_fits (hpeer : c.peer = some key)
    (htakes : ¬ key.takes (Text.utf8 line).length = true) :
    c.encrypt line = (.error (.brokenMessage s!"rsa encryption: {key.refusal}"), c) := by
  have hseal := PublicKey.seal?_eq_none (c.seeds 0) htakes
  unfold encrypt
  simp only [hpeer, hseal]

/-- What was encrypted is an envelope for the key. -/
theorem exists_seal?_of_encrypt (hpeer : c.peer = some key)
    (h : (c.encrypt line).1 = .ok sealed) :
    ∃ envelope, key.seal? (c.seeds 0) (Text.utf8 line) = some envelope ∧
      sealed = Base64.encode envelope := by
  by_cases htakes : key.takes (Text.utf8 line).length = true
  · obtain ⟨envelope, hseal, hencrypt⟩ := encrypt_of_fits hpeer htakes
    rw [hencrypt] at h
    cases h
    exact ⟨envelope, hseal, rfl⟩
  · rw [encrypt_of_not_fits hpeer htakes] at h
    cases h

/-! ### Without a key -/

/-- **What a cipher says that has no key** for a direction: the same for every line. -/
structure NeedsKeys (c : EnvelopeCipher) : Prop where
  encrypt_of_peer : c.peer = none →
    ∀ line, c.encrypt line = (.error (.invalidKey "no encryption key set"), c)
  decrypt_of_own : c.own = none →
    ∀ line, c.decrypt line = (.error (.invalidKey "no decryption key set"), c)

theorem needsKeys (c : EnvelopeCipher) : c.NeedsKeys where
  encrypt_of_peer hpeer line := by
    unfold encrypt
    simp only [hpeer]
  decrypt_of_own hown line := by
    unfold decrypt
    simp only [hown]

end EnvelopeCipher

/-! ### Key pairs -/

/-- **What a key pair does for lines**, whoever writes them to the one half of it and whoever reads
them with the other one. -/
structure PrivateKey.CarriesLines (key : PrivateKey) : Prop where
  /-- The size is the number of bytes of the modulus. -/
  pow_le_modulus : 0 < key.toPublic.size → 256 ^ (key.toPublic.size - 1) ≤ key.modulus
  modulus_lt_pow : key.modulus < 256 ^ key.toPublic.size
  /-- A line is encrypted exactly if it fits, and is a broken message otherwise.  Under a key that
  is too long no line is. -/
  encrypts_iff : ∀ (c : EnvelopeCipher) (line : String), c.peer = some key.toPublic →
    ((∃ sealed, (c.encrypt line).1 = .ok sealed) ↔
      key.toPublic.bits ≤ PublicKey.maxBits ∧ (Text.utf8 line).length + 66 ≤ key.toPublic.size)
  refuses : ∀ (c : EnvelopeCipher) (line : String), c.peer = some key.toPublic →
    ¬ (key.toPublic.bits ≤ PublicKey.maxBits ∧
        (Text.utf8 line).length + 66 ≤ key.toPublic.size) →
      ∃ detail, c.encrypt line = (.error (.brokenMessage detail), c)
  /-- What it is encrypted to is the base64 of as many bytes as the modulus has. -/
  envelope : ∀ (c : EnvelopeCipher) (line sealed : String), c.peer = some key.toPublic →
    (c.encrypt line).1 = .ok sealed →
      ∃ envelope : Bytes, envelope.length = key.toPublic.size ∧ sealed = Base64.encode envelope
  /-- Whoever has the private key gets the line back. -/
  decrypts : ∀ (writer reader : EnvelopeCipher) (line sealed : String),
    writer.peer = some key.toPublic → reader.own = some key →
      (writer.encrypt line).1 = .ok sealed → reader.decrypt sealed = (.ok line, reader)

/-- **Every key pair carries lines**, of any size and with any seeds, and a cipher that has no key
for a direction says so for every line. -/
theorem EnvelopeCipher.lines_come_back {key : PrivateKey} (hpair : key.IsPair) :
    key.CarriesLines ∧ ∀ c : EnvelopeCipher, c.NeedsKeys := by
  refine ⟨?_, needsKeys⟩
  refine
    { pow_le_modulus := fun hpos => PublicKey.pow_size_le hpos
      modulus_lt_pow := PublicKey.modulus_lt key.toPublic
      encrypts_iff := fun c line hpeer => ⟨?_, fun hfits => ?_⟩
      refuses := fun c line hpeer hfits =>
        ⟨_, encrypt_of_not_fits hpeer (mt PublicKey.takes_iff.1 hfits)⟩
      envelope := fun c line sealed hpeer h => ?_
      decrypts := fun writer reader line sealed hpeer hown h => ?_ }
  · rintro ⟨sealed, h⟩
    obtain ⟨envelope, hseal, -⟩ := exists_seal?_of_encrypt hpeer h
    exact PublicKey.takes_iff.1 (PublicKey.takes_of_seal? hseal)
  · obtain ⟨envelope, -, hencrypt⟩ := encrypt_of_fits hpeer (PublicKey.takes_iff.2 hfits)
    exact ⟨Base64.encode envelope, by rw [hencrypt]⟩
  · obtain ⟨envelope, hseal, hline⟩ := exists_seal?_of_encrypt hpeer h
    exact ⟨envelope, PublicKey.length_of_seal? hseal, hline⟩
  · obtain ⟨envelope, hseal, hline⟩ := exists_seal?_of_encrypt hpeer h
    have hopen := hpair.opens _ _ _ hseal
    exact (decrypt_eq_ok_iff hown).2 ⟨rfl, envelope, hline, hopen⟩

/-- A key of 141 bytes carries lines of 75 bytes and no longer ones. -/
theorem EnvelopeCipher.lines_come_back_shorter :
    PrivateKey.shorter.IsPair ∧ PrivateKey.shorter.CarriesLines ∧
      PrivateKey.shorter.toPublic.bits = 1128 ∧ PrivateKey.shorter.toPublic.size = 141 :=
  ⟨PrivateKey.isPair_shorter, (lines_come_back PrivateKey.isPair_shorter).1, by decide +kernel,
    by decide +kernel⟩

end LineChat
