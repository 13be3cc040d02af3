/-
**Envelopes and their sizes.**

A message is put in an envelope exactly if it fits the key, and an envelope is as long as the key.
No key that envelopes are made for is so long that one could not be written as a line.

Main results:

* `LineChat.PublicKey.takes_iff` — **what fits a key**;
* `LineChat.PublicKey.exists_seal?`, `LineChat.PublicKey.seal?_eq_none` — what comes of it;
* `LineChat.PublicKey.length_encodeBytes_le` — an envelope can be written as a line.
-/

import LineChat.Channel.Framing
import LineChat.Key.Rsa
import LineChat.Proofs.Text.Base64

set_option autoImplicit false

namespace LineChat

theorem Oaep.fits_iff {k length : Nat} : fits k length = true ↔ length + 66 ≤ k := by
  rw [fits, decide_eq_true_iff]
  rfl

namespace PublicKey

variable {k : PublicKey} {seed : Oaep.Seed} {message envelope : Bytes}

/-- **What fits a key.** -/
theorem takes_iff {length : Nat} :
    k.takes length = true ↔ k.bits ≤ maxBits ∧ length + 66 ≤ k.size := by
  rw [takes, Bool.and_eq_true, decide_eq_true_iff, Oaep.fits_iff]

theorem exists_seal? (seed : Oaep.Seed) (h : k.takes message.length = true) :
    ∃ envelope, k.seal? seed message = some envelope := by
  rw [seal?, if_pos h]
  exact ⟨_, rfl⟩

theorem seal?_eq_none (seed : Oaep.Seed) (h : ¬ k.takes message.length = true) :
    k.seal? seed message = none := by
  rw [seal?, if_neg h]

theorem takes_of_seal? (h : k.seal? seed message = some envelope) :
    k.takes message.length = true := by
  by_cases hfits : k.takes message.length = true
  · exact hfits
  · rw [seal?_eq_none seed hfits] at h
    cases h

theorem length_of_seal? (h : k.seal? seed message = some envelope) : envelope.length = k.size := by
  rw [seal?, if_pos (takes_of_seal? h)] at h
  cases h
  exact Bytes.length_ofNat _ _

/-- **An envelope can be written as a line.** -/
theorem length_encodeBytes_le (h : k.seal? seed message = some envelope) :
    (Base64.encodeBytes envelope).length ≤ maxLineLength := by
  have hbits := (takes_iff.1 (takes_of_seal? h)).1
  have hsize : k.size ≤ 512 := by
    rw [size]
    rw [maxBits] at hbits
    omega
  rw [Base64.length_encodeBytes, length_of_seal? h, Base64.encodedLength, maxLineLength]
  omega

end PublicKey

end LineChat
