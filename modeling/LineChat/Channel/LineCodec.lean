/-
**Encrypted lines.**

An encrypted channel is a line framing and a cipher: every line is decrypted as soon as it was
taken from the buffer, and encrypted before it is written.  A line that cannot be decrypted, or is
not text, is a broken line.  What becomes of broken lines is a policy: they are returned as errors,
or skipped and counted.  No other error is ever skipped.

Main definitions:

* `LineChat.BrokenPolicy` — what becomes of broken lines;
* `LineChat.LineCodec` — framing, cipher, policy and the number of skipped lines;
* `LineChat.LineCodec.decode` — **the next plaintext line of a buffer**;
* `LineChat.LineCodec.encode` — **the bytes that a plaintext line becomes**.
-/

import LineChat.Channel.Cipher
import LineChat.Channel.Framing

set_option autoImplicit false

namespace LineChat

/-- **What becomes of broken lines.** -/
inductive BrokenPolicy where
  /-- They are skipped and counted. -/
  | drop
  /-- They are returned as errors. -/
  | fail
  deriving DecidableEq, Repr

/-- A policy as diagnostics show it. -/
def BrokenPolicy.debug : BrokenPolicy → String
  | drop => "Drop"
  | fail => "Fail"

/-- **Encrypted lines**: a framing, a cipher, a policy and the number of lines skipped so far. -/
structure LineCodec (σ : Type) where
  framing : Framing := {}
  cipher : σ
  policy : BrokenPolicy
  dropped : Nat := 0

namespace LineCodec

variable {σ τ : Type}

/-- The same lines under another cipher, which keeps framing, policy and count. -/
def withCipher (c : LineCodec σ) (cipher : τ) : LineCodec τ :=
  { framing := c.framing, cipher, policy := c.policy, dropped := c.dropped }

/-- **Applies the policy to a line error**: `ok` means that the line is skipped. -/
def absorb (c : LineCodec σ) (e : LineError) : Except LineError Unit × LineCodec σ :=
  if c.policy = .drop ∧ e.isBrokenMessage then (.ok (), { c with dropped := c.dropped + 1 })
  else (.error e, c)

/-- The error of a line that is not text. -/
def notTextError : LineError :=
  .brokenMessage "line is not utf-8: Unable to decode input as UTF8"

variable [LineCipher σ]

/-- **What a taken frame comes to**: a result to return, or nothing if the line is skipped and the
next one is to be read. -/
def accept (c : LineCodec σ) (frame : Frame) :
    Option (Except LineError (Option String)) × LineCodec σ :=
  let skip (r : Except LineError Unit × LineCodec σ) :=
    match r with
    | (.ok (), c) => (none, c)
    | (.error e, c) => (some (.error e), c)
  match frame with
  | .incomplete => (some (.ok none), c)
  | .tooLong => (some (.error (.lineTooLong maxLineLength)), c)
  | .notText => skip (c.absorb notTextError)
  | .line text =>
      match LineCipher.decrypt c.cipher text with
      | (.ok plaintext, cipher) => (some (.ok (some plaintext)), { c with cipher })
      | (.error e, cipher) => skip ({ c with cipher }.absorb e)

theorem isTaken_of_accept_eq_none {c : LineCodec σ} {frame : Frame}
    (h : (c.accept frame).1 = none) : frame.isTaken = true := by
  cases frame with
  | incomplete => simp [accept] at h
  | tooLong => simp [accept] at h
  | notText => rfl
  | line text => rfl

/-- **The next plaintext line of a buffer**, skipping broken lines as the policy says; what is left
of the buffer comes back with the result. -/
def decode (c : LineCodec σ) (ended : Bool) (buffer : Bytes) :
    Except LineError (Option String) × LineCodec σ × Bytes :=
  match _hs : c.framing.step ended buffer with
  | (frame, framing, rest) =>
      match _ha : { c with framing }.accept frame with
      | (some result, next) => (result, next, rest)
      | (none, next) => next.decode ended rest
termination_by buffer.length
decreasing_by
  have ht : frame.isTaken = true := isTaken_of_accept_eq_none (by rw [_ha])
  have hlt := @Framing.length_step_lt c.framing ended buffer
    (by rw [_hs]; exact ht)
  rw [_hs] at hlt
  exact hlt

/-- Whether a text is not a single line. -/
def hasLineEnd (line : String) : Bool := line.toList.any fun c => c = '\n' ∨ c = '\r'

/-- Whether the ciphertext of a line is known to be too long before encrypting it. -/
def isTooLong (cipher : σ) (line : String) : Bool :=
  match LineCipher.ciphertextLength? cipher (Text.utf8 line).length with
  | some n => maxLineLength < n
  | none => false

/-- **The bytes that a plaintext line becomes**, none if it is skipped.  A line that is too long is
refused before it is encrypted, which would use up a line number that the peer never sees. -/
def encode (c : LineCodec σ) (line : String) : Except LineError Bytes × LineCodec σ :=
  if hasLineEnd line then (.error (.invalidArgument "line contains a line terminator"), c)
  else if isTooLong c.cipher line then (.error (.lineTooLong maxLineLength), c)
  else match LineCipher.encrypt c.cipher line with
    | (.ok ciphertext, cipher) =>
        if maxLineLength < (Text.utf8 ciphertext).length then
          (.error (.lineTooLong maxLineLength), { c with cipher })
        else (.ok (frameLine ciphertext), { c with cipher })
    | (.error e, cipher) =>
        match { c with cipher }.absorb e with
        | (.ok (), c) => (.ok [], c)
        | (.error e, c) => (.error e, c)

end LineCodec

end LineChat
