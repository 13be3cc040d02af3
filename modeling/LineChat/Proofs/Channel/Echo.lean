/-
**Writing back what was read.**

A side that echoes writes every line that it has read.  A line that was read is never too long to be
written: its ciphertext has the length of the one that it came in, and that one was taken from the
wire.  But it need not be a line.  Whoever seals a text decides on every byte of it, and nothing on
the way in looks for line ends, which are only refused on the way out.  So a text with a line feed
in it can be read, and then not written back.

Main definitions:

* `LineChat.WritesBack` — what becomes of a text that is written back.

Main results:

* `LineChat.LineCodec.exists_decode_iff` — **what can be read** is any text that is not too long;
* `LineChat.LineCodec.writes_back` — **what was read is written back**, unless it has a line end;
* `LineChat.LineCodec.not_forall_line` — what was read may have one.
-/

import LineChat.Proofs.Channel.SessionLine

set_option autoImplicit false

namespace LineChat

/-- **What becomes of a text that a codec is to write back.** -/
structure WritesBack (c : LineCodec SessionCipher) (text : String) : Prop where
  /-- The text is not too long. -/
  fits : Base64.encodedLength (Text.utf8 text).length ≤ maxLineLength
  /-- If it is a line, it is written, and counted, as long as the key may protect one more. -/
  written : LineCodec.hasLineEnd text = false → c.cipher.linesSent < c.cipher.maxLines.toNat →
    c.encode text =
      (.ok (frameLine (Base64.encode (c.cipher.applyFrom c.cipher.nextOut (Text.utf8 text)))),
        { c with cipher := c.cipher.countOut })
  /-- If it is a line and the key may not, the codec says so and stays as it is. -/
  exhausted : LineCodec.hasLineEnd text = false → c.cipher.maxLines.toNat ≤ c.cipher.linesSent →
    c.encode text = (.error (.keystreamExhausted c.cipher.maxLines.toNat), c)
  /-- If it is no line, it is refused, and the codec stays as it is. -/
  refused : LineCodec.hasLineEnd text = true →
    c.encode text = (.error (.invalidArgument "line contains a line terminator"), c)

/-- **Below the limit any text can be read**, off a line that is as long as it is to be. -/
theorem SessionCipher.exists_decrypt_encode {s : SessionCipher}
    (h : s.linesReceived < s.maxLines.toNat) (text : String) :
    ∃ bytes : Bytes, s.decrypt (Base64.encode bytes) = (.ok text, s.countIn) ∧
      bytes.length = (Text.utf8 text).length := by
  refine ⟨s.applyFrom s.nextIn (Text.utf8 text), ?_, ?_⟩
  · rw [decrypt_of_lt (decodeBase64_encode _) h, applyFrom, applyFrom, CounterMode.apply_apply,
      decodeUtf8_utf8]
  · rw [applyFrom, CounterMode.length_apply]

namespace LineCodec

variable {c c' : LineCodec SessionCipher} {text : String} {ended : Bool} {b rest : Bytes}

/-- **A text that is not too long** is written unless it is no line, or the key is used up. -/
theorem writesBack_of_fits (hshort : Base64.encodedLength (Text.utf8 text).length ≤ maxLineLength) :
    WritesBack c text where
  fits := hshort
  written hend hlt := encode_of_lt hend hshort hlt
  exhausted hend hle := encode_of_le hend hshort hle
  refused hend := encode_of_hasLineEnd hend

/-- **A text that was read is not too long** to be written. -/
theorem fits_of_decode (h : c.decode ended b = (.ok (some text), c', rest)) :
    Base64.encodedLength (Text.utf8 text).length ≤ maxLineLength := by
  obtain ⟨cipher, line, hlen, hdecrypt⟩ := exists_decrypt_of_decode h
  rwa [SessionCipher.length_of_decrypt hdecrypt] at hlen

/-- **What can be read** is any text that is not too long, line ends or not. -/
theorem exists_decode_iff (hlt : c.cipher.linesReceived < c.cipher.maxLines.toNat) :
    (∃ ended b c' rest, c.decode ended b = (.ok (some text), c', rest)) ↔
      Base64.encodedLength (Text.utf8 text).length ≤ maxLineLength := by
  constructor
  · rintro ⟨ended, b, c', rest, h⟩
    exact fits_of_decode h
  · intro hshort
    obtain ⟨bytes, hdecrypt, hlength⟩ := SessionCipher.exists_decrypt_encode hlt text
    rw [← hlength, ← Base64.length_encodeBytes] at hshort
    have hline := Framing.nextLine_line (lineFeed_notMem_encodeBytes bytes) hshort []
    rw [Frame.ofLine_encodeBytes] at hline
    -- a line that is being skipped has to end first
    obtain ⟨b, hs⟩ : ∃ b, c.framing.step false b = (.line (Base64.encode bytes), ⟨false⟩, []) := by
      rcases hf : c.framing with ⟨skipping⟩
      cases skipping with
      | false => exact ⟨_, hline⟩
      | true =>
          refine ⟨[] ++ lineFeed :: (Base64.encodeBytes bytes ++ [lineFeed]), ?_⟩
          rw [Framing.step_false, Framing.next_skipping_line List.not_mem_nil]
          exact hline
    exact ⟨false, b, _, [], decode_of_accept_some hs
      (accept_line_of_ok (c := { c with framing := ⟨false⟩ }) hdecrypt)⟩

/-- **What was read is written back** by any codec, unless it has a line end or the key of that
codec is used up. -/
theorem writes_back (h : c.decode ended b = (.ok (some text), c', rest))
    (d : LineCodec SessionCipher) : WritesBack d text :=
  writesBack_of_fits (fits_of_decode h)

/-- A fresh codec reads the first line of its peer. -/
theorem decode_first (session : SessionKey) (policy : BrokenPolicy) (text : String)
    (hshort : Base64.encodedLength (Text.utf8 text).length ≤ maxLineLength) :
    LineCodec.decode { cipher := SessionCipher.start session .responder .sequenced 8, policy }
        false (frameLine (sealLine session .sequenced .initiator 0 text)) =
      (.ok (some text),
        { cipher := SessionCipher.counted session .responder .sequenced 8 0 1, policy }, []) := by
  have hlen := hshort
  rw [← length_sealLine session .sequenced .initiator 0] at hlen
  exact decode_line (r := .ok text) rfl
    (lineFeed_notMem_sealLine session .sequenced .initiator 0 text) hlen
    (@accept_sealLine session .initiator .sequenced 8 0 0 _ rfl (by decide) text) []

/-- A greeting that was read is written back. -/
theorem writes_back_hello :
    let session : SessionKey := ⟨Vector.replicate 32 7, Vector.replicate 16 255⟩
    let c : LineCodec SessionCipher :=
      { cipher := SessionCipher.start session .responder .sequenced 8, policy := .drop }
    let c' : LineCodec SessionCipher :=
      { cipher := SessionCipher.counted session .responder .sequenced 8 0 1, policy := .drop }
    c.decode false (frameLine (sealLine session .sequenced .initiator 0 "hello")) =
        (.ok (some "hello"), c', []) ∧ WritesBack c' "hello" := by
  intro session c c'
  have h := decode_first session .drop "hello" (by decide)
  exact ⟨h, writes_back h c'⟩

/-- **What was read need not be a line**: a line feed is read like any other text. -/
theorem not_forall_line : ¬ ∀ (c c' : LineCodec SessionCipher) (ended : Bool) (b rest : Bytes)
    (text : String), c.decode ended b = (.ok (some text), c', rest) → hasLineEnd text = false := by
  intro h
  have hread := decode_first ⟨Vector.replicate 32 7, Vector.replicate 16 255⟩ .drop "\n"
    (by decide)
  exact absurd (h _ _ _ _ _ _ hread) (by decide)

end LineCodec

end LineChat
