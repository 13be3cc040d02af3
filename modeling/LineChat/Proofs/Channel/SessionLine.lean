/-
**The lines of a session on the wire.**

The cipher of one side of a session is known from the two numbers of lines it has counted, and line
`n` of a direction is always the same text on the wire, whoever else was talking in the meantime.
It is base64, so it has no line end in it and is taken from a buffer as it was written.

Main definitions:

* `LineChat.SessionCipher.counted` — the cipher of a side after some lines;
* `LineChat.sealLine` — **line `n` of a direction as it goes over the wire**.

Main results:

* `LineChat.SessionCipher.decrypt_sealLine` — **the peer reads what was written**;
* `LineChat.SessionCipher.decrypt_counted_eq_ok_iff` — and reads it from nothing else;
* `LineChat.LineCodec.accept_sealLine` — so does its codec;
* `LineChat.LineCodec.encode_of_lt`, `LineChat.LineCodec.encode_of_le` — **writing a line that
  fits** below the limit and at it;
* `LineChat.LineCodec.encode_counted_of_fits`, `LineChat.LineCodec.encode_counted` — what writing
  a line comes to: it is refused and changes nothing, or it has the next number.
-/

import LineChat.Proofs.Channel.LineCodec
import LineChat.Proofs.Channel.SessionCipher
import LineChat.Proofs.Text.Base64

set_option autoImplicit false

namespace LineChat

/-! ### Lines of base64 -/

/-- A line is text if it is the text without its carriage return. -/
theorem Frame.ofLine_of_dropReturn {line : Bytes} {text : String}
    (h : dropReturn line = Text.utf8 text) : Frame.ofLine line = .line text := by
  rw [Frame.ofLine, h, Text.ofUtf8_utf8]

theorem dropReturn_encodeBytes (bs : Bytes) :
    dropReturn (Base64.encodeBytes bs) = Base64.encodeBytes bs := by
  rw [dropReturn, if_neg]
  intro h
  exact absurd (Base64.printed_of_mem_encodeBytes (List.mem_of_getLast? h)).1 (by decide)

theorem lineFeed_notMem_encodeBytes (bs : Bytes) : lineFeed ∉ Base64.encodeBytes bs :=
  fun h => absurd (Base64.printed_of_mem_encodeBytes h).1 (by decide)

theorem Frame.ofLine_encodeBytes (bs : Bytes) :
    Frame.ofLine (Base64.encodeBytes bs) = .line (Base64.encode bs) :=
  Frame.ofLine_of_dropReturn (by rw [dropReturn_encodeBytes, Base64.utf8_encode])

/-- **Reading a line of base64**, whatever is behind it. -/
theorem Framing.decode_frameLine_encode {bs : Bytes}
    (hlen : (Base64.encodeBytes bs).length ≤ maxLineLength) (ended : Bool) (rest : Bytes) :
    ({} : Framing).decode ended (frameLine (Base64.encode bs) ++ rest) =
      (.ok (some (Base64.encode bs)), {}, rest) := by
  have hstep : ({} : Framing).step false (Base64.encodeBytes bs ++ lineFeed :: []) =
      (.line (Base64.encode bs), {}, []) := by
    rw [step_line rfl (lineFeed_notMem_encodeBytes bs) hlen, Frame.ofLine_encodeBytes]
  have hdecode := decode_append (decode_of_step hstep) nofun ended rest
  rw [frameLine, Base64.utf8_encode]
  exact hdecode

/-- A text in base64 is a single line. -/
theorem hasLineEnd_encode (bs : Bytes) : LineCodec.hasLineEnd (Base64.encode bs) = false := by
  rw [LineCodec.hasLineEnd, List.any_eq_false]
  intro c hc
  have hprinted := (Base64.printed_of_mem_encode hc).1
  rw [decide_eq_true_eq]
  rintro (rfl | rfl) <;> exact absurd hprinted (by decide)

@[simp] theorem decodeBase64_encode (bs : Bytes) : decodeBase64 (Base64.encode bs) = .ok bs := by
  rw [decodeBase64, Base64.decodeText_eq_ok_iff.2 rfl]

theorem eq_encode_of_decodeBase64 {text : String} {bs : Bytes} (h : decodeBase64 text = .ok bs) :
    text = Base64.encode bs := by
  rw [decodeBase64] at h
  split at h
  · rename_i hd
    cases h
    exact Base64.decodeText_eq_ok_iff.1 hd
  · cases h

@[simp] theorem decodeUtf8_utf8 (text : String) : decodeUtf8 (Text.utf8 text) = .ok text := by
  rw [decodeUtf8, Text.ofUtf8_utf8]

theorem decodeUtf8_eq_ok_iff {bs : Bytes} {text : String} :
    decodeUtf8 bs = .ok text ↔ bs = Text.utf8 text := by
  constructor
  · intro h
    rw [decodeUtf8] at h
    split at h
    · rename_i ht
      cases h
      exact (Text.utf8_of_ofUtf8 ht).symm
    · cases h
  · rintro rfl
    exact decodeUtf8_utf8 text

theorem decodeUtf8_cases (bs : Bytes) :
    (∃ text, decodeUtf8 bs = .ok text) ∨
      ∃ e, decodeUtf8 bs = .error e ∧ e.isBrokenMessage = true := by
  rw [decodeUtf8]
  split
  · exact Or.inl ⟨_, rfl⟩
  · exact Or.inr ⟨_, rfl, rfl⟩

theorem isBrokenMessage_of_decodeBase64 {text : String} {e : LineError}
    (h : decodeBase64 text = .error e) : e.isBrokenMessage = true := by
  rw [decodeBase64] at h
  split at h
  · cases h
  · cases h
    rfl

/-! ### The lines of a session -/

/-- **Line `n` of a direction as it goes over the wire.** -/
def sealLine (session : SessionKey) (mode : KeystreamMode) (sender : Role) (n : Nat)
    (text : String) : String :=
  Base64.encode (CounterMode.apply (Aes.encryptBlock (Aes.roundKeys session.key))
    (lineCounter mode (baseCounter mode session.iv sender) n) (Text.utf8 text))

theorem sealLine_injective {session : SessionKey} {mode : KeystreamMode} {sender : Role} {n : Nat}
    {text text' : String}
    (h : sealLine session mode sender n text = sealLine session mode sender n text') :
    text = text' := by
  have hbytes := congrArg (CounterMode.apply (Aes.encryptBlock (Aes.roundKeys session.key))
    (lineCounter mode (baseCounter mode session.iv sender) n)) (Base64.encode_injective h)
  rw [CounterMode.apply_apply, CounterMode.apply_apply] at hbytes
  exact Text.utf8_injective hbytes

section

variable (session : SessionKey) (mode : KeystreamMode) (sender : Role) (n : Nat) (text : String)

theorem length_sealLine :
    (Text.utf8 (sealLine session mode sender n text)).length =
      Base64.encodedLength (Text.utf8 text).length := by
  rw [sealLine, Base64.utf8_encode, Base64.length_encodeBytes, CounterMode.length_apply]

theorem lineFeed_notMem_sealLine : lineFeed ∉ Text.utf8 (sealLine session mode sender n text) := by
  rw [sealLine, Base64.utf8_encode]
  exact lineFeed_notMem_encodeBytes _

theorem ofLine_sealLine :
    Frame.ofLine (Text.utf8 (sealLine session mode sender n text)) =
      .line (sealLine session mode sender n text) := by
  rw [sealLine, Base64.utf8_encode]
  exact Frame.ofLine_encodeBytes _

end

namespace SessionCipher

/-- A line that is decrypted is as long as what its text is encrypted to. -/
theorem length_of_decrypt {s s' : SessionCipher} {line text : String}
    (h : s.decrypt line = (.ok text, s')) :
    (Text.utf8 line).length = Base64.encodedLength (Text.utf8 text).length := by
  cases hb : decodeBase64 line with
  | error e =>
      rw [decrypt_of_error hb] at h
      cases h
  | ok bytes =>
      rcases Nat.lt_or_ge s.linesReceived s.maxLines.toNat with hlt | hle
      · rw [decrypt_of_lt hb hlt] at h
        have htext := decodeUtf8_eq_ok_iff.1 (congrArg Prod.fst h)
        rw [eq_encode_of_decodeBase64 hb, Base64.utf8_encode, Base64.length_encodeBytes, ← htext,
          applyFrom, CounterMode.length_apply]
      · rw [decrypt_of_le hb hle] at h
        cases h

/-- A line is encrypted below the limit only, to a ciphertext of the length that is known before. -/
theorem of_encrypt_eq_ok {s s' : SessionCipher} {line ciphertext : String}
    (h : s.encrypt line = (.ok ciphertext, s')) :
    s.linesSent < s.maxLines.toNat ∧ s' = s.countOut ∧
      (Text.utf8 ciphertext).length = Base64.encodedLength (Text.utf8 line).length := by
  rcases Nat.lt_or_ge s.linesSent s.maxLines.toNat with hlt | hle
  · rw [encrypt_of_lt hlt] at h
    cases h
    refine ⟨hlt, rfl, ?_⟩
    rw [Base64.utf8_encode, Base64.length_encodeBytes, applyFrom, CounterMode.length_apply]
  · rw [encrypt_of_le hle] at h
    cases h

/-- A line is refused at the limit only, and changes nothing. -/
theorem of_encrypt_eq_error {s s' : SessionCipher} {line : String} {e : LineError}
    (h : s.encrypt line = (.error e, s')) :
    s.maxLines.toNat ≤ s.linesSent ∧ e = .keystreamExhausted s.maxLines.toNat ∧ s' = s := by
  rcases Nat.lt_or_ge s.linesSent s.maxLines.toNat with hlt | hle
  · rw [encrypt_of_lt hlt] at h
    cases h
  · rw [encrypt_of_le hle] at h
    cases h
    exact ⟨hle, rfl, rfl⟩

/-- **The cipher of one side of a session** after it encrypted and decrypted some lines. -/
def counted (session : SessionKey) (role : Role) (mode : KeystreamMode) (maxLines : UInt64)
    (sent received : Nat) : SessionCipher where
  key := session.key
  outbound := ⟨baseCounter mode session.iv role, sent⟩
  inbound := ⟨baseCounter mode session.iv (peerOf role), received⟩
  mode := mode
  maxLines := maxLines

@[simp] theorem peerOf_peerOf (role : Role) : peerOf (peerOf role) = role := by cases role <;> rfl

variable {session : SessionKey} {role : Role} {mode : KeystreamMode} {maxLines : UInt64}
  {sent received : Nat}

theorem encrypt_counted (h : sent < maxLines.toNat) (text : String) :
    (counted session role mode maxLines sent received).encrypt text =
      (.ok (sealLine session mode role sent text),
        counted session role mode maxLines (sent + 1) received) :=
  encrypt_of_lt (s := counted session role mode maxLines sent received) h text

theorem nextIn_counted :
    (counted session (peerOf role) mode maxLines sent received).nextIn =
      lineCounter mode (baseCounter mode session.iv role) received := by
  simp only [nextIn, counted, peerOf_peerOf]

/-- Below the limit, any base64 uses up the next number. -/
theorem decrypt_counted_encode (h : received < maxLines.toNat) (bs : Bytes) :
    (counted session (peerOf role) mode maxLines sent received).decrypt (Base64.encode bs) =
      (decodeUtf8 (CounterMode.apply (Aes.encryptBlock (Aes.roundKeys session.key))
          (lineCounter mode (baseCounter mode session.iv role) received) bs),
        counted session (peerOf role) mode maxLines sent (received + 1)) := by
  rw [decrypt_of_lt (s := counted session (peerOf role) mode maxLines sent received)
    (decodeBase64_encode bs) h, nextIn_counted]
  rfl

/-- **The peer reads what was written**, if it has counted as many lines. -/
theorem decrypt_sealLine (h : received < maxLines.toNat) (text : String) :
    (counted session (peerOf role) mode maxLines sent received).decrypt
        (sealLine session mode role received text) =
      (.ok text, counted session (peerOf role) mode maxLines sent (received + 1)) := by
  rw [sealLine, decrypt_counted_encode h, CounterMode.apply_apply, decodeUtf8_utf8]

/-- **The peer reads a text from one line only**, the one that it goes over the wire as. -/
theorem decrypt_counted_eq_ok_iff {line text : String} {s : SessionCipher} :
    (counted session (peerOf role) mode maxLines sent received).decrypt line = (.ok text, s) ↔
      received < maxLines.toNat ∧ line = sealLine session mode role received text ∧
        s = counted session (peerOf role) mode maxLines sent (received + 1) := by
  constructor
  · intro h
    cases hb : decodeBase64 line with
    | error e =>
        rw [decrypt_of_error hb] at h
        cases h
    | ok bytes =>
        rcases Nat.lt_or_ge received maxLines.toNat with hlt | hle
        · obtain rfl := eq_encode_of_decodeBase64 hb
          rw [decrypt_counted_encode hlt] at h
          obtain ⟨htext, hcipher⟩ := Prod.mk.inj h
          refine ⟨hlt, ?_, hcipher.symm⟩
          rw [sealLine, ← decodeUtf8_eq_ok_iff.1 htext, CounterMode.apply_apply]
        · rw [decrypt_of_le (s := counted session (peerOf role) mode maxLines sent received) hb hle]
            at h
          cases h
  · rintro ⟨hlt, rfl, rfl⟩
    exact decrypt_sealLine hlt text

end SessionCipher

namespace LineCodec

open SessionCipher (counted peerOf)

variable {session : SessionKey} {role : Role} {mode : KeystreamMode} {maxLines : UInt64}
  {sent received : Nat}

theorem accept_sealLine {c : LineCodec SessionCipher}
    (hc : c.cipher = counted session (peerOf role) mode maxLines sent received)
    (h : received < maxLines.toNat) (text : String) :
    c.accept (Frame.ofLine (Text.utf8 (sealLine session mode role received text))) =
      (some (.ok (some text)),
        { c with cipher := counted session (peerOf role) mode maxLines sent (received + 1) }) := by
  rw [ofLine_sealLine]
  refine accept_line_of_ok ?_
  rw [hc]
  exact SessionCipher.decrypt_sealLine h text

/-! ### Writing a line of a session -/

theorem isTooLong_eq_false_iff {cipher : SessionCipher} {line : String} :
    isTooLong cipher line = false ↔
      Base64.encodedLength (Text.utf8 line).length ≤ maxLineLength := by
  simp only [isTooLong, LineCipher.ciphertextLength?, decide_eq_false_iff_not, Nat.not_lt]

section

variable {c : LineCodec SessionCipher} {text : String} (hend : hasLineEnd text = false)
  (hshort : Base64.encodedLength (Text.utf8 text).length ≤ maxLineLength)

include hend hshort

/-- **Below the limit a line that fits is written**, and counted. -/
theorem encode_of_lt (h : c.cipher.linesSent < c.cipher.maxLines.toNat) :
    c.encode text =
      (.ok (frameLine (Base64.encode (c.cipher.applyFrom c.cipher.nextOut (Text.utf8 text)))),
        { c with cipher := c.cipher.countOut }) := by
  have hencrypt := SessionCipher.encrypt_of_lt h text
  refine encode_of_encrypted hend (isTooLong_eq_false_iff.2 hshort) hencrypt ?_
  rw [(SessionCipher.of_encrypt_eq_ok hencrypt).2.2]
  exact hshort

theorem encode_of_le (h : c.cipher.maxLines.toNat ≤ c.cipher.linesSent) :
    c.encode text = (.error (.keystreamExhausted c.cipher.maxLines.toNat), c) := by
  refine encode_of_not_encrypted hend (isTooLong_eq_false_iff.2 hshort)
    (SessionCipher.encrypt_of_le h text) ?_
  rintro ⟨-, hbroken⟩
  cases hbroken

end

/-- **A line that fits is written** under the next number, and counted. -/
theorem encode_counted_of_fits {c : LineCodec SessionCipher} {text : String}
    (hc : c.cipher = counted session role mode maxLines sent received)
    (hend : hasLineEnd text = false)
    (hshort : Base64.encodedLength (Text.utf8 text).length ≤ maxLineLength)
    (h : sent < maxLines.toNat) :
    c.encode text = (.ok (frameLine (sealLine session mode role sent text)),
      { c with cipher := counted session role mode maxLines (sent + 1) received }) := by
  have hlt : c.cipher.linesSent < c.cipher.maxLines.toNat := by rwa [hc]
  rw [encode_of_lt hend hshort hlt, hc]
  rfl

/-- **What writing a line comes to**: it is refused and changes nothing, or it goes over the wire
under the next number, is not too long, and is counted. -/
theorem encode_counted {c : LineCodec SessionCipher}
    (hc : c.cipher = counted session role mode maxLines sent received) (text : String) :
    (∃ e, c.encode text = (.error e, c)) ∨
      (sent < maxLines.toNat ∧ Base64.encodedLength (Text.utf8 text).length ≤ maxLineLength ∧
        c.encode text = (.ok (frameLine (sealLine session mode role sent text)),
          { c with cipher := counted session role mode maxLines (sent + 1) received })) := by
  cases hend : hasLineEnd text with
  | true => exact Or.inl ⟨_, encode_of_hasLineEnd hend⟩
  | false =>
  cases hfits : isTooLong c.cipher text with
  | true => exact Or.inl ⟨_, encode_of_isTooLong hend hfits⟩
  | false =>
  have hshort := isTooLong_eq_false_iff.1 hfits
  rcases Nat.lt_or_ge sent maxLines.toNat with h | h
  · exact Or.inr ⟨h, hshort, encode_counted_of_fits hc hend hshort h⟩
  · exact Or.inl ⟨_, encode_of_le hend hshort (by rwa [hc])⟩

end LineCodec

end LineChat
