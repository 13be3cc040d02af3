/-
**Reading and writing the lines of a session.**

A session is read and written on one channel, and the two have nothing to do with each other:
reading depends on the half of the cipher that decrypts, which writing leaves alone, and writing
depends on the half that encrypts.  So what a channel reads can be told as if nothing were written,
and what it writes as if nothing were read.

Main definitions:

* `LineChat.SessionCipher.reading`, `LineChat.SessionCipher.writing` — **the two halves of a
  cipher**, and `LineChat.LineCodec.reading` for the lines of a session;
* `LineChat.Link.Invisible` — a change that decoding does not depend on;
* `LineChat.Link.Alert` — **a link that is not quiet because of an error**.

Main results:

* `LineChat.LineCodec.decode_reading`, `LineChat.LineCodec.writing_decode` — **reading and writing
  are independent**;
* `LineChat.Link.poll_modify`, `LineChat.Link.writing_poll` — so they are on a channel;
* `LineChat.Link.poll_keeps` — polling keeps what decoding keeps;
* `LineChat.Link.flags_of_line` — a link that has found a line looks for the next one;
* `LineChat.Link.send_cases` — **what sending a line comes to**, whatever was read.
-/

import LineChat.Proofs.Channel.Link
import LineChat.Proofs.Channel.SessionLine

set_option autoImplicit false

namespace LineChat

namespace SessionCipher

/-- A cipher as far as reading goes: as if it had encrypted nothing. -/
def reading (s : SessionCipher) : SessionCipher :=
  { s with outbound := { s.outbound with lines := 0 } }

theorem decrypt_reading (s : SessionCipher) (line : String) :
    s.reading.decrypt line = ((s.decrypt line).1, (s.decrypt line).2.reading) := by
  cases hb : decodeBase64 line with
  | error e => rw [decrypt_of_error hb, decrypt_of_error hb]
  | ok bytes =>
      rcases Nat.lt_or_ge s.linesReceived s.maxLines.toNat with hlt | hle
      · have hlt' : s.reading.linesReceived < s.reading.maxLines.toNat := hlt
        rw [decrypt_of_lt hb hlt, decrypt_of_lt hb hlt']
        rfl
      · have hle' : s.reading.maxLines.toNat ≤ s.reading.linesReceived := hle
        rw [decrypt_of_le hb hle, decrypt_of_le hb hle']
        rfl

/-- A cipher as far as writing goes: as if it had decrypted nothing. -/
def writing (s : SessionCipher) : SessionCipher :=
  { s with inbound := { s.inbound with lines := 0 } }

theorem writing_decrypt (s : SessionCipher) (line : String) :
    (s.decrypt line).2.writing = s.writing := by
  rcases decrypt_snd s line with hsame | hcount
  · rw [hsame]
  · rw [hcount]
    rfl

/-- What a cipher has written says all but how much it has read. -/
theorem eq_counted_of_writing {s : SessionCipher} {session : SessionKey} {role : Role}
    {mode : KeystreamMode} {maxLines : UInt64} {sent : Nat}
    (h : s.writing = counted session role mode maxLines sent 0) :
    s = counted session role mode maxLines sent s.inbound.lines := by
  obtain ⟨key, outbound, ⟨base, lines⟩, mode', maxLines'⟩ := s
  simp only [writing, counted, SessionCipher.mk.injEq, Direction.mk.injEq] at h ⊢
  exact ⟨h.1, h.2.1, ⟨h.2.2.1.1, trivial⟩, h.2.2.2⟩

end SessionCipher

namespace LineCodec

/-- The lines of a session as far as reading goes: as if nothing had been written. -/
def reading (c : LineCodec SessionCipher) : LineCodec SessionCipher :=
  { c with cipher := c.cipher.reading }

theorem opened_reading (s : SessionCipher) (frame : Frame) :
    opened s.reading frame = ((opened s frame).1, (opened s frame).2.reading) := by
  cases frame with
  | line text =>
      have hdecrypt : LineCipher.decrypt s.reading text = _ := s.decrypt_reading text
      rw [opened_line hdecrypt]
      rfl
  | _ => rfl

theorem accept_reading (c : LineCodec SessionCipher) (frame : Frame) :
    c.reading.accept frame = ((c.accept frame).1, (c.accept frame).2.reading) := by
  rw [accept_eq, accept_eq, after, after]
  simp only [reading, opened_reading]
  split <;> rfl

/-- **Reading is independent of writing.** -/
theorem decode_reading (c : LineCodec SessionCipher) (ended : Bool) (b : Bytes) :
    c.reading.decode ended b =
      ((c.decode ended b).1, (c.decode ended b).2.1.reading, (c.decode ended b).2.2) := by
  refine decode_induction (P := fun c b => c.reading.decode ended b =
    ((c.decode ended b).1, (c.decode ended b).2.1.reading, (c.decode ended b).2.2)) ended ?_ ?_ c b
  · intro c b frame f rest c' hs ha ih
    have ha' : { c.reading with framing := f }.accept frame = (none, c'.reading) := by
      have haccept := accept_reading { c with framing := f } frame
      rw [ha] at haccept
      exact haccept
    rw [decode_of_accept_none hs ha, decode_of_accept_none (c := c.reading) hs ha']
    exact ih
  · intro c b frame f rest result c' hs ha
    have ha' : { c.reading with framing := f }.accept frame = (some result, c'.reading) := by
      have haccept := accept_reading { c with framing := f } frame
      rw [ha] at haccept
      exact haccept
    rw [decode_of_accept_some hs ha, decode_of_accept_some (c := c.reading) hs ha']

theorem writing_accept (c : LineCodec SessionCipher) (frame : Frame) :
    (c.accept frame).2.cipher.writing = c.cipher.writing := by
  rw [cipher_accept]
  cases frame with
  | line text => exact c.cipher.writing_decrypt text
  | _ => rfl

/-- **Writing is independent of reading.** -/
theorem writing_decode (c : LineCodec SessionCipher) (ended : Bool) (b : Bytes) :
    (c.decode ended b).2.1.cipher.writing = c.cipher.writing := by
  refine decode_induction (P := fun c b =>
    (c.decode ended b).2.1.cipher.writing = c.cipher.writing) ended ?_ ?_ c b
  · intro c b frame f rest c' hs ha ih
    have haccept := writing_accept { c with framing := f } frame
    rw [ha] at haccept
    rw [decode_of_accept_none hs ha, ih]
    exact haccept
  · intro c b frame f rest result c' hs ha
    have haccept := writing_accept { c with framing := f } frame
    rw [ha] at haccept
    rw [decode_of_accept_some hs ha]
    exact haccept

end LineCodec

namespace Link

/-! ### Changes that reading does not depend on -/

section

variable {δ : Type} [LineFormat δ] {g : δ → δ}

/-- A change of the rules that decoding does not depend on. -/
def Invisible (g : δ → δ) : Prop :=
  ∀ f ended b, LineFormat.decode (g f) ended b =
    ((LineFormat.decode f ended b).1, g (LineFormat.decode f ended b).2.1,
      (LineFormat.decode f ended b).2.2)

theorem scan_modify (hg : Invisible g) (l : Link δ) :
    (l.modify g).scan = (l.scan.1, l.scan.2.modify g) := by
  have hd := hg l.format l.atEnd l.buffer
  rcases hdecode : LineFormat.decode l.format l.atEnd l.buffer with ⟨e | _ | text, f, b⟩ <;>
    · rw [hdecode] at hd
      simp only [scan, modify, hdecode, hd]

theorem scanEnd_modify (hg : Invisible g) (l : Link δ) :
    (l.modify g).scanEnd = (l.scanEnd.1, l.scanEnd.2.modify g) := by
  rcases hscan : l.scan with ⟨_ | found, l'⟩ <;>
    simp only [scanEnd, scan_modify hg, hscan]

theorem awaitEnd_modify (hg : Invisible g) (l : Link δ) (c : Connection) :
    (l.modify g).awaitEnd c =
      ((l.awaitEnd c).1, (l.awaitEnd c).2.1.modify g, (l.awaitEnd c).2.2) := by
  unfold awaitEnd
  split
  · rfl
  · by_cases hatEnd : l.atEnd = true
    · have hatEnd' : (l.modify g).atEnd = true := hatEnd
      rw [if_pos hatEnd, if_pos hatEnd']
    · have hatEnd' : ¬(l.modify g).atEnd = true := hatEnd
      have hscan := scanEnd_modify hg { l with atEnd := true, readable := true }
      rw [if_neg hatEnd, if_neg hatEnd']
      exact congrArg (fun answer => (answer.1, answer.2, c)) hscan

theorem fetch_modify (hg : Invisible g) (l : Link δ) (c : Connection) :
    (l.modify g).fetch c = ((l.fetch c).1, (l.fetch c).2.1.modify g, (l.fetch c).2.2) := by
  unfold fetch
  by_cases hincoming : c.incoming = []
  · rw [if_pos hincoming, if_pos hincoming]
    exact awaitEnd_modify hg l c
  · rw [if_neg hincoming, if_neg hincoming]
    have hscan := scan_modify hg
      { l with buffer := l.buffer ++ c.incoming, atEnd := false, readable := true }
    rcases hfound : Link.scan
        { l with buffer := l.buffer ++ c.incoming, atEnd := false, readable := true } with
      ⟨_ | found, l'⟩
    · rw [hfound] at hscan
      simp only [modify] at hscan ⊢
      simp only [hscan, hfound]
      exact awaitEnd_modify hg l' { c with incoming := [] }
    · rw [hfound] at hscan
      simp only [modify] at hscan ⊢
      simp only [hscan, hfound]

/-- **Polling does not depend on an invisible change**, and keeps it. -/
theorem poll_modify (hg : Invisible g) (l : Link δ) (c : Connection) :
    (l.modify g).poll c = ((l.poll c).1, (l.poll c).2.1.modify g, (l.poll c).2.2) := by
  have hscan := scan_modify hg l
  have hflags : (l.modify g).failed = l.failed ∧ (l.modify g).readable = l.readable ∧
      (l.modify g).atEnd = l.atEnd := ⟨rfl, rfl, rfl⟩
  simp only [poll, hflags, hscan]
  split
  · rfl
  · split
    · split
      · exact congrArg (fun answer => (answer.1, answer.2, c)) (scanEnd_modify hg l)
      · rcases l.scan with ⟨_ | found, l'⟩
        · exact fetch_modify hg l' c
        · rfl
    · exact fetch_modify hg l c

/-! ### What polling keeps -/

section

variable {P : δ → Prop} {l : Link δ} (hP : ∀ f ended b, P f → P (LineFormat.decode f ended b).2.1)

include hP

theorem scan_keeps (h : P l.format) : P l.scan.2.format := by
  have hd := hP l.format l.atEnd l.buffer h
  rcases hdecode : LineFormat.decode l.format l.atEnd l.buffer with ⟨e | _ | text, f, b⟩ <;>
    · rw [hdecode] at hd
      simp only [scan, hdecode]
      exact hd

theorem scanEnd_keeps (h : P l.format) : P l.scanEnd.2.format := by
  have hscan := scan_keeps hP h
  rcases hfound : l.scan with ⟨_ | found, l'⟩ <;>
    · rw [hfound] at hscan
      simp only [scanEnd, hfound]
      exact hscan

theorem awaitEnd_keeps (h : P l.format) (c : Connection) :
    P (l.awaitEnd c).2.1.format ∧ (l.awaitEnd c).2.2.breach = c.breach := by
  unfold awaitEnd
  split
  · exact ⟨h, rfl⟩
  · split
    · exact ⟨h, rfl⟩
    · exact ⟨scanEnd_keeps (l := { l with atEnd := true, readable := true }) hP h, rfl⟩

theorem fetch_keeps (h : P l.format) (c : Connection) :
    P (l.fetch c).2.1.format ∧ (l.fetch c).2.2.breach = c.breach := by
  unfold fetch
  split
  · exact awaitEnd_keeps hP h c
  · have hscan := scan_keeps (l := { l with
      buffer := l.buffer ++ c.incoming, atEnd := false, readable := true }) hP h
    dsimp only
    split
    next found l' hfound =>
      rw [hfound] at hscan
      exact ⟨hscan, rfl⟩
    next l' hfound =>
      rw [hfound] at hscan
      exact awaitEnd_keeps hP hscan { c with incoming := [] }

/-- **Polling keeps what decoding keeps**, and it does not break a connection. -/
theorem poll_keeps (h : P l.format) (c : Connection) :
    P (l.poll c).2.1.format ∧ (l.poll c).2.2.breach = c.breach := by
  unfold poll
  split
  · exact ⟨h, rfl⟩
  · split
    · split
      · exact ⟨scanEnd_keeps hP h, rfl⟩
      · have hscan := scan_keeps hP h
        split
        next found l' hfound =>
          rw [hfound] at hscan
          exact ⟨hscan, rfl⟩
        next l' hfound =>
          rw [hfound] at hscan
          exact fetch_keeps hP hscan c
    · exact fetch_keeps hP h c

end

/-! ### Links that are not quiet because of an error -/

/-- **A link that looks** at what has arrived when it is asked for the next line: the last thing it
reported was not an error, nor the end. -/
structure Alert (l : Link δ) : Prop where
  not_failed : l.failed = false
  readable_or_idle : l.readable = true ∨ (l.atEnd = false ∧ l.Idle)

variable {l l' : Link δ} {c c' : Connection}

theorem Ready.alert (h : l.Ready) : l.Alert :=
  ⟨h.not_failed, h.readable_or_idle.imp_right fun hidle => ⟨h.not_atEnd, hidle⟩⟩

theorem Alert.looks (h : l.Alert) (c : Connection) : l.Looks c :=
  ⟨h.not_failed, h.readable_or_idle.imp_right fun hidle => Or.inr ⟨hidle.1, Or.inr hidle.2⟩⟩

/-- A line is found in a buffer that was looked at, and may hold another. -/
theorem scan_line {text : String} (h : l.scan = (some (.line text), l')) :
    l'.failed = l.failed ∧ l'.readable = l.readable := by
  rw [scan] at h
  split at h <;> cases h
  exact ⟨rfl, rfl⟩

theorem scanEnd_line {text : String} (h : l.scanEnd = (.line text, l')) :
    l'.failed = l.failed ∧ l'.readable = l.readable := by
  rw [scanEnd] at h
  split at h
  next hscan =>
    cases h
    exact scan_line hscan
  next => cases h

theorem fetch_line {text : String} (h : l.fetch c = (.line text, l', c')) :
    l'.failed = l.failed ∧ l'.readable = true := by
  have hawaitEnd : ∀ (l : Link δ) (c : Connection), l.awaitEnd c = (.line text, l', c') →
      l'.failed = l.failed ∧ l'.readable = true := by
    intro l c h
    rw [awaitEnd] at h
    split at h
    next => cases h
    next =>
      split at h
      next => cases h
      next =>
        rcases hscan : Link.scanEnd { l with atEnd := true, readable := true } with ⟨found, l₁⟩
        rw [hscan] at h
        cases h
        exact scanEnd_line hscan
  rw [fetch] at h
  split at h
  next => exact hawaitEnd l c h
  next =>
    dsimp only at h
    split at h
    next hscan =>
      cases h
      exact scan_line hscan
    next l₁ hscan =>
      have hfailed : l₁.failed = l.failed := by
        rw [scan] at hscan
        split at hscan <;> cases hscan
        rfl
      rw [← hfailed]
      exact hawaitEnd l₁ _ h

/-- **A link that has found a line** looks for the next one. -/
theorem flags_of_line {text : String} (h : l.poll c = (.line text, l', c')) :
    l'.failed = false ∧ l'.readable = true := by
  rw [poll] at h
  split at h
  next => cases h
  next hfailed =>
    have hfailed' : l.failed = false := by simpa using hfailed
    split at h
    next hreadable =>
      split at h
      next =>
        rcases hscan : l.scanEnd with ⟨found, l₁⟩
        rw [hscan] at h
        cases h
        rw [← hfailed', ← hreadable]
        exact scanEnd_line hscan
      next =>
        split at h
        next hscan =>
          cases h
          rw [← hfailed', ← hreadable]
          exact scan_line hscan
        next l₁ hscan =>
          have hsame : l₁.failed = l.failed := by
            rw [scan] at hscan
            split at hscan <;> cases hscan
            rfl
          rw [← hfailed', ← hsame]
          exact fetch_line h
    next =>
      rw [← hfailed']
      exact fetch_line h

/-- **An alert link that finds nothing** waits, and stays alert, or the other side has finished. -/
theorem Alert.poll_nothing [LawfulFormat δ] {polled : Polled} (h : l.Alert) (hsound : l.Sound c)
    (hpoll : l.poll c = (polled, l', c')) (hpolled : polled = .waiting ∨ polled = .ended) :
    polled = Polled.ofResult c.finished (.ok none) ∧ (c.finished = false → l'.Alert) := by
  have hpolls : l.Polls c c.finished [] (l.poll c) := polls hsound fun hf => ⟨hf, rfl⟩
  rw [hpoll] at hpolls
  generalize hanswer : (polled, l', c') = answer at hpolls
  cases hpolls with
  | @found x _ _ _ _ =>
      cases hanswer
      cases x <;> simp [Polled.ofResult, Except.map] at hpolled
  | nothing _ _ _ hlooks =>
      cases hanswer
      obtain ⟨hanswer, -, hready⟩ := hlooks (h.looks c)
      exact ⟨hanswer, fun hopen => (hready hopen).alert⟩

end

/-! ### Sending -/

variable {l : Link (LineCodec SessionCipher)} {c : Connection} {session : SessionKey} {role : Role}
  {mode : KeystreamMode} {maxLines : UInt64} {sent : Nat}

theorem invisible_reading : Invisible LineCodec.reading := fun f ended b =>
  f.decode_reading ended b

/-- What was written does not depend on polling. -/
theorem writing_poll (l : Link (LineCodec SessionCipher)) (c : Connection) :
    (l.poll c).2.1.format.cipher.writing = l.format.cipher.writing :=
  (poll_keeps (P := fun f : LineCodec SessionCipher => f.cipher.writing = l.format.cipher.writing)
    (fun f ended b hf => (f.writing_decode ended b).trans hf) rfl c).1

/-- **What sending a line comes to**: it goes over the wire under the next number, or it fails, and
then some of it may have gone.  Reading does not notice. -/
theorem send_cases (h : l.format.cipher.writing =
    SessionCipher.counted session role mode maxLines sent 0) (line : String) (c : Connection) :
    (∃ l', l.send line c = (.ok (), l', { c with
          outgoing := c.outgoing ++ frameLine (sealLine session mode role sent line) }) ∧
        l'.modify LineCodec.reading = l.modify LineCodec.reading ∧
        l'.format.cipher.writing = SessionCipher.counted session role mode maxLines (sent + 1) 0) ∨
      ∃ e l' part, l.send line c = (.error e, l', { c with outgoing := c.outgoing ++ part }) := by
  have hcipher := SessionCipher.eq_counted_of_writing h
  rcases LineCodec.encode_counted hcipher line with ⟨e, hencode⟩ | ⟨-, -, hencode⟩
  · refine Or.inr ⟨e, l, [], ?_⟩
    simp only [send, LineFormat.encode, hencode, List.append_nil]
  · have hsome : frameLine (sealLine session mode role sent line) ≠ [] := by simp [frameLine]
    let cipher := SessionCipher.counted session role mode maxLines (sent + 1)
      l.format.cipher.inbound.lines
    have hreading : cipher.reading = l.format.cipher.reading := by
      rw [hcipher]
      rfl
    cases hbreach : c.breach with
    | none =>
        refine Or.inl ⟨{ l with format := { l.format with cipher } }, ?_, ?_, rfl⟩
        · simp only [send, LineFormat.encode, hencode, Connection.write, if_neg hsome, hbreach]
          rfl
        · simp only [modify, LineCodec.reading, hreading]
    | some b =>
        refine Or.inr ⟨.ofIo b.failure, { l with format := { l.format with cipher } },
          (frameLine (sealLine session mode role sent line)).take b.through, ?_⟩
        simp only [send, LineFormat.encode, hencode, Connection.write, if_neg hsome, hbreach]
        rfl

end Link

end LineChat
