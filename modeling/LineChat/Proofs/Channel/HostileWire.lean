/-
**A hostile wire cannot misalign a lenient channel.**

Whoever controls the wire can replace the lines of a sender by others, and put in lines of their
own.  A receiver that skips broken lines still reads every line that was left alone: a line that
replaces another uses up the same number, whatever it decrypts to, and a line that is put in uses up
none, as long as it is not base64.  An overlong line is reported once and then skipped up to its
end.  The bytes may arrive in pieces of any size, and may be read at any time.

Main definitions:

* `LineChat.WireLine` — **a line of a hostile wire**, with what it has to satisfy;
* `LineChat.hostileWire` — the bytes of such a wire;
* `LineChat.Yields` — **what a receiver may make of it**;
* `LineChat.Receiver`, `LineChat.Receiver.step` — a receiver with the bytes that have not arrived
  yet.

Main results:

* `LineChat.reads_hostileWire` — reading the whole wire;
* `LineChat.Receiver.inv_step`, `LineChat.Receiver.inv_run` — reading it piece by piece comes to the
  same;
* `LineChat.Receiver.stays_aligned` — **every line left alone is read, and the numbers agree at the
  end**.
-/

import LineChat.Channel.Endpoint
import LineChat.Proofs.Channel.SessionLine

set_option autoImplicit false

namespace LineChat

open SessionCipher (counted peerOf)

/-! ### Hostile wires -/

/-- **A line that a reader takes**: it is not too long. -/
structure IsShortLine (line : Bytes) : Prop where
  no_feed : lineFeed ∉ line
  length_le : line.length ≤ maxLineLength

/-- **A line that is too long.** -/
structure IsLongLine (line : Bytes) : Prop where
  no_feed : lineFeed ∉ line
  lt_length : maxLineLength < line.length

/-- **A line of base64**, as it is framed. -/
def IsBase64Line (line : Bytes) : Prop := ∃ bs, dropReturn line = Base64.encodeBytes bs

/-- A line of base64 is text, and the text spells some bytes. -/
theorem isBase64Line_iff {line : Bytes} :
    IsBase64Line line ↔
      ∃ text bs, Text.ofUtf8 (dropReturn line) = .ok text ∧ Base64.decodeText text = .ok bs := by
  constructor
  · rintro ⟨bs, hbs⟩
    refine ⟨Base64.encode bs, bs, ?_, Base64.decodeText_eq_ok_iff.2 rfl⟩
    rw [hbs, ← Base64.utf8_encode, Text.ofUtf8_utf8]
  · rintro ⟨text, bs, htext, hbs⟩
    refine ⟨bs, ?_⟩
    rw [← Text.utf8_of_ofUtf8 htext, Base64.decodeText_eq_ok_iff.1 hbs, Base64.utf8_encode]

/-- **A line of a hostile wire.** -/
inductive WireLine where
  /-- A line of the sender, left alone. -/
  | untouched (text : String)
  /-- A line of the sender, replaced by another line of base64. -/
  | replaced (text : String) (line : Bytes) (hline : IsShortLine line) (h : IsBase64Line line)
  /-- A line put in that is not text, or not base64. -/
  | inserted (line : Bytes) (hline : IsShortLine line) (h : ¬ IsBase64Line line)
  /-- A line put in that is too long. -/
  | overlong (line : Bytes) (h : IsLongLine line)

/-- The lines of the sender. -/
def sentLines : List WireLine → List String
  | [] => []
  | .untouched text :: lines => text :: sentLines lines
  | .replaced text _ _ _ :: lines => text :: sentLines lines
  | .inserted _ _ _ :: lines => sentLines lines
  | .overlong _ _ :: lines => sentLines lines

/-- **The bytes of a hostile wire**, if the sender writes all of its lines. -/
def hostileWire (c : LineCodec SessionCipher) : List WireLine → Except LineError Bytes
  | [] => .ok []
  | .untouched text :: lines => do
      let frame ← (c.encode text).1
      let wire ← hostileWire (c.encode text).2 lines
      return frame ++ wire
  | .replaced text line _ _ :: lines => do
      let _ ← (c.encode text).1
      let wire ← hostileWire (c.encode text).2 lines
      return line ++ [lineFeed] ++ wire
  | .inserted line _ _ :: lines => do
      let wire ← hostileWire c lines
      return line ++ [lineFeed] ++ wire
  | .overlong line _ :: lines => do
      let wire ← hostileWire c lines
      return line ++ [lineFeed] ++ wire

theorem hostileWire_untouched {c c' : LineCodec SessionCipher} {text : String} {frame wire : Bytes}
    {lines : List WireLine} (h : c.encode text = (.ok frame, c'))
    (hrest : hostileWire c' lines = .ok wire) :
    hostileWire c (.untouched text :: lines) = .ok (frame ++ wire) := by
  rw [hostileWire, h]
  simp only [hrest]
  rfl

theorem hostileWire_replaced {c c' : LineCodec SessionCipher} {text : String}
    {line frame wire : Bytes} {hline : IsShortLine line} {hbase : IsBase64Line line}
    {lines : List WireLine} (h : c.encode text = (.ok frame, c'))
    (hrest : hostileWire c' lines = .ok wire) :
    hostileWire c (.replaced text line hline hbase :: lines) =
      .ok (line ++ [lineFeed] ++ wire) := by
  rw [hostileWire, h]
  simp only [hrest]
  rfl

/-- **What a receiver may make of a hostile wire**: the results of its reads, and the number of
lines it skips.  A line left alone is read as it was written, a line that replaces another is read
as some text or skipped, a line put in is skipped, and a line that is too long is one error. -/
inductive Yields : List WireLine → List (Except LineError String) → Nat → Prop
  | done : Yields [] [] 0
  | untouched {text lines results dropped} (h : Yields lines results dropped) :
      Yields (.untouched text :: lines) (.ok text :: results) dropped
  | replaced_read {text line hline h lines results dropped} (other : String)
      (hrest : Yields lines results dropped) :
      Yields (.replaced text line hline h :: lines) (.ok other :: results) dropped
  | replaced_skipped {text line hline h lines results dropped}
      (hrest : Yields lines results dropped) :
      Yields (.replaced text line hline h :: lines) results (dropped + 1)
  | inserted {line hline h lines results dropped} (hrest : Yields lines results dropped) :
      Yields (.inserted line hline h :: lines) results (dropped + 1)
  | overlong {line h lines results dropped} (hrest : Yields lines results dropped) :
      Yields (.overlong line h :: lines) (.error (.lineTooLong maxLineLength) :: results) dropped

/-! ### Single lines of the wire -/

section

variable {session : SessionKey} {sender : Role} {mode : KeystreamMode} {maxLines : UInt64}
  {sent received : Nat} {c : LineCodec SessionCipher} {line : Bytes}

/-- **A line of base64 uses up one number**, whether it is read or skipped. -/
theorem reads_base64 (hf : c.framing = ⟨false⟩) (hpolicy : c.policy = .drop)
    (hc : c.cipher = counted session (peerOf sender) mode maxLines sent received)
    (hlt : received < maxLines.toNat) (hline : IsShortLine line) (h : IsBase64Line line) :
    ∃ results skipped, LineCodec.Reads c (line ++ [lineFeed]) results
        { c with
          cipher := counted session (peerOf sender) mode maxLines sent (received + 1)
          dropped := c.dropped + skipped } [] ∧
      ((∃ other, results = [.ok other] ∧ skipped = 0) ∨ results = [] ∧ skipped = 1) := by
  obtain ⟨bs, hbs⟩ := h
  have hframe : Frame.ofLine line = .line (Base64.encode bs) :=
    Frame.ofLine_of_dropReturn (by rw [hbs, Base64.utf8_encode])
  have hdecrypt := @SessionCipher.decrypt_counted_encode session sender mode maxLines sent received
    hlt bs
  rw [← hc] at hdecrypt
  change LineCipher.decrypt c.cipher _ = _ at hdecrypt
  -- the number is used up before it turns out whether the bytes are text
  rcases decodeUtf8_cases (CounterMode.apply (Aes.encryptBlock (Aes.roundKeys session.key))
    (lineCounter mode (baseCounter mode session.iv sender) received) bs) with
    ⟨other, hother⟩ | ⟨e, herror, hbroken⟩
  · rw [hother] at hdecrypt
    have ha := LineCodec.accept_line_of_ok hdecrypt
    rw [← hframe] at ha
    have hread := LineCodec.reads_line (r := .ok other) hf hline.no_feed hline.length_le ha
    exact ⟨[.ok other], 0, hread, Or.inl ⟨other, rfl, rfl⟩⟩
  · rw [herror] at hdecrypt
    have ha := LineCodec.accept_line_of_broken hpolicy hdecrypt hbroken
    rw [← hframe] at ha
    have hread := LineCodec.reads_skipped hf hline.no_feed hline.length_le ha
    exact ⟨[], 1, hread, Or.inr ⟨rfl, rfl⟩⟩

/-- **A line that is not base64 uses up no number** and is skipped. -/
theorem reads_not_base64 (hf : c.framing = ⟨false⟩) (hpolicy : c.policy = .drop)
    (hline : IsShortLine line) (h : ¬ IsBase64Line line) :
    LineCodec.Reads c (line ++ [lineFeed]) [] { c with dropped := c.dropped + 1 } [] := by
  refine LineCodec.reads_skipped hf hline.no_feed hline.length_le ?_
  cases htext : Text.ofUtf8 (dropReturn line) with
  | error fault =>
      rw [Frame.ofLine, htext]
      exact LineCodec.accept_notText hpolicy
  | ok text =>
      rw [Frame.ofLine, htext]
      cases hbytes : decodeBase64 text with
      | ok bs =>
          refine absurd (isBase64Line_iff.2 ⟨text, bs, htext, ?_⟩) h
          rw [eq_encode_of_decodeBase64 hbytes]
          exact Base64.decodeText_eq_ok_iff.2 rfl
      | error e =>
          have hdecrypt : LineCipher.decrypt c.cipher text = (.error e, c.cipher) :=
            SessionCipher.decrypt_of_error hbytes
          exact LineCodec.accept_line_of_broken hpolicy hdecrypt
            (isBrokenMessage_of_decodeBase64 hbytes)

/-- **A line of the sender that was left alone is read.** -/
theorem reads_sealLine (hf : c.framing = ⟨false⟩)
    (hc : c.cipher = counted session (peerOf sender) mode maxLines sent received)
    (hlt : received < maxLines.toNat) {text : String}
    (hshort : Base64.encodedLength (Text.utf8 text).length ≤ maxLineLength) :
    LineCodec.Reads c (frameLine (sealLine session mode sender received text)) [.ok text]
      { c with cipher := counted session (peerOf sender) mode maxLines sent (received + 1) }
      [] := by
  have hlen := hshort
  rw [← length_sealLine session mode sender received] at hlen
  exact LineCodec.reads_line (r := .ok text) hf
    (lineFeed_notMem_sealLine session mode sender received text) hlen
    (LineCodec.accept_sealLine hc hlt text)

end

/-! ### The whole wire -/

section

variable {session : SessionKey} {sender : Role} {mode : KeystreamMode} {maxLines : UInt64}

/-- **Reading the whole wire.**  Both sides have counted `n` lines of the direction, and the sender
has lines that fit; then there is such a wire, what the receiver makes of it is allowed, and in the
end the receiver has counted every line of the sender, and nothing else. -/
theorem reads_hostileWire {lines : List WireLine} {n a b : Nat} {s r : LineCodec SessionCipher}
    (hs : s.cipher = counted session sender mode maxLines n a)
    (hr : r.cipher = counted session (peerOf sender) mode maxLines b n)
    (hf : r.framing = ⟨false⟩) (hpolicy : r.policy = .drop)
    (hfit : ∀ text ∈ sentLines lines, LineCodec.hasLineEnd text = false ∧
      Base64.encodedLength (Text.utf8 text).length ≤ maxLineLength)
    (hcount : n + (sentLines lines).length ≤ maxLines.toNat) :
    ∃ wire results dropped last, hostileWire s lines = .ok wire ∧ Yields lines results dropped ∧
      LineCodec.Reads r wire results last [] ∧ last.dropped = r.dropped + dropped ∧
      last.cipher = counted session (peerOf sender) mode maxLines b
        (n + (sentLines lines).length) := by
  -- both codecs move on with every line of the sender, so the number `n` is common to them
  induction lines generalizing n s r with
  | nil =>
      refine ⟨[], [], 0, r, rfl, .done, .done ?_, rfl, hr⟩
      exact LineCodec.decode_of_notMem hf List.not_mem_nil (Nat.zero_le _)
  | cons line lines ih =>
      cases line with
      | untouched text =>
          obtain ⟨⟨hend, hshort⟩, hfit⟩ := List.forall_mem_cons.1 hfit
          simp only [sentLines, List.length_cons] at hcount
          have hlt : n < maxLines.toNat := by omega
          have hencode := LineCodec.encode_counted_of_fits hs hend hshort hlt
          have hread := reads_sealLine hf hr hlt hshort
          obtain ⟨wire, results, dropped, last, hwire, hyields, hreads, hdropped, hlast⟩ :=
            ih (n := n + 1) (s := { s with cipher := _ }) (r := { r with cipher := _ }) rfl rfl hf
              hpolicy hfit (by omega)
          refine ⟨_, _, dropped, last, hostileWire_untouched hencode hwire, hyields.untouched,
            hread.append hreads, hdropped, ?_⟩
          rw [hlast, sentLines, List.length_cons, Nat.add_assoc, Nat.add_comm 1]
      | replaced text line hline h =>
          obtain ⟨⟨hend, hshort⟩, hfit⟩ := List.forall_mem_cons.1 hfit
          simp only [sentLines, List.length_cons] at hcount
          have hlt : n < maxLines.toNat := by omega
          have hencode := LineCodec.encode_counted_of_fits hs hend hshort hlt
          -- the sender has counted its own line, and the receiver counts the other one
          obtain ⟨first, skipped, hread, hfirst⟩ := reads_base64 hf hpolicy hr hlt hline h
          obtain ⟨wire, results, dropped, last, hrest, hyields, hreads, hdropped, hlast⟩ :=
            ih (n := n + 1) (s := { s with cipher := _ })
              (r := { r with cipher := _, dropped := r.dropped + skipped }) rfl rfl hf hpolicy hfit
              (by omega)
          refine ⟨_, first ++ results, dropped + skipped, last, hostileWire_replaced hencode hrest,
            ?_, hread.append hreads, ?_, ?_⟩
          · rcases hfirst with ⟨other, rfl, rfl⟩ | ⟨rfl, rfl⟩
            · exact hyields.replaced_read other
            · exact hyields.replaced_skipped
          · rw [hdropped, Nat.add_assoc, Nat.add_comm skipped]
          · rw [hlast, sentLines, List.length_cons, Nat.add_assoc, Nat.add_comm 1]
      | inserted line hline h =>
          obtain ⟨wire, results, dropped, last, hwire, hyields, hreads, hdropped, hlast⟩ :=
            ih (s := s) (r := { r with dropped := r.dropped + 1 }) hs hr hf hpolicy hfit hcount
          refine ⟨_, _, dropped + 1, last, ?_, hyields.inserted,
            (reads_not_base64 hf hpolicy hline h).append hreads, ?_, hlast⟩
          · rw [hostileWire, hwire]
            rfl
          · rw [hdropped, Nat.add_assoc, Nat.add_comm 1]
      | overlong line h =>
          obtain ⟨wire, results, dropped, last, hwire, hyields, hreads, hdropped, hlast⟩ :=
            ih hs hr hf hpolicy hfit hcount
          refine ⟨_, _, dropped, last, ?_, hyields.overlong,
            (LineCodec.reads_overlong hf h.no_feed h.lt_length).append hreads, hdropped, hlast⟩
          rw [hostileWire, hwire]
          rfl

end

/-! ### Reading piece by piece -/

/-- **A receiver with the bytes that have not arrived yet**, and the results of its reads. -/
structure Receiver where
  endpoint : Endpoint (LineCodec SessionCipher)
  wire : Bytes
  log : List (Except LineError String) := []

namespace Receiver

/-- What can happen to a receiver. -/
inductive Event where
  /-- The next bytes arrive. -/
  | arrive (count : Nat)
  /-- The receiver reads. -/
  | read

/-- A receiver to which nothing has arrived yet. -/
def start (codec : LineCodec SessionCipher) (wire : Bytes) : Receiver :=
  { endpoint := { format := codec }, wire }

/-- **What an event does.** -/
def step (r : Receiver) : Event → Receiver
  | .arrive count =>
      { r with endpoint := r.endpoint.feed (r.wire.take count), wire := r.wire.drop count }
  | .read =>
      match r.endpoint.read false with
      | (.ok none, e) => { r with endpoint := e }
      | (.ok (some text), e) => { r with endpoint := e, log := r.log ++ [.ok text] }
      | (.error err, e) => { r with endpoint := e, log := r.log ++ [.error err] }

/-- A run of events. -/
def run (r : Receiver) (events : List Event) : Receiver := events.foldl step r

/-- **The invariant**: with what is still to arrive, the receiver is going to read the results that
are left, and end up with the codec `last`. -/
def Inv (r : Receiver) (results : List (Except LineError String)) (last : LineCodec SessionCipher) :
    Prop :=
  ∃ rest, results = r.log ++ rest ∧
    LineCodec.Reads r.endpoint.format (r.endpoint.input ++ r.wire) rest last []

variable {r : Receiver} {results : List (Except LineError String)} {last : LineCodec SessionCipher}

theorem step_read_of_some {x : Except LineError String} {e : Endpoint (LineCodec SessionCipher)}
    (h : r.endpoint.read false = (x.map some, e)) :
    r.step .read = { r with endpoint := e, log := r.log ++ [x] } := by
  cases x <;> simp only [step, h, Except.map]

theorem inv_step (h : r.Inv results last) (event : Event) : (r.step event).Inv results last := by
  obtain ⟨rest, hlog, hreads⟩ := h
  cases event with
  | arrive count =>
      refine ⟨rest, hlog, ?_⟩
      simp only [step, Endpoint.feed, List.append_assoc, List.take_append_drop]
      exact hreads
  | read =>
      rcases hd : r.endpoint.format.decode false r.endpoint.input with ⟨result, c, b⟩
      have hread :
          r.endpoint.read false = (result, { r.endpoint with format := c, input := b }) := by
        simp only [Endpoint.read, LineFormat.decode, hd]
      -- a read sees only what has arrived, but finds what it would find in the whole stream
      by_cases hresult : result = .ok none
      · subst hresult
        have hstep : r.step .read =
            { r with endpoint := { r.endpoint with format := c, input := b } } := by
          simp only [step, hread]
        rw [hstep]
        exact ⟨rest, hlog, hreads.decode_none hd⟩
      · obtain ⟨x, rfl⟩ := LineCodec.Reads.exists_map_some hresult
        obtain ⟨rest, rfl, hrest⟩ := hreads.decode_some hd
        rw [step_read_of_some hread]
        exact ⟨rest, by rw [hlog, List.append_assoc]; rfl, hrest⟩

/-- **Every run keeps the invariant.** -/
theorem inv_run (h : r.Inv results last) (events : List Event) :
    (r.run events).Inv results last := by
  induction events generalizing r with
  | nil => exact h
  | cons event events ih => exact ih (inv_step h event)

/-- **A receiver that is on the way to `results`**, with `dropped` lines skipped and `count` lines
counted at the end. -/
structure Aligned (r : Receiver) (results : List (Except LineError String)) (dropped count : Nat) :
    Prop where
  /-- What was read so far is the beginning of the results. -/
  in_order : r.log <+: results
  /-- When everything has arrived, a read gives the next result. -/
  next_read : r.wire = [] → ∀ x rest, results = r.log ++ x :: rest →
    (r.endpoint.read false).1 = x.map some
  /-- When everything has arrived and there is no result left, a read gives nothing. -/
  last_read : r.wire = [] → r.log = results → (r.endpoint.read false).1 = .ok none
  /-- A read that gives nothing then has skipped and counted every line. -/
  complete : r.wire = [] → (r.endpoint.read false).1 = .ok none →
    r.log = results ∧ (r.endpoint.read false).2.format.dropped = dropped ∧
      (r.endpoint.read false).2.format.cipher.linesReceived = count

theorem Inv.read (h : r.Inv results last) (hwire : r.wire = []) :
    (r.log = results ∧ (r.endpoint.read false).1 = .ok none ∧
        (r.endpoint.read false).2.format = last) ∨
      ∃ x rest, results = r.log ++ x :: rest ∧ (r.endpoint.read false).1 = x.map some := by
  obtain ⟨rest, rfl, hreads⟩ := h
  rw [hwire, List.append_nil] at hreads
  cases hreads with
  | done hd =>
      have hread : r.endpoint.read false =
          (.ok none, { r.endpoint with format := last, input := [] }) := by
        simp only [Endpoint.read, LineFormat.decode, hd]
      exact Or.inl ⟨by simp, by rw [hread], by rw [hread]⟩
  | @more _ c _ _ b _ x rest hd _ =>
      have hread : r.endpoint.read false =
          (x.map some, { r.endpoint with format := c, input := b }) := by
        simp only [Endpoint.read, LineFormat.decode, hd]
      exact Or.inr ⟨x, rest, rfl, by rw [hread]⟩

/-- The invariant keeps a receiver on the way. -/
theorem Inv.aligned (h : r.Inv results last) :
    r.Aligned results last.dropped last.cipher.linesReceived := by
  refine ⟨?_, ?_, ?_, ?_⟩
  · obtain ⟨rest, hlog, -⟩ := h
    exact ⟨rest, hlog.symm⟩
  · intro hwire x rest hresults
    rcases h.read hwire with ⟨hlog, -, -⟩ | ⟨y, tail, htail, hread⟩
    · rw [hlog] at hresults
      exact absurd hresults (by simp)
    · rw [htail] at hresults
      obtain ⟨rfl, -⟩ := List.cons.inj (List.append_cancel_left hresults)
      exact hread
  · intro hwire hlog
    rcases h.read hwire with ⟨-, hread, -⟩ | ⟨y, tail, htail, -⟩
    · exact hread
    · rw [hlog] at htail
      exact absurd htail (by simp)
  · intro hwire hnone
    rcases h.read hwire with ⟨hlog, -, hformat⟩ | ⟨y, tail, -, hread⟩
    · exact ⟨hlog, by rw [hformat], by rw [hformat]⟩
    · rw [hread] at hnone
      exact absurd hnone (LineCodec.Reads.map_some_ne y)

/-- **A receiver stays aligned** with a sender behind a hostile wire.  The sender has lines that it
can write, and no more of them than the key protects.  Then whatever was done to the wire, there is
one list of results, with every line that was left alone in its place, that the receiver reads
however the bytes arrive; and in the end it has counted exactly the lines of the sender. -/
theorem stays_aligned (session : SessionKey) (sender : Role) (mode : KeystreamMode)
    (maxLines : UInt64) (policy : BrokenPolicy) (lines : List WireLine)
    (hfit : ∀ text ∈ sentLines lines, LineCodec.hasLineEnd text = false ∧
      Base64.encodedLength (Text.utf8 text).length ≤ maxLineLength)
    (hcount : (sentLines lines).length ≤ maxLines.toNat) :
    ∃ wire results dropped,
      hostileWire { cipher := SessionCipher.start session sender mode maxLines, policy } lines =
          .ok wire ∧
        Yields lines results dropped ∧
        ∀ events, ((start { cipher := SessionCipher.start session (peerOf sender) mode maxLines
                            policy := .drop } wire).run events).Aligned
          results dropped (sentLines lines).length := by
  obtain ⟨wire, results, dropped, last, hwire, hyields, hreads, hdropped, hcipher⟩ :=
    reads_hostileWire (n := 0) (a := 0) (b := 0)
      (s := { cipher := SessionCipher.start session sender mode maxLines, policy })
      (r := { cipher := SessionCipher.start session (peerOf sender) mode maxLines
              policy := .drop })
      rfl rfl rfl rfl hfit (by rw [Nat.zero_add]; exact hcount)
  refine ⟨wire, results, dropped, hwire, hyields, fun events => ?_⟩
  have hinv : (start { cipher := SessionCipher.start session (peerOf sender) mode maxLines
                       policy := .drop } wire).Inv results last := ⟨results, rfl, hreads⟩
  have haligned := (inv_run hinv events).aligned
  rw [hdropped, hcipher, Nat.zero_add] at haligned
  rw [Nat.zero_add] at haligned
  exact haligned

theorem not_isBase64Line_question : ¬ IsBase64Line [63] := by
  rintro ⟨bs, hbs⟩
  have hlength := congrArg List.length hbs
  rw [Base64.length_encodeBytes, Base64.encodedLength] at hlength
  have hone : (dropReturn [63]).length = 1 := rfl
  omega

theorem isLongLine_replicate {n : Nat} (h : maxLineLength < n) :
    IsLongLine (List.replicate n 65) := by
  refine ⟨fun hmem => ?_, by rw [List.length_replicate]; exact h⟩
  exact absurd (List.eq_of_mem_replicate hmem) (by decide)

/-- Three lines of a sender, the second of them replaced, with a line put in between any two. -/
def fiveLines : List WireLine :=
  [.untouched "first",
    .inserted [63] ⟨by decide, by decide⟩ not_isBase64Line_question,
    .replaced "second" (Base64.encodeBytes [1, 2, 3])
      ⟨lineFeed_notMem_encodeBytes _, by decide⟩ ⟨[1, 2, 3], dropReturn_encodeBytes _⟩,
    .overlong (List.replicate 65537 65) (isLongLine_replicate (by decide)),
    .untouched "third"]

/-- The receiver stays aligned behind a wire with a line of every kind. -/
theorem stays_aligned_fiveLines :
    let session : SessionKey := ⟨Vector.replicate 32 7, Vector.replicate 16 255⟩
    (∀ text ∈ sentLines fiveLines, LineCodec.hasLineEnd text = false ∧
      Base64.encodedLength (Text.utf8 text).length ≤ maxLineLength) ∧
    (sentLines fiveLines).length ≤ (3 : UInt64).toNat ∧
    ∃ wire results dropped,
      hostileWire { cipher := SessionCipher.start session .initiator .sequenced 3, policy := .fail }
          fiveLines = .ok wire ∧
        Yields fiveLines results dropped ∧
        ∀ events, ((start { cipher := SessionCipher.start session .responder .sequenced 3
                            policy := .drop } wire).run events).Aligned results dropped 3 := by
  intro session
  have hfit : ∀ text ∈ sentLines fiveLines, LineCodec.hasLineEnd text = false ∧
      Base64.encodedLength (Text.utf8 text).length ≤ maxLineLength := by
    have hlines : sentLines fiveLines = ["first", "second", "third"] := rfl
    rw [hlines]
    decide
  have hcount : (sentLines fiveLines).length ≤ (3 : UInt64).toNat := by decide
  exact ⟨hfit, hcount, stays_aligned session .initiator .sequenced 3 .fail fiveLines hfit hcount⟩

end Receiver

end LineChat
