/-
**A client that logs in.**

A client that does all it should gets a session, whatever the server has done before and whoever
else is connected.  Its two messages bring the handshake to its end, the session is bound, and the
handler is told.  Every line that it writes under the session key is given to the handler, and the
answer goes back.  When it has finished, the session is released.

Each of these takes some steps of one session.  What they come to is said once and for all: the
session is in another state, the deeds are written down, and the rest of the server is what the
deeds make of it.

Main definitions:

* `LineChat.ClientHandshake.firstMessage`, `LineChat.ServerHandshake.question`,
  `LineChat.ServerHandshake.answerLine` — what goes over the wire;
* `LineChat.Chronicle.Comes` — **what a session comes to** by some steps;
* `LineChat.Chronicle.loggingIn`, `LineChat.Chronicle.saying`, `LineChat.Chronicle.leaving` — the
  steps of a login, of a line and of the end.

Main results:

* `LineChat.Link.poll_line`, `LineChat.Link.poll_finished` — what a channel that has read all comes
  to when a line arrives, or the end;
* `LineChat.Honest.step_first`, `LineChat.Honest.step_confirmation` — the handshake goes on with the
  messages of an honest client;
* `LineChat.ServerHandshake.poll_channel`, `LineChat.ServerHandshake.send_channel` — so does the
  session with the next lines;
* `LineChat.Chronicle.logs_in` — **an honest client logs in**;
* `LineChat.Chronicle.is_answered` — **its lines are answered**;
* `LineChat.Chronicle.leaves` — it is released when it has finished.
-/

import LineChat.Proofs.Chat.Dialogue
import LineChat.Proofs.Handshake.Agreement

set_option autoImplicit false

namespace LineChat

open SessionCipher (counted)

/-! ### Channels that have read all that has arrived -/

namespace Link

variable {σ : Type} [LineCipher σ] {codec : LineCodec σ} {c : Connection}

theorem decode_nothing (hframing : codec.framing = {}) (ended : Bool) :
    codec.decode ended [] = (.ok none, codec, []) := by
  cases ended with
  | false => exact LineCodec.decode_of_notMem hframing List.not_mem_nil (Nat.zero_le _)
  | true =>
      have hstep : codec.framing.step true [] = (.incomplete, codec.framing, []) := by
        rw [hframing]
        rfl
      exact LineCodec.decode_of_accept_some hstep rfl

/-- **The line that arrives is the next one.** -/
theorem poll_line {bs : Bytes} {text : String} {cipher : σ} (hframing : codec.framing = {})
    (hlen : (Base64.encodeBytes bs).length ≤ maxLineLength)
    (hdecrypt : LineCipher.decrypt codec.cipher (Base64.encode bs) = (.ok text, cipher))
    (hincoming : c.incoming = frameLine (Base64.encode bs)) :
    ({ format := codec, readable := true } : Link (LineCodec σ)).poll c =
      (.line text, { format := { codec with cipher }, readable := true },
        { c with incoming := [] }) := by
  have haccept : codec.accept (Frame.ofLine (Base64.encodeBytes bs)) =
      (some (.ok (some text)), { codec with cipher }) := by
    rw [Frame.ofLine_encodeBytes]
    exact LineCodec.accept_line_of_ok hdecrypt
  have hdecode : codec.decode false (frameLine (Base64.encode bs)) =
      (.ok (some text), { codec with cipher }, []) := by
    rw [frameLine, Base64.utf8_encode]
    exact LineCodec.decode_line (r := .ok text) hframing (lineFeed_notMem_encodeBytes bs) hlen
      haccept []
  have hne : frameLine (Base64.encode bs) ≠ [] := (nil_ne_frameLine _).symm
  simp [poll, fetch, scan, LineFormat.decode, decode_nothing hframing, hincoming, hne, hdecode]

/-- **At the end there is no line.** -/
theorem poll_finished (hframing : codec.framing = {}) (hincoming : c.incoming = [])
    (hfinished : c.finished = true) :
    ∃ l', ({ format := codec, readable := true } : Link (LineCodec σ)).poll c =
      (.ended, l', c) := by
  simp [poll, fetch, awaitEnd, scanEnd, scan, LineFormat.decode, decode_nothing hframing, hincoming,
    hfinished]

end Link

/-! ### The messages of an honest client -/

/-- The first message of a client as it goes over the wire, if it fits the server's key. -/
def ClientHandshake.firstMessage (h : ClientHandshake) : Bytes :=
  frameLine (Base64.encode
    ((h.serverKey.seal? (h.seeds 0) (Text.utf8 h.introduction.render)).getD []))

namespace ServerHandshake

/-- The channel on which the server waits for the first message. -/
def listening (h : ServerHandshake) : EnvelopeLink where
  format := .strict {} (.openOnly h.key h.seeds)
  readable := true

/-- The channel on which it waits for the third one. -/
def confirming (h : ServerHandshake) : SecureLink where
  format := .strict {} (h.options.cipher h.session .responder)
  readable := true

/-- The line that a client writes under this number. -/
def question (h : ServerHandshake) (n : Nat) (text : String) : Bytes :=
  frameLine (sealLine h.session h.options.mode .initiator n text)

/-- The line that the server writes under this number. -/
def answerLine (h : ServerHandshake) (n : Nat) (text : String) : Bytes :=
  frameLine (sealLine h.session h.options.mode .responder n text)

/-- The channel of its session after so many lines in both directions. -/
def channel (h : ServerHandshake) (sent received : Nat) : SecureLink where
  format :=
    { framing := {}
      cipher := counted h.session .responder h.options.mode h.options.maxLines sent received
      policy := h.options.policy }
  readable := true

section

variable (h : ServerHandshake) {text : String} (out : Bytes)

/-- A line that the client writes under the next number is read. -/
theorem poll_channel {received : Nat} (sent : Nat) (hlt : received < h.options.maxLines.toNat)
    (hfits : Base64.encodedLength (Text.utf8 text).length ≤ maxLineLength) :
    (h.channel sent received).poll { incoming := h.question received text, outgoing := out } =
      (.line text, h.channel sent (received + 1), { outgoing := out }) := by
  have hlength : (Base64.encodeBytes (CounterMode.apply
      (Aes.encryptBlock (Aes.roundKeys h.session.key))
      (lineCounter h.options.mode (baseCounter h.options.mode h.session.iv .initiator) received)
      (Text.utf8 text))).length ≤ maxLineLength := by
    rwa [Base64.length_encodeBytes, CounterMode.length_apply]
  have hdecrypt : (h.channel sent received).format.cipher.decrypt
      (sealLine h.session h.options.mode .initiator received text) =
        (.ok text, (h.channel sent (received + 1)).format.cipher) :=
    SessionCipher.decrypt_sealLine hlt text
  exact Link.poll_line rfl hlength hdecrypt rfl

/-- A line that fits is written under the next number. -/
theorem send_channel {sent : Nat} (received : Nat) (hlt : sent < h.options.maxLines.toNat)
    (hend : LineCodec.hasLineEnd text = false)
    (hfits : Base64.encodedLength (Text.utf8 text).length ≤ maxLineLength) :
    (h.channel sent received).send text { outgoing := out } =
      (.ok (), h.channel (sent + 1) received, { outgoing := out ++ h.answerLine sent text }) := by
  have hencode := LineCodec.encode_counted_of_fits (c := (h.channel sent received).format) rfl hend
    hfits hlt
  have hne : frameLine (sealLine h.session h.options.mode .responder sent text) ≠ [] :=
    (nil_ne_frameLine _).symm
  simp only [Link.send, LineFormat.encode, hencode, Connection.write, if_neg hne]
  rfl

end

end ServerHandshake

namespace Honest

variable {hc : ClientHandshake} {hs : ServerHandshake} {envelope reply : Bytes} {c : Connection}
  (h : Honest hc hs)

include h

/-- **The server answers the first message.** -/
theorem step_first
    (hfirst : hc.serverKey.seal? (hc.seeds 0) (Text.utf8 hc.introduction.render) = some envelope)
    (hsecond : hc.key.toPublic.seal? (hs.seeds 0) (Text.utf8 (answerTo hc hs).render) = some reply)
    (hincoming : c.incoming = frameLine (Base64.encode envelope)) (hbroken : c.broken = false) :
    hs.step (.awaitingAuth hs.listening) c =
      (.awaitingEcho hs.confirming hc.username,
        { c with incoming := [], outgoing := c.outgoing ++ frameLine (Base64.encode reply) }) := by
  have hpoll : hs.listening.poll c =
      (.line hc.introduction.render, hs.listening, { c with incoming := [] }) :=
    Link.poll_line rfl (PublicKey.length_encodeBytes_le hfirst) (h.decrypt_first hfirst)
      hincoming
  have hanswer : hs.answer hs.listening hc.introduction hc.key.toPublic { c with incoming := [] } =
      (.awaitingEcho hs.confirming hc.username,
        { c with incoming := [], outgoing := c.outgoing ++ frameLine (Base64.encode reply) }) := by
    rcases Link.send_envelope
        (l := hs.listening.withCipher (.between hc.key.toPublic hs.key hs.seeds))
        (c := { c with incoming := [] }) rfl rfl (ServerOk.hasLineEnd_render (answerTo hc hs))
        hbroken with ⟨reply', hseal, hsend⟩ | ⟨hnone, -⟩
    · cases hsecond.symm.trans hseal
      rw [answerTo] at hsend
      rw [ServerHandshake.answer, hsend]
      rfl
    · cases hsecond.symm.trans hnone
  simp only [ServerHandshake.step, hpoll, awaited, h.identify_first, hanswer]

/-- **The server takes the third message for what it is.** -/
theorem step_confirmation (hincoming : c.incoming = confirmation hs) :
    hs.step (.awaitingEcho hs.confirming hc.username) c =
      (.established ⟨hs.channel 0 1, hc.username⟩, { c with incoming := [] }) := by
  have hpoll : hs.confirming.poll c = (.line hs.challenge.toBase64,
      { format := .strict {} (counted hs.session .responder hs.options.mode hs.options.maxLines 0 1)
        readable := true }, { c with incoming := [] }) :=
    Link.poll_line rfl (length_confirmation hs) h.decrypt_confirmation hincoming
  simp only [ServerHandshake.step, hpoll, awaited, ServerHandshake.judge_eq,
    ServerHandshake.recognise_toBase64]
  rfl

end Honest

/-! ### Steps of one session -/

namespace Chronicle

open ChatServer (Action)

variable {σ : Type} {k : Chronicle σ} {i : Nat} {schedule : List Action} {deeds : List Deed}
  {c c' : ServerSession}

/-- **What a session comes to** by some steps: it is in this state, these deeds are written down,
and everything else is what they make of it. -/
structure Comes (k : Chronicle σ) (i : Nat) (schedule : List Action) (deeds : List Deed)
    (c : ServerSession) : Prop where
  now_eq : (k.run schedule).now = (k.now.after deeds).setSession i c
  log_eq : (k.run schedule).log = k.log ++ deeds.map (i, ·)
  lt : i < k.now.sessions.length

theorem comes_nil (hc : k.now.sessions[i]? = some c) : k.Comes i [] [] c := by
  obtain ⟨hi, rfl⟩ := List.getElem?_eq_some_iff.1 hc
  refine ⟨?_, (List.append_nil _).symm, hi⟩
  rw [ChatServer.setSession]
  change k.now = { k.now with sessions := k.now.sessions.set i k.now.sessions[i] }
  rw [List.set_getElem_self]

theorem Comes.session (h : k.Comes i schedule deeds c) :
    (k.run schedule).now.sessions[i]? = some c := by
  rw [h.now_eq]
  exact List.getElem?_set_self h.lt

/-- The other sessions stay where they are. -/
theorem Comes.session_of_ne (h : k.Comes i schedule deeds c) {j : Nat} (hne : j ≠ i) :
    (k.run schedule).now.sessions[j]? = k.now.sessions[j]? := by
  rw [h.now_eq]
  exact List.getElem?_set_ne hne.symm

theorem run_append (k : Chronicle σ) (schedule more : List Action) :
    k.run (schedule ++ more) = (k.run schedule).run more :=
  List.foldl_append

theorem run_snoc (k : Chronicle σ) (schedule : List Action) (a : Action) :
    k.run (schedule ++ [a]) = (k.run schedule).step a :=
  k.run_append schedule [a]

/-- A step that changes nothing but the session, and is not written down. -/
theorem Comes.silent {a : Action} (h : k.Comes i schedule deeds c)
    (hstep : (k.run schedule).now.step? a = some ((k.run schedule).now.setSession i c'))
    (hlog : ∀ v, ((k.run schedule).record a v).log = (k.run schedule).log) :
    k.Comes i (schedule ++ [a]) deeds c' := by
  refine ⟨?_, ?_, h.lt⟩
  · rw [run_snoc, step, hstep, Option.elim_some, now_record, h.now_eq]
    simp [ChatServer.setSession]
  · rw [run_snoc, step, hstep, Option.elim_some, hlog]
    exact h.log_eq

/-- Bytes arrive for a session that has read all there was. -/
theorem Comes.arrive (h : k.Comes i schedule deeds c) (hopen : c.wire.finished = false)
    (hread : c.wire.incoming = []) (bytes : Bytes) :
    k.Comes i (schedule ++ [.arrive i bytes]) deeds
      { c with wire := { c.wire with incoming := bytes } } := by
  refine h.silent ?_ fun _ => rfl
  simp [ChatServer.step?, h.session, hopen, Connection.arrive, hread]

theorem Comes.finish (h : k.Comes i schedule deeds c) :
    k.Comes i (schedule ++ [.finish i]) deeds { c with wire := c.wire.finish } := by
  refine h.silent ?_ fun _ => rfl
  simp [ChatServer.step?, h.session]

/-- **The next step of the session**, with what it does. -/
theorem Comes.run {done : List Deed} (h : k.Comes i schedule deeds c)
    (hrun : ((k.run schedule).now.run c).map (·.1) = some c')
    (hdone : (k.run schedule).now.deeds c = done) :
    k.Comes i (schedule ++ [.run i]) (deeds ++ done) c' := by
  obtain ⟨⟨c₁, v⟩, hran, rfl⟩ := Option.map_eq_some_iff.1 hrun
  obtain ⟨-, hv⟩ := ChatServer.Does.of_run hran
  have hstep : (k.run schedule).now.step? (.run i) = some (v.setSession i c₁) := by
    simp [ChatServer.step?, h.session, hran]
  refine ⟨?_, ?_, h.lt⟩
  · rw [run_snoc, step, hstep]
    simp only [Option.elim_some, now_record]
    rw [hv, hdone, h.now_eq]
    simp [ChatServer.setSession, ChatServer.after]
  · rw [run_snoc, step, hstep, Option.elim_some, record, h.session, Option.elim_some, hdone, write,
      h.log_eq, List.map_append, List.append_assoc]

/-- What it comes to by some steps and then by others. -/
theorem Comes.trans {more : List Action} {done : List Deed} (h : k.Comes i schedule deeds c)
    (hmore : (k.run schedule).Comes i more done c') :
    k.Comes i (schedule ++ more) (deeds ++ done) c' := by
  refine ⟨?_, ?_, h.lt⟩
  · rw [run_append, hmore.now_eq, h.now_eq]
    simp [ChatServer.setSession, ChatServer.after]
  · rw [run_append, hmore.log_eq, h.log_eq, List.map_append, List.append_assoc]

theorem Comes.registry_eq (h : k.Comes i schedule deeds c) :
    (k.run schedule).now.registry = deeds.foldl Deed.onRegistry k.now.registry := by
  rw [h.now_eq]
  rfl

theorem Comes.memory_eq (h : k.Comes i schedule deeds c) :
    (k.run schedule).now.memory = deeds.foldl (Deed.onMemory k.now.handler) k.now.memory := by
  rw [h.now_eq]
  rfl

theorem Comes.handler_eq (h : k.Comes i schedule deeds c) :
    (k.run schedule).now.handler = k.now.handler := by
  rw [h.now_eq]
  rfl

/-- Handshakes are what they were. -/
theorem Comes.handshake_eq (h : k.Comes i schedule deeds c) (material : HandshakeMaterial) :
    (k.run schedule).now.handshake material = k.now.handshake material := by
  rw [h.now_eq, ChatServer.handshake, ChatServer.handshake]
  change ServerHandshake.mk _ ((k.now.after deeds).registry.lookup) _ _ _ _ = _
  rw [lookup_after]
  rfl

section

variable {peer : Address} {material : HandshakeMaterial} {hc : ClientHandshake}
  {hs : ServerHandshake} {envelope reply out : Bytes} {context : SessionContext}
  {sent received : Nat} (hhandshake : k.now.handshake material = hs) (h : Honest hc hs)

/-! ### A login -/

include hhandshake h

/-- The first message is answered. -/
theorem responds (hsession : k.now.sessions[i]? = some { peer, material })
    (hfirst : hc.serverKey.seal? (hc.seeds 0) (Text.utf8 hc.introduction.render) = some envelope)
    (hsecond : hc.key.toPublic.seal? (hs.seeds 0) (Text.utf8 (answerTo hc hs).render) =
      some reply) :
    k.Comes i [.run i, .arrive i (frameLine (Base64.encode envelope)), .run i] []
      { peer, material, phase := .handshaking (.awaitingEcho hs.confirming hc.username)
        wire := { outgoing := frameLine (Base64.encode reply) } } := by
  have hstart := comes_nil hsession
  have hstarted : k.Comes i [.run i] []
      { peer, material, phase := .handshaking (.awaitingAuth hs.listening) } := by
    refine hstart.run ?_ ?_
    · rw [ChatServer.run, hstart.handshake_eq, hhandshake]
      rfl
    · rw [ChatServer.deeds, hstart.handshake_eq, hhandshake]
      rfl
  have hheard : k.Comes i [.run i, .arrive i (frameLine (Base64.encode envelope))] []
      { peer, material, phase := .handshaking (.awaitingAuth hs.listening)
        wire := { incoming := frameLine (Base64.encode envelope) } } :=
    hstarted.arrive rfl rfl _
  have hstep := h.step_first (c := { incoming := frameLine (Base64.encode envelope) }) hfirst
    hsecond rfl rfl
  refine hheard.run ?_ ?_
  · simp only [ChatServer.run, hheard.handshake_eq, hhandshake, hstep]
    rfl
  · simp only [ChatServer.deeds, hheard.handshake_eq, hhandshake, hstep]

/-- Behind the third message the session is bound, and the handler is told. -/
theorem confirms (hsession : k.now.sessions[i]? = some
      { peer, material, phase := .handshaking (.awaitingEcho hs.confirming hc.username)
        wire := { outgoing := out } }) :
    k.Comes i [.arrive i (confirmation hs), .run i, .run i, .run i]
      (served ⟨hc.username, k.now.registry.issued, peer⟩ [])
      { peer, material
        phase := .serving ⟨hc.username, k.now.registry.issued, peer⟩ (hs.channel 0 1)
        wire := { outgoing := out } } := by
  have hheard : k.Comes i [.arrive i (confirmation hs)] []
      { peer, material, phase := .handshaking (.awaitingEcho hs.confirming hc.username)
        wire := { incoming := confirmation hs, outgoing := out } } :=
    (comes_nil hsession).arrive rfl rfl _
  have hadmitted : k.Comes i [.arrive i (confirmation hs), .run i] [.admitted hc.username]
      { peer, material, phase := .binding ⟨hs.channel 0 1, hc.username⟩
        wire := { outgoing := out } } := by
    have hstep := h.step_confirmation (c := { incoming := confirmation hs, outgoing := out }) rfl
    refine hheard.run ?_ ?_
    · simp only [ChatServer.run, hheard.handshake_eq, hhandshake, hstep]
      rfl
    · simp only [ChatServer.deeds, hheard.handshake_eq, hhandshake, hstep]
  have hbound : k.Comes i [.arrive i (confirmation hs), .run i, .run i]
      [.admitted hc.username, .bound ⟨hc.username, k.now.registry.issued, peer⟩]
      { peer, material
        phase := .greeting ⟨hc.username, k.now.registry.issued, peer⟩ (hs.channel 0 1)
        wire := { outgoing := out } } := by
    have hknown : (k.now.registry.lookup hc.username).isSome = true := by
      rw [← hhandshake] at h
      exact Option.isSome_of_eq_some h.directory
    rcases hbind : k.now.registry.bind hc.username peer with ⟨id, registry⟩
    have hissued := Registry.isSome_bind_of_lookup hknown peer
    rw [hbind] at hissued
    obtain ⟨id, rfl⟩ := Option.isSome_iff_exists.1 hissued
    obtain rfl := (Registry.issued_bind (congrArg Prod.fst hbind)).2
    refine hadmitted.run ?_ ?_
    · simp [ChatServer.run, hadmitted.registry_eq, Deed.onRegistry, hbind]
    · simp [ChatServer.deeds, hadmitted.registry_eq, Deed.onRegistry, hbind]
  exact hbound.run rfl rfl

/-- The steps of a login with these two messages. -/
def loggingIn (i : Nat) (first third : Bytes) : List Action :=
  [.run i, .arrive i first, .run i, .arrive i third, .run i, .run i, .run i]

/-- **An honest client logs in**, whatever the server has done before. -/
theorem logs_in (hfits : Fits hc hs) (hsession : k.now.sessions[i]? = some { peer, material }) :
    ∃ reply, hc.key.toPublic.seal? (hs.seeds 0) (Text.utf8 (answerTo hc hs).render) = some reply ∧
      k.Comes i (loggingIn i hc.firstMessage (confirmation hs))
        (served ⟨hc.username, k.now.registry.issued, peer⟩ [])
        { peer, material
          phase := .serving ⟨hc.username, k.now.registry.issued, peer⟩ (hs.channel 0 1)
          wire := { outgoing := frameLine (Base64.encode reply) } } := by
  obtain ⟨envelope, hfirst⟩ :=
    PublicKey.exists_seal? (hc.seeds 0) (h.takes_first_iff.2 hfits.first)
  obtain ⟨reply, hsecond⟩ :=
    PublicKey.exists_seal? (hs.seeds 0) (h.takes_second_iff.2 hfits.second)
  have hresponds := responds hhandshake h hsession hfirst hsecond
  have hconfirms := confirms ((hresponds.handshake_eq material).trans hhandshake) h
    hresponds.session
  rw [hresponds.registry_eq, List.foldl_nil] at hconfirms
  refine ⟨reply, hsecond, ?_⟩
  rw [ClientHandshake.firstMessage, hfirst]
  exact hresponds.trans hconfirms

omit hhandshake h

/-! ### A line -/

/-- The steps of a session about a line that is answered. -/
def saying (i : Nat) (line : Bytes) : List Action :=
  [.arrive i line, .run i, .run i, .run i]

/-- **A line is handled and answered**, if the key may still be used and the two lines fit. -/
theorem is_answered {text answer : String}
    (hsession : k.now.sessions[i]? = some
      { peer, material, phase := .serving context (hs.channel sent received)
        wire := { outgoing := out } })
    (hreceived : received < hs.options.maxLines.toNat)
    (htext : Base64.encodedLength (Text.utf8 text).length ≤ maxLineLength)
    (hanswer : (k.now.handler.handle context text k.now.memory).1 = some answer)
    (hsent : sent < hs.options.maxLines.toNat) (hend : LineCodec.hasLineEnd answer = false)
    (hfits : Base64.encodedLength (Text.utf8 answer).length ≤ maxLineLength) :
    k.Comes i (saying i (hs.question received text)) (lineDeeds context (text, some answer))
      { peer, material, phase := .serving context (hs.channel (sent + 1) (received + 1))
        wire := { outgoing := out ++ hs.answerLine sent answer } } := by
  have hheard : k.Comes i [.arrive i (hs.question received text)] []
      { peer, material, phase := .serving context (hs.channel sent received)
        wire := { incoming := hs.question received text, outgoing := out } } :=
    (comes_nil hsession).arrive rfl rfl _
  have htaken : k.Comes i [.arrive i (hs.question received text), .run i] [.took (.ok text)]
      { peer, material, phase := .answering context (hs.channel sent (received + 1)) text
        wire := { outgoing := out } } := by
    have hpoll := hs.poll_channel out sent hreceived htext
    refine hheard.run ?_ ?_
    · simp only [ChatServer.run, hpoll]
      rfl
    · simp only [ChatServer.deeds, hpoll]
  have hhandled : k.Comes i [.arrive i (hs.question received text), .run i, .run i]
      [.took (.ok text), .handled context text (some answer)]
      { peer, material, phase := .replying context (hs.channel sent (received + 1)) answer
        wire := { outgoing := out } } := by
    refine htaken.run ?_ ?_
    · simp [ChatServer.run, htaken.handler_eq, htaken.memory_eq, Deed.onMemory, hanswer]
    · simp [ChatServer.deeds, htaken.handler_eq, htaken.memory_eq, Deed.onMemory, hanswer]
  have hsend := hs.send_channel out (received + 1) hsent hend hfits
  refine hhandled.run ?_ ?_
  · simp [ChatServer.run, hsend]
  · simp [ChatServer.deeds, hsend]

/-! ### The end -/

/-- The steps of a session whose other side has finished. -/
def leaving (i : Nat) : List Action := [.finish i, .run i, .run i, .run i]

/-- **A client that has finished is released.** -/
theorem leaves (hsession : k.now.sessions[i]? = some
      { peer, material, phase := .serving context (hs.channel sent received)
        wire := { outgoing := out } }) :
    k.Comes i (leaving i) [.closed, .released context, .departed context]
      { peer, material, phase := .ended (.ok ())
        wire := { outgoing := out, finished := true } } := by
  have hfinished : k.Comes i [.finish i] []
      { peer, material, phase := .serving context (hs.channel sent received)
        wire := { outgoing := out, finished := true } } :=
    (comes_nil hsession).finish
  have hclosed : k.Comes i [.finish i, .run i] [.closed]
      { peer, material, phase := .releasing context (.ok ())
        wire := { outgoing := out, finished := true } } := by
    obtain ⟨channel, hpoll⟩ : ∃ channel, (hs.channel sent received).poll
        { outgoing := out, finished := true } =
          (.ended, channel, { outgoing := out, finished := true }) :=
      Link.poll_finished rfl rfl rfl
    refine hfinished.run ?_ ?_
    · simp only [ChatServer.run, hpoll]
      rfl
    · simp only [ChatServer.deeds, hpoll]
  have hreleased : k.Comes i [.finish i, .run i, .run i] [.closed, .released context]
      { peer, material, phase := .departing context (.ok ())
        wire := { outgoing := out, finished := true } } := hclosed.run rfl rfl
  exact hreleased.run rfl rfl

end

end Chronicle

end LineChat
