/-
**What a client accepts.**

A client takes a server for the one it wanted exactly if the first line of the stream is an envelope
for the client in which its challenge comes back, with a challenge of the server and a session key;
nothing else that a peer may send does.  Everything that the client writes follows from this one
line: its first message, and the challenge of the server as the first line under the session key.

Main definitions:

* `LineChat.ClientHandshake.Answered` — the second message of a stream;
* `LineChat.ClientHandshake.Accepts` — **what it takes** for a client to have its channel.

Main results:

* `LineChat.ClientHandshake.accepting_cases`, `LineChat.ClientHandshake.conclude_eq` — the handshake
  from the second message on;
* `LineChat.ClientHandshake.established_iff_answered` — **the client has its channel exactly if it
  was answered**, and what it has written then.
-/

import LineChat.Proofs.Channel.EnvelopeCipher
import LineChat.Proofs.Handshake.Message
import LineChat.Proofs.Handshake.Run
import LineChat.Proofs.Key.RoundTrip

set_option autoImplicit false

namespace LineChat

open SessionCipher (counted)

/-- The first line of the side that sends the first message starts at the initial counter. -/
theorem sealLine_first (session : SessionKey) (mode : KeystreamMode) (text : String) :
    sealLine session mode .initiator 0 text =
      Base64.encode (CounterMode.apply (Aes.encryptBlock (Aes.roundKeys session.key))
        (CounterMode.counterOfBlock session.iv) (Text.utf8 text)) := by
  cases mode with
  | sequenced => simp [sealLine, lineCounter, baseCounter]
  | legacy => simp [sealLine, lineCounter, baseCounter]

namespace ClientHandshake

/-! ### The second message -/

/-- **The second message of a stream**: its first line is an envelope, in which the client finds the
message of a server that could read the first one, character for character. -/
structure Answered (h : ClientHandshake) (ended : Bool) (f : Framing) (stream : Bytes)
    (challenge : Challenge) (session : SessionKey) (f₁ : Framing) (rest : Bytes) : Prop where
  line : ∃ envelope, f.decode ended stream = (.ok (some (Base64.encode envelope)), f₁, rest) ∧
    h.key.unseal envelope = .ok (Text.utf8
      ("!ok " ++ h.challenge.toBase64 ++ " " ++ challenge.toBase64 ++ " " ++
        Base64.encode session.key.toList ++ " " ++ Base64.encode session.iv.toList))

/-- **What it takes for a client to have its channel.** -/
structure Accepts (h : ClientHandshake) (ended : Bool) (f : Framing) (stream : Bytes) : Prop where
  fits : h.serverKey.takes (Text.utf8 h.introduction.render).length = true
  answered : ∃ challenge session f₁ rest, h.Answered ended f stream challenge session f₁ rest
  one_le : 1 ≤ h.options.maxLines.toNat

variable {h : ClientHandshake} {ended : Bool} {f f₁ : Framing} {stream rest : Bytes}
  {challenge : Challenge} {session : SessionKey}

theorem accept_eq_ok_iff {line : String} {reply : ServerOk} :
    h.accept line = .ok reply ↔ line = reply.render ∧ reply.clientChallenge = h.challenge := by
  unfold accept
  rw [bind_eq_ok_iff]
  constructor
  · rintro ⟨reply', hparse, hcheck⟩
    by_cases hsame : reply'.clientChallenge = h.challenge
    · rw [if_neg (by simpa using hsame)] at hcheck
      cases hcheck
      exact ⟨ServerOk.parse_eq_ok_iff.1 hparse, hsame⟩
    · rw [if_pos hsame] at hcheck
      cases hcheck
  · rintro ⟨hline, hsame⟩
    refine ⟨reply, ServerOk.parse_eq_ok_iff.2 hline, ?_⟩
    rw [if_neg (by simpa using hsame)]
    rfl

/-- **A second message is what the client takes out of the envelope.** -/
theorem answered_iff {codec : LineCodec EnvelopeCipher} (hpolicy : codec.policy = .fail)
    (hown : codec.cipher.own = some h.key) :
    h.Answered ended codec.framing stream challenge session f₁ rest ↔
      ∃ line, codec.decode ended stream = (.ok (some line), { codec with framing := f₁ }, rest) ∧
        h.accept line = .ok ⟨h.challenge, challenge, session⟩ := by
  have hrender := ServerOk.render_eq ⟨h.challenge, challenge, session⟩
  constructor
  · rintro ⟨envelope, hline, hopen⟩
    refine ⟨ServerOk.render ⟨h.challenge, challenge, session⟩, ?_,
      accept_eq_ok_iff.2 ⟨rfl, rfl⟩⟩
    refine (LineCodec.decode_eq_line_iff hpolicy).2 ⟨_, f₁, codec.cipher, hline, ?_, rfl⟩
    refine (EnvelopeCipher.decrypt_eq_ok_iff hown).2 ⟨rfl, envelope, rfl, ?_⟩
    rw [hrender]
    exact hopen
  · rintro ⟨line, hdecode, haccept⟩
    obtain ⟨text, f', cipher, hline, hdecrypt, hcodec⟩ :=
      (LineCodec.decode_eq_line_iff hpolicy).1 hdecode
    obtain ⟨rfl, envelope, rfl, hopen⟩ := (EnvelopeCipher.decrypt_eq_ok_iff hown).1 hdecrypt
    obtain rfl := (accept_eq_ok_iff.1 haccept).1
    obtain rfl : f₁ = f' := congrArg LineCodec.framing hcodec
    rw [hrender] at hopen
    exact ⟨envelope, hline, hopen⟩

/-- The message of a server, sealed for the client, is a second message. -/
theorem answered_of_seal? {seed : Oaep.Seed} {reply : Bytes} (hopens : h.key.Opens)
    (hseal : h.key.toPublic.seal? seed
      (Text.utf8 (ServerOk.render ⟨h.challenge, challenge, session⟩)) = some reply)
    (ended : Bool) (rest : Bytes) :
    h.Answered ended {} (frameLine (Base64.encode reply) ++ rest) challenge session {} rest := by
  have hlen := PublicKey.length_encodeBytes_le hseal
  refine ⟨reply, Framing.decode_frameLine_encode hlen ended rest, ?_⟩
  rw [hopens _ _ _ hseal, ServerOk.render_eq]

/-- A stream has at most one second message. -/
theorem Answered.unique {challenge₂ : Challenge} {session₂ : SessionKey} {f₂ : Framing}
    {rest₂ : Bytes} (h₁ : h.Answered ended f stream challenge session f₁ rest)
    (h₂ : h.Answered ended f stream challenge₂ session₂ f₂ rest₂) :
    challenge = challenge₂ ∧ session = session₂ ∧ f₁ = f₂ ∧ rest = rest₂ := by
  have hrender := ServerOk.render_eq ⟨h.challenge, challenge, session⟩
  have hrender₂ := ServerOk.render_eq ⟨h.challenge, challenge₂, session₂⟩
  obtain ⟨envelope, hline, hopen⟩ := h₁
  obtain ⟨envelope₂, hline₂, hopen₂⟩ := h₂
  rw [hline] at hline₂
  obtain ⟨htext, hleft⟩ := Prod.mk.inj hline₂
  obtain ⟨rfl, rfl⟩ := Prod.mk.inj hleft
  -- one line spells one envelope, and one plaintext is one message
  have henvelope : envelope = envelope₂ :=
    Base64.encode_injective (Option.some.inj (Except.ok.inj htext))
  rw [henvelope, hopen₂] at hopen
  have hsame := Text.utf8_injective (Except.ok.inj hopen)
  have hparse := ServerOk.parse_eq_ok_iff.2 hrender.symm
  rw [← hsame, ServerOk.parse_eq_ok_iff.2 hrender₂.symm] at hparse
  obtain ⟨-, rfl, rfl⟩ := ServerOk.mk.inj (Except.ok.inj hparse)
  exact ⟨rfl, rfl, rfl, rfl⟩

/-- A stream whose first line is no second message has none. -/
theorem not_answered_of_decode {codec codec' : LineCodec EnvelopeCipher}
    {result : Except LineError (Option String)} (hpolicy : codec.policy = .fail)
    (hown : codec.cipher.own = some h.key)
    (hdecode : codec.decode ended stream = (result, codec', rest))
    (hrefused : ∀ line, result = .ok (some line) → ∀ reply, h.accept line ≠ .ok reply) :
    ¬ ∃ challenge session f₁ rest,
      h.Answered ended codec.framing stream challenge session f₁ rest := by
  rintro ⟨challenge, session, f₁, rest₁, hanswered⟩
  obtain ⟨line, hdecode₁, haccept⟩ := (answered_iff hpolicy hown).1 hanswered
  rw [hdecode] at hdecode₁
  exact hrefused line (congrArg Prod.fst hdecode₁) _ haccept

/-- **The handshake from the second message on**: it goes on with the second message of the stream,
or there is none and it does not come to a channel. -/
theorem accepting_cases (h : ClientHandshake) (codec : LineCodec EnvelopeCipher)
    (hpolicy : codec.policy = .fail) (hown : codec.cipher.own = some h.key)
    (second : Option Breach) (ended : Bool) (stream written : Bytes) :
    (∃ challenge session f₁ rest,
        h.Answered ended codec.framing stream challenge session f₁ rest ∧
        h.accepting second ended codec stream written =
          h.conclude second { codec with framing := f₁ } ⟨h.challenge, challenge, session⟩ rest
            written) ∨
      ((¬ ∃ challenge session f₁ rest,
          h.Answered ended codec.framing stream challenge session f₁ rest) ∧
        ∀ username channel rest, (h.accepting second ended codec stream written).ending ≠
          .established username channel rest) := by
  have hawaits := h.accepting_awaits second ended codec stream written
  generalize h.accepting second ended codec stream written = course at hawaits ⊢
  cases hawaits with
  | @told line reply codec' rest hdecode haccept =>
      obtain ⟨text, f₁, cipher, -, hdecrypt, rfl⟩ :=
        (LineCodec.decode_eq_line_iff hpolicy).1 hdecode
      obtain ⟨rfl, -⟩ := (EnvelopeCipher.decrypt_eq_ok_iff hown).1 hdecrypt
      obtain ⟨client, challenge, session⟩ := reply
      obtain rfl : client = h.challenge := (accept_eq_ok_iff.1 haccept).2
      exact Or.inl ⟨challenge, session, f₁, rest,
        (answered_iff hpolicy hown).2 ⟨line, hdecode, haccept⟩, rfl⟩
  | silent hdecode hopen =>
      exact Or.inr ⟨not_answered_of_decode hpolicy hown hdecode nofun, nofun⟩
  | refused hdecode hread =>
      refine Or.inr ⟨not_answered_of_decode hpolicy hown hdecode ?_, nofun⟩
      rintro line' hline reply haccept
      cases hline
      rw [hread] at haccept
      cases haccept
  | unreadable hdecode =>
      exact Or.inr ⟨not_answered_of_decode hpolicy hown hdecode nofun, nofun⟩
  | closed hdecode _ =>
      exact Or.inr ⟨not_answered_of_decode hpolicy hown hdecode nofun, nofun⟩

/-! ### The third message -/

/-- **The third message** is written if the session may protect a line at all. -/
theorem conclude_eq (h : ClientHandshake) (codec : LineCodec EnvelopeCipher) (reply : ServerOk)
    (rest written : Bytes) (hone : 1 ≤ h.options.maxLines.toNat) :
    h.conclude none codec reply rest written =
      ⟨.established h.username
        { framing := codec.framing
          cipher := counted reply.session .initiator h.options.mode h.options.maxLines 1 0
          policy := h.options.policy
          dropped := codec.dropped } rest,
        written ++ frameLine
          (sealLine reply.session h.options.mode .initiator 0 reply.serverChallenge.toBase64)⟩ := by
  have hcipher : (codec.withCipher (h.options.cipher reply.session .initiator)).cipher =
      counted reply.session .initiator h.options.mode h.options.maxLines 0 0 := rfl
  have hline : LineCodec.hasLineEnd reply.serverChallenge.toBase64 = false := hasLineEnd_encode _
  have hshort : Base64.encodedLength (Text.utf8 reply.serverChallenge.toBase64).length ≤
      maxLineLength := by
    rw [length_toBase64]
    decide
  have hencode := LineCodec.encode_counted_of_fits hcipher hline hshort hone
  rw [conclude, LineCodec.sending_of_ok hencode]
  rfl

theorem conclude_of_zero (h : ClientHandshake) (codec : LineCodec EnvelopeCipher)
    (second : Option Breach) (reply : ServerOk) (rest written : Bytes)
    (hzero : ¬ 1 ≤ h.options.maxLines.toNat) :
    ∃ failure, h.conclude second codec reply rest written =
      ⟨.rejected failure codec.framing rest, written⟩ := by
  have hcipher : (codec.withCipher (h.options.cipher reply.session .initiator)).cipher =
      counted reply.session .initiator h.options.mode h.options.maxLines 0 0 := rfl
  rcases LineCodec.encode_counted hcipher reply.serverChallenge.toBase64 with
    ⟨e, hencode⟩ | ⟨hone, -⟩
  · refine ⟨⟨"client handshake aborted", some e⟩, ?_⟩
    rw [conclude, LineCodec.sending_of_error hencode]
    rfl
  · exact absurd hone hzero

/-! ### The whole handshake -/

theorem checkUsername_of_check (hname : h.check = .ok h) : checkUsername h.username = .ok () := by
  obtain ⟨⟨⟩, hcheck, -⟩ := bind_eq_ok_iff.1 hname
  exact hcheck

/-- A first message that fits is written, in an envelope. -/
theorem course_of_fits (hname : h.check = .ok h)
    (hfits : h.serverKey.takes (Text.utf8 h.introduction.render).length = true)
    (second : Option Breach) (ended : Bool) (f : Framing) (stream : Bytes) :
    ∃ envelope, h.serverKey.seal? (h.seeds 0) (Text.utf8 h.introduction.render) = some envelope ∧
      h.course none second ended f stream =
        h.accepting second ended
          (.strict f (.between h.serverKey h.key fun i => h.seeds (i + 1))) stream
          (frameLine (Base64.encode envelope)) := by
  have hline : LineCodec.hasLineEnd h.introduction.render = false :=
    Authenticate.hasLineEnd_render (checkUsername_of_check hname)
  obtain ⟨envelope, hseal, hencode⟩ := LineCodec.encode_of_fits
    (c := .strict f (.between h.serverKey h.key h.seeds)) rfl rfl hline hfits
  refine ⟨envelope, hseal, ?_⟩
  rw [course, introducing, LineCodec.sending_of_ok hencode]
  rfl

/-- A first message that does not fit is not written. -/
theorem course_of_not_fits (hname : h.check = .ok h)
    (hfits : ¬ h.serverKey.takes (Text.utf8 h.introduction.render).length = true)
    (first second : Option Breach) (ended : Bool) (f : Framing) (stream : Bytes) :
    ∃ failure f₁, h.course first second ended f stream = ⟨.rejected failure f₁ stream, []⟩ := by
  have hline : LineCodec.hasLineEnd h.introduction.render = false :=
    Authenticate.hasLineEnd_render (checkUsername_of_check hname)
  obtain ⟨e, c', hencode⟩ := LineCodec.encode_of_not_fits
    (c := .strict f (.between h.serverKey h.key h.seeds)) rfl rfl hline hfits
  refine ⟨⟨"client handshake aborted", some e⟩, c'.framing, ?_⟩
  rw [course, introducing, LineCodec.sending_of_error hencode]

/-- **What the handshake of a client comes to**, if nothing that it writes gets lost: it has its
channel, or it was not answered. -/
theorem course_cases (hname : h.check = .ok h) (ended : Bool) (f : Framing) (stream : Bytes) :
    (h.Accepts ended f stream ∧ ∃ envelope challenge session f₁ rest,
        h.serverKey.seal? (h.seeds 0) (Text.utf8 h.introduction.render) = some envelope ∧
        h.Answered ended f stream challenge session f₁ rest ∧
        h.course none none ended f stream =
          ⟨.established h.username
            { framing := f₁
              cipher := counted session .initiator h.options.mode h.options.maxLines 1 0
              policy := h.options.policy } rest,
            frameLine (Base64.encode envelope) ++
              frameLine (sealLine session h.options.mode .initiator 0 challenge.toBase64)⟩) ∨
      (¬ h.Accepts ended f stream ∧
        ∀ username codec rest, (h.course none none ended f stream).ending ≠
          .established username codec rest) := by
  by_cases hfits : h.serverKey.takes (Text.utf8 h.introduction.render).length = true
  · obtain ⟨envelope, hseal, hcourse⟩ := course_of_fits hname hfits none ended f stream
    rw [hcourse]
    rcases h.accepting_cases (.strict f (.between h.serverKey h.key fun i => h.seeds (i + 1)))
        rfl rfl none ended stream (frameLine (Base64.encode envelope)) with
      ⟨challenge, session, f₁, rest, hanswered, haccepting⟩ | ⟨hnone, hend⟩
    · by_cases hone : 1 ≤ h.options.maxLines.toNat
      · refine Or.inl ⟨⟨hfits, ⟨challenge, session, f₁, rest, hanswered⟩, hone⟩, ?_⟩
        refine ⟨envelope, challenge, session, f₁, rest, hseal, hanswered, ?_⟩
        rw [haccepting, conclude_eq _ _ _ _ _ hone]
        rfl
      · refine Or.inr ⟨fun haccepts => hone haccepts.one_le, ?_⟩
        obtain ⟨failure, hconclude⟩ := h.conclude_of_zero { LineCodec.strict f
            (EnvelopeCipher.between h.serverKey h.key fun i => h.seeds (i + 1)) with framing := f₁ }
          none ⟨h.challenge, challenge, session⟩ rest (frameLine (Base64.encode envelope)) hone
        rw [haccepting, hconclude]
        nofun
    · exact Or.inr ⟨fun haccepts => hnone haccepts.answered, hend⟩
  · refine Or.inr ⟨fun haccepts => hfits haccepts.fits, ?_⟩
    obtain ⟨failure, f₁, hcourse⟩ := course_of_not_fits hname hfits none none ended f stream
    rw [hcourse]
    nofun

end ClientHandshake

namespace ClientHandshake

open Party (Move arrived closed)

/-- **The client has its channel exactly if it was answered**: its first message fits the key of the
server, the first line of the stream is the answer to it, and the session may protect a line at all.
Then it has written its first message and the challenge of the server, as the one line under the
session key that it has counted. -/
theorem established_iff_answered (h : ClientHandshake) (hname : h.check = .ok h)
    (raw : PlainLink) (moves : List Move) (hmoves : ∀ breach, Move.fail breach ∉ moves) :
    let p := (Party.run { side := .client h (.start raw) } moves).advance
    let stream := raw.buffer ++ arrived moves
    ((∃ result, p.outcome? = some (.ok result)) ↔ h.Accepts (closed moves) raw.format stream) ∧
      ∀ result, p.outcome? = some (.ok result) → ∃ envelope challenge session f₁ rest,
        h.serverKey.seal? (h.seeds 0) (Text.utf8 h.introduction.render) = some envelope ∧
        h.Answered (closed moves) raw.format stream challenge session f₁ rest ∧
        p.wire.outgoing = frameLine (Base64.encode envelope) ++
          frameLine (Base64.encode (CounterMode.apply
            (Aes.encryptBlock (Aes.roundKeys session.key))
            (CounterMode.counterOfBlock session.iv) (Text.utf8 challenge.toBase64))) ∧
        result.username = h.username ∧
        result.channel.format =
          { framing := f₁
            cipher := counted session .initiator h.options.mode h.options.maxLines 1 0
            policy := h.options.policy } := by
  intro p stream
  have hrun := Party.run_advance (Side.Starts.client h raw) moves hmoves
  change (⟨p.side.ending p.wire, p.wire.outgoing⟩ : Course) =
    h.course none none (closed moves) raw.format stream at hrun
  rcases h.course_cases hname (closed moves) raw.format stream with
    ⟨haccepts, envelope, challenge, session, f₁, rest, hseal, hanswered, hcourse⟩ | ⟨hnot, hend⟩
  · rw [hcourse] at hrun
    obtain ⟨hending, hwritten⟩ := Course.mk.inj hrun
    refine ⟨⟨fun _ => haccepts, fun _ => Side.exists_ok_of_ending hending⟩, ?_⟩
    intro result hresult
    rw [Side.ending_of_ok hresult] at hending
    obtain ⟨husername, hformat, -⟩ := Ending.established.inj hending
    rw [sealLine_first] at hwritten
    exact ⟨envelope, challenge, session, f₁, rest, hseal, hanswered, hwritten, husername, hformat⟩
  · -- a client that has its channel has been answered
    have hnever : ∀ result, p.outcome? ≠ some (.ok result) := by
      intro result hresult
      rw [← hrun] at hend
      exact hend _ _ _ (Side.ending_of_ok hresult)
    refine ⟨⟨?_, fun haccepts => absurd haccepts hnot⟩, ?_⟩
    · rintro ⟨result, hresult⟩
      exact absurd hresult (hnever result)
    · intro result hresult
      exact absurd hresult (hnever result)

/-- A client whose first message fits the key of its server, with a key that an answer fits. -/
def caller : ClientHandshake where
  username := "ann"
  key := .longer
  serverKey := PrivateKey.shorter.toPublic
  options := {}
  challenge := ⟨Vector.replicate 32 7⟩
  seeds _ := Vector.replicate 32 9

/-- The answer to its message. -/
def answerToCaller : ServerOk where
  clientChallenge := caller.challenge
  serverChallenge := ⟨Vector.replicate 32 5⟩
  session := ⟨Vector.replicate 32 1, Vector.replicate 16 2⟩

/-- The answer as it arrives. -/
def answerLine : Bytes :=
  frameLine (Base64.encode ((caller.key.toPublic.seal? (Vector.replicate 32 3)
    (Text.utf8 answerToCaller.render)).getD []))

/-- The client writes its message, and the answer arrives in two pieces. -/
def answeredCall : List Move :=
  [.work, .arrive (answerLine.take 100), .work, .arrive (answerLine.drop 100)]

theorem answered_caller : caller.Answered false {} answerLine answerToCaller.serverChallenge
    answerToCaller.session {} [] := by
  have htakes : caller.key.toPublic.takes (Text.utf8 answerToCaller.render).length = true := by
    decide +kernel
  obtain ⟨reply, hseal⟩ := PublicKey.exists_seal? (Vector.replicate 32 3) htakes
  have hanswered := answered_of_seal? (h := caller) PrivateKey.opens_longer hseal false []
  rw [List.append_nil] at hanswered
  rw [answerLine, hseal]
  exact hanswered

/-- A client that is answered has its channel, and has written its message and the challenge of the
server; while nobody answers it has none. -/
theorem established_iff_answered_caller :
    caller.check = .ok caller ∧ (∀ breach, Move.fail breach ∉ answeredCall) ∧
      (∃ result envelope,
        let p := (Party.run { side := .client caller (.start { format := {} }) }
          answeredCall).advance
        p.outcome? = some (.ok result) ∧ result.username = "ann" ∧
        caller.serverKey.seal? (caller.seeds 0) (Text.utf8 caller.introduction.render) =
          some envelope ∧
        p.wire.outgoing = frameLine (Base64.encode envelope) ++
          frameLine (Base64.encode (CounterMode.apply
            (Aes.encryptBlock (Aes.roundKeys (Vector.replicate 32 1)))
            (CounterMode.counterOfBlock (Vector.replicate 16 2))
            (Text.utf8 answerToCaller.serverChallenge.toBase64))) ∧
        result.channel.format.cipher =
          counted answerToCaller.session .initiator .sequenced SessionCipher.defaultMaxLines 1 0) ∧
      ¬ ∃ result, (Party.run { side := .client caller (.start { format := {} }) }
        [.work]).advance.outcome? = some (.ok result) := by
  have hcheck : caller.check = .ok caller := rfl
  have hmoves : ∀ breach, Move.fail breach ∉ answeredCall := by simp [answeredCall]
  have hstream : arrived answeredCall = answerLine := by
    simp only [answeredCall, arrived, List.append_nil, List.take_append_drop]
  obtain ⟨hiff, hresults⟩ :=
    established_iff_answered caller hcheck { format := {} } answeredCall hmoves
  rw [List.nil_append, hstream] at hiff hresults
  have haccepts : caller.Accepts false {} answerLine :=
    ⟨by decide +kernel, ⟨_, _, _, _, answered_caller⟩, by decide⟩
  refine ⟨hcheck, hmoves, ?_, ?_⟩
  · obtain ⟨result, hresult⟩ := hiff.2 haccepts
    obtain ⟨envelope, challenge, session, f₁, rest, hseal, hanswered, hout, hname, hformat⟩ :=
      hresults result hresult
    obtain ⟨rfl, rfl, rfl, rfl⟩ := answered_caller.unique hanswered
    exact ⟨result, envelope, hresult, hname, hseal, hout, congrArg LineCodec.cipher hformat⟩
  · intro hestablished
    obtain ⟨-, ⟨_, _, _, _, ⟨_, hline, -⟩⟩, -⟩ :=
      (established_iff_answered caller hcheck { format := {} } [.work] (by simp)).1.1 hestablished
    cases hline

end ClientHandshake

end LineChat
