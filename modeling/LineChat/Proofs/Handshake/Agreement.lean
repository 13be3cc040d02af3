/-
**Two honest parties come to agree.**

A client that holds the key of its server, and a server whose directory knows the user, need nothing
but that what they write arrives.  If both messages fit the keys, the handshake comes to its end in
every order of events, and both sides have the same session: the key, the counters of the two
directions crosswise, and the one line that went over it.  If one of the messages does not fit, the
handshake comes to its end in no order of events.

Each side follows the course of what it has heard, so there are only a few streams to consider: the
beginnings of the three messages, and the messages themselves.  That a key opens its envelopes is
taken for granted here.

Main definitions:

* `LineChat.Honest` — **what two parties need**;
* `LineChat.Fits` — the two messages fit the keys;
* `LineChat.Talk` — how far two honest parties can be;
* `LineChat.Agreed` — **what it means to agree**.

Main results:

* `LineChat.Honest.client_waits`, `LineChat.Honest.client_established`,
  `LineChat.Honest.server_waits`, `LineChat.Honest.server_waits_again`,
  `LineChat.Honest.server_established` — the courses of honest parties;
* `LineChat.Honest.talk` — what two honest parties come to at any time;
* `LineChat.Honest.agreed_of_quiet` — honest parties that are at rest agree;
* `LineChat.Honest.complete_and_agree` — **every fair run ends in agreement**, and no run does if a
  message does not fit.
-/

import LineChat.Proofs.Handshake.Duplex
import LineChat.Proofs.Key.Envelope
import LineChat.Proofs.Key.RoundTrip

set_option autoImplicit false

namespace LineChat

open SessionCipher (counted peerOf)

/-! ### Lines of base64 that arrive -/

section

variable {bs : Bytes}

theorem nil_ne_frameLine (line : String) : [] ≠ frameLine line :=
  (List.concat_ne_nil _ _).symm

/-- **The beginning of a line** holds no line. -/
theorem decode_front {σ : Type} [LineCipher σ] {codec : LineCodec σ} {s : Bytes}
    (hframing : codec.framing = {}) (hlen : (Base64.encodeBytes bs).length ≤ maxLineLength)
    (hfront : s <+: frameLine (Base64.encode bs)) (hne : s ≠ frameLine (Base64.encode bs)) :
    codec.decode false s = (.ok none, codec, s) := by
  rw [frameLine, Base64.utf8_encode] at hfront hne
  have hshort : s <+: Base64.encodeBytes bs := by
    rcases List.prefix_concat_iff.1 hfront with heq | hshort
    · exact absurd heq hne
    · exact hshort
  have hfeed : lineFeed ∉ s := fun hmem => lineFeed_notMem_encodeBytes bs (hshort.subset hmem)
  exact LineCodec.decode_of_notMem hframing hfeed (hshort.length_le.trans hlen)

end

namespace ServerHandshake

/-- The server writes nothing behind its message. -/
theorem written_conclude (h : ServerHandshake) (ended : Bool) (username : String)
    (codec : LineCodec SessionCipher) (bytes written : Bytes) :
    (h.conclude ended username codec bytes written).written = written := by
  have hawaits := h.conclude_awaits ended username codec bytes written
  generalize h.conclude ended username codec bytes written = course at hawaits ⊢
  cases hawaits <;> rfl

theorem recognise_toBase64 (h : ServerHandshake) : h.recognise h.challenge.toBase64 = .ok () := by
  refine bind_eq_ok_iff.2 ⟨h.challenge, ?_, ?_⟩
  · exact orFail_eq_ok_iff.2 (Challenge.ofBase64_eq_ok_iff.2 rfl)
  · exact if_neg (not_not_intro rfl)

end ServerHandshake

/-! ### Honest parties -/

/-- **What two parties need**: a name that can stand in a message and is in the directory with the
client's key, the key of the server at the client, keys that are accepted and open their envelopes,
the same layout of counters, and leave to protect a line. -/
structure Honest (hc : ClientHandshake) (hs : ServerHandshake) : Prop where
  username : hc.check = .ok hc
  directory : hs.directory hc.username = some hc.key.toPublic
  serverKey : hc.serverKey = hs.key.toPublic
  userBits : hc.key.toPublic.bits ≤ PublicKey.maxBits
  serverBits : hs.key.toPublic.bits ≤ PublicKey.maxBits
  userOpens : hc.key.Opens
  serverOpens : hs.key.Opens
  mode : hc.options.mode = hs.options.mode
  userLines : 1 ≤ hc.options.maxLines.toNat
  serverLines : 1 ≤ hs.options.maxLines.toNat

/-- **The two messages fit the keys.** -/
structure Fits (hc : ClientHandshake) (hs : ServerHandshake) : Prop where
  first : (Text.utf8 hc.username).length + 59 + 66 ≤ hs.key.toPublic.size
  second : 163 + 66 ≤ hc.key.toPublic.size

/-- The answer of the server to the message of the client. -/
def answerTo (hc : ClientHandshake) (hs : ServerHandshake) : ServerOk := hs.reply hc.introduction

/-- The line that confirms the session. -/
def confirmation (hs : ServerHandshake) : Bytes :=
  frameLine (sealLine hs.session hs.options.mode .initiator 0 hs.challenge.toBase64)

/-- The channel that an honest client ends with. -/
def clientEnd (hc : ClientHandshake) (hs : ServerHandshake) : Ending :=
  .established hc.username
    { framing := {}
      cipher := counted hs.session .initiator hc.options.mode hc.options.maxLines 1 0
      policy := hc.options.policy } []

/-- The channel that an honest server ends with. -/
def serverEnd (hc : ClientHandshake) (hs : ServerHandshake) : Ending :=
  .established hc.username
    { framing := {}
      cipher := counted hs.session .responder hs.options.mode hs.options.maxLines 0 1
      policy := hs.options.policy } []

theorem length_confirmation (hs : ServerHandshake) : (Base64.encodeBytes (CounterMode.apply
    (Aes.encryptBlock (Aes.roundKeys hs.session.key))
    (lineCounter hs.options.mode (baseCounter hs.options.mode hs.session.iv .initiator) 0)
    (Text.utf8 hs.challenge.toBase64))).length ≤ maxLineLength := by
  rw [Base64.length_encodeBytes, CounterMode.length_apply, length_toBase64]
  decide

/-- What the two sides come to on what they hear. -/
def courses (hc : ClientHandshake) (hs : ServerHandshake) (role : Role)
    (first second : Option Breach) (ended : Bool) (stream : Bytes) : Course :=
  match role with
  | .initiator => hc.course first second ended {} stream
  | .responder => hs.course first ended {} stream

theorem linked_run (hc : ClientHandshake) (hs : ServerHandshake) (events : List Duplex.Event) :
    ((Duplex.start hc hs).run events).Linked (courses hc hs) := by
  have hstart := Duplex.linked_start hc hs
  have hsame : (fun role first second ended stream =>
      ((Duplex.start hc hs).party role).side.course first second ended {} stream) =
        courses hc hs := by
    funext role first second ended stream
    cases role with
    | initiator => rfl
    | responder => rfl
  rw [hsame] at hstart
  exact Duplex.linked_run hstart events

/-- **How far two honest parties can be**, if these are their first two messages. -/
inductive Talk (hc : ClientHandshake) (hs : ServerHandshake) (first second : Bytes) (d : Duplex) :
    Prop
  /-- The server waits for the first message. -/
  | opening (hne : d.heard .responder ≠ first)
      (hclient : d.prospect (courses hc hs) .initiator = ⟨.waiting, first⟩)
      (hserver : d.prospect (courses hc hs) .responder = ⟨.waiting, []⟩)
  /-- The client waits for the second message. -/
  | answering (hne : d.heard .initiator ≠ second)
      (hclient : d.prospect (courses hc hs) .initiator = ⟨.waiting, first⟩)
      (hserver : d.prospect (courses hc hs) .responder = ⟨.waiting, second⟩)
  /-- The server waits for the third message. -/
  | confirming (hne : d.heard .responder ≠ first ++ confirmation hs)
      (hclient : d.prospect (courses hc hs) .initiator =
        ⟨clientEnd hc hs, first ++ confirmation hs⟩)
      (hserver : d.prospect (courses hc hs) .responder = ⟨.waiting, second⟩)
  /-- Nobody waits. -/
  | agreed (hclient : d.prospect (courses hc hs) .initiator =
        ⟨clientEnd hc hs, first ++ confirmation hs⟩)
      (hserver : d.prospect (courses hc hs) .responder = ⟨serverEnd hc hs, second⟩)

namespace Talk

variable {hc : ClientHandshake} {hs : ServerHandshake} {first second : Bytes} {d : Duplex}

/-- **Nobody comes to fail.** -/
theorem ending_ne_rejected (h : Talk hc hs first second d) (role : Role)
    (failure : HandshakeFailure) (framing : Framing) (rest : Bytes) :
    (d.prospect (courses hc hs) role).ending ≠ .rejected failure framing rest := by
  intro hending
  cases h with
  | opening _ hclient hserver =>
      cases role with
      | initiator => rw [hclient] at hending; cases hending
      | responder => rw [hserver] at hending; cases hending
  | answering _ hclient hserver =>
      cases role with
      | initiator => rw [hclient] at hending; cases hending
      | responder => rw [hserver] at hending; cases hending
  | confirming _ hclient hserver =>
      cases role with
      | initiator => rw [hclient] at hending; cases hending
      | responder => rw [hserver] at hending; cases hending
  | agreed hclient hserver =>
      cases role with
      | initiator => rw [hclient] at hending; cases hending
      | responder => rw [hserver] at hending; cases hending

theorem length_written_le (h : Talk hc hs first second d) (role : Role) :
    (d.prospect (courses hc hs) role).written.length ≤
      first.length + (confirmation hs).length + second.length := by
  cases h with
  | opening _ hclient hserver =>
      cases role <;> simp only [hclient, hserver, List.length_nil] <;> omega
  | answering _ hclient hserver => cases role <;> simp only [hclient, hserver] <;> omega
  | confirming _ hclient hserver =>
      cases role <;> simp only [hclient, hserver, List.length_append] <;> omega
  | agreed hclient hserver =>
      cases role <;> simp only [hclient, hserver, List.length_append] <;> omega

/-- **A conversation that is at rest** has come to its end. -/
theorem agreed_of_quiet (h : Talk hc hs first second d) (hlinked : d.Linked (courses hc hs))
    (hquiet : d.Quiet) :
    (d.prospect (courses hc hs) .initiator).ending = clientEnd hc hs ∧
      (d.prospect (courses hc hs) .responder).ending = serverEnd hc hs := by
  have hserverHeard : d.heard .responder = (d.prospect (courses hc hs) .initiator).written :=
    hquiet.heard_eq hlinked .responder
  have hclientHeard : d.heard .initiator = (d.prospect (courses hc hs) .responder).written :=
    hquiet.heard_eq hlinked .initiator
  cases h with
  | opening hne hclient _ =>
      rw [hclient] at hserverHeard
      exact absurd hserverHeard hne
  | answering hne _ hserver =>
      rw [hserver] at hclientHeard
      exact absurd hclientHeard hne
  | confirming hne hclient _ =>
      rw [hclient] at hserverHeard
      exact absurd hserverHeard hne
  | agreed hclient hserver =>
      rw [hclient, hserver]
      exact ⟨rfl, rfl⟩

end Talk

/-- **What it means to agree**: the same user, the same key, the counters of the two directions
crosswise, one line that went over, and nothing dropped. -/
structure Agreed (hc : ClientHandshake) (hs : ServerHandshake) (client server : Established) :
    Prop where
  clientName : client.username = hc.username
  serverName : server.username = hc.username
  key : client.channel.format.cipher.key = server.channel.format.cipher.key
  there : client.channel.format.cipher.outbound.base = server.channel.format.cipher.inbound.base
  back : client.channel.format.cipher.inbound.base = server.channel.format.cipher.outbound.base
  clientSent : client.channel.format.cipher.linesSent = 1
  clientReceived : client.channel.format.cipher.linesReceived = 0
  serverSent : server.channel.format.cipher.linesSent = 0
  serverReceived : server.channel.format.cipher.linesReceived = 1
  clientDropped : client.channel.format.dropped = 0
  serverDropped : server.channel.format.dropped = 0
  clientPolicy : client.channel.format.policy = hc.options.policy
  serverPolicy : server.channel.format.policy = hs.options.policy

namespace Honest

variable {hc : ClientHandshake} {hs : ServerHandshake} {envelope reply : Bytes} {ended : Bool}
  {s : Bytes}

theorem serverKey_bits_le (h : Honest hc hs) : hc.serverKey.bits ≤ PublicKey.maxBits := by
  rw [h.serverKey]
  exact h.serverBits

theorem takes_first_iff (h : Honest hc hs) :
    hc.serverKey.takes (Text.utf8 hc.introduction.render).length = true ↔
      (Text.utf8 hc.username).length + 59 + 66 ≤ hs.key.toPublic.size := by
  rw [PublicKey.takes_iff, and_iff_right h.serverKey_bits_le, Authenticate.length_render,
    h.serverKey]
  rfl

theorem takes_second_iff (h : Honest hc hs) :
    hc.key.toPublic.takes (Text.utf8 (answerTo hc hs).render).length = true ↔
      163 + 66 ≤ hc.key.toPublic.size := by
  rw [PublicKey.takes_iff, and_iff_right h.userBits, ServerOk.length_render]

/-! ### The client -/

section

variable (h : Honest hc hs)
  (hfirst : hc.serverKey.seal? (hc.seeds 0) (Text.utf8 hc.introduction.render) = some envelope)
  (hsecond : hc.key.toPublic.seal? (hs.seeds 0) (Text.utf8 (answerTo hc hs).render) = some reply)

include h hfirst

/-- A client whose message fits has written it, and goes on with what it hears. -/
theorem client_accepting (ended : Bool) (s : Bytes) :
    hc.course none none ended {} s =
      hc.accepting none ended
        (.strict {} (.between hc.serverKey hc.key fun i => hc.seeds (i + 1))) s
        (frameLine (Base64.encode envelope)) := by
  obtain ⟨envelope', hseal, hcourse⟩ := ClientHandshake.course_of_fits h.username
    (PublicKey.takes_of_seal? hfirst) none ended {} s
  rw [hseal] at hfirst
  obtain rfl := Option.some.inj hfirst
  exact hcourse

theorem client_front (ended : Bool) (s : Bytes) :
    frameLine (Base64.encode envelope) <+: (hc.course none none ended {} s).written := by
  rw [h.client_accepting hfirst]
  exact (hc.accepting_awaits ..).written_front fun _ _ _ =>
    (hc.conclude_sends ..).written_front fun _ _ => List.prefix_refl _

include hsecond

theorem client_waits (hfront : s <+: frameLine (Base64.encode reply))
    (hne : s ≠ frameLine (Base64.encode reply)) :
    hc.course none none false {} s = ⟨.waiting, frameLine (Base64.encode envelope)⟩ := by
  have hlen : (Base64.encodeBytes reply).length ≤ maxLineLength :=
    PublicKey.length_encodeBytes_le hsecond
  rw [h.client_accepting hfirst, ClientHandshake.accepting]
  refine Side.awaiting_of_none ?_
  rw [decode_front rfl hlen hfront hne]

omit hfirst in
theorem answered (ended : Bool) : hc.Answered ended {} (frameLine (Base64.encode reply))
    hs.challenge hs.session {} [] := by
  have hanswered := ClientHandshake.answered_of_seal? h.userOpens hsecond ended []
  rwa [List.append_nil] at hanswered

theorem client_established (ended : Bool) :
    hc.course none none ended {} (frameLine (Base64.encode reply)) =
      ⟨clientEnd hc hs, frameLine (Base64.encode envelope) ++ confirmation hs⟩ := by
  have hanswered := h.answered hsecond ended
  have haccepts : hc.Accepts ended {} (frameLine (Base64.encode reply)) :=
    ⟨PublicKey.takes_of_seal? hfirst, ⟨_, _, _, _, hanswered⟩, h.userLines⟩
  rcases hc.course_cases h.username ended {} (frameLine (Base64.encode reply)) with
    ⟨-, envelope', challenge, session, f₁, rest, hseal, hother, hcourse⟩ | ⟨hnot, -⟩
  · rw [hseal] at hfirst
    obtain rfl := Option.some.inj hfirst
    obtain ⟨rfl, rfl, rfl, rfl⟩ := hother.unique hanswered
    rw [hcourse, clientEnd, h.mode]
    rfl
  · exact absurd haccepts hnot

end

/-! ### The server -/

section

variable (h : Honest hc hs)
  (hfirst : hc.serverKey.seal? (hc.seeds 0) (Text.utf8 hc.introduction.render) = some envelope)

include h hfirst

omit h in
theorem server_waits (hfront : s <+: frameLine (Base64.encode envelope))
    (hne : s ≠ frameLine (Base64.encode envelope)) :
    hs.course none false {} s = ⟨.waiting, []⟩ := by
  rw [ServerHandshake.course, ServerHandshake.identifying]
  refine Side.awaiting_of_none ?_
  rw [decode_front rfl (PublicKey.length_encodeBytes_le hfirst) hfront hne]

/-- The server opens the first message. -/
theorem decrypt_first : (EnvelopeCipher.openOnly hs.key hs.seeds).decrypt (Base64.encode envelope) =
    (.ok hc.introduction.render, .openOnly hs.key hs.seeds) := by
  have hopen : hs.key.unseal envelope = .ok (Text.utf8 hc.introduction.render) := by
    rw [h.serverKey] at hfirst
    exact h.serverOpens _ _ _ hfirst
  exact EnvelopeCipher.decrypt_openOnly_eq_ok_iff.2 ⟨rfl, envelope, rfl, hopen⟩

omit hfirst in
/-- The server knows who the first message is from. -/
theorem identify_first :
    hs.identify hc.introduction.render = .ok (hc.introduction, hc.key.toPublic) :=
  ServerHandshake.identify_eq_ok_iff.2 ⟨Authenticate.parse_eq_ok_iff.2
    ⟨rfl, ClientHandshake.checkUsername_of_check h.username⟩, h.directory⟩

omit hfirst in
/-- The server decrypts the third message. -/
theorem decrypt_confirmation : (hs.options.cipher hs.session .responder).decrypt
    (sealLine hs.session hs.options.mode .initiator 0 hs.challenge.toBase64) =
      (.ok hs.challenge.toBase64,
        counted hs.session .responder hs.options.mode hs.options.maxLines 0 1) :=
  ServerHandshake.decrypt_first_eq_ok_iff.2 ⟨h.serverLines, rfl, rfl⟩

/-- **The server reads the first message**, whatever is behind it. -/
theorem server_responds (ended : Bool) (s : Bytes) :
    hs.course none ended {} (frameLine (Base64.encode envelope) ++ s) =
      hs.respond none ended (.strict {} (.openOnly hs.key hs.seeds)) hc.introduction
        hc.key.toPublic s [] := by
  have hline := Framing.decode_frameLine_encode (PublicKey.length_encodeBytes_le hfirst) ended s
  have hdecode :
      (LineCodec.strict {} (EnvelopeCipher.openOnly hs.key hs.seeds)).decode ended
        (frameLine (Base64.encode envelope) ++ s) =
        (.ok (some hc.introduction.render), .strict {} (.openOnly hs.key hs.seeds), s) :=
    (LineCodec.decode_eq_line_iff rfl).2 ⟨_, _, _, hline, h.decrypt_first hfirst, rfl⟩
  rw [ServerHandshake.course, ServerHandshake.identifying,
    LineCodec.awaiting_of_ok hdecode h.identify_first]

/-- A second message that does not fit is not written. -/
theorem server_refuses (hlong : ¬ 163 + 66 ≤ hc.key.toPublic.size) (ended : Bool) (s : Bytes) :
    ∃ failure framing, hs.course none ended {} (frameLine (Base64.encode envelope) ++ s) =
      ⟨.rejected failure framing s, []⟩ := by
  have hfits : ¬ hc.key.toPublic.takes (Text.utf8 (answerTo hc hs).render).length = true :=
    mt h.takes_second_iff.1 hlong
  obtain ⟨e, codec, hencode⟩ := LineCodec.encode_of_not_fits
    (c := .strict {} (.between hc.key.toPublic hs.key hs.seeds)) rfl rfl
    (ServerOk.hasLineEnd_render (answerTo hc hs)) hfits
  refine ⟨⟨"server handshake aborted", some e⟩, codec.framing, ?_⟩
  rw [h.server_responds hfirst, ServerHandshake.respond]
  exact LineCodec.sending_of_error hencode ..

variable
  (hsecond : hc.key.toPublic.seal? (hs.seeds 0) (Text.utf8 (answerTo hc hs).render) = some reply)

include hsecond

/-- A server whose message fits has written it, and goes on with what is behind the first one. -/
theorem server_concludes (ended : Bool) (s : Bytes) :
    hs.course none ended {} (frameLine (Base64.encode envelope) ++ s) =
      hs.conclude ended hc.username (.strict {} (hs.options.cipher hs.session .responder)) s
        (frameLine (Base64.encode reply)) := by
  obtain ⟨reply', hseal, hencode⟩ := LineCodec.encode_of_fits
    (c := .strict {} (.between hc.key.toPublic hs.key hs.seeds)) rfl rfl
    (ServerOk.hasLineEnd_render (answerTo hc hs)) (PublicKey.takes_of_seal? hsecond)
  rw [hseal] at hsecond
  obtain rfl := Option.some.inj hsecond
  rw [h.server_responds hfirst, ServerHandshake.respond]
  exact LineCodec.sending_of_ok hencode _ _ _ _

theorem server_written (ended : Bool) (s : Bytes) :
    (hs.course none ended {} (frameLine (Base64.encode envelope) ++ s)).written =
      frameLine (Base64.encode reply) := by
  rw [h.server_concludes hfirst hsecond]
  exact ServerHandshake.written_conclude ..

theorem server_waits_again (hfront : s <+: confirmation hs) (hne : s ≠ confirmation hs) :
    hs.course none false {} (frameLine (Base64.encode envelope) ++ s) =
      ⟨.waiting, frameLine (Base64.encode reply)⟩ := by
  rw [h.server_concludes hfirst hsecond, ServerHandshake.conclude]
  refine Side.awaiting_of_none ?_
  rw [decode_front rfl (length_confirmation hs) hfront hne]

theorem server_established (ended : Bool) :
    hs.course none ended {} (frameLine (Base64.encode envelope) ++ confirmation hs) =
      ⟨serverEnd hc hs, frameLine (Base64.encode reply)⟩ := by
  have hline := Framing.decode_frameLine_encode (length_confirmation hs) ended []
  rw [List.append_nil] at hline
  have hdecode : (LineCodec.strict {} (hs.options.cipher hs.session .responder)).decode ended
      (confirmation hs) = (.ok (some hs.challenge.toBase64),
        .strict {} (counted hs.session .responder hs.options.mode hs.options.maxLines 0 1), []) :=
    (LineCodec.decode_eq_line_iff rfl).2 ⟨_, _, _, hline, h.decrypt_confirmation, rfl⟩
  have hrecognise : hs.recognise hs.challenge.toBase64 = .ok () :=
    ServerHandshake.recognise_toBase64 hs
  rw [h.server_concludes hfirst hsecond, ServerHandshake.conclude,
    LineCodec.awaiting_of_ok hdecode hrecognise]
  rfl

end

/-! ### The conversation -/

section

variable {d : Duplex} (h : Honest hc hs) (hlinked : d.Linked (courses hc hs))
  (hfirst : hc.serverKey.seal? (hc.seeds 0) (Text.utf8 hc.introduction.render) = some envelope)

include h hlinked hfirst

/-- **What a server hears** is not yet the whole first message, or more than that. -/
theorem heard_responder_cases :
    (d.heard .responder <+: frameLine (Base64.encode envelope) ∧
        d.heard .responder ≠ frameLine (Base64.encode envelope) ∧
        (d.party .responder).wire.finished = false) ∨
      ∃ s, d.heard .responder = frameLine (Base64.encode envelope) ++ s := by
  have hheard : d.heard .responder <+: (d.prospect (courses hc hs) .initiator).written :=
    Duplex.heard_front hlinked .responder
  have hwritten : frameLine (Base64.encode envelope) <+:
      (d.prospect (courses hc hs) .initiator).written := h.client_front hfirst ..
  by_cases hall : frameLine (Base64.encode envelope) <+: d.heard .responder
  · obtain ⟨s, hs⟩ := hall
    exact Or.inr ⟨s, hs.symm⟩
  · refine Or.inl ⟨?_, ?_, ?_⟩
    · exact (List.prefix_or_prefix_of_prefix hheard hwritten).resolve_right hall
    · intro heq
      rw [heq] at hall
      exact hall (List.prefix_refl _)
    · by_contra hfinished
      have hdone := (Duplex.heard_of_finished hlinked (by simpa using hfinished)).1
      rw [hdone] at hall
      exact hall hwritten

omit h hlinked in
/-- A server that has not heard the first message waits, and has nothing to say. -/
theorem prospect_responder_of_short
    (hshort : d.heard .responder <+: frameLine (Base64.encode envelope))
    (hne : d.heard .responder ≠ frameLine (Base64.encode envelope))
    (hopen : (d.party .responder).wire.finished = false) :
    d.prospect (courses hc hs) .responder = ⟨.waiting, []⟩ := by
  rw [Duplex.prospect, hopen]
  exact server_waits hfirst hshort hne

variable
  (hsecond : hc.key.toPublic.seal? (hs.seeds 0) (Text.utf8 (answerTo hc hs).render) = some reply)

include hsecond

omit hlinked in
/-- A client that has not heard the second message waits. -/
theorem prospect_initiator_of_short
    (hshort : d.heard .initiator <+: frameLine (Base64.encode reply))
    (hne : d.heard .initiator ≠ frameLine (Base64.encode reply))
    (hopen : (d.party .initiator).wire.finished = false) :
    d.prospect (courses hc hs) .initiator = ⟨.waiting, frameLine (Base64.encode envelope)⟩ := by
  rw [Duplex.prospect, hopen]
  exact h.client_waits hfirst hsecond hshort hne

/-- While the first message is on the way, nobody has anything to say about it. -/
theorem talk_of_short (hshort : d.heard .responder <+: frameLine (Base64.encode envelope))
    (hne : d.heard .responder ≠ frameLine (Base64.encode envelope))
    (hopen : (d.party .responder).wire.finished = false) :
    Talk hc hs (frameLine (Base64.encode envelope)) (frameLine (Base64.encode reply)) d := by
  have hserver : d.prospect (courses hc hs) .responder = ⟨.waiting, []⟩ :=
    prospect_responder_of_short hfirst hshort hne hopen
  have hnothing : d.heard .initiator = [] := Duplex.heard_eq_nil hlinked (by rw [peerOf, hserver])
  have hopen' : (d.party .initiator).wire.finished = false :=
    Duplex.finished_of_waiting hlinked (by rw [peerOf, hserver])
  refine .opening hne (h.prospect_initiator_of_short hfirst hsecond ?_ ?_ hopen') hserver
  · rw [hnothing]
    exact List.nil_prefix
  · rw [hnothing]
    exact nil_ne_frameLine _

omit hlinked in
theorem written_responder {s : Bytes}
    (hheard : d.heard .responder = frameLine (Base64.encode envelope) ++ s) :
    (d.prospect (courses hc hs) .responder).written = frameLine (Base64.encode reply) := by
  rw [Duplex.prospect, hheard]
  exact h.server_written hfirst hsecond _ s

/-- While the second message is on the way, the client has no more to say than the first one. -/
theorem talk_of_unanswered {s : Bytes}
    (hheard : d.heard .responder = frameLine (Base64.encode envelope) ++ s)
    (hne : d.heard .initiator ≠ frameLine (Base64.encode reply)) :
    Talk hc hs (frameLine (Base64.encode envelope)) (frameLine (Base64.encode reply)) d := by
  have hwritten := h.written_responder hfirst hsecond hheard
  have hshort : d.heard .initiator <+: frameLine (Base64.encode reply) := by
    rw [← hwritten]
    exact Duplex.heard_front hlinked .initiator
  have hopen : (d.party .initiator).wire.finished = false := by
    by_contra hfinished
    have hdone : d.heard .initiator = (d.prospect (courses hc hs) .responder).written :=
      (Duplex.heard_of_finished hlinked (by simpa using hfinished)).1
    exact hne (hdone.trans hwritten)
  have hclient := h.prospect_initiator_of_short hfirst hsecond hshort hne hopen
  have hnomore : s = [] := by
    have hfront : d.heard .responder <+: (d.prospect (courses hc hs) .initiator).written :=
      Duplex.heard_front hlinked .responder
    rw [hclient, hheard] at hfront
    have hlen := hfront.length_le
    simp only [List.length_append] at hlen
    exact List.length_eq_zero_iff.1 (by omega)
  have hopen' : (d.party .responder).wire.finished = false :=
    Duplex.finished_of_waiting hlinked (by rw [peerOf, hclient])
  refine .answering hne hclient ?_
  rw [Duplex.prospect, hheard, hopen', hnomore]
  exact h.server_waits_again hfirst hsecond List.nil_prefix (nil_ne_frameLine _)

/-- A client that has heard the second message is done, and the server is if it has heard the third
one. -/
theorem talk_of_answered {s : Bytes}
    (hheard : d.heard .responder = frameLine (Base64.encode envelope) ++ s)
    (hanswered : d.heard .initiator = frameLine (Base64.encode reply)) :
    Talk hc hs (frameLine (Base64.encode envelope)) (frameLine (Base64.encode reply)) d := by
  have hclient : d.prospect (courses hc hs) .initiator =
      ⟨clientEnd hc hs, frameLine (Base64.encode envelope) ++ confirmation hs⟩ := by
    rw [Duplex.prospect, hanswered]
    exact h.client_established hfirst hsecond _
  by_cases hconfirmed : s = confirmation hs
  · refine .agreed hclient ?_
    rw [Duplex.prospect, hheard, hconfirmed]
    exact h.server_established hfirst hsecond _
  · have hne : d.heard .responder ≠ frameLine (Base64.encode envelope) ++ confirmation hs := by
      rw [hheard]
      exact fun heq => hconfirmed (List.append_cancel_left heq)
    have hfront : d.heard .responder <+: (d.prospect (courses hc hs) .initiator).written :=
      Duplex.heard_front hlinked .responder
    have hopen : (d.party .responder).wire.finished = false := by
      by_contra hfinished
      have hdone : d.heard .responder = (d.prospect (courses hc hs) .initiator).written :=
        (Duplex.heard_of_finished hlinked (by simpa using hfinished)).1
      rw [hclient] at hdone
      exact hne hdone
    refine .confirming hne hclient ?_
    rw [hclient, hheard] at hfront
    rw [Duplex.prospect, hheard, hopen]
    exact h.server_waits_again hfirst hsecond ((List.prefix_append_right_inj _).1 hfront)
      hconfirmed

/-- **What two honest parties come to** is the same in all orders of events, but for how far they
are. -/
theorem talk :
    Talk hc hs (frameLine (Base64.encode envelope)) (frameLine (Base64.encode reply)) d := by
  rcases h.heard_responder_cases hlinked hfirst with ⟨hshort, hne, hopen⟩ | ⟨s, hheard⟩
  · exact h.talk_of_short hlinked hfirst hsecond hshort hne hopen
  · by_cases hanswered : d.heard .initiator = frameLine (Base64.encode reply)
    · exact h.talk_of_answered hlinked hfirst hsecond hheard hanswered
    · exact h.talk_of_unanswered hlinked hfirst hsecond hheard hanswered

end

/-! ### Complete runs -/

section

variable {events : List Duplex.Event} (h : Honest hc hs) (hfits : Fits hc hs)

include h hfits

theorem exists_talk : ∃ first second, ∀ events : List Duplex.Event,
    Talk hc hs first second ((Duplex.start hc hs).run events) := by
  obtain ⟨envelope, hseal⟩ :=
    PublicKey.exists_seal? (hc.seeds 0) (h.takes_first_iff.2 hfits.first)
  obtain ⟨reply, hreply⟩ :=
    PublicKey.exists_seal? (hs.seeds 0) (h.takes_second_iff.2 hfits.second)
  exact ⟨_, _, fun events => h.talk (linked_run hc hs events) hseal hreply⟩

/-- **No run of honest parties fails.** -/
theorem never_fails (events : List Duplex.Event) (role : Role) :
    (((Duplex.start hc hs).run events).party role).side.phase ≠ .failed := by
  intro hfailed
  obtain ⟨first, second, htalk⟩ := h.exists_talk hfits
  obtain ⟨result, hresult⟩ := Side.phase_eq_failed_iff.1 hfailed
  have hprospect := Duplex.prospect_of_error (linked_run hc hs events) hresult
  exact (htalk events).ending_ne_rejected role _ _ _ (congrArg Course.ending hprospect)

/-- **Two honest parties that are at rest agree.** -/
theorem agreed_of_quiet (hquiet : ((Duplex.start hc hs).run events).Quiet) :
    ∃ client server,
      (((Duplex.start hc hs).run events).party .initiator).outcome? = some (.ok client) ∧
      (((Duplex.start hc hs).run events).party .responder).outcome? = some (.ok server) ∧
      Agreed hc hs client server := by
  obtain ⟨first, second, htalk⟩ := h.exists_talk hfits
  have hlinked := linked_run hc hs events
  obtain ⟨hclient, hserver⟩ := (htalk events).agreed_of_quiet hlinked hquiet
  rw [hquiet.prospect_eq hlinked] at hclient hserver
  obtain ⟨client, hclientOk⟩ := Side.exists_ok_of_ending hclient
  obtain ⟨server, hserverOk⟩ := Side.exists_ok_of_ending hserver
  refine ⟨client, server, hclientOk, hserverOk, ?_⟩
  rw [Side.ending_of_ok hclientOk] at hclient
  rw [Side.ending_of_ok hserverOk] at hserver
  obtain ⟨hclientName, hclientFormat, -⟩ := Ending.established.inj hclient
  obtain ⟨hserverName, hserverFormat, -⟩ := Ending.established.inj hserver
  refine ⟨hclientName, hserverName, ?_, ?_, ?_, ?_, ?_, ?_, ?_, ?_, ?_, ?_, ?_⟩
  all_goals simp only [hclientFormat, hserverFormat, counted, h.mode, peerOf,
    SessionCipher.linesSent, SessionCipher.linesReceived]

/-- **Every fair run comes to agreement**, and stays there. -/
theorem exists_agreed {schedule : Nat → Duplex.Event} (hfair : Duplex.Fair schedule) :
    ∃ N, ∀ n, N ≤ n → ∃ client server,
      (((Duplex.start hc hs).after schedule n).party .initiator).outcome? = some (.ok client) ∧
      (((Duplex.start hc hs).after schedule n).party .responder).outcome? = some (.ok server) ∧
      Agreed hc hs client server := by
  obtain ⟨first, second, htalk⟩ := h.exists_talk hfits
  obtain ⟨N, hquiet⟩ := Duplex.exists_quiet (linked_run hc hs []) hfair fun n role =>
    (Duplex.outgoing_front (linked_run hc hs _) role).length_le.trans
      ((htalk _).length_written_le role)
  exact ⟨N, fun n hn => h.agreed_of_quiet hfits (hquiet n hn)⟩

end

/-! ### Messages that do not fit -/

theorem decode_nil (ended : Bool) : ({} : Framing).decode ended [] = (.ok none, {}, []) := by
  cases ended <;> rfl

theorem client_silence (h : Honest hc hs) (ended : Bool) (username : String)
    (codec : LineCodec SessionCipher) (rest : Bytes) :
    (hc.course none none ended {} []).ending ≠ .established username codec rest := by
  rcases hc.course_cases h.username ended {} [] with ⟨haccepts, -⟩ | ⟨-, hnone⟩
  · obtain ⟨_, _, _, _, hanswered⟩ := haccepts.answered
    obtain ⟨envelope, hline, -⟩ := hanswered
    rw [decode_nil] at hline
    cases hline
  · exact hnone username codec rest

theorem server_silence (hs : ServerHandshake) (ended : Bool) (username : String)
    (codec : LineCodec SessionCipher) (rest : Bytes) :
    (hs.course none ended {} []).ending ≠ .established username codec rest := by
  have hawaits := hs.identifying_awaits none ended (.strict {} (.openOnly hs.key hs.seeds)) [] []
  rw [ServerHandshake.course]
  generalize hs.identifying none ended _ [] [] = course at hawaits ⊢
  intro hending
  cases hawaits with
  | told hdecode _ =>
      obtain ⟨_, _, _, hline, -⟩ := (LineCodec.decode_eq_line_iff rfl).1 hdecode
      change ({} : Framing).decode ended [] = _ at hline
      rw [decode_nil] at hline
      cases hline
  | silent _ _ => cases hending
  | refused _ _ => cases hending
  | unreadable _ => cases hending
  | closed _ _ => cases hending

/-- A side that hears nothing does not get a channel. -/
theorem silence (h : Honest hc hs) (role : Role) (ended : Bool) (username : String)
    (codec : LineCodec SessionCipher) (rest : Bytes) :
    (courses hc hs role none none ended []).ending ≠ .established username codec rest := by
  cases role with
  | initiator => exact h.client_silence ended username codec rest
  | responder => exact server_silence hs ended username codec rest

section

variable {d : Duplex} (h : Honest hc hs) (hlinked : d.Linked (courses hc hs))

include h hlinked

/-- A party does not get a channel if the other one has nothing to say. -/
theorem not_established_of_nothing {role : Role} {result : Established}
    (hnothing : (d.prospect (courses hc hs) (peerOf role)).written = []) :
    (d.party role).outcome? ≠ some (.ok result) := by
  intro hresult
  have hprospect := Duplex.prospect_of_ok hlinked hresult
  rw [Duplex.prospect, Duplex.heard_eq_nil hlinked hnothing] at hprospect
  exact h.silence role _ _ _ _ (congrArg Course.ending hprospect)

omit h in
/-- A party whose own course ends without a channel does not get one. -/
theorem not_established_of_ending {role : Role} {result : Established}
    (hnone : ∀ username codec rest,
      (d.prospect (courses hc hs) role).ending ≠ .established username codec rest) :
    (d.party role).outcome? ≠ some (.ok result) := by
  intro hresult
  have hprospect := Duplex.prospect_of_ok hlinked hresult
  exact hnone _ _ _ (congrArg Course.ending hprospect)

/-- A server whose answer does not fit has nothing to say. -/
theorem exists_prospect_responder (hfirst : (Text.utf8 hc.username).length + 59 + 66 ≤
      hs.key.toPublic.size) (hsecond : ¬ 163 + 66 ≤ hc.key.toPublic.size) :
    ∃ ending, d.prospect (courses hc hs) .responder = ⟨ending, []⟩ ∧
      ∀ username codec rest, ending ≠ .established username codec rest := by
  obtain ⟨envelope, hseal⟩ := PublicKey.exists_seal? (hc.seeds 0) (h.takes_first_iff.2 hfirst)
  rcases h.heard_responder_cases hlinked hseal with ⟨hshort, hne, hopen⟩ | ⟨s, hheard⟩
  · exact ⟨.waiting, prospect_responder_of_short hseal hshort hne hopen, nofun⟩
  · obtain ⟨failure, framing, hcourse⟩ := h.server_refuses hseal hsecond
      (d.party .responder).wire.finished s
    rw [Duplex.prospect, hheard]
    exact ⟨_, hcourse, nofun⟩

omit hlinked in
/-- A client whose message does not fit has nothing to say. -/
theorem exists_prospect_initiator
    (hfirst : ¬ (Text.utf8 hc.username).length + 59 + 66 ≤ hs.key.toPublic.size) :
    ∃ ending, d.prospect (courses hc hs) .initiator = ⟨ending, []⟩ ∧
      ∀ username codec rest, ending ≠ .established username codec rest := by
  obtain ⟨failure, framing, hcourse⟩ := ClientHandshake.course_of_not_fits h.username
    (mt h.takes_first_iff.1 hfirst) none none (d.party .initiator).wire.finished {}
    (d.heard .initiator)
  exact ⟨_, hcourse, nofun⟩

/-- **No party gets a channel** if a message does not fit. -/
theorem not_established_of_not_fits (hlong : ¬ Fits hc hs) (role : Role) (result : Established) :
    (d.party role).outcome? ≠ some (.ok result) := by
  have hmute : ∃ mute ending, d.prospect (courses hc hs) mute = ⟨ending, []⟩ ∧
      ∀ username codec rest, ending ≠ .established username codec rest := by
    by_cases hfirst : (Text.utf8 hc.username).length + 59 + 66 ≤ hs.key.toPublic.size
    · have hsecond : ¬ 163 + 66 ≤ hc.key.toPublic.size := fun hsecond => hlong ⟨hfirst, hsecond⟩
      exact ⟨.responder, h.exists_prospect_responder hlinked hfirst hsecond⟩
    · exact ⟨.initiator, h.exists_prospect_initiator hfirst⟩
  obtain ⟨mute, ending, hprospect, hnone⟩ := hmute
  rcases Duplex.eq_or_eq_peerOf mute role with rfl | rfl
  · refine not_established_of_ending hlinked ?_
    rw [hprospect]
    exact hnone
  · refine h.not_established_of_nothing hlinked ?_
    rw [SessionCipher.peerOf_peerOf, hprospect]

end

/-- **Honest parties come to agree.**  If the two messages fit the keys, no run fails and every fair
run comes to an agreement and stays there; if one of them does not fit, no run gives either of the
parties a channel. -/
theorem complete_and_agree (h : Honest hc hs) :
    (Fits hc hs →
      (∀ (events : List Duplex.Event) (role : Role),
        (((Duplex.start hc hs).run events).party role).side.phase ≠ .failed) ∧
      ∀ schedule : Nat → Duplex.Event, Duplex.Fair schedule → ∃ N, ∀ n, N ≤ n →
        ∃ client server,
          (((Duplex.start hc hs).after schedule n).party .initiator).outcome? =
            some (.ok client) ∧
          (((Duplex.start hc hs).after schedule n).party .responder).outcome? =
            some (.ok server) ∧
          Agreed hc hs client server) ∧
      (¬ Fits hc hs → ∀ (events : List Duplex.Event) (role : Role) (result : Established),
        (((Duplex.start hc hs).run events).party role).outcome? ≠ some (.ok result)) := by
  refine ⟨fun hfits => ⟨h.never_fails hfits, fun schedule hfair => h.exists_agreed hfits hfair⟩, ?_⟩
  intro hlong events role result
  exact h.not_established_of_not_fits (linked_run hc hs events) hlong role result

/-- Somebody with a name of three letters. -/
def visitor (key : PrivateKey) : ClientHandshake where
  username := "ann"
  key := key
  serverKey := PrivateKey.shorter.toPublic
  options := {}
  challenge := ⟨Vector.replicate 32 7⟩
  seeds _ := Vector.replicate 32 9

/-- A server that knows one visitor. -/
def host (key : PublicKey) : ServerHandshake where
  key := PrivateKey.shorter
  directory name := if name = "ann" then some key else none
  options := { policy := .fail }
  challenge := ⟨Vector.replicate 32 5⟩
  session := ⟨Vector.replicate 32 1, Vector.replicate 16 2⟩
  seeds _ := Vector.replicate 32 3

theorem honest_visitor {key : PrivateKey} (hbits : key.toPublic.bits ≤ PublicKey.maxBits)
    (hopens : key.Opens) : Honest (visitor key) (host key.toPublic) := by
  have hname : checkUsername "ann" = .ok () := rfl
  have hserverBits : PrivateKey.shorter.toPublic.bits ≤ PublicKey.maxBits := by decide +kernel
  have hlines : 1 ≤ SessionCipher.defaultMaxLines.toNat := by decide
  have hknown : (if "ann" = "ann" then some key.toPublic else none) = some key.toPublic :=
    if_pos rfl
  exact {
    username := bind_eq_ok_iff.2 ⟨(), hname, rfl⟩
    directory := hknown
    serverKey := rfl
    userBits := hbits
    serverBits := hserverBits
    userOpens := hopens
    serverOpens := PrivateKey.opens_shorter
    mode := rfl
    userLines := hlines
    serverLines := hlines }

/-- A visitor and its host agree if everybody goes on in turn.  With a key that is too short for the
second message, the visitor does not get in. -/
theorem complete_and_agree_visitor :
    (Honest (visitor .longer) (host PrivateKey.longer.toPublic) ∧
      Fits (visitor .longer) (host PrivateKey.longer.toPublic) ∧
      ∃ N, ∀ n, N ≤ n → ∃ client server,
        (((Duplex.start (visitor .longer) (host PrivateKey.longer.toPublic)).after
          Duplex.roundRobin n).party .initiator).outcome? = some (.ok client) ∧
        (((Duplex.start (visitor .longer) (host PrivateKey.longer.toPublic)).after
          Duplex.roundRobin n).party .responder).outcome? = some (.ok server) ∧
        Agreed (visitor .longer) (host PrivateKey.longer.toPublic) client server) ∧
    Honest (visitor .shorter) (host PrivateKey.shorter.toPublic) ∧
      ¬ Fits (visitor .shorter) (host PrivateKey.shorter.toPublic) ∧
      ∀ (events : List Duplex.Event) (role : Role) (result : Established),
        (((Duplex.start (visitor .shorter) (host PrivateKey.shorter.toPublic)).run events).party
          role).outcome? ≠ some (.ok result) := by
  have hlonger : Honest (visitor .longer) (host PrivateKey.longer.toPublic) :=
    honest_visitor (by decide +kernel) PrivateKey.opens_longer
  have hfits : Fits (visitor .longer) (host PrivateKey.longer.toPublic) :=
    ⟨by decide +kernel, by decide +kernel⟩
  have hshorter : Honest (visitor .shorter) (host PrivateKey.shorter.toPublic) :=
    honest_visitor (by decide +kernel) PrivateKey.opens_shorter
  have hlong : ¬ 163 + 66 ≤ PrivateKey.shorter.toPublic.size := by decide +kernel
  have hunfit : ¬ Fits (visitor .shorter) (host PrivateKey.shorter.toPublic) :=
    fun hfits => hlong hfits.second
  exact ⟨⟨hlonger, hfits,
    ((complete_and_agree hlonger).1 hfits).2 Duplex.roundRobin Duplex.fair_roundRobin⟩,
    hshorter, hunfit, (complete_and_agree hshorter).2 hunfit⟩

end Honest

end LineChat
