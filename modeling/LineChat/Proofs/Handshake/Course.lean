/-
**A handshake over a whole stream.**

A handshake goes on whenever something arrives, so its states say what it is waiting for.  Here it
is written down as if the whole stream of the peer were there from the beginning: a line that is
waited for is the next line of the stream.  What is read off such a course holds for every run,
because a stage of the handshake does not change what the rest of it is going to come to.

How writing fails is up to the connection.  A handshake writes at most twice, and its course depends
on how the connection was at these two moments.

Main definitions:

* `LineChat.Course` — **what a handshake comes to**: how it ends, and what it writes;
* `LineChat.LineCodec.awaiting`, `LineChat.LineCodec.sending` — waiting for a line, writing one, and
  `LineChat.LineCodec.Awaits`, `LineChat.LineCodec.Sends` for how they can go on;
* `LineChat.ServerHandshake.course`, `LineChat.ClientHandshake.course` — the two handshakes;
* `LineChat.Side.outlook` — **what a side that is under way is going to come to**.

Main results:

* `LineChat.Link.hears`, `LineChat.Link.takes` — what a link that is polled has to do with the whole
  stream, and with the course that asks for a message of it;
* `LineChat.Side.goes_step` — **a stage changes nothing of the outlook**.
-/

import LineChat.Handshake.Party
import LineChat.Proofs.Channel.Link

set_option autoImplicit false

namespace LineChat

/-- **How a handshake ends.**  A channel is left with the state of reading, and with the bytes that
are still to be read. -/
inductive Ending where
  | waiting
  | established (username : String) (codec : LineCodec SessionCipher) (rest : Bytes)
  | rejected (failure : HandshakeFailure) (framing : Framing) (rest : Bytes)

/-- **What a handshake comes to**: how it ends, and what it has written then. -/
structure Course where
  ending : Ending
  written : Bytes

/-! ### Lines of a stream -/

/-- Writing depends on what was written, and on how it fails. -/
theorem Connection.write_eq (c : Connection) (bytes : Bytes) :
    c.write bytes = ((Connection.write { outgoing := c.outgoing, breach := c.breach } bytes).1,
      { c with outgoing :=
          (Connection.write { outgoing := c.outgoing, breach := c.breach }
            bytes).2.outgoing }) := by
  unfold Connection.write
  split
  · rfl
  · split <;> simp_all

namespace LineCodec

/-- Lines that are all required to be sound. -/
def strict {σ : Type} (framing : Framing) (cipher : σ) : LineCodec σ :=
  { framing, cipher, policy := .fail }

variable {σ α : Type} [LineCipher σ]

/-- Waiting for a line of a stream, and reading it. -/
def awaiting (codec : LineCodec σ) (what : String) (read : String → Except HandshakeFailure α)
    (ended : Bool) (bytes written : Bytes) (go : α → LineCodec σ → Bytes → Course) : Course :=
  match codec.decode ended bytes with
  | (result, codec, rest) =>
      match awaited what (Polled.ofResult ended result) with
      | none => ⟨.waiting, written⟩
      | some (.error f) => ⟨.rejected f codec.framing rest, written⟩
      | some (.ok line) =>
          match read line with
          | .error f => ⟨.rejected f codec.framing rest, written⟩
          | .ok a => go a codec rest

theorem awaiting_congr {codec codec' : LineCodec σ} {what : String}
    {read : String → Except HandshakeFailure α} {ended : Bool} {bytes bytes' written : Bytes}
    {go : α → LineCodec σ → Bytes → Course}
    (h : codec.decode ended bytes = codec'.decode ended bytes') :
    codec.awaiting what read ended bytes written go =
      codec'.awaiting what read ended bytes' written go := by
  rw [awaiting, awaiting, h]

/-- **How waiting for a line goes on.** -/
inductive Awaits (codec : LineCodec σ) (what : String) (read : String → Except HandshakeFailure α)
    (ended : Bool) (bytes written : Bytes) (go : α → LineCodec σ → Bytes → Course) : Course → Prop
  /-- A line is there, and is read. -/
  | told {line : String} {a : α} {codec' : LineCodec σ} {rest : Bytes}
      (hdecode : codec.decode ended bytes = (.ok (some line), codec', rest))
      (hread : read line = .ok a) : Awaits codec what read ended bytes written go (go a codec' rest)
  /-- There is no line yet. -/
  | silent {codec' : LineCodec σ} {rest : Bytes}
      (hdecode : codec.decode ended bytes = (.ok none, codec', rest)) (hopen : ended = false) :
      Awaits codec what read ended bytes written go ⟨.waiting, written⟩
  /-- There is a line, which is not what it should be. -/
  | refused {line : String} {f : HandshakeFailure} {codec' : LineCodec σ} {rest : Bytes}
      (hdecode : codec.decode ended bytes = (.ok (some line), codec', rest))
      (hread : read line = .error f) :
      Awaits codec what read ended bytes written go ⟨.rejected f codec'.framing rest, written⟩
  /-- The line cannot be read. -/
  | unreadable {e : LineError} {codec' : LineCodec σ} {rest : Bytes}
      (hdecode : codec.decode ended bytes = (.error e, codec', rest)) :
      Awaits codec what read ended bytes written go
        ⟨.rejected ⟨s!"{what} unreadable", some e⟩ codec'.framing rest, written⟩
  /-- The stream has ended. -/
  | closed {codec' : LineCodec σ} {rest : Bytes}
      (hdecode : codec.decode ended bytes = (.ok none, codec', rest)) (hclosed : ended = true) :
      Awaits codec what read ended bytes written go
        ⟨.rejected ⟨s!"connection closed before {what}", none⟩ codec'.framing rest, written⟩

theorem awaits (codec : LineCodec σ) (what : String) (read : String → Except HandshakeFailure α)
    (ended : Bool) (bytes written : Bytes) (go : α → LineCodec σ → Bytes → Course) :
    codec.Awaits what read ended bytes written go
      (codec.awaiting what read ended bytes written go) := by
  rcases hd : codec.decode ended bytes with ⟨e | _ | line, codec', rest⟩
  · simp only [awaiting, hd, Polled.ofResult, awaited, ChannelError.toFailure_line]
    exact .unreadable hd
  · cases ended with
    | false =>
        simp only [awaiting, hd, Polled.ofResult, awaited]
        exact .silent hd rfl
    | true =>
        simp only [awaiting, hd, Polled.ofResult, awaited]
        exact .closed hd rfl
  · rcases hread : read line with f | a
    · simp only [awaiting, hd, Polled.ofResult, awaited, hread]
      exact .refused hd hread
    · simp only [awaiting, hd, Polled.ofResult, awaited, hread]
      exact .told hd hread

/-- A line that is waited for, and is there. -/
theorem awaiting_of_ok {codec codec' : LineCodec σ} {what line : String}
    {read : String → Except HandshakeFailure α} {ended : Bool} {bytes rest written : Bytes}
    {go : α → LineCodec σ → Bytes → Course} {a : α}
    (h : codec.decode ended bytes = (.ok (some line), codec', rest)) (hread : read line = .ok a) :
    codec.awaiting what read ended bytes written go = go a codec' rest := by
  simp only [awaiting, h, Polled.ofResult, awaited, hread]

/-- Writing a line on a connection: what comes of it, and everything that is written then. -/
def dispatch (codec : LineCodec σ) (line : String) (breach : Option Breach) (written : Bytes) :
    Except LineError Unit × LineCodec σ × Bytes :=
  match codec.encode line with
  | (.error e, codec) => (.error e, codec, written)
  | (.ok bytes, codec) =>
      match Connection.write { outgoing := written, breach } bytes with
      | (result, c) => (result, codec, c.outgoing)

/-- Writing a line, and going on if that succeeds. -/
def sending (codec : LineCodec σ) (line reason : String) (breach : Option Breach)
    (bytes written : Bytes) (go : LineCodec σ → Bytes → Course) : Course :=
  match codec.dispatch line breach written with
  | (.error e, codec, written) => ⟨.rejected ⟨reason, some e⟩ codec.framing bytes, written⟩
  | (.ok (), codec, written) => go codec written

/-- **How writing a line goes on.** -/
inductive Sends (codec : LineCodec σ) (line reason : String) (breach : Option Breach)
    (bytes written : Bytes) (go : LineCodec σ → Bytes → Course) : Course → Prop
  /-- The line is written. -/
  | sent {line' : Bytes} {codec' : LineCodec σ}
      (hencode : codec.encode line = (.ok line', codec')) :
      Sends codec line reason breach bytes written go (go codec' (written ++ line'))
  /-- There is no such line. -/
  | refused {e : LineError} {codec' : LineCodec σ}
      (hencode : codec.encode line = (.error e, codec')) :
      Sends codec line reason breach bytes written go
        ⟨.rejected ⟨reason, some e⟩ codec'.framing bytes, written⟩
  /-- Writing fails on the way. -/
  | broken {b : Breach} {line' : Bytes} {codec' : LineCodec σ} (hbreach : breach = some b)
      (hencode : codec.encode line = (.ok line', codec')) :
      Sends codec line reason breach bytes written go
        ⟨.rejected ⟨reason, some (.ofIo b.failure)⟩ codec'.framing bytes,
          written ++ line'.take b.through⟩

theorem sends (codec : LineCodec σ) (line reason : String) (breach : Option Breach)
    (bytes written : Bytes) (go : LineCodec σ → Bytes → Course) :
    codec.Sends line reason breach bytes written go
      (codec.sending line reason breach bytes written go) := by
  rcases hencode : codec.encode line with ⟨e | line', codec'⟩
  · simp only [sending, dispatch, hencode]
    exact .refused hencode
  · by_cases hnothing : line' = []
    · have hsent : codec.sending line reason breach bytes written go =
          go codec' (written ++ line') := by
        simp [sending, dispatch, hencode, Connection.write, hnothing]
      rw [hsent]
      exact .sent hencode
    · cases breach with
      | none =>
          simp only [sending, dispatch, hencode, Connection.write, if_neg hnothing]
          exact .sent hencode
      | some b =>
          simp only [sending, dispatch, hencode, Connection.write, if_neg hnothing]
          exact .broken rfl hencode

theorem sending_of_ok {codec codec' : LineCodec σ} {line : String} {line' : Bytes}
    (h : codec.encode line = (.ok line', codec')) (reason : String) (rest written : Bytes)
    (go : LineCodec σ → Bytes → Course) :
    codec.sending line reason none rest written go = go codec' (written ++ line') := by
  have hsends := codec.sends line reason none rest written go
  generalize codec.sending line reason none rest written go = course at hsends ⊢
  cases hsends with
  | sent hencode =>
      rw [h] at hencode
      cases hencode
      rfl
  | refused hencode =>
      rw [h] at hencode
      cases hencode
  | broken hbreach _ => cases hbreach

theorem sending_of_error {codec codec' : LineCodec σ} {line : String} {e : LineError}
    (h : codec.encode line = (.error e, codec')) (reason : String) (breach : Option Breach)
    (rest written : Bytes) (go : LineCodec σ → Bytes → Course) :
    codec.sending line reason breach rest written go =
      ⟨.rejected ⟨reason, some e⟩ codec'.framing rest, written⟩ := by
  simp only [sending, dispatch, h]

end LineCodec

namespace Link

variable {σ : Type} [LineCipher σ] {l : Link (LineCodec σ)} {c : Connection} {ended : Bool}
  {more : Bytes}

/-- **Sending a line is writing it** on the connection, which is otherwise the same. -/
theorem exists_send (l : Link (LineCodec σ)) (line : String) (c : Connection) :
    ∃ result codec written,
      l.format.dispatch line c.breach c.outgoing = (result, codec, written) ∧
      l.send line c = (result, { l with format := codec }, { c with outgoing := written }) := by
  rcases hencode : l.format.encode line with ⟨e | bytes, codec⟩
  · refine ⟨.error e, codec, c.outgoing, ?_, ?_⟩
    · simp only [LineCodec.dispatch, hencode]
    · simp only [send, LineFormat.encode, hencode]
  · rcases hwrite : Connection.write { outgoing := c.outgoing, breach := c.breach } bytes with
      ⟨result, c'⟩
    refine ⟨result, codec, c'.outgoing, ?_, ?_⟩
    · simp only [LineCodec.dispatch, hencode, hwrite]
    · simp only [send, LineFormat.encode, hencode]
      rw [Connection.write_eq, hwrite]

/-- **What a link that is polled has to do with the whole stream**: it waits, and the next line of
the stream stays the same, or it was told the next line, or that there is none. -/
inductive Hears (l : Link (LineCodec σ)) (c : Connection) (ended : Bool) (more : Bytes) :
    Polled × Link (LineCodec σ) × Connection → Prop
  | waits {l' : Link (LineCodec σ)} {incoming : Bytes} (hfinished : c.finished = false)
      (hready : l'.Ready)
      (hd : l'.format.decode ended (l'.buffer ++ (incoming ++ more)) =
        l.format.decode ended (l.buffer ++ (c.incoming ++ more)))
      (hnone : (l'.format.decode false (l'.buffer ++ incoming)).1 = .ok none) :
      Hears l c ended more (.waiting, l', { c with incoming })
  | told {result : Except LineError (Option String)} {l' : Link (LineCodec σ)} {incoming : Bytes}
      (hsound : l'.Sound { c with incoming }) (hne : Polled.ofResult ended result ≠ .waiting)
      (hd : l.format.decode ended (l.buffer ++ (c.incoming ++ more)) =
        (result, l'.format, l'.buffer ++ (incoming ++ more))) :
      Hears l c ended more (Polled.ofResult ended result, l', { c with incoming })

theorem ofResult_map_some_ne (ended : Bool) (x : Except LineError String) :
    Polled.ofResult ended (x.map some) ≠ .waiting := by
  cases x <;> simp [Polled.ofResult, Except.map]

theorem hears (h : l.Ready) (hmore : c.finished = true → ended = true ∧ more = []) :
    l.Hears c ended more (l.poll c) := by
  have hpolls : l.Polls c ended more (l.poll c) := polls (h.sound c) hmore
  generalize l.poll c = polled at hpolls
  cases hpolls with
  | found hsound hd =>
      rw [← Polled.ofResult_map_some ended]
      exact .told hsound (ofResult_map_some_ne _ _) hd
  | @nothing polled l' incoming hsound hpolled hd hlooks =>
      obtain ⟨hanswer, hleft, hready⟩ := hlooks (h.looks c)
      by_cases hfinished : c.finished = true
      · obtain ⟨rfl, rfl⟩ := hmore hfinished
        rw [hfinished] at hanswer hleft
        rw [hanswer]
        refine .told hsound (by simp [Polled.ofResult]) ?_
        rw [List.append_nil, List.append_nil]
        exact hleft
      · have hopen : c.finished = false := by simpa using hfinished
        rw [hopen] at hanswer hleft
        obtain rfl : polled = .waiting := hanswer
        refine .waits hopen (hready hopen) hd ?_
        have hidle : l'.format.decode false (l'.buffer ++ incoming) =
            (.ok none, l'.format, l'.buffer ++ incoming) := LawfulFormat.decode_idle hleft
        rw [hidle]

/-- A link that has no line waits. -/
theorem hears_of_none (h : l.Ready) (hfinished : c.finished = false)
    (hnone : (l.format.decode false (l.buffer ++ c.incoming)).1 = .ok none) :
    ∃ l' incoming, l.poll c = (.waiting, l', { c with incoming }) ∧
      (l'.format.decode false (l'.buffer ++ incoming)).1 = .ok none := by
  have hhears : l.Hears c false [] (l.poll c) := hears h fun hf => by
    rw [hfinished] at hf
    cases hf
  generalize l.poll c = polled at hhears
  cases hhears with
  | waits _ _ _ hnone' => exact ⟨_, _, rfl, hnone'⟩
  | told _ hne hd =>
      rw [List.append_nil] at hd
      rw [hd] at hnone
      obtain rfl : _ = Except.ok none := hnone
      exact absurd rfl hne

/-- **What asking for a message comes to**, and how the course of the whole stream begins with it:
there is no line yet, or none that can be read, or one that is not what it should be, or the message
is there. -/
inductive Takes {α : Type} (l : Link (LineCodec σ)) (c : Connection) (what : String)
    (read : String → Except HandshakeFailure α) (ended : Bool) (more : Bytes) :
    Polled × Link (LineCodec σ) × Connection → Prop
  | waits {l' : Link (LineCodec σ)} {incoming : Bytes} (hfinished : c.finished = false)
      (hready : l'.Ready)
      (hnone : (l'.format.decode false (l'.buffer ++ incoming)).1 = .ok none)
      (hcourse : ∀ written go,
        l'.format.awaiting what read ended (l'.buffer ++ (incoming ++ more)) written go =
          l.format.awaiting what read ended (l.buffer ++ (c.incoming ++ more)) written go) :
      Takes l c what read ended more (.waiting, l', { c with incoming })
  | faulty {polled : Polled} {l' : Link (LineCodec σ)} {incoming : Bytes} {f : HandshakeFailure}
      (hawaited : awaited what polled = some (.error f))
      (hcourse : ∀ written go,
        l.format.awaiting what read ended (l.buffer ++ (c.incoming ++ more)) written go =
          ⟨.rejected f l'.format.framing (l'.buffer ++ (incoming ++ more)), written⟩) :
      Takes l c what read ended more (polled, l', { c with incoming })
  | refused {polled : Polled} {l' : Link (LineCodec σ)} {incoming : Bytes} {line : String}
      {f : HandshakeFailure} (hawaited : awaited what polled = some (.ok line))
      (hread : read line = .error f)
      (hcourse : ∀ written go,
        l.format.awaiting what read ended (l.buffer ++ (c.incoming ++ more)) written go =
          ⟨.rejected f l'.format.framing (l'.buffer ++ (incoming ++ more)), written⟩) :
      Takes l c what read ended more (polled, l', { c with incoming })
  | told {polled : Polled} {l' : Link (LineCodec σ)} {incoming : Bytes} {line : String} {a : α}
      (hawaited : awaited what polled = some (.ok line)) (hread : read line = .ok a)
      (hsound : l'.Sound { c with incoming })
      (hcourse : ∀ written go,
        l.format.awaiting what read ended (l.buffer ++ (c.incoming ++ more)) written go =
          go a l'.format (l'.buffer ++ (incoming ++ more))) :
      Takes l c what read ended more (polled, l', { c with incoming })

theorem awaited_ne_none {what : String} {polled : Polled} (h : polled ≠ .waiting) :
    awaited what polled ≠ none := by
  cases polled with
  | waiting => exact absurd rfl h
  | line text => simp [awaited]
  | failed e => simp [awaited]
  | ended => simp [awaited]

theorem takes {α : Type} (h : l.Ready) (what : String) (read : String → Except HandshakeFailure α)
    (hmore : c.finished = true → ended = true ∧ more = []) :
    l.Takes c what read ended more (l.poll c) := by
  have hhears := hears h hmore
  generalize l.poll c = polled at hhears ⊢
  cases hhears with
  | waits hfinished hready hd hnone =>
      exact .waits hfinished hready hnone fun _ _ => LineCodec.awaiting_congr hd
  | @told result _ incoming hsound hne hd =>
      rcases hawaited : awaited what (Polled.ofResult ended result) with _ | f | line
      · exact absurd hawaited (awaited_ne_none hne)
      · refine .faulty hawaited fun written go => ?_
        simp only [LineCodec.awaiting, hd, hawaited]
      · rcases hread : read line with f | a
        · refine .refused hawaited hread fun written go => ?_
          simp only [LineCodec.awaiting, hd, hawaited, hread]
        · refine .told hawaited hread hsound fun written go => ?_
          simp only [LineCodec.awaiting, hd, hawaited, hread]

end Link

/-! ### The server -/

namespace ServerHandshake

/-- What a third message is checked for. -/
def recognise (h : ServerHandshake) (line : String) : Except HandshakeFailure Unit := do
  let echoed ← orFail "unreadable server challenge" (Challenge.ofBase64 line)
  if echoed ≠ h.challenge then throw ⟨"server challenge mismatch", none⟩

theorem judge_eq (h : ServerHandshake) (channel : SecureLink) (username line : String) :
    h.judge channel username line =
      match h.recognise line with
      | .error f => reject channel (.handshake f)
      | .ok () => .established ⟨channel.withPolicy h.options.policy, username⟩ := by
  unfold judge recognise
  cases Challenge.ofBase64 line with
  | error e => rfl
  | ok echoed =>
      change (if echoed ≠ h.challenge then _ else _) =
        match (if echoed ≠ h.challenge then
          (.error ⟨"server challenge mismatch", none⟩ : Except HandshakeFailure Unit)
          else .ok ()) with
        | .error f => reject channel (.handshake f)
        | .ok () => .established ⟨channel.withPolicy h.options.policy, username⟩
      split <;> rfl

/-- The handshake from the third message on. -/
def conclude (h : ServerHandshake) (ended : Bool) (username : String)
    (codec : LineCodec SessionCipher) (bytes written : Bytes) : Course :=
  codec.awaiting "message 3" h.recognise ended bytes written fun _ codec rest =>
    ⟨.established username { codec with policy := h.options.policy } rest, written⟩

/-- The handshake from the second message on. -/
def respond (h : ServerHandshake) (breach : Option Breach) (ended : Bool)
    (codec : LineCodec EnvelopeCipher) (auth : Authenticate) (key : PublicKey)
    (bytes written : Bytes) : Course :=
  (codec.withCipher (EnvelopeCipher.between key h.key h.seeds)).sending (h.reply auth).render
    "server handshake aborted" breach bytes written fun codec written =>
      h.conclude ended auth.username
        (codec.withCipher (h.options.cipher h.session .responder)) bytes written

/-- The handshake from the first message on. -/
def identifying (h : ServerHandshake) (breach : Option Breach) (ended : Bool)
    (codec : LineCodec EnvelopeCipher) (bytes written : Bytes) : Course :=
  codec.awaiting "message 1" h.identify ended bytes written fun found codec rest =>
    h.respond breach ended codec found.1 found.2 rest written

/-- **The server's handshake over a whole stream.** -/
def course (h : ServerHandshake) (breach : Option Breach) (ended : Bool) (f : Framing)
    (stream : Bytes) : Course :=
  h.identifying breach ended (.strict f (.openOnly h.key h.seeds)) stream []

theorem conclude_awaits (h : ServerHandshake) (ended : Bool) (username : String)
    (codec : LineCodec SessionCipher) (bytes written : Bytes) :
    codec.Awaits "message 3" h.recognise ended bytes written
      (fun _ codec rest =>
        ⟨.established username { codec with policy := h.options.policy } rest, written⟩)
      (h.conclude ended username codec bytes written) :=
  codec.awaits ..

theorem respond_sends (h : ServerHandshake) (breach : Option Breach) (ended : Bool)
    (codec : LineCodec EnvelopeCipher) (auth : Authenticate) (key : PublicKey)
    (bytes written : Bytes) :
    (codec.withCipher (EnvelopeCipher.between key h.key h.seeds)).Sends (h.reply auth).render
      "server handshake aborted" breach bytes written
      (fun codec written => h.conclude ended auth.username
        (codec.withCipher (h.options.cipher h.session .responder)) bytes written)
      (h.respond breach ended codec auth key bytes written) :=
  LineCodec.sends ..

theorem identifying_awaits (h : ServerHandshake) (breach : Option Breach) (ended : Bool)
    (codec : LineCodec EnvelopeCipher) (bytes written : Bytes) :
    codec.Awaits "message 1" h.identify ended bytes written
      (fun found codec rest => h.respond breach ended codec found.1 found.2 rest written)
      (h.identifying breach ended codec bytes written) :=
  codec.awaits ..

end ServerHandshake

/-! ### The client -/

namespace ClientHandshake

/-- The handshake from the third message on. -/
def conclude (h : ClientHandshake) (breach : Option Breach) (codec : LineCodec EnvelopeCipher)
    (reply : ServerOk) (bytes written : Bytes) : Course :=
  (codec.withCipher (h.options.cipher reply.session .initiator)).sending
    reply.serverChallenge.toBase64 "client handshake aborted" breach bytes written
    fun codec written =>
      ⟨.established h.username { codec with policy := h.options.policy } bytes, written⟩

/-- The handshake from the second message on. -/
def accepting (h : ClientHandshake) (breach : Option Breach) (ended : Bool)
    (codec : LineCodec EnvelopeCipher) (bytes written : Bytes) : Course :=
  codec.awaiting "message 2" h.accept ended bytes written fun reply codec rest =>
    h.conclude breach codec reply rest written

/-- The handshake from the first message on. -/
def introducing (h : ClientHandshake) (first second : Option Breach) (ended : Bool) (f : Framing)
    (bytes written : Bytes) : Course :=
  (LineCodec.strict f (EnvelopeCipher.between h.serverKey h.key h.seeds)).sending
    h.introduction.render "client handshake aborted" first bytes written fun codec written =>
      h.accepting second ended codec bytes written

/-- **The client's handshake over a whole stream.** -/
def course (h : ClientHandshake) (first second : Option Breach) (ended : Bool) (f : Framing)
    (stream : Bytes) : Course :=
  h.introducing first second ended f stream []

theorem conclude_sends (h : ClientHandshake) (breach : Option Breach)
    (codec : LineCodec EnvelopeCipher) (reply : ServerOk) (bytes written : Bytes) :
    (codec.withCipher (h.options.cipher reply.session .initiator)).Sends
      reply.serverChallenge.toBase64 "client handshake aborted" breach bytes written
      (fun codec written =>
        ⟨.established h.username { codec with policy := h.options.policy } bytes, written⟩)
      (h.conclude breach codec reply bytes written) :=
  LineCodec.sends ..

theorem accepting_awaits (h : ClientHandshake) (breach : Option Breach) (ended : Bool)
    (codec : LineCodec EnvelopeCipher) (bytes written : Bytes) :
    codec.Awaits "message 2" h.accept ended bytes written
      (fun reply codec rest => h.conclude breach codec reply rest written)
      (h.accepting breach ended codec bytes written) :=
  codec.awaits ..

theorem introducing_sends (h : ClientHandshake) (first second : Option Breach) (ended : Bool)
    (f : Framing) (bytes written : Bytes) :
    (LineCodec.strict f (EnvelopeCipher.between h.serverKey h.key h.seeds)).Sends
      h.introduction.render "client handshake aborted" first bytes written
      (fun codec written => h.accepting second ended codec bytes written)
      (h.introducing first second ended f bytes written) :=
  LineCodec.sends ..

end ClientHandshake

/-! ### Sides under way -/

namespace Side

/-- One stage of the handshake. -/
def step : Side → Connection → Side × Connection
  | server h s, c => (h.step s c).map (server h) id
  | client h s, c => (h.step s c).map (client h) id

/-- **What a side is going to come to** if `more` is still to arrive, and writing fails as given. -/
def outlook (first second : Option Breach) (ended : Bool) (side : Side) (c : Connection)
    (more : Bytes) : Course :=
  match side with
  | server h (.start raw) =>
      h.identifying first ended (.strict raw.format (.openOnly h.key h.seeds))
        (raw.buffer ++ (c.incoming ++ more)) c.outgoing
  | server h (.awaitingAuth l) =>
      h.identifying first ended l.format (l.buffer ++ (c.incoming ++ more)) c.outgoing
  | server h (.awaitingEcho l username) =>
      h.conclude ended username l.format (l.buffer ++ (c.incoming ++ more)) c.outgoing
  | client h (.start raw) =>
      h.introducing first second ended raw.format (raw.buffer ++ (c.incoming ++ more)) c.outgoing
  | client h (.sentAuth l) | client h (.awaitingOk l) =>
      h.accepting second ended l.format (l.buffer ++ (c.incoming ++ more)) c.outgoing
  | server _ (.established e) | client _ (.established e) =>
      ⟨.established e.username e.channel.format (e.channel.buffer ++ (c.incoming ++ more)),
        c.outgoing⟩
  | server _ (.rejected r) | client _ (.rejected r) =>
      ⟨.rejected r.failure r.channel.format (r.channel.buffer ++ (c.incoming ++ more)),
        c.outgoing⟩

/-- A channel that is in use has overlooked nothing. -/
def Sane (side : Side) (c : Connection) : Prop :=
  match side with
  | server _ (.start _) | client _ (.start _) => True
  | server _ (.awaitingAuth l) => l.Ready
  | server _ (.awaitingEcho l _) => l.Ready
  | client _ (.sentAuth l) | client _ (.awaitingOk l) => l.Ready
  | server _ (.established e) | client _ (.established e) => e.channel.Sound c
  | server _ (.rejected r) | client _ (.rejected r) => r.channel.Sound c

/-- A side that cannot go on: it is through, or it waits for a line that has not arrived. -/
def Waits (side : Side) (c : Connection) : Prop :=
  match side with
  | server _ (.awaitingAuth l) =>
      c.finished = false ∧ (l.format.decode false (l.buffer ++ c.incoming)).1 = .ok none
  | server _ (.awaitingEcho l _) =>
      c.finished = false ∧ (l.format.decode false (l.buffer ++ c.incoming)).1 = .ok none
  | client _ (.awaitingOk l) =>
      c.finished = false ∧ (l.format.decode false (l.buffer ++ c.incoming)).1 = .ok none
  | server _ (.start _) | client _ (.start _) | client _ (.sentAuth _) => False
  | _ => True

/-- How many stages a handshake can still go through. -/
def rank : Side → Nat
  | server _ (.start _) | client _ (.start _) => 3
  | server _ (.awaitingAuth _) | client _ (.sentAuth _) => 2
  | server _ (.awaitingEcho _ _) | client _ (.awaitingOk _) => 1
  | _ => 0

variable {allowed : Option Breach → Prop} {ended : Bool} {c : Connection} {more : Bytes}

/-- **What a stage comes to.**  The outlook stays what it was, if one of the ways of failing is how
the connection fails now; and the handshake has come further, unless it cannot go on. -/
structure Goes (allowed : Option Breach → Prop) (ended : Bool) (side : Side) (c : Connection)
    (more : Bytes) (next : Side × Connection) : Prop where
  outlook_eq : ∀ first second, allowed first → allowed second → ∃ first' second',
    allowed first' ∧ allowed second' ∧
      next.1.outlook first second ended next.2 more = side.outlook first' second' ended c more
  sane : next.1.Sane next.2
  finished_eq : next.2.finished = c.finished
  breach_eq : next.2.breach = c.breach
  further : next.1.Waits next.2 ∨ next.1.rank < side.rank

/-- A stage that writes nothing. -/
theorem Goes.same {side : Side} {next : Side × Connection}
    (houtlook : ∀ first second, next.1.outlook first second ended next.2 more =
      side.outlook first second ended c more)
    (hsane : next.1.Sane next.2) (hfinished : next.2.finished = c.finished)
    (hbreach : next.2.breach = c.breach)
    (hfurther : next.1.Waits next.2 ∨ next.1.rank < side.rank) :
    side.Goes allowed ended c more next := by
  refine ⟨?_, hsane, hfinished, hbreach, hfurther⟩
  intro first second hfirst hsecond
  exact ⟨first, second, hfirst, hsecond, houtlook first second⟩

theorem sound_reject {σ : Type} (l : Link (LineCodec σ)) (reason : String) (e : ChannelError)
    (c : Connection) : (l.reject reason e).channel.Sound c :=
  (Link.ready_change l LineCodec.framing).sound c

/-- Answering a first message. -/
theorem answer_cases (h : ServerHandshake) (l : EnvelopeLink) (auth : Authenticate)
    (key : PublicKey) (c : Connection) :
    ∃ s c', h.answer l auth key c = (s, c') ∧ (server h s).Sane c' ∧
      c'.finished = c.finished ∧ c'.breach = c.breach ∧ (server h s).rank < 2 ∧
      ∀ first second ended more, (server h s).outlook first second ended c' more =
        h.respond c.breach ended l.format auth key (l.buffer ++ (c.incoming ++ more))
          c.outgoing := by
  obtain ⟨result, codec, written, hdispatch, hsend⟩ :=
    Link.exists_send (l.withCipher (EnvelopeCipher.between key h.key h.seeds))
      (h.reply auth).render c
  change (l.format.withCipher (EnvelopeCipher.between key h.key h.seeds)).dispatch _ _ _ = _
    at hdispatch
  rw [ServerHandshake.answer, hsend]
  cases result with
  | error e =>
      refine ⟨_, _, rfl, sound_reject _ _ _ _, rfl, rfl, Nat.zero_lt_two, ?_⟩
      intro first second ended more
      simp only [ServerHandshake.respond, LineCodec.sending, hdispatch]
      rfl
  | ok _ =>
      refine ⟨_, _, rfl, Link.ready_change _ _, rfl, rfl, Nat.one_lt_two, ?_⟩
      intro first second ended more
      simp only [ServerHandshake.respond, LineCodec.sending, hdispatch]
      rfl

/-- Sending a first message. -/
theorem introduce_cases (h : ClientHandshake) (raw : PlainLink) (c : Connection) :
    ∃ s c', h.introduce raw c = (s, c') ∧ (client h s).Sane c' ∧
      c'.finished = c.finished ∧ c'.breach = c.breach ∧ (client h s).rank < 3 ∧
      ∀ first second ended more, (client h s).outlook first second ended c' more =
        h.introducing c.breach second ended raw.format (raw.buffer ++ (c.incoming ++ more))
          c.outgoing := by
  obtain ⟨result, codec, written, hdispatch, hsend⟩ := Link.exists_send
    (raw.upgrade (EnvelopeCipher.between h.serverKey h.key h.seeds)) h.introduction.render c
  change (LineCodec.strict raw.format
    (EnvelopeCipher.between h.serverKey h.key h.seeds)).dispatch _ _ _ = _ at hdispatch
  rw [ClientHandshake.introduce, hsend]
  cases result with
  | error e =>
      refine ⟨_, _, rfl, sound_reject _ _ _ _, rfl, rfl, Nat.zero_lt_succ 2, ?_⟩
      intro first second ended more
      simp only [ClientHandshake.introducing, LineCodec.sending, hdispatch]
      rfl
  | ok _ =>
      refine ⟨_, _, rfl, ⟨rfl, rfl, Or.inl rfl⟩, rfl, rfl, Nat.lt_succ_self 2, ?_⟩
      intro first second ended more
      simp only [ClientHandshake.introducing, LineCodec.sending, hdispatch]
      rfl

/-- Sending a third message. -/
theorem confirm_cases (h : ClientHandshake) (l : EnvelopeLink) (reply : ServerOk)
    (c : Connection) :
    ∃ s c', h.confirm l reply c = (s, c') ∧ (client h s).Sane c' ∧
      c'.finished = c.finished ∧ c'.breach = c.breach ∧ (client h s).rank < 1 ∧
      ∀ first second ended more, (client h s).outlook first second ended c' more =
        h.conclude c.breach l.format reply (l.buffer ++ (c.incoming ++ more)) c.outgoing := by
  obtain ⟨result, codec, written, hdispatch, hsend⟩ := Link.exists_send
    (l.withCipher (h.options.cipher reply.session .initiator)) reply.serverChallenge.toBase64 c
  change (l.format.withCipher (h.options.cipher reply.session .initiator)).dispatch _ _ _ = _
    at hdispatch
  rw [ClientHandshake.confirm, hsend]
  cases result with
  | error e =>
      refine ⟨_, _, rfl, sound_reject _ _ _ _, rfl, rfl, Nat.zero_lt_one, ?_⟩
      intro first second ended more
      simp only [ClientHandshake.conclude, LineCodec.sending, hdispatch]
      rfl
  | ok _ =>
      refine ⟨_, _, rfl, ?_, rfl, rfl, Nat.zero_lt_one, ?_⟩
      · intro hatEnd
        cases hatEnd
      · intro first second ended more
        simp only [ClientHandshake.conclude, LineCodec.sending, hdispatch]
        rfl

/-! ### The stages -/

theorem goes_awaitingAuth {h : ServerHandshake} {l : EnvelopeLink} (hready : l.Ready)
    (hbreach : allowed c.breach) (hmore : c.finished = true → ended = true ∧ more = []) :
    (server h (.awaitingAuth l)).Goes allowed ended c more
      ((server h (.awaitingAuth l)).step c) := by
  have htakes := Link.takes hready "message 1" h.identify hmore
  simp only [step, ServerHandshake.step]
  generalize l.poll c = polled at htakes ⊢
  cases htakes with
  | waits hfinished hready' hnone hcourse =>
      simp only [awaited, Prod.map_apply, id]
      refine .same ?_ hready' rfl rfl (Or.inl ⟨hfinished, hnone⟩)
      intro first second
      simp only [outlook, ServerHandshake.identifying]
      exact hcourse _ _
  | faulty hawaited hcourse =>
      simp only [hawaited, Prod.map_apply, id]
      refine .same ?_ (sound_reject _ _ _ _) rfl rfl (Or.inl trivial)
      intro first second
      simp only [outlook, ServerHandshake.identifying, hcourse]
      rfl
  | refused hawaited hread hcourse =>
      simp only [hawaited, hread, Prod.map_apply, id]
      refine .same ?_ (sound_reject _ _ _ _) rfl rfl (Or.inl trivial)
      intro first second
      simp only [outlook, ServerHandshake.identifying, hcourse]
      rfl
  | @told _ l' incoming line found hawaited hread hsound hcourse =>
      obtain ⟨auth, key⟩ := found
      obtain ⟨s, c'', hanswer, hsane, hfinished, hbreach', hrank, houtlook⟩ :=
        answer_cases h l' auth key { c with incoming }
      simp only [hawaited, hread, hanswer, Prod.map_apply, id]
      refine ⟨?_, hsane, hfinished, hbreach', Or.inr hrank⟩
      intro first second hfirst hsecond
      refine ⟨c.breach, second, hbreach, hsecond, ?_⟩
      rw [houtlook]
      simp only [outlook, ServerHandshake.identifying, hcourse]

theorem goes_awaitingEcho {h : ServerHandshake} {l : SecureLink} {username : String}
    (hready : l.Ready) (hmore : c.finished = true → ended = true ∧ more = []) :
    (server h (.awaitingEcho l username)).Goes allowed ended c more
      ((server h (.awaitingEcho l username)).step c) := by
  have htakes := Link.takes hready "message 3" h.recognise hmore
  simp only [step, ServerHandshake.step, h.judge_eq]
  generalize l.poll c = polled at htakes ⊢
  cases htakes with
  | waits hfinished hready' hnone hcourse =>
      simp only [awaited, Prod.map_apply, id]
      refine .same ?_ hready' rfl rfl (Or.inl ⟨hfinished, hnone⟩)
      intro first second
      simp only [outlook, ServerHandshake.conclude]
      exact hcourse _ _
  | faulty hawaited hcourse =>
      simp only [hawaited, Prod.map_apply, id]
      refine .same ?_ (sound_reject _ _ _ _) rfl rfl (Or.inl trivial)
      intro first second
      simp only [outlook, ServerHandshake.conclude, hcourse]
      rfl
  | refused hawaited hread hcourse =>
      simp only [hawaited, hread, Prod.map_apply, id]
      refine .same ?_ (sound_reject _ _ _ _) rfl rfl (Or.inl trivial)
      intro first second
      simp only [outlook, ServerHandshake.conclude, hcourse]
      rfl
  | told hawaited hread hsound hcourse =>
      simp only [hawaited, hread, Prod.map_apply, id]
      refine .same ?_ hsound rfl rfl (Or.inl trivial)
      intro first second
      simp only [outlook, ServerHandshake.conclude, hcourse]
      rfl

theorem goes_awaitingOk {h : ClientHandshake} {l : EnvelopeLink} (hready : l.Ready)
    (hbreach : allowed c.breach) (hmore : c.finished = true → ended = true ∧ more = []) :
    (client h (.awaitingOk l)).Goes allowed ended c more
      ((client h (.awaitingOk l)).step c) := by
  have htakes := Link.takes hready "message 2" h.accept hmore
  simp only [step, ClientHandshake.step]
  generalize l.poll c = polled at htakes ⊢
  cases htakes with
  | waits hfinished hready' hnone hcourse =>
      simp only [awaited, Prod.map_apply, id]
      refine .same ?_ hready' rfl rfl (Or.inl ⟨hfinished, hnone⟩)
      intro first second
      simp only [outlook, ClientHandshake.accepting]
      exact hcourse _ _
  | faulty hawaited hcourse =>
      simp only [hawaited, Prod.map_apply, id]
      refine .same ?_ (sound_reject _ _ _ _) rfl rfl (Or.inl trivial)
      intro first second
      simp only [outlook, ClientHandshake.accepting, hcourse]
      rfl
  | refused hawaited hread hcourse =>
      simp only [hawaited, hread, Prod.map_apply, id]
      refine .same ?_ (sound_reject _ _ _ _) rfl rfl (Or.inl trivial)
      intro first second
      simp only [outlook, ClientHandshake.accepting, hcourse]
      rfl
  | @told _ l' incoming line reply hawaited hread hsound hcourse =>
      obtain ⟨s, c'', hconfirm, hsane, hfinished, hbreach', hrank, houtlook⟩ :=
        confirm_cases h l' reply { c with incoming }
      simp only [hawaited, hread, hconfirm, Prod.map_apply, id]
      refine ⟨?_, hsane, hfinished, hbreach', Or.inr hrank⟩
      intro first second hfirst hsecond
      refine ⟨first, c.breach, hfirst, hbreach, ?_⟩
      rw [houtlook]
      simp only [outlook, ClientHandshake.accepting, hcourse]

/-- **A stage changes nothing of the outlook**, and brings the handshake further unless it cannot go
on. -/
theorem goes_step {side : Side} (hsane : side.Sane c) (hbreach : allowed c.breach)
    (hmore : c.finished = true → ended = true ∧ more = []) :
    side.Goes allowed ended c more (side.step c) := by
  cases side with
  | server h s =>
      cases s with
      | start raw =>
          refine .same ?_ (Link.ready_change _ _) rfl rfl (Or.inr (Nat.lt_succ_self 2))
          exact fun _ _ => rfl
      | awaitingAuth l => exact goes_awaitingAuth hsane hbreach hmore
      | awaitingEcho l username => exact goes_awaitingEcho hsane hmore
      | established e => exact .same (fun _ _ => rfl) hsane rfl rfl (Or.inl trivial)
      | rejected r => exact .same (fun _ _ => rfl) hsane rfl rfl (Or.inl trivial)
  | client h s =>
      cases s with
      | start raw =>
          obtain ⟨s, c', hintroduce, hsane', hfinished, hbreach', hrank, houtlook⟩ :=
            introduce_cases h raw c
          simp only [step, ClientHandshake.step, hintroduce, Prod.map_apply, id]
          refine ⟨?_, hsane', hfinished, hbreach', Or.inr hrank⟩
          intro first second hfirst hsecond
          exact ⟨c.breach, second, hbreach, hsecond, houtlook first second ended more⟩
      | sentAuth l => exact .same (fun _ _ => rfl) hsane rfl rfl (Or.inr Nat.one_lt_two)
      | awaitingOk l => exact goes_awaitingOk hsane hbreach hmore
      | established e => exact .same (fun _ _ => rfl) hsane rfl rfl (Or.inl trivial)
      | rejected r => exact .same (fun _ _ => rfl) hsane rfl rfl (Or.inl trivial)

/-! ### Waiting -/

/-- **A side that cannot go on** stays where it is. -/
theorem waits_step {side : Side} (hsane : side.Sane c) (hwaits : side.Waits c) :
    (side.step c).1.Waits (side.step c).2 := by
  cases side with
  | server h s =>
      cases s with
      | start raw => exact hwaits.elim
      | awaitingAuth l =>
          obtain ⟨l', incoming, hpoll, hnone⟩ := Link.hears_of_none hsane hwaits.1 hwaits.2
          simp only [step, ServerHandshake.step, hpoll, awaited, Prod.map_apply, id]
          exact ⟨hwaits.1, hnone⟩
      | awaitingEcho l username =>
          obtain ⟨l', incoming, hpoll, hnone⟩ := Link.hears_of_none hsane hwaits.1 hwaits.2
          simp only [step, ServerHandshake.step, hpoll, awaited, Prod.map_apply, id]
          exact ⟨hwaits.1, hnone⟩
      | established e => trivial
      | rejected r => trivial
  | client h s =>
      cases s with
      | start raw => exact hwaits.elim
      | sentAuth l => exact hwaits.elim
      | awaitingOk l =>
          obtain ⟨l', incoming, hpoll, hnone⟩ := Link.hears_of_none hsane hwaits.1 hwaits.2
          simp only [step, ClientHandshake.step, hpoll, awaited, Prod.map_apply, id]
          exact ⟨hwaits.1, hnone⟩
      | established e => trivial
      | rejected r => trivial

theorem waits_of_rank {side : Side} (h : side.rank = 0) : side.Waits c := by
  cases side with
  | server h' s =>
      cases s with
      | start raw => cases h
      | awaitingAuth l => cases h
      | awaitingEcho l username => cases h
      | established e => trivial
      | rejected r => trivial
  | client h' s =>
      cases s with
      | start raw => cases h
      | sentAuth l => cases h
      | awaitingOk l => cases h
      | established e => trivial
      | rejected r => trivial

theorem rank_le (side : Side) : side.rank ≤ 3 := by
  cases side with
  | server h s => cases s <;> simp [rank]
  | client h s => cases s <;> simp [rank]

end Side

end LineChat
