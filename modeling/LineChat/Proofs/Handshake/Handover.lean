/-
**What a handshake leaves behind.**

The lines of a handshake may arrive together with others, and the channel changes hands while they
are in its buffer.  A handshake takes its own lines and no more: what its owner reads afterwards is
what the lines behind them say, each of them once and in order, whether the handshake succeeded and
left an encrypted channel, or failed and left a plain one.  How the stream was cut, and when the
owner asked for lines, does not matter.

After an error a link does not look at what it has until something arrives or the end is seen, and
it answers meanwhile that there is nothing.  Such answers are not counted as the end.

Main definitions:

* `LineChat.Gives` — **what reading on and on gives**;
* `LineChat.Framing.after` — a plain stream behind its first lines;
* `LineChat.Party.Turn`, `LineChat.Party.watch` — a run in which the owner asks for lines;
* `LineChat.Link.HandsOn` — a channel that yields what is to be read from it.

Main results:

* `LineChat.Link.Held.poll` — asking for a line keeps what a channel is to yield;
* `LineChat.Side.leaves_course` — **where a handshake leaves its channel**;
* `LineChat.Party.takes_own_lines` — **the channel yields exactly the lines behind those of the
  handshake**, however the stream was cut.
-/

import LineChat.Proofs.Handshake.ClientAcceptance
import LineChat.Proofs.Handshake.Run

set_option autoImplicit false

namespace LineChat

/-! ### Reading on and on -/

/-- **What reading on and on gives** under some rules for lines: one result after the other, the
rules then, and what is left. -/
inductive Gives {δ : Type} [LineFormat δ] (ended : Bool) :
    δ → Bytes → List (Except LineError String) → δ → Bytes → Prop
  | nil (f : δ) (b : Bytes) : Gives ended f b [] f b
  | cons {f f₁ f' : δ} {b b₁ b' : Bytes} {x : Except LineError String}
      {xs : List (Except LineError String)}
      (h : LineFormat.decode f ended b = (x.map some, f₁, b₁))
      (hrest : Gives ended f₁ b₁ xs f' b') :
      Gives ended f b (x :: xs) f' b'

/-- What an answer says, if it says anything. -/
def Polled.said : Polled → List (Except LineError String)
  | line text => [.ok text]
  | failed e => [.error e]
  | ended => []
  | waiting => []

@[simp] theorem Polled.said_ofResult (ended : Bool) (x : Except LineError String) :
    (Polled.ofResult ended (x.map some)).said = [x] := by
  cases x <;> rfl

section

variable {δ : Type} [LineFormat δ] {ended : Bool} {f f' f'' : δ} {b b' b'' more : Bytes}
  {x : Except LineError String} {xs : List (Except LineError String)}

theorem Gives.snoc (h : Gives ended f b xs f' b')
    (hlast : LineFormat.decode f' ended b' = (x.map some, f'', b'')) :
    Gives ended f b (xs ++ [x]) f'' b'' := by
  induction h with
  | nil f b => exact .cons hlast (.nil f'' b'')
  | cons h _ ih => exact .cons h (ih hlast)

namespace Link

variable {l l' : Link δ} {c : Connection} {log : List (Except LineError String)}
  {reached : Bool → Bytes → δ → Bytes → Prop}

/-- **A channel on the way through its lines.**  It has given the results in `log`, and goes on from
where these end, if it began where it is `reached` when `more` is still to arrive. -/
structure Held (l : Link δ) (c : Connection) (log : List (Except LineError String))
    (reached : Bool → Bytes → δ → Bytes → Prop) : Prop where
  sound : l.Sound c
  delivered : ∀ ended more, (c.finished = true → ended = true ∧ more = []) →
    ∃ f b, reached ended more f b ∧ ∃ f' b', Gives ended f b log f' b' ∧
      LineFormat.decode l.format ended (l.buffer ++ (c.incoming ++ more)) =
        LineFormat.decode f' ended b'

theorem Held.arrive {bytes : Bytes} (h : l.Held c log reached) (hopen : c.finished = false) :
    l.Held (c.arrive bytes) log fun ended more => reached ended (bytes ++ more) := by
  refine ⟨?_, ?_⟩
  · intro hatEnd
    have hfinished := (h.sound hatEnd).1
    rw [hopen] at hfinished
    cases hfinished
  · intro ended more hmore
    obtain ⟨f, b, hreached, f', b', hyields, hd⟩ :=
      h.delivered ended (bytes ++ more) (by simp [hopen])
    refine ⟨f, b, hreached, f', b', hyields, ?_⟩
    rw [← hd, Connection.arrive, List.append_assoc]

theorem Held.finish (h : l.Held c log reached) : l.Held c.finish log reached := by
  refine ⟨fun hatEnd => ⟨rfl, (h.sound hatEnd).2⟩, ?_⟩
  intro ended more hmore
  exact h.delivered ended more fun _ => hmore rfl

variable [LawfulFormat δ]

/-- **Asking for a line** gives the next one of those that the channel is to yield. -/
theorem Held.poll {polled : Polled} {c' : Connection} (h : l.Held c log reached)
    (hpoll : l.poll c = (polled, l', c')) : l'.Held c' (log ++ polled.said) reached ∧
      c'.finished = c.finished ∧ c'.outgoing = c.outgoing ∧ c'.breach = c.breach := by
  have hpolls : ∀ ended more, (c.finished = true → ended = true ∧ more = []) →
      l.Polls c ended more (polled, l', c') := by
    intro ended more hmore
    rw [← hpoll]
    exact polls h.sound hmore
  obtain ⟨hfinished, hout, hbreach, hsound⟩ : c'.finished = c.finished ∧
      c'.outgoing = c.outgoing ∧ c'.breach = c.breach ∧ l'.Sound c' := by
    cases hpolls c.finished [] fun hf => ⟨hf, rfl⟩ with
    | found hsound _ => exact ⟨rfl, rfl, rfl, hsound⟩
    | nothing hsound _ _ _ => exact ⟨rfl, rfl, rfl, hsound⟩
  refine ⟨⟨hsound, ?_⟩, hfinished, hout, hbreach⟩
  intro ended more hmore
  rw [hfinished] at hmore
  obtain ⟨f, b, hreached, f', b', hyields, hd⟩ := h.delivered ended more hmore
  refine ⟨f, b, hreached, ?_⟩
  cases hpolls ended more hmore with
  | @found x _ incoming _ hfound =>
      rw [Polled.said_ofResult]
      exact ⟨_, _, hyields.snoc (hd.symm.trans hfound), rfl⟩
  | @nothing _ _ incoming _ hpolled hnothing _ =>
      have hsaid : polled.said = [] := by
        rcases hpolled with rfl | rfl <;> rfl
      rw [hsaid, List.append_nil]
      exact ⟨f', b', hyields, hnothing.trans hd⟩

/-- **A channel that yields what is to be read from it**: it has given the results in `log`, one
after the other, and when it looks and finds nothing more, there is nothing more. -/
def HandsOn (l : Link δ) (c : Connection) (log : List (Except LineError String)) (f : δ)
    (b : Bytes) : Prop :=
  ∃ f' b', Gives c.finished f b log f' b' ∧
    (l.Looks c → ((l.poll c).1 = .waiting ∨ (l.poll c).1 = .ended) →
      (LineFormat.decode f' c.finished b').1 = .ok none)

theorem Held.handsOn (h : l.Held c log reached) :
    ∃ f b, reached c.finished [] f b ∧ l.HandsOn c log f b := by
  obtain ⟨f, b, hreached, f', b', hyields, hd⟩ := h.delivered c.finished [] fun hf => ⟨hf, rfl⟩
  refine ⟨f, b, hreached, f', b', hyields, ?_⟩
  intro hlooks hquiet
  have hpolls : l.Polls c c.finished [] (l.poll c) := polls h.sound fun hf => ⟨hf, rfl⟩
  generalize l.poll c = answer at hpolls hquiet
  cases hpolls with
  | @found x _ _ _ _ => cases x <;> simp [Polled.ofResult, Except.map] at hquiet
  | nothing _ _ _ hlooked =>
      rw [← hd, List.append_nil, (hlooked hlooks).2.1]

end Link

end

/-! ### Where a handshake leaves its channel -/

/-- **A plain stream behind its first lines**: the state of reading, and what is left. -/
def Framing.after (ended : Bool) : Nat → Framing × Bytes → Framing × Bytes
  | 0, s => s
  | n + 1, s => Framing.after ended n (s.1.decode ended s.2).2

namespace LineCodec

variable {σ : Type} [LineCipher σ] {codec codec' : LineCodec σ} {ended : Bool} {bytes rest : Bytes}
  {result : Except LineError (Option String)}

theorem eq_of_decode (h : codec.decode ended bytes = (result, codec', rest))
    (hpolicy : codec.policy = .fail) :
    (codec'.framing, rest) = (codec.framing.decode ended bytes).2 ∧ codec'.policy = .fail ∧
      codec'.dropped = codec.dropped := by
  obtain ⟨result₁, cipher, hdecode⟩ := exists_decode_of_fail hpolicy ended bytes
  rw [h] at hdecode
  cases hdecode
  exact ⟨rfl, hpolicy, rfl⟩

theorem eq_of_encode {line : String} {result : Except LineError Bytes}
    (h : codec.encode line = (result, codec')) (hpolicy : codec.policy = .fail) :
    codec'.framing = codec.framing ∧ codec'.policy = .fail ∧ codec'.dropped = codec.dropped := by
  obtain ⟨result₁, cipher, hencode⟩ := exists_encode_of_fail hpolicy line
  rw [h] at hencode
  cases hencode
  exact ⟨rfl, hpolicy, rfl⟩

end LineCodec

namespace Side

open SessionCipher (counted)

/-- The number of lines that a handshake takes from its peer. -/
def lines : Side → Nat
  | server _ _ => 2
  | client _ _ => 1

/-- **The encrypted lines of a session** at the end of the handshake: the server has counted the
third message as read, and the client as written. -/
inductive Secures : Side → Framing → LineCodec SessionCipher → Prop
  | server (h : ServerHandshake) (s : ServerHandshake.State) (f : Framing) :
      Secures (server h s) f
        { framing := f
          cipher := counted h.session .responder h.options.mode h.options.maxLines 0 1
          policy := h.options.policy }
  | client (h : ClientHandshake) (s : ClientHandshake.State) (session : SessionKey) (f : Framing) :
      Secures (client h s) f
        { framing := f
          cipher := counted session .initiator h.options.mode h.options.maxLines 1 0
          policy := h.options.policy }

/-- **Where an ending leaves the channel** of a side: behind the lines that the handshake took, with
the encrypted lines of the session or with plain ones. -/
def Leaves (side : Side) (ended : Bool) (f : Framing) (stream : Bytes) : Ending → Prop
  | .waiting => True
  | .established _ codec rest =>
      side.Secures codec.framing codec ∧
        (codec.framing, rest) = Framing.after ended side.lines (f, stream)
  | .rejected _ framing rest =>
      ∃ n, n ≤ side.lines ∧ (framing, rest) = Framing.after ended n (f, stream)

variable {ended : Bool} {f : Framing} {stream bytes written : Bytes}

theorem leaves_server_conclude {h : ServerHandshake} {s : ServerHandshake.State}
    {username : String} {codec : LineCodec SessionCipher} (hpolicy : codec.policy = .fail)
    (hdropped : codec.dropped = 0) (hcipher : codec.cipher = h.options.cipher h.session .responder)
    (hafter : (codec.framing, bytes) = Framing.after ended 1 (f, stream)) :
    (server h s).Leaves ended f stream (h.conclude ended username codec bytes written).ending := by
  have hafter₂ : ∀ result codec' rest, codec.decode ended bytes = (result, codec', rest) →
      (codec'.framing, rest) = Framing.after ended 2 (f, stream) := by
    intro result codec' rest hdecode
    rw [(LineCodec.eq_of_decode hdecode hpolicy).1]
    exact congrArg (fun s => (s.1.decode ended s.2).2) hafter
  have hawaits := h.conclude_awaits ended username codec bytes written
  generalize h.conclude ended username codec bytes written = course at hawaits ⊢
  cases hawaits with
  | @told line _ codec' rest hdecode hread =>
      obtain ⟨text, f₁, cipher, -, hdecrypt, rfl⟩ :=
        (LineCodec.decode_eq_line_iff hpolicy).1 hdecode
      rw [hcipher] at hdecrypt
      have hcounted := (@SessionCipher.decrypt_counted_eq_ok_iff h.session .initiator
        h.options.mode h.options.maxLines 0 0 text line cipher).1 hdecrypt
      refine ⟨?_, hafter₂ (.ok (some line)) { codec with framing := f₁, cipher } rest hdecode⟩
      rw [hcounted.2.2, hdropped]
      exact .server h s f₁
  | silent hdecode hopen => trivial
  | refused hdecode hread => exact ⟨2, Nat.le_refl 2, hafter₂ _ _ _ hdecode⟩
  | unreadable hdecode => exact ⟨2, Nat.le_refl 2, hafter₂ _ _ _ hdecode⟩
  | closed hdecode hclosed => exact ⟨2, Nat.le_refl 2, hafter₂ _ _ _ hdecode⟩

theorem leaves_server (h : ServerHandshake) (s : ServerHandshake.State) (first : Option Breach)
    (ended : Bool) (f : Framing) (stream : Bytes) :
    (server h s).Leaves ended f stream (h.course first ended f stream).ending := by
  have hafter : ∀ result codec' rest,
      (LineCodec.strict f (EnvelopeCipher.openOnly h.key h.seeds)).decode ended stream =
        (result, codec', rest) → (codec'.framing, rest) = Framing.after ended 1 (f, stream) :=
    fun _ _ _ hdecode => (LineCodec.eq_of_decode hdecode rfl).1
  have hawaits := h.identifying_awaits first ended
    (.strict f (EnvelopeCipher.openOnly h.key h.seeds)) stream []
  rw [ServerHandshake.course]
  generalize h.identifying first ended _ stream [] = course at hawaits ⊢
  cases hawaits with
  | @told line found codec' rest hdecode hread =>
      have hstrict : (LineCodec.strict f (EnvelopeCipher.openOnly h.key h.seeds)).policy = .fail :=
        rfl
      have hleft := LineCodec.eq_of_decode hdecode hstrict
      have hsends := h.respond_sends first ended codec' found.1 found.2 rest []
      generalize h.respond first ended codec' found.1 found.2 rest [] = course at hsends ⊢
      cases hsends with
      | sent hencode =>
          have hsame := LineCodec.eq_of_encode hencode hleft.2.1
          refine leaves_server_conclude hsame.2.1 (hsame.2.2.trans hleft.2.2) rfl ?_
          rw [← hafter _ _ _ hdecode]
          exact congrArg (·, rest) hsame.1
      | refused hencode =>
          refine ⟨1, Nat.le_succ 1, ?_⟩
          rw [(LineCodec.eq_of_encode hencode hleft.2.1).1, ← hafter _ _ _ hdecode]
          rfl
      | broken hbreach hencode =>
          refine ⟨1, Nat.le_succ 1, ?_⟩
          rw [(LineCodec.eq_of_encode hencode hleft.2.1).1, ← hafter _ _ _ hdecode]
          rfl
  | silent hdecode hopen => trivial
  | refused hdecode hread => exact ⟨1, Nat.le_succ 1, hafter _ _ _ hdecode⟩
  | unreadable hdecode => exact ⟨1, Nat.le_succ 1, hafter _ _ _ hdecode⟩
  | closed hdecode hclosed => exact ⟨1, Nat.le_succ 1, hafter _ _ _ hdecode⟩

theorem leaves_client_conclude {h : ClientHandshake} {s : ClientHandshake.State}
    {second : Option Breach} {codec : LineCodec EnvelopeCipher} {reply : ServerOk}
    (hpolicy : codec.policy = .fail) (hdropped : codec.dropped = 0)
    (hafter : (codec.framing, bytes) = Framing.after ended 1 (f, stream)) :
    (client h s).Leaves ended f stream (h.conclude second codec reply bytes written).ending := by
  have hcipher : (codec.withCipher (h.options.cipher reply.session .initiator)).cipher =
      counted reply.session .initiator h.options.mode h.options.maxLines 0 0 := rfl
  have hsends := h.conclude_sends second codec reply bytes written
  generalize h.conclude second codec reply bytes written = course at hsends ⊢
  cases hsends with
  | @sent line codec' hencode =>
      rcases LineCodec.encode_counted hcipher reply.serverChallenge.toBase64 with
        ⟨e, herror⟩ | ⟨-, -, hok⟩
      · rw [herror] at hencode
        cases hencode
      · rw [hok] at hencode
        obtain ⟨-, rfl⟩ := Prod.mk.inj hencode
        refine ⟨?_, hafter⟩
        change (client h s).Secures codec.framing { codec with
          cipher := counted reply.session .initiator h.options.mode h.options.maxLines 1 0
          policy := h.options.policy }
        rw [hdropped]
        exact .client h s reply.session codec.framing
  | refused hencode =>
      refine ⟨1, Nat.le_refl 1, ?_⟩
      rw [(LineCodec.eq_of_encode hencode hpolicy).1, ← hafter]
      rfl
  | broken hbreach hencode =>
      refine ⟨1, Nat.le_refl 1, ?_⟩
      rw [(LineCodec.eq_of_encode hencode hpolicy).1, ← hafter]
      rfl

theorem leaves_client (h : ClientHandshake) (s : ClientHandshake.State)
    (first second : Option Breach) (ended : Bool) (f : Framing) (stream : Bytes) :
    (client h s).Leaves ended f stream (h.course first second ended f stream).ending := by
  have hsends := h.introducing_sends first second ended f stream []
  rw [ClientHandshake.course]
  generalize h.introducing first second ended f stream [] = course at hsends ⊢
  cases hsends with
  | @sent line codec hencode =>
      have hstrict :
          (LineCodec.strict f (EnvelopeCipher.between h.serverKey h.key h.seeds)).policy = .fail :=
        rfl
      have hsame := LineCodec.eq_of_encode hencode hstrict
      have hafter : ∀ result codec' rest, codec.decode ended stream = (result, codec', rest) →
          (codec'.framing, rest) = Framing.after ended 1 (f, stream) := by
        intro result codec' rest hdecode
        rw [(LineCodec.eq_of_decode hdecode hsame.2.1).1, hsame.1]
        rfl
      have hawaits := h.accepting_awaits second ended codec stream ([] ++ line)
      generalize h.accepting second ended codec stream ([] ++ line) = course at hawaits ⊢
      cases hawaits with
      | told hdecode hread =>
          have hleft := LineCodec.eq_of_decode hdecode hsame.2.1
          exact leaves_client_conclude hleft.2.1 (hleft.2.2.trans hsame.2.2) (hafter _ _ _ hdecode)
      | silent hdecode hopen => trivial
      | refused hdecode hread => exact ⟨1, Nat.le_refl 1, hafter _ _ _ hdecode⟩
      | unreadable hdecode => exact ⟨1, Nat.le_refl 1, hafter _ _ _ hdecode⟩
      | closed hdecode hclosed => exact ⟨1, Nat.le_refl 1, hafter _ _ _ hdecode⟩
  | refused hencode =>
      refine ⟨0, Nat.zero_le 1, ?_⟩
      rw [(LineCodec.eq_of_encode hencode rfl).1]
      rfl
  | broken hbreach hencode =>
      refine ⟨0, Nat.zero_le 1, ?_⟩
      rw [(LineCodec.eq_of_encode hencode rfl).1]
      rfl

/-- **Where a handshake leaves its channel.** -/
theorem leaves_course (side : Side) (first second : Option Breach) (ended : Bool) (f : Framing)
    (stream : Bytes) :
    side.Leaves ended f stream (side.course first second ended f stream).ending := by
  cases side with
  | server h s => exact leaves_server h s first ended f stream
  | client h s => exact leaves_client h s first second ended f stream

end Side

/-! ### Owners that ask for lines -/

namespace Party

/-- **What can happen to a party** whose owner asks for lines. -/
inductive Turn where
  | move (m : Move)
  /-- The owner asks for the next line, which it gets once the handshake has ended. -/
  | next

/-- What happens to the party itself. -/
def Turn.moves (turns : List Turn) : List Move :=
  turns.filterMap fun
    | .move m => some m
    | .next => none

/-- A party after a turn, and what its owner has been told. -/
def turn (s : Party × List (Except LineError String)) : Turn →
    Party × List (Except LineError String)
  | .move m => (s.1.move m, s.2)
  | .next =>
      match s.1.next with
      | none => s
      | some (polled, p) => (p, s.2 ++ polled.said)

/-- **A run in which the owner asks for lines.** -/
def watch (s : Party × List (Except LineError String)) (turns : List Turn) :
    Party × List (Except LineError String) :=
  turns.foldl turn s

variable {course : Option Breach → Option Breach → Bool → Bytes → Course} {p : Party}
  {log : List (Except LineError String)} {stream : Bytes}

/-- **The invariant**: a handshake under way follows its course, and once it has ended its channel
is on the way through the lines that the course leaves on it. -/
inductive Hands (course : Option Breach → Option Breach → Bool → Bytes → Course) :
    Party → List (Except LineError String) → Bytes → Prop
  | running {p : Party} {stream : Bytes} (houtcome : p.outcome? = none)
      (hfollows : p.Follows (· = none) course stream) : Hands course p [] stream
  | established {p : Party} {log : List (Except LineError String)} {stream : Bytes}
      {result : Established} (houtcome : p.outcome? = some (.ok result))
      (hheld : result.channel.Held p.wire log fun ended more codec rest =>
        course none none ended (stream ++ more) =
          ⟨.established result.username codec rest, p.wire.outgoing⟩) : Hands course p log stream
  | rejected {p : Party} {log : List (Except LineError String)} {stream : Bytes}
      {result : Rejected} (houtcome : p.outcome? = some (.error result))
      (hheld : result.channel.Held p.wire log fun ended more f rest =>
        course none none ended (stream ++ more) =
          ⟨.rejected result.failure f rest, p.wire.outgoing⟩) : Hands course p log stream

theorem sound_of_ok {result : Established} (h : p.outcome? = some (.ok result))
    (hsane : p.side.Sane p.wire) : result.channel.Sound p.wire := by
  obtain ⟨side, wire, gone⟩ := p
  cases side with
  | server h' s => cases s <;> cases h; exact hsane
  | client h' s => cases s <;> cases h; exact hsane

theorem sound_of_error {result : Rejected} (h : p.outcome? = some (.error result))
    (hsane : p.side.Sane p.wire) : result.channel.Sound p.wire := by
  obtain ⟨side, wire, gone⟩ := p
  cases side with
  | server h' s => cases s <;> cases h; exact hsane
  | client h' s => cases s <;> cases h; exact hsane

theorem outlook_of_ok {result : Established} (h : p.outcome? = some (.ok result))
    (ended : Bool) (more : Bytes) : p.side.outlook none none ended p.wire more =
      ⟨.established result.username result.channel.format
        (result.channel.buffer ++ (p.wire.incoming ++ more)), p.wire.outgoing⟩ := by
  obtain ⟨side, wire, gone⟩ := p
  cases side with
  | server h' s => cases s <;> cases h; rfl
  | client h' s => cases s <;> cases h; rfl

theorem outlook_of_error {result : Rejected} (h : p.outcome? = some (.error result))
    (ended : Bool) (more : Bytes) : p.side.outlook none none ended p.wire more =
      ⟨.rejected result.failure result.channel.format
        (result.channel.buffer ++ (p.wire.incoming ++ more)), p.wire.outgoing⟩ := by
  obtain ⟨side, wire, gone⟩ := p
  cases side with
  | server h' s => cases s <;> cases h; rfl
  | client h' s => cases s <;> cases h; rfl

theorem Follows.course_eq (h : p.Follows (· = none) course stream) {ended : Bool} {more : Bytes}
    (hmore : p.wire.finished = true → ended = true ∧ more = []) :
    course none none ended (stream ++ more) = p.side.outlook none none ended p.wire more := by
  obtain ⟨first, second, rfl, rfl, houtlook⟩ := h.outlook_eq ended more hmore none none rfl rfl
  exact houtlook.symm

/-- A handshake that has just ended has left all its lines to be read. -/
theorem Follows.hands (h : p.Follows (· = none) course stream) : Hands course p [] stream := by
  rcases houtcome : p.outcome? with _ | result | result
  · exact .running houtcome h
  · refine .rejected houtcome ⟨sound_of_error houtcome h.sane, ?_⟩
    intro ended more hmore
    refine ⟨_, _, ?_, _, _, .nil _ _, rfl⟩
    rw [h.course_eq hmore, outlook_of_error houtcome]
  · refine .established houtcome ⟨sound_of_ok houtcome h.sane, ?_⟩
    intro ended more hmore
    refine ⟨_, _, ?_, _, _, .nil _ _, rfl⟩
    rw [h.course_eq hmore, outlook_of_ok houtcome]

/-- A handshake that has ended does not go on. -/
theorem work_of_outcome {outcome : Except Rejected Established} (h : p.outcome? = some outcome) :
    p.work = p := by
  obtain ⟨side, wire, gone⟩ := p
  cases side with
  | server h' s => cases s <;> cases h <;> rfl
  | client h' s => cases s <;> cases h <;> rfl

/-- A move leaves a channel that has changed hands on its way. -/
theorem held_move {δ : Type} [LineFormat δ] {l : Link δ}
    {reached : Bool → Bytes → δ → Bytes → Prop} (m : Move) (hm : ∀ breach, m ≠ .fail breach)
    (hwork : p.work = p) (h : l.Held p.wire log reached) :
    l.Held (p.move m).wire log (fun ended more => reached ended (p.heard [m] ++ more)) ∧
      (p.move m).side = p.side ∧ (p.move m).wire.outgoing = p.wire.outgoing ∧
      (p.move m).wire.finished = (p.wire.finished || closed [m]) ∧ (p.move m).gone = p.gone := by
  have hnothing : arrived [m] = [] → p.heard [m] = [] := by
    intro harrived
    simp [heard, harrived]
  cases m with
  | arrive bytes =>
      cases hfinished : p.wire.finished with
      | true =>
          have hsame : p.move (.arrive bytes) = p := by simp [Party.move, hfinished]
          rw [hsame, heard_of_finished hfinished]
          exact ⟨h, rfl, rfl, hfinished, rfl⟩
      | false =>
          have hnext : p.move (.arrive bytes) = { p with wire := p.wire.arrive bytes } := by
            simp [Party.move, hfinished]
          have hheard : p.heard [.arrive bytes] = bytes := by
            rw [heard_of_open hfinished]
            exact List.append_nil bytes
          rw [hnext, hheard]
          exact ⟨h.arrive hfinished, rfl, rfl, hfinished, rfl⟩
  | finish =>
      rw [hnothing rfl]
      exact ⟨h.finish, rfl, rfl, (Bool.or_true _).symm, rfl⟩
  | fail breach => exact absurd rfl (hm breach)
  | work =>
      have hsame : p.move .work = p := hwork
      rw [hnothing rfl, hsame]
      exact ⟨h, rfl, rfl, (Bool.or_false _).symm, rfl⟩

theorem Hands.move (m : Move) (hm : ∀ breach, m ≠ .fail breach) (h : Hands course p log stream) :
    Hands course (p.move m) log (stream ++ p.heard [m]) ∧
      (p.move m).wire.finished = (p.wire.finished || closed [m]) ∧ (p.move m).gone = p.gone := by
  cases h with
  | running houtcome hfollows =>
      obtain ⟨hmove, hfinished, hgone⟩ :=
        hfollows.move m fun breach he => absurd he (hm breach)
      exact ⟨hmove.hands, hfinished, hgone⟩
  | established houtcome hheld =>
      obtain ⟨hmove, hside, hout, hfinished, hgone⟩ :=
        held_move m hm (work_of_outcome houtcome) hheld
      refine ⟨.established ((congrArg Side.outcome? hside).trans houtcome) ?_, hfinished, hgone⟩
      rw [hout]
      simpa only [List.append_assoc] using hmove
  | rejected houtcome hheld =>
      obtain ⟨hmove, hside, hout, hfinished, hgone⟩ :=
        held_move m hm (work_of_outcome houtcome) hheld
      refine ⟨.rejected ((congrArg Side.outcome? hside).trans houtcome) ?_, hfinished, hgone⟩
      rw [hout]
      simpa only [List.append_assoc] using hmove

/-- **What the owner is told** is what the course leaves on the channel. -/
theorem Hands.next {polled : Polled} {p' : Party} (h : Hands course p log stream)
    (hnext : p.next = some (polled, p')) :
    Hands course p' (log ++ polled.said) stream ∧ p'.wire.finished = p.wire.finished ∧
      p'.gone = p.gone := by
  cases h with
  | running houtcome hfollows =>
      rw [Party.next, houtcome] at hnext
      cases hnext
  | established houtcome hheld =>
      rename_i result
      rcases hpoll : result.channel.poll p.wire with ⟨answer, l', c'⟩
      obtain ⟨hheld', hfinished, hout, -⟩ := hheld.poll hpoll
      simp only [Party.next, houtcome, Option.map_some, hpoll] at hnext
      cases hnext
      refine ⟨@Hands.established course _ _ _ { result with channel := l' } ?_ ?_, hfinished, rfl⟩
      · cases p.side <;> rfl
      · simpa only [hout] using hheld'
  | rejected houtcome hheld =>
      rename_i result
      rcases hpoll : result.channel.poll p.wire with ⟨answer, l', c'⟩
      obtain ⟨hheld', hfinished, hout, -⟩ := hheld.poll hpoll
      simp only [Party.next, houtcome, Option.map_some, hpoll] at hnext
      cases hnext
      refine ⟨@Hands.rejected course _ _ _ { result with channel := l' } ?_ ?_, hfinished, rfl⟩
      · cases p.side <;> rfl
      · simpa only [hout] using hheld'

/-- **Every run keeps the invariant.** -/
theorem Hands.watch (turns : List Turn) (hturns : ∀ breach, Turn.move (.fail breach) ∉ turns)
    (h : Hands course p log stream) :
    Hands course (watch (p, log) turns).1 (watch (p, log) turns).2
        (stream ++ p.heard (Turn.moves turns)) ∧
      (watch (p, log) turns).1.wire.finished = (p.wire.finished || closed (Turn.moves turns)) ∧
      (watch (p, log) turns).1.gone = p.gone := by
  induction turns generalizing p log stream with
  | nil =>
      have hnone : p.heard (Turn.moves []) = [] := by simp [heard, Turn.moves, arrived]
      rw [hnone, List.append_nil]
      exact ⟨h, (Bool.or_false _).symm, rfl⟩
  | cons t turns ih =>
      have hturns' : ∀ breach, Turn.move (.fail breach) ∉ turns :=
        fun breach hmem => hturns breach (List.mem_cons_of_mem _ hmem)
      rw [Party.watch, List.foldl_cons]
      cases t with
      | move m =>
          have hm : ∀ breach, m ≠ .fail breach := by
            rintro breach rfl
            exact hturns breach (List.mem_cons_self ..)
          have hmoves : Turn.moves (.move m :: turns) = m :: Turn.moves turns := rfl
          obtain ⟨hmove, hfinished, hgone⟩ := h.move m hm
          obtain ⟨hrun, hend, hgone'⟩ := ih hturns' hmove
          refine ⟨?_, ?_, hgone'.trans hgone⟩
          · rw [hmoves, heard_cons _ hfinished, ← List.append_assoc]
            exact hrun
          · rw [hmoves, closed_cons, ← Bool.or_assoc, ← hfinished]
            exact hend
      | next =>
          have hmoves : Turn.moves (.next :: turns) = Turn.moves turns := rfl
          rw [hmoves]
          cases hnext : p.next with
          | none =>
              have hsame : turn (p, log) .next = (p, log) := by simp [turn, hnext]
              rw [hsame]
              exact ih hturns' h
          | some told =>
              obtain ⟨polled, p'⟩ := told
              have hturn : turn (p, log) .next = (p', log ++ polled.said) := by simp [turn, hnext]
              obtain ⟨hhands, hfinished, hgone⟩ := h.next hnext
              obtain ⟨hrun, hend, hgone'⟩ := ih hturns' hhands
              have hheard : p'.heard (Turn.moves turns) = p.heard (Turn.moves turns) := by
                simp only [heard, hfinished]
              rw [hturn, ← hheard, ← hfinished]
              exact ⟨hrun, hend, hgone'.trans hgone⟩

/-- Going as far as possible, a handshake ends or has to wait. -/
theorem Hands.advance (h : Hands course p log stream) (hgone : p.gone = false) :
    Hands course p.advance log stream ∧ p.advance.wire.finished = p.wire.finished ∧
      (p.advance.outcome? = none → log = [] ∧
        course none none p.wire.finished stream = ⟨.waiting, p.advance.wire.outgoing⟩) := by
  cases h with
  | running houtcome hfollows =>
      obtain ⟨hadvance, hwaits, hfinished⟩ := hfollows.advance hgone
      refine ⟨hadvance.hands, hfinished, fun hnone => ⟨rfl, ?_⟩⟩
      have hcourse : course none none p.advance.wire.finished (stream ++ []) =
          p.advance.side.outlook none none p.advance.wire.finished p.advance.wire [] :=
        hadvance.course_eq fun hf => ⟨hf, rfl⟩
      rw [List.append_nil, Side.outlook_of_waits hwaits, hfinished] at hcourse
      rw [hcourse, Side.ending_of_none hnone]
  | established houtcome hheld =>
      have hsame : p.advance = p := by
        rw [advance_eq hgone, work_of_outcome houtcome, work_of_outcome houtcome,
          work_of_outcome houtcome]
      rw [hsame]
      refine ⟨.established houtcome hheld, rfl, ?_⟩
      intro hnone
      rw [hnone] at houtcome
      cases houtcome
  | rejected houtcome hheld =>
      have hsame : p.advance = p := by
        rw [advance_eq hgone, work_of_outcome houtcome, work_of_outcome houtcome,
          work_of_outcome houtcome]
      rw [hsame]
      refine ⟨.rejected houtcome hheld, rfl, ?_⟩
      intro hnone
      rw [hnone] at houtcome
      cases houtcome

/-- The channel of a handshake that succeeded yields what its course leaves on it. -/
theorem Hands.of_ok {result : Established} (h : Hands course p log stream)
    (hresult : p.outcome? = some (.ok result)) : ∃ codec rest,
      course none none p.wire.finished stream =
        ⟨.established result.username codec rest, p.wire.outgoing⟩ ∧
      result.channel.HandsOn p.wire log codec rest := by
  cases h with
  | running houtcome _ => cases houtcome.symm.trans hresult
  | established houtcome hheld =>
      cases houtcome.symm.trans hresult
      obtain ⟨codec, rest, hcourse, hhands⟩ := hheld.handsOn
      rw [List.append_nil] at hcourse
      exact ⟨codec, rest, hcourse, hhands⟩
  | rejected houtcome _ => cases houtcome.symm.trans hresult

/-- The channel of a handshake that failed yields what its course leaves on it. -/
theorem Hands.of_error {result : Rejected} (h : Hands course p log stream)
    (hresult : p.outcome? = some (.error result)) : ∃ f rest,
      course none none p.wire.finished stream =
        ⟨.rejected result.failure f rest, p.wire.outgoing⟩ ∧
      result.channel.HandsOn p.wire log f rest := by
  cases h with
  | running houtcome _ => cases houtcome.symm.trans hresult
  | established houtcome _ => cases houtcome.symm.trans hresult
  | rejected houtcome hheld =>
      cases houtcome.symm.trans hresult
      obtain ⟨f, rest, hcourse, hhands⟩ := hheld.handsOn
      rw [List.append_nil] at hcourse
      exact ⟨f, rest, hcourse, hhands⟩

/-- **A handshake takes exactly its own lines.**  However the stream of the peer is cut, and
whenever the owner asks for lines: what the handshake comes to and what it writes is the course of
the stream, and the owner is told, one after the other, what the codec of the course yields on the
bytes behind the lines that the handshake took, until that has no more. -/
theorem takes_own_lines {side : Side} {raw : PlainLink} (h : side.Starts raw) (turns : List Turn)
    (hturns : ∀ breach, Turn.move (.fail breach) ∉ turns) :
    let p := (watch ({ side }, []) turns).1.advance
    let log := (watch ({ side }, []) turns).2
    let ended := closed (Turn.moves turns)
    let stream := raw.buffer ++ arrived (Turn.moves turns)
    let course := side.course none none ended raw.format stream
    p.wire.outgoing = course.written ∧
      (p.outcome? = none → course.ending = .waiting ∧ log = []) ∧
      (∀ result, p.outcome? = some (.ok result) → ∃ f codec rest,
        side.Secures f codec ∧ (f, rest) = Framing.after ended side.lines (raw.format, stream) ∧
          course.ending = .established result.username codec rest ∧
          result.channel.HandsOn p.wire log codec rest) ∧
      ∀ result, p.outcome? = some (.error result) → ∃ n f rest,
        n ≤ side.lines ∧ (f, rest) = Framing.after ended n (raw.format, stream) ∧
          course.ending = .rejected result.failure f rest ∧
          result.channel.HandsOn p.wire log f rest := by
  intro p log ended stream course
  have hstart : Follows (· = none) _ { side } raw.buffer := follows_start h rfl
  obtain ⟨hwatch, hclosed, hgone⟩ := hstart.hands.watch turns hturns
  obtain ⟨hhands, hfinished, hwaiting⟩ := hwatch.advance hgone
  have hended : p.wire.finished = ended := hfinished.trans (hclosed.trans (Bool.false_or _))
  have hleaves : side.Leaves ended raw.format stream course.ending := side.leaves_course ..
  have hnone : p.outcome? = none → log = [] ∧ course = ⟨.waiting, p.wire.outgoing⟩ := by
    intro hrunning
    have hnothing := hwaiting hrunning
    rw [hclosed] at hnothing
    exact hnothing
  have hok : ∀ result, p.outcome? = some (.ok result) → ∃ codec rest,
      course = ⟨.established result.username codec rest, p.wire.outgoing⟩ ∧
        result.channel.HandsOn p.wire log codec rest := by
    intro result hresult
    have hcourse := hhands.of_ok hresult
    rw [hended] at hcourse
    exact hcourse
  have herror : ∀ result, p.outcome? = some (.error result) → ∃ f rest,
      course = ⟨.rejected result.failure f rest, p.wire.outgoing⟩ ∧
        result.channel.HandsOn p.wire log f rest := by
    intro result hresult
    have hcourse := hhands.of_error hresult
    rw [hended] at hcourse
    exact hcourse
  refine ⟨?_, ?_, ?_, ?_⟩
  · rcases houtcome : p.outcome? with _ | result | result
    · rw [(hnone houtcome).2]
    · obtain ⟨f, rest, hcourse, -⟩ := herror result houtcome
      rw [hcourse]
    · obtain ⟨codec, rest, hcourse, -⟩ := hok result houtcome
      rw [hcourse]
  · intro hrunning
    obtain ⟨hlog, hcourse⟩ := hnone hrunning
    exact ⟨congrArg Course.ending hcourse, hlog⟩
  · intro result hresult
    obtain ⟨codec, rest, hcourse, hyields⟩ := hok result hresult
    rw [hcourse] at hleaves
    exact ⟨codec.framing, codec, rest, hleaves.1, hleaves.2, congrArg Course.ending hcourse,
      hyields⟩
  · intro result hresult
    obtain ⟨f, rest, hcourse, hyields⟩ := herror result hresult
    rw [hcourse] at hleaves
    obtain ⟨n, hn, hafter⟩ := hleaves
    exact ⟨n, f, rest, hn, hafter, congrArg Course.ending hcourse, hyields⟩

/-- A server that knows nobody. -/
def doorman : Side :=
  .server
    { key := ⟨3233, 17, 413, 61, 53⟩
      directory := fun _ => none
      options := {}
      challenge := ⟨Vector.replicate 32 7⟩
      session := ⟨Vector.replicate 32 1, Vector.replicate 16 2⟩
      seeds := fun _ => Vector.replicate 32 9 }
    (.start { format := {} })

/-- A line that is no first message, and another one that is cut in two behind it. -/
def smallTalk : List Turn :=
  [.move (.arrive (Text.utf8 "no\nhi")), .move .work, .next, .move .work,
    .move (.arrive (Text.utf8 "!\nyou")), .next, .next]

/-- A server that was told no first message leaves the line behind it to its owner. -/
theorem takes_own_lines_doorman :
    doorman.Starts { format := {} } ∧ (∀ breach, Turn.move (.fail breach) ∉ smallTalk) ∧
      (watch ({ side := doorman }, []) smallTalk).2.map Except.toOption = [some "hi!"] ∧
      ∀ result, (watch ({ side := doorman }, []) smallTalk).1.advance.outcome? =
          some (.error result) → ∃ n f rest, n ≤ doorman.lines ∧
        (f, rest) = Framing.after false n ({}, Text.utf8 "no\nhi!\nyou") ∧
        (doorman.course none none false {} (Text.utf8 "no\nhi!\nyou")).ending =
          .rejected result.failure f rest ∧
        result.channel.HandsOn (watch ({ side := doorman }, []) smallTalk).1.advance.wire
          (watch ({ side := doorman }, []) smallTalk).2 f rest := by
  have hstarts : doorman.Starts { format := {} } := .server _ _
  have hturns : ∀ breach, Turn.move (.fail breach) ∉ smallTalk := by simp [smallTalk]
  exact ⟨hstarts, hturns, by decide +kernel, (takes_own_lines hstarts smallTalk hturns).2.2.2⟩

end Party

end LineChat
