/-
**Runs of a handshake.**

What happens to a party is up to others: bytes arrive in segments of any length, the stream ends,
writing starts to fail, and the handshake is given a chance to go on, in any order.  None of this
has a say in what the handshake comes to.  It is the course of the stream that has arrived, and only
how far the handshake has come depends on the order.

Main definitions:

* `LineChat.Party.Move`, `LineChat.Party.run` — **what happens to a party**;
* `LineChat.Party.arrived`, `LineChat.Party.closed` — the stream that it leads to;
* `LineChat.Side.course` — the course of a handshake that has not begun;
* `LineChat.Party.Follows` — **the invariant**.

Main results:

* `LineChat.Party.Follows.move`, `LineChat.Party.Follows.run` — every move keeps the invariant;
* `LineChat.Party.run_advance` — **a run comes to the course of its stream**.
-/

import LineChat.Proofs.Handshake.Course

set_option autoImplicit false

namespace LineChat

/-! ### Where a side is -/

namespace Side

/-- A side that has not begun, on a channel. -/
inductive Starts : Side → PlainLink → Prop
  | server (h : ServerHandshake) (raw : PlainLink) : Starts (server h (.start raw)) raw
  | client (h : ClientHandshake) (raw : PlainLink) : Starts (client h (.start raw)) raw

/-- **The course of a handshake that has not begun.** -/
def course (first second : Option Breach) (ended : Bool) (f : Framing) (stream : Bytes) :
    Side → Course
  | server h _ => h.course first ended f stream
  | client h _ => h.course first second ended f stream

/-- How a handshake has ended, with what is still to be read from its channel. -/
def ending (side : Side) (c : Connection) : Ending :=
  match side with
  | server _ (.established e) | client _ (.established e) =>
      .established e.username e.channel.format (e.channel.buffer ++ c.incoming)
  | server _ (.rejected r) | client _ (.rejected r) =>
      .rejected r.failure r.channel.format (r.channel.buffer ++ c.incoming)
  | _ => .waiting

variable {side : Side} {c : Connection} {first second : Option Breach} {ended : Bool}
  {more : Bytes}

theorem ending_of_ok {result : Established} (h : side.outcome? = some (.ok result)) :
    side.ending c =
      .established result.username result.channel.format (result.channel.buffer ++ c.incoming) := by
  cases side with
  | server h' s => cases s <;> cases h; rfl
  | client h' s => cases s <;> cases h; rfl

theorem ending_of_error {result : Rejected} (h : side.outcome? = some (.error result)) :
    side.ending c =
      .rejected result.failure result.channel.format (result.channel.buffer ++ c.incoming) := by
  cases side with
  | server h' s => cases s <;> cases h; rfl
  | client h' s => cases s <;> cases h; rfl

theorem ending_of_none (h : side.outcome? = none) : side.ending c = .waiting := by
  cases side with
  | server h' s => cases s <;> first | rfl | cases h
  | client h' s => cases s <;> first | rfl | cases h

theorem exists_ok_of_ending {username : String} {codec : LineCodec SessionCipher} {rest : Bytes}
    (h : side.ending c = .established username codec rest) :
    ∃ result, side.outcome? = some (.ok result) := by
  rcases ho : side.outcome? with _ | result | result
  · rw [ending_of_none ho] at h
    cases h
  · rw [ending_of_error ho] at h
    cases h
  · exact ⟨result, rfl⟩

theorem awaiting_of_none {σ α : Type} [LineCipher σ] {codec : LineCodec σ} {what : String}
    {read : String → Except HandshakeFailure α} {bytes written : Bytes}
    {go : α → LineCodec σ → Bytes → Course} (h : (codec.decode false bytes).1 = .ok none) :
    codec.awaiting what read false bytes written go = ⟨.waiting, written⟩ := by
  rcases hd : codec.decode false bytes with ⟨result, codec', rest⟩
  rw [hd] at h
  obtain rfl : result = .ok none := h
  simp only [LineCodec.awaiting, hd]
  rfl

/-- **The outlook of a side that cannot go on** is where it is. -/
theorem outlook_of_waits (h : side.Waits c) :
    side.outlook first second c.finished c [] = ⟨side.ending c, c.outgoing⟩ := by
  cases side with
  | server h' s =>
      cases s with
      | start raw => exact h.elim
      | awaitingAuth l =>
          obtain ⟨hfinished, hnone⟩ := h
          rw [hfinished, outlook, ServerHandshake.identifying, List.append_nil]
          exact awaiting_of_none hnone
      | awaitingEcho l username =>
          obtain ⟨hfinished, hnone⟩ := h
          rw [hfinished, outlook, ServerHandshake.conclude, List.append_nil]
          exact awaiting_of_none hnone
      | established e => simp only [outlook, ending, List.append_nil]
      | rejected r => simp only [outlook, ending, List.append_nil]
  | client h' s =>
      cases s with
      | start raw => exact h.elim
      | sentAuth l => exact h.elim
      | awaitingOk l =>
          obtain ⟨hfinished, hnone⟩ := h
          rw [hfinished, outlook, ClientHandshake.accepting, List.append_nil]
          exact awaiting_of_none hnone
      | established e => simp only [outlook, ending, List.append_nil]
      | rejected r => simp only [outlook, ending, List.append_nil]

theorem outlook_arrive (side : Side) (c : Connection) (bytes more : Bytes) :
    side.outlook first second ended (c.arrive bytes) more =
      side.outlook first second ended c (bytes ++ more) := by
  have hassoc : (c.arrive bytes).incoming ++ more = c.incoming ++ (bytes ++ more) :=
    List.append_assoc ..
  cases side with
  | server h s => cases s <;> simp only [outlook, hassoc] <;> rfl
  | client h s => cases s <;> simp only [outlook, hassoc] <;> rfl

theorem outlook_finish (side : Side) (c : Connection) :
    side.outlook first second ended c.finish more = side.outlook first second ended c more := by
  cases side with
  | server h s => cases s <;> rfl
  | client h s => cases s <;> rfl

theorem outlook_breach (side : Side) (c : Connection) (breach : Option Breach) :
    side.outlook first second ended { c with breach } more =
      side.outlook first second ended c more := by
  cases side with
  | server h s => cases s <;> rfl
  | client h s => cases s <;> rfl

/-- Only the end of the stream has to do with what a channel may have overlooked. -/
theorem Sane.of_sound {c' : Connection} (h : side.Sane c)
    (hsound : c.finished = true → c.incoming = [] → c'.finished = true ∧ c'.incoming = []) :
    side.Sane c' := by
  cases side with
  | server h' s =>
      cases s with
      | start raw => trivial
      | awaitingAuth l => exact h
      | awaitingEcho l username => exact h
      | established e => exact fun hatEnd => hsound (h hatEnd).1 (h hatEnd).2
      | rejected r => exact fun hatEnd => hsound (h hatEnd).1 (h hatEnd).2
  | client h' s =>
      cases s with
      | start raw => trivial
      | sentAuth l => exact h
      | awaitingOk l => exact h
      | established e => exact fun hatEnd => hsound (h hatEnd).1 (h hatEnd).2
      | rejected r => exact fun hatEnd => hsound (h hatEnd).1 (h hatEnd).2

end Side

/-! ### What happens to a party -/

namespace Party

/-- **What can happen to a party.** -/
inductive Move where
  /-- Bytes arrive. -/
  | arrive (bytes : Bytes)
  /-- Nothing more is going to arrive. -/
  | finish
  /-- From now on writing fails. -/
  | fail (breach : Breach)
  /-- The handshake goes on by one stage, if it can. -/
  | work

/-- One stage of the handshake of a party. -/
def work (p : Party) : Party :=
  { p with side := (p.side.step p.wire).1, wire := (p.side.step p.wire).2 }

/-- A party after a move.  Nothing arrives behind the end of the stream. -/
def move (p : Party) : Move → Party
  | .arrive bytes => if p.wire.finished then p else { p with wire := p.wire.arrive bytes }
  | .finish => { p with wire := p.wire.finish }
  | .fail breach => { p with wire := { p.wire with breach := some breach } }
  | .work => p.work

/-- **A run.** -/
def run (p : Party) (moves : List Move) : Party := moves.foldl move p

/-- The stream that some moves bring. -/
def arrived : List Move → Bytes
  | [] => []
  | .arrive bytes :: moves => bytes ++ arrived moves
  | .finish :: _ => []
  | .fail _ :: moves => arrived moves
  | .work :: moves => arrived moves

/-- Whether the stream ends. -/
def closed : List Move → Bool
  | [] => false
  | .arrive _ :: moves => closed moves
  | .finish :: _ => true
  | .fail _ :: moves => closed moves
  | .work :: moves => closed moves

/-- Going as far as possible is going through three stages. -/
theorem advance_eq {p : Party} (h : p.gone = false) : p.advance = p.work.work.work := by
  obtain ⟨side, wire, gone⟩ := p
  obtain rfl : gone = false := h
  cases side <;> rfl

variable {allowed : Option Breach → Prop}
  {course : Option Breach → Option Breach → Bool → Bytes → Course} {p : Party} {stream : Bytes}

/-- **The invariant**: whatever is still to arrive, the outlook of a party is the course of the
whole stream, if writing fails in one of the allowed ways. -/
structure Follows (allowed : Option Breach → Prop)
    (course : Option Breach → Option Breach → Bool → Bytes → Course) (p : Party)
    (stream : Bytes) : Prop where
  outlook_eq : ∀ ended more, (p.wire.finished = true → ended = true ∧ more = []) →
    ∀ first second, allowed first → allowed second → ∃ first' second',
      allowed first' ∧ allowed second' ∧
        p.side.outlook first second ended p.wire more =
          course first' second' ended (stream ++ more)
  sane : p.side.Sane p.wire
  breach : allowed p.wire.breach

theorem follows_start {side : Side} {raw : PlainLink} (h : side.Starts raw)
    (hallowed : allowed none) :
    Follows allowed (fun first second ended stream =>
      side.course first second ended raw.format stream) { side } raw.buffer := by
  refine ⟨?_, ?_, hallowed⟩
  · intro ended more _ first second hfirst hsecond
    refine ⟨first, second, hfirst, hsecond, ?_⟩
    cases h <;> rfl
  · cases h <;> trivial

theorem Follows.goes (h : p.Follows allowed course stream) :
    p.side.Goes allowed p.wire.finished p.wire [] (p.side.step p.wire) :=
  Side.goes_step h.sane h.breach fun hf => ⟨hf, rfl⟩

/-- **The handshake goes on** without changing what it comes to. -/
theorem Follows.work (h : p.Follows allowed course stream) :
    p.work.Follows allowed course stream := by
  refine ⟨?_, h.goes.sane, ?_⟩
  · intro ended more hmore first second hfirst hsecond
    have hmore' : p.wire.finished = true → ended = true ∧ more = [] := by
      rw [← h.goes.finished_eq]
      exact hmore
    have hgoes : p.side.Goes allowed ended p.wire more (p.side.step p.wire) :=
      Side.goes_step h.sane h.breach hmore'
    obtain ⟨first₁, second₁, hfirst₁, hsecond₁, hstep⟩ :=
      hgoes.outlook_eq first second hfirst hsecond
    obtain ⟨first₂, second₂, hfirst₂, hsecond₂, hcourse⟩ :=
      h.outlook_eq ended more hmore' first₁ second₁ hfirst₁ hsecond₁
    exact ⟨first₂, second₂, hfirst₂, hsecond₂, hstep.trans hcourse⟩
  · change allowed (p.side.step p.wire).2.breach
    rw [h.goes.breach_eq]
    exact h.breach

theorem Follows.arrive {bytes : Bytes} (h : p.Follows allowed course stream)
    (hopen : p.wire.finished = false) :
    Follows allowed course { p with wire := p.wire.arrive bytes } (stream ++ bytes) := by
  refine ⟨?_, ?_, h.breach⟩
  · intro ended more hmore first second hfirst hsecond
    obtain ⟨first', second', hfirst', hsecond', hcourse⟩ :=
      h.outlook_eq ended (bytes ++ more) (by simp [hopen]) first second hfirst hsecond
    refine ⟨first', second', hfirst', hsecond', ?_⟩
    rw [Side.outlook_arrive, hcourse, List.append_assoc]
  · refine h.sane.of_sound ?_
    intro hfinished
    rw [hopen] at hfinished
    cases hfinished

theorem Follows.finish (h : p.Follows allowed course stream) :
    Follows allowed course { p with wire := p.wire.finish } stream := by
  refine ⟨?_, h.sane.of_sound fun _ hincoming => ⟨rfl, hincoming⟩, h.breach⟩
  intro ended more hmore first second hfirst hsecond
  obtain ⟨first', second', hfirst', hsecond', hcourse⟩ :=
    h.outlook_eq ended more (fun _ => hmore rfl) first second hfirst hsecond
  exact ⟨first', second', hfirst', hsecond', (Side.outlook_finish ..).trans hcourse⟩

theorem Follows.fail {breach : Breach} (h : p.Follows allowed course stream)
    (hbreach : allowed (some breach)) :
    Follows allowed course { p with wire := { p.wire with breach := some breach } } stream := by
  refine ⟨?_, h.sane.of_sound fun hfinished hincoming => ⟨hfinished, hincoming⟩, hbreach⟩
  intro ended more hmore first second hfirst hsecond
  obtain ⟨first', second', hfirst', hsecond', hcourse⟩ :=
    h.outlook_eq ended more hmore first second hfirst hsecond
  exact ⟨first', second', hfirst', hsecond', (Side.outlook_breach ..).trans hcourse⟩

/-- What of a stream arrives at a party that may have seen the end already. -/
def heard (p : Party) (moves : List Move) : Bytes :=
  if p.wire.finished then [] else arrived moves

theorem heard_of_open (h : p.wire.finished = false) (moves : List Move) :
    p.heard moves = arrived moves := by
  simp [heard, h]

theorem heard_of_finished (h : p.wire.finished = true) (moves : List Move) :
    p.heard moves = [] := by
  simp [heard, h]

theorem closed_cons (m : Move) (moves : List Move) :
    closed (m :: moves) = (closed [m] || closed moves) := by
  cases m <;> simp [closed]

theorem heard_cons {m : Move} (moves : List Move)
    (h : (p.move m).wire.finished = (p.wire.finished || closed [m])) :
    p.heard (m :: moves) = p.heard [m] ++ (p.move m).heard moves := by
  cases hfinished : p.wire.finished with
  | true =>
      rw [hfinished, Bool.true_or] at h
      simp only [heard_of_finished hfinished, heard_of_finished h, List.append_nil]
  | false =>
      rw [hfinished, Bool.false_or] at h
      rw [heard_of_open hfinished, heard_of_open hfinished]
      cases m <;> simp [heard, h, arrived, closed]

theorem finished_work (h : p.Follows allowed course stream) :
    p.work.wire.finished = p.wire.finished :=
  h.goes.finished_eq

/-- **Every move keeps the invariant.** -/
theorem Follows.move (m : Move) (h : p.Follows allowed course stream)
    (hm : ∀ breach, m = .fail breach → allowed (some breach)) :
    (p.move m).Follows allowed course (stream ++ p.heard [m]) ∧
      (p.move m).wire.finished = (p.wire.finished || closed [m]) ∧ (p.move m).gone = p.gone := by
  have hnothing : arrived [m] = [] → p.heard [m] = [] := by
    intro harrived
    simp [heard, harrived]
  cases m with
  | arrive bytes =>
      cases hfinished : p.wire.finished with
      | true =>
          have hsame : p.move (.arrive bytes) = p := by simp [Party.move, hfinished]
          rw [hsame, heard_of_finished hfinished, List.append_nil]
          exact ⟨h, hfinished, rfl⟩
      | false =>
          have hnext : p.move (.arrive bytes) = { p with wire := p.wire.arrive bytes } := by
            simp [Party.move, hfinished]
          have hheard : p.heard [.arrive bytes] = bytes := by
            rw [heard_of_open hfinished]
            exact List.append_nil bytes
          rw [hnext, hheard]
          exact ⟨h.arrive hfinished, hfinished, rfl⟩
  | finish =>
      rw [hnothing rfl, List.append_nil]
      exact ⟨h.finish, (Bool.or_true _).symm, rfl⟩
  | fail breach =>
      rw [hnothing rfl, List.append_nil]
      exact ⟨h.fail (hm breach rfl), (Bool.or_false _).symm, rfl⟩
  | work =>
      rw [hnothing rfl, List.append_nil]
      exact ⟨h.work, (finished_work h).trans (Bool.or_false _).symm, rfl⟩

/-- **Every run keeps the invariant.** -/
theorem Follows.run (moves : List Move) (h : p.Follows allowed course stream)
    (hmoves : ∀ breach, Move.fail breach ∈ moves → allowed (some breach)) :
    (p.run moves).Follows allowed course (stream ++ p.heard moves) ∧
      (p.run moves).wire.finished = (p.wire.finished || closed moves) ∧
      (p.run moves).gone = p.gone := by
  induction moves generalizing p stream with
  | nil =>
      have hnone : p.heard [] = [] := by simp [heard, arrived]
      rw [hnone, List.append_nil]
      exact ⟨h, (Bool.or_false _).symm, rfl⟩
  | cons m moves ih =>
      obtain ⟨hmove, hfinished, hgone⟩ :=
        h.move m fun breach hm => hmoves breach (by rw [hm]; exact List.mem_cons_self ..)
      obtain ⟨hrun, hend, hgone'⟩ :=
        ih hmove fun breach hmem => hmoves breach (List.mem_cons_of_mem _ hmem)
      refine ⟨?_, ?_, hgone'.trans hgone⟩
      · rw [heard_cons moves hfinished, ← List.append_assoc]
        exact hrun
      · rw [closed_cons, ← Bool.or_assoc, ← hfinished]
        exact hend

/-! ### As far as possible -/

/-- A stage brings the handshake closer to where it cannot go on. -/
theorem Follows.waits_or_rank_work {n : Nat} (h : p.Follows allowed course stream)
    (hwaits : p.side.Waits p.wire ∨ p.side.rank ≤ n + 1) :
    p.work.side.Waits p.work.wire ∨ p.work.side.rank ≤ n := by
  rcases hwaits with hwaits | hrank
  · exact Or.inl (Side.waits_step h.sane hwaits)
  · rcases h.goes.further with hfurther | hlt
    · exact Or.inl hfurther
    · have hlt' : p.work.side.rank < p.side.rank := hlt
      exact Or.inr (by omega)

/-- **Advancing keeps the invariant**, and goes on until the handshake cannot go on. -/
theorem Follows.advance (h : p.Follows allowed course stream) (hgone : p.gone = false) :
    p.advance.Follows allowed course stream ∧ p.advance.side.Waits p.advance.wire ∧
      p.advance.wire.finished = p.wire.finished := by
  rw [advance_eq hgone]
  have hwaits₁ := h.waits_or_rank_work (Or.inr p.side.rank_le)
  have hwaits₂ := h.work.waits_or_rank_work hwaits₁
  have hwaits₃ := h.work.work.waits_or_rank_work hwaits₂
  refine ⟨h.work.work.work, hwaits₃.elim id fun hzero => ?_, ?_⟩
  · exact Side.waits_of_rank (Nat.le_zero.1 hzero)
  · rw [finished_work h.work.work, finished_work h.work, finished_work h]

/-- **A run comes to the course of its stream**, if nothing that is written gets lost: how the bytes
were cut, and when the handshake was given a chance to go on, makes no difference. -/
theorem run_advance {side : Side} {raw : PlainLink} (h : side.Starts raw) (moves : List Move)
    (hmoves : ∀ breach, Move.fail breach ∉ moves) :
    let p := (Party.run { side } moves).advance
    (⟨p.side.ending p.wire, p.wire.outgoing⟩ : Course) =
      side.course none none (closed moves) raw.format (raw.buffer ++ arrived moves) := by
  intro p
  have hstart : Follows (· = none) _ { side } raw.buffer := follows_start h rfl
  obtain ⟨hrun, hend, hgone⟩ := hstart.run moves fun breach hmem => absurd hmem (hmoves breach)
  obtain ⟨hfollows, hwaits, hfinished⟩ := hrun.advance hgone
  have hclosed : p.wire.finished = closed moves := hfinished.trans (hend.trans (Bool.false_or _))
  obtain ⟨first, second, rfl, rfl, houtlook⟩ :=
    hfollows.outlook_eq p.wire.finished [] (fun hf => ⟨hf, rfl⟩) none none rfl rfl
  rw [Side.outlook_of_waits hwaits, List.append_nil, hclosed] at houtlook
  exact houtlook

end Party

end LineChat
