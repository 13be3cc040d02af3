/-
**Two parties with pipes between them.**

What a party writes arrives at the other one, all of it and in order, but any number of bytes at a
time, and in any order with the stages of the two handshakes.  A party whose handshake has ended
may close its end, which the other one sees behind the last byte.

Each of the two follows the course of what it has heard, and what it has heard is the front of what
the other one has written.  So the two courses answer one another, and no order of events has a say
in what they come to.  A run in which everybody gets a chance again and again comes to rest, because
a handshake has few stages and does not write without going through one.

Main definitions:

* `LineChat.Duplex`, `LineChat.Duplex.Event`, `LineChat.Duplex.run` — two parties and **what can
  happen to them**;
* `LineChat.Duplex.Linked` — **the invariant**: each party follows its course;
* `LineChat.Duplex.prospect` — what a party comes to if it hears no more;
* `LineChat.Duplex.Quiet` — nothing is on the way, and nobody can go on;
* `LineChat.Duplex.Fair` — a schedule that forgets nobody.

Main results:

* `LineChat.Side.progress_step` — a stage comes further, or writes nothing and has to wait;
* `LineChat.Duplex.linked_step`, `LineChat.Duplex.linked_run` — every event keeps the invariant;
* `LineChat.Duplex.heard_front` — a party hears what the other one was going to write;
* `LineChat.Duplex.load_step_le` — no event adds to what is left to be done;
* `LineChat.Duplex.exists_quiet` — **every fair run comes to rest**.
-/

import LineChat.Proofs.Handshake.Conduct
import Mathlib.Order.WellFounded
import Mathlib.Order.Monotone.Basic

set_option autoImplicit false

namespace LineChat

/-! ### Stages that come further -/

namespace LineCodec

variable {σ : Type} [LineCipher σ]

theorem dispatch_front (codec : LineCodec σ) (line : String) (breach : Option Breach)
    (written : Bytes) : written <+: (codec.dispatch line breach written).2.2 := by
  rcases hencode : codec.encode line with ⟨e | bytes, codec'⟩
  · simp only [dispatch, hencode]
    exact List.prefix_refl _
  · simp only [dispatch, hencode, Connection.write]
    split
    · exact List.prefix_refl _
    · cases breach with
      | none => exact List.prefix_append _ _
      | some b => exact List.prefix_append _ _

end LineCodec

/-- What was written before a line is still there. -/
theorem Link.front_send {σ : Type} [LineCipher σ] (l : Link (LineCodec σ)) (line : String)
    (c : Connection) : c.outgoing <+: (l.send line c).2.2.outgoing := by
  obtain ⟨result, codec, written, hdispatch, hsend⟩ := Link.exists_send l line c
  have hfront := l.format.dispatch_front line c.breach c.outgoing
  rw [hdispatch] at hfront
  rw [hsend]
  exact hfront

namespace Side

variable {side : Side} {c : Connection}

/-- **What a stage does**: it keeps what was written, and comes further, unless it has to wait and
writes nothing. -/
structure Progress (side : Side) (c : Connection) (next : Side × Connection) : Prop where
  front : c.outgoing <+: next.2.outgoing
  further : next.1.rank < side.rank ∨
    (next.1.rank = side.rank ∧ next.1.Waits next.2 ∧ next.2.outgoing = c.outgoing)

theorem Progress.of_lt {next : Side × Connection} (hout : next.2.outgoing = c.outgoing)
    (hrank : next.1.rank < side.rank) : side.Progress c next :=
  ⟨⟨[], by rw [List.append_nil, hout]⟩, Or.inl hrank⟩

theorem front_answer (h : ServerHandshake) (l : EnvelopeLink) (auth : Authenticate)
    (key : PublicKey) (c : Connection) : c.outgoing <+: (h.answer l auth key c).2.outgoing := by
  have hfront := Link.front_send (l.withCipher (EnvelopeCipher.between key h.key h.seeds))
    (h.reply auth).render c
  rcases hsend : (l.withCipher (EnvelopeCipher.between key h.key h.seeds)).send
    (h.reply auth).render c with ⟨e | _, l', c'⟩
  · rw [hsend] at hfront
    simp only [ServerHandshake.answer, hsend]
    exact hfront
  · rw [hsend] at hfront
    simp only [ServerHandshake.answer, hsend]
    exact hfront

theorem front_introduce (h : ClientHandshake) (raw : PlainLink) (c : Connection) :
    c.outgoing <+: (h.introduce raw c).2.outgoing := by
  have hfront := Link.front_send (raw.upgrade (EnvelopeCipher.between h.serverKey h.key h.seeds))
    h.introduction.render c
  rcases hsend : (raw.upgrade (EnvelopeCipher.between h.serverKey h.key h.seeds)).send
    h.introduction.render c with ⟨e | _, l', c'⟩
  · rw [hsend] at hfront
    simp only [ClientHandshake.introduce, hsend]
    exact hfront
  · rw [hsend] at hfront
    simp only [ClientHandshake.introduce, hsend]
    exact hfront

theorem front_confirm (h : ClientHandshake) (l : EnvelopeLink) (reply : ServerOk)
    (c : Connection) : c.outgoing <+: (h.confirm l reply c).2.outgoing := by
  have hfront := Link.front_send (l.withCipher (h.options.cipher reply.session .initiator))
    reply.serverChallenge.toBase64 c
  rcases hsend : (l.withCipher (h.options.cipher reply.session .initiator)).send
    reply.serverChallenge.toBase64 c with ⟨e | _, l', c'⟩
  · rw [hsend] at hfront
    simp only [ClientHandshake.confirm, hsend]
    exact hfront
  · rw [hsend] at hfront
    simp only [ClientHandshake.confirm, hsend]
    exact hfront

theorem progress_awaitingAuth (h : ServerHandshake) {l : EnvelopeLink} (hready : l.Ready) :
    (server h (.awaitingAuth l)).Progress c ((server h (.awaitingAuth l)).step c) := by
  have htakes : l.Takes c "message 1" h.identify c.finished [] (l.poll c) :=
    Link.takes hready _ _ fun hf => ⟨hf, rfl⟩
  simp only [step, ServerHandshake.step]
  generalize l.poll c = polled at htakes ⊢
  cases htakes with
  | waits hfinished hready' hnone hcourse =>
      exact ⟨List.prefix_refl _, Or.inr ⟨rfl, ⟨hfinished, hnone⟩, rfl⟩⟩
  | faulty hawaited hcourse =>
      simp only [hawaited]
      exact .of_lt rfl Nat.zero_lt_two
  | refused hawaited hread hcourse =>
      simp only [hawaited, hread]
      exact .of_lt rfl Nat.zero_lt_two
  | @told _ l' incoming line found hawaited hread hsound hcourse =>
      obtain ⟨auth, key⟩ := found
      obtain ⟨s, c', hanswer, -, -, -, hrank, -⟩ := answer_cases h l' auth key { c with incoming }
      have hfront := front_answer h l' auth key { c with incoming }
      simp only [hawaited, hread, hanswer, Prod.map_apply, id] at hfront ⊢
      exact ⟨hfront, Or.inl hrank⟩

theorem progress_awaitingEcho (h : ServerHandshake) {l : SecureLink} (username : String)
    (hready : l.Ready) :
    (server h (.awaitingEcho l username)).Progress c
      ((server h (.awaitingEcho l username)).step c) := by
  have htakes : l.Takes c "message 3" h.recognise c.finished [] (l.poll c) :=
    Link.takes hready _ _ fun hf => ⟨hf, rfl⟩
  simp only [step, ServerHandshake.step, h.judge_eq]
  generalize l.poll c = polled at htakes ⊢
  cases htakes with
  | waits hfinished hready' hnone hcourse =>
      exact ⟨List.prefix_refl _, Or.inr ⟨rfl, ⟨hfinished, hnone⟩, rfl⟩⟩
  | faulty hawaited hcourse =>
      simp only [hawaited]
      exact .of_lt rfl Nat.zero_lt_one
  | refused hawaited hread hcourse =>
      simp only [hawaited, hread]
      exact .of_lt rfl Nat.zero_lt_one
  | told hawaited hread hsound hcourse =>
      simp only [hawaited, hread]
      exact .of_lt rfl Nat.zero_lt_one

theorem progress_awaitingOk (h : ClientHandshake) {l : EnvelopeLink} (hready : l.Ready) :
    (client h (.awaitingOk l)).Progress c ((client h (.awaitingOk l)).step c) := by
  have htakes : l.Takes c "message 2" h.accept c.finished [] (l.poll c) :=
    Link.takes hready _ _ fun hf => ⟨hf, rfl⟩
  simp only [step, ClientHandshake.step]
  generalize l.poll c = polled at htakes ⊢
  cases htakes with
  | waits hfinished hready' hnone hcourse =>
      exact ⟨List.prefix_refl _, Or.inr ⟨rfl, ⟨hfinished, hnone⟩, rfl⟩⟩
  | faulty hawaited hcourse =>
      simp only [hawaited]
      exact .of_lt rfl Nat.zero_lt_one
  | refused hawaited hread hcourse =>
      simp only [hawaited, hread]
      exact .of_lt rfl Nat.zero_lt_one
  | @told _ l' incoming line reply hawaited hread hsound hcourse =>
      obtain ⟨s, c', hconfirm, -, -, -, hrank, -⟩ := confirm_cases h l' reply { c with incoming }
      have hfront := front_confirm h l' reply { c with incoming }
      simp only [hawaited, hread, hconfirm, Prod.map_apply, id] at hfront ⊢
      exact ⟨hfront, Or.inl hrank⟩

/-- **A stage comes further**, or it writes nothing and has to wait. -/
theorem progress_step (hsane : side.Sane c) : side.Progress c (side.step c) := by
  cases side with
  | server h s =>
      cases s with
      | start raw => exact .of_lt rfl (Nat.lt_succ_self 2)
      | awaitingAuth l => exact progress_awaitingAuth h hsane
      | awaitingEcho l username => exact progress_awaitingEcho h username hsane
      | established e => exact ⟨List.prefix_refl _, Or.inr ⟨rfl, trivial, rfl⟩⟩
      | rejected r => exact ⟨List.prefix_refl _, Or.inr ⟨rfl, trivial, rfl⟩⟩
  | client h s =>
      cases s with
      | start raw =>
          obtain ⟨s, c', hintroduce, -, -, -, hrank, -⟩ := introduce_cases h raw c
          have hfront := front_introduce h raw c
          simp only [step, ClientHandshake.step, hintroduce, Prod.map_apply, id] at hfront ⊢
          exact ⟨hfront, Or.inl hrank⟩
      | sentAuth l => exact .of_lt rfl Nat.one_lt_two
      | awaitingOk l => exact progress_awaitingOk h hsane
      | established e => exact ⟨List.prefix_refl _, Or.inr ⟨rfl, trivial, rfl⟩⟩
      | rejected r => exact ⟨List.prefix_refl _, Or.inr ⟨rfl, trivial, rfl⟩⟩

end Side

/-! ### Two parties -/

open SessionCipher (peerOf peerOf_peerOf)

/-- **Two parties with pipes between them**: the one that sends the first message, the one that
answers it, and how many of the bytes that each of them wrote have arrived at the other. -/
structure Duplex where
  party : Role → Party
  carried : Role → Nat

namespace Duplex

/-- Nothing has happened yet. -/
def start (hc : ClientHandshake) (hs : ServerHandshake) : Duplex where
  party
    | .initiator => .client hc
    | .responder => .server hs
  carried _ := 0

/-- **What can happen to two parties.** -/
inductive Event where
  /-- A party goes on by one stage, if it can. -/
  | work (role : Role)
  /-- Up to `count` of the bytes that a party has written arrive at the other one. -/
  | carry (role : Role) (count : Nat)
  /-- A party whose handshake has ended closes its end, and the other one sees that. -/
  | close (role : Role)

/-- What a party wrote, as far as it is on the way. -/
def pending (d : Duplex) (role : Role) : Bytes :=
  (d.party role).wire.outgoing.drop (d.carried role)

/-- What a party has heard. -/
def heard (d : Duplex) (role : Role) : Bytes :=
  (d.party (peerOf role)).wire.outgoing.take (d.carried (peerOf role))

/-- A party goes through a move. -/
def move (d : Duplex) (role : Role) (m : Party.Move) : Duplex :=
  { d with party := Function.update d.party role ((d.party role).move m) }

/-- Two parties after an event. -/
def step (d : Duplex) : Event → Duplex
  | .work role => d.move role .work
  | .carry role count =>
      let bytes := (d.pending role).take count
      { d.move (peerOf role) (.arrive bytes) with
        carried := Function.update d.carried role (d.carried role + bytes.length) }
  | .close role =>
      if (d.party role).outcome?.isSome ∧ d.pending role = [] then
        d.move (peerOf role) .finish
      else d

/-- **A run.** -/
def run (d : Duplex) (events : List Event) : Duplex := events.foldl step d

theorem peerOf_ne (role : Role) : peerOf role ≠ role := by
  cases role <;> decide

theorem eq_or_eq_peerOf (role other : Role) : other = role ∨ other = peerOf role := by
  cases role <;> cases other <;> simp [peerOf]

section

variable (d : Duplex) (role : Role) (m : Party.Move)

@[simp] theorem party_move : (d.move role m).party role = (d.party role).move m :=
  Function.update_self ..

@[simp] theorem party_move_peerOf : (d.move role m).party (peerOf role) = d.party (peerOf role) :=
  Function.update_of_ne (peerOf_ne role) ..

@[simp] theorem party_move_of_peerOf : (d.move (peerOf role) m).party role = d.party role :=
  Function.update_of_ne (peerOf_ne role).symm ..

@[simp] theorem carried_move : (d.move role m).carried = d.carried := rfl

@[simp] theorem party_carry (count : Nat) :
    (d.step (.carry role count)).party role = d.party role :=
  Function.update_of_ne (peerOf_ne role).symm ..

@[simp] theorem party_carry_peerOf (count : Nat) :
    (d.step (.carry role count)).party (peerOf role) =
      (d.party (peerOf role)).move (.arrive ((d.pending role).take count)) :=
  Function.update_self ..

@[simp] theorem carried_carry (count : Nat) :
    (d.step (.carry role count)).carried role =
      d.carried role + ((d.pending role).take count).length :=
  Function.update_self ..

@[simp] theorem carried_carry_peerOf (count : Nat) :
    (d.step (.carry role count)).carried (peerOf role) = d.carried (peerOf role) :=
  Function.update_of_ne (peerOf_ne role) ..

end

/-! ### The invariant -/

/-- **The invariant**: each party follows its course on what it has heard, and has seen the end only
if the other one is done and everything has arrived. -/
structure Linked (course : Role → Option Breach → Option Breach → Bool → Bytes → Course)
    (d : Duplex) : Prop where
  follows : ∀ role, (d.party role).Follows (· = none) (course role) (d.heard role)
  carried_le : ∀ role, d.carried role ≤ (d.party role).wire.outgoing.length
  finished : ∀ role, (d.party role).wire.finished = true →
    (d.party (peerOf role)).outcome?.isSome ∧ d.pending (peerOf role) = []

variable {course : Role → Option Breach → Option Breach → Bool → Bytes → Course} {d : Duplex}

theorem linked_start (hc : ClientHandshake) (hs : ServerHandshake) :
    Linked (fun role first second ended stream =>
      ((start hc hs).party role).side.course first second ended {} stream) (start hc hs) := by
  refine ⟨?_, fun _ => Nat.zero_le _, ?_⟩
  · intro role
    have hheard : (start hc hs).heard role = [] := List.take_zero
    rw [hheard]
    cases role with
    | initiator => exact Party.follows_start (.client hc { format := {} }) rfl
    | responder => exact Party.follows_start (.server hs { format := {} }) rfl
  · intro role hfinished
    cases role with
    | initiator => cases hfinished
    | responder => cases hfinished

theorem progress_work (h : d.Linked course) (role : Role) :
    (d.party role).side.Progress (d.party role).wire
      ((d.party role).side.step (d.party role).wire) :=
  Side.progress_step (h.follows role).sane

theorem linked_work (h : d.Linked course) (role : Role) : (d.step (.work role)).Linked course := by
  have hprogress := progress_work h role
  have hfront : (d.party role).wire.outgoing <+: ((d.party role).move .work).wire.outgoing :=
    hprogress.front
  have hfollows : ((d.party role).move .work).Follows (· = none) (course role) (d.heard role) :=
    (h.follows role).work
  have hfinished : ((d.party role).move .work).wire.finished = (d.party role).wire.finished :=
    Party.finished_work (h.follows role)
  refine ⟨?_, ?_, ?_⟩
  · intro other
    rcases eq_or_eq_peerOf role other with rfl | rfl
    · simpa [step, heard] using hfollows
    · -- what was written before is still there
      have hheard : (d.step (.work role)).heard (peerOf role) = d.heard (peerOf role) := by
        obtain ⟨new, hnew⟩ := hfront
        simp only [step, heard, peerOf_peerOf, party_move, carried_move]
        rw [← hnew, List.take_append_of_le_length (h.carried_le role)]
      rw [hheard]
      simpa [step] using h.follows (peerOf role)
  · intro other
    rcases eq_or_eq_peerOf role other with rfl | rfl
    · simpa [step] using Nat.le_trans (h.carried_le other) hfront.length_le
    · simpa [step] using h.carried_le (peerOf role)
  · intro other hother
    rcases eq_or_eq_peerOf role other with rfl | rfl
    · simp only [step, party_move, hfinished] at hother
      simpa [step, pending] using h.finished other hother
    · simp only [step, party_move_peerOf] at hother
      have hdone := h.finished (peerOf role) hother
      rw [peerOf_peerOf] at hdone
      obtain ⟨outcome, houtcome⟩ := Option.isSome_iff_exists.1 hdone.1
      have hsame : (d.party role).move .work = d.party role := Party.work_of_outcome houtcome
      simpa [step, pending, hsame] using hdone

theorem move_arrive_nil (p : Party) : p.move (.arrive []) = p := by
  rw [Party.move]
  split
  · rfl
  · simp [Connection.arrive]

/-- Nothing changes if nothing is carried. -/
theorem step_carry_of_nil {role : Role} {count : Nat} (h : (d.pending role).take count = []) :
    d.step (.carry role count) = d := by
  simp only [step, h, move, move_arrive_nil, Function.update_eq_self, List.length_nil,
    Nat.add_zero]

/-- What is carried has been heard. -/
theorem heard_carry (role : Role) (count : Nat) : (d.step (.carry role count)).heard (peerOf role) =
    d.heard (peerOf role) ++ (d.pending role).take count := by
  have htake : (d.pending role).take ((d.pending role).take count).length =
      (d.pending role).take count := by
    rw [List.take_eq_take_iff, List.length_take]
    omega
  simp only [heard, peerOf_peerOf, party_carry, carried_carry, List.take_add]
  exact congrArg _ htake

theorem linked_carry (h : d.Linked course) (role : Role) (count : Nat) :
    (d.step (.carry role count)).Linked course := by
  by_cases hnothing : (d.pending role).take count = []
  · rw [step_carry_of_nil hnothing]
    exact h
  · have hopen : (d.party (peerOf role)).wire.finished = false := by
      by_contra hfinished
      have hdone := (h.finished (peerOf role) (by simpa using hfinished)).2
      rw [peerOf_peerOf] at hdone
      rw [hdone] at hnothing
      exact hnothing List.take_nil
    have hmove : (d.party (peerOf role)).move (.arrive ((d.pending role).take count)) =
        { d.party (peerOf role) with
          wire := (d.party (peerOf role)).wire.arrive ((d.pending role).take count) } := by
      simp [Party.move, hopen]
    have hside : (d.step (.carry role count)).heard role = d.heard role := by
      simp only [heard, party_carry_peerOf, carried_carry_peerOf, hmove]
      rfl
    refine ⟨?_, ?_, ?_⟩
    · intro other
      rcases eq_or_eq_peerOf role other with rfl | rfl
      · rw [hside, party_carry]
        exact h.follows other
      · rw [heard_carry, party_carry_peerOf, hmove]
        exact (h.follows (peerOf role)).arrive hopen
    · intro other
      rcases eq_or_eq_peerOf role other with rfl | rfl
      · have hle := h.carried_le other
        rw [carried_carry, party_carry, pending, List.length_take, List.length_drop]
        omega
      · rw [carried_carry_peerOf, party_carry_peerOf, hmove]
        exact h.carried_le (peerOf role)
    · intro other hfinished
      rcases eq_or_eq_peerOf role other with rfl | rfl
      · rw [party_carry] at hfinished
        obtain ⟨houtcome, hdone⟩ := h.finished other hfinished
        rw [pending, party_carry_peerOf, carried_carry_peerOf, hmove]
        exact ⟨houtcome, hdone⟩
      · rw [party_carry_peerOf, hmove] at hfinished
        cases hopen.symm.trans hfinished

theorem linked_close (h : d.Linked course) (role : Role) :
    (d.step (.close role)).Linked course := by
  rw [step]
  split
  · rename_i hclose
    refine ⟨?_, ?_, ?_⟩
    · intro other
      rcases eq_or_eq_peerOf role other with rfl | rfl
      · rw [heard, party_move, party_move_of_peerOf]
        exact h.follows other
      · have hfollows := (h.follows (peerOf role)).finish
        rw [heard, peerOf_peerOf] at hfollows
        rw [heard, party_move, peerOf_peerOf, party_move_of_peerOf]
        exact hfollows
    · intro other
      rcases eq_or_eq_peerOf role other with rfl | rfl
      · rw [party_move_of_peerOf]
        exact h.carried_le other
      · rw [party_move]
        exact h.carried_le (peerOf role)
    · intro other hfinished
      rcases eq_or_eq_peerOf role other with rfl | rfl
      · rw [party_move_of_peerOf] at hfinished
        rw [pending, party_move]
        exact h.finished other hfinished
      · rw [pending, peerOf_peerOf, party_move_of_peerOf]
        exact hclose
  · exact h

/-- **Every event keeps the invariant.** -/
theorem linked_step (h : d.Linked course) (e : Event) : (d.step e).Linked course := by
  cases e with
  | work role => exact linked_work h role
  | carry role count => exact linked_carry h role count
  | close role => exact linked_close h role

/-- **Every run keeps the invariant.** -/
theorem linked_run (h : d.Linked course) (events : List Event) : (d.run events).Linked course := by
  induction events generalizing d with
  | nil => exact h
  | cons e events ih => exact ih (linked_step h e)

/-! ### What two parties come to -/

/-- **What a party comes to** if it hears no more. -/
def prospect (course : Role → Option Breach → Option Breach → Bool → Bytes → Course) (d : Duplex)
    (role : Role) : Course :=
  course role none none (d.party role).wire.finished (d.heard role)

theorem prospect_eq_outlook (h : d.Linked course) (role : Role) : d.prospect course role =
    (d.party role).side.outlook none none (d.party role).wire.finished (d.party role).wire [] := by
  rw [← (h.follows role).course_eq fun hfinished => ⟨hfinished, rfl⟩, List.append_nil]
  rfl

/-- What a party has written, it was going to write. -/
theorem outgoing_front (h : d.Linked course) (role : Role) :
    (d.party role).wire.outgoing <+: (d.prospect course role).written := by
  rw [prospect_eq_outlook h]
  exact Side.outgoing_prefix_outlook ..

/-- **What a party hears** is what the other one was going to write. -/
theorem heard_front (h : d.Linked course) (role : Role) :
    d.heard role <+: (d.prospect course (peerOf role)).written :=
  (List.take_prefix _ _).trans (outgoing_front h (peerOf role))

theorem heard_of_pending {role : Role} (hpending : d.pending (peerOf role) = []) :
    d.heard role = (d.party (peerOf role)).wire.outgoing := by
  have hsplit := List.take_append_drop (d.carried (peerOf role))
    (d.party (peerOf role)).wire.outgoing
  rw [pending] at hpending
  rw [hpending, List.append_nil] at hsplit
  exact hsplit

theorem prospect_of_ok (h : d.Linked course) {role : Role} {result : Established}
    (hresult : (d.party role).outcome? = some (.ok result)) : d.prospect course role =
      ⟨.established result.username result.channel.format
        (result.channel.buffer ++ (d.party role).wire.incoming),
        (d.party role).wire.outgoing⟩ := by
  rw [prospect_eq_outlook h, Party.outlook_of_ok hresult, List.append_nil]

theorem prospect_of_error (h : d.Linked course) {role : Role} {result : Rejected}
    (hresult : (d.party role).outcome? = some (.error result)) : d.prospect course role =
      ⟨.rejected result.failure result.channel.format
        (result.channel.buffer ++ (d.party role).wire.incoming),
        (d.party role).wire.outgoing⟩ := by
  rw [prospect_eq_outlook h, Party.outlook_of_error hresult, List.append_nil]

/-- **A party that sees the end** has heard all that the other one was going to write. -/
theorem heard_of_finished (h : d.Linked course) {role : Role}
    (hfinished : (d.party role).wire.finished = true) :
    d.heard role = (d.prospect course (peerOf role)).written ∧
      (d.prospect course (peerOf role)).ending ≠ .waiting := by
  obtain ⟨hdone, hpending⟩ := h.finished role hfinished
  rw [heard_of_pending hpending]
  obtain ⟨outcome, houtcome⟩ := Option.isSome_iff_exists.1 hdone
  rcases outcome with result | result
  · rw [prospect_of_error h houtcome]
    exact ⟨rfl, nofun⟩
  · rw [prospect_of_ok h houtcome]
    exact ⟨rfl, nofun⟩

theorem heard_eq_nil (h : d.Linked course) {role : Role}
    (hnothing : (d.prospect course (peerOf role)).written = []) : d.heard role = [] := by
  have hheard := heard_front h role
  rw [hnothing] at hheard
  exact List.prefix_nil.1 hheard

/-- The end cannot be seen while the other one still waits. -/
theorem finished_of_waiting (h : d.Linked course) {role : Role}
    (hwaiting : (d.prospect course (peerOf role)).ending = .waiting) :
    (d.party role).wire.finished = false := by
  by_contra hfinished
  exact (heard_of_finished h (by simpa using hfinished)).2 hwaiting

/-! ### What is left to be done -/

/-- **What is left to be done** about a party: bytes to carry, at most `bound` of them, stages to go
through, and the end to be seen. -/
def load (bound : Nat) (d : Duplex) (role : Role) : Nat :=
  (bound - d.carried role) + (d.party role).side.rank +
    (if (d.party role).wire.finished then 0 else 1)

/-- Nothing is on the way, and nobody can go on. -/
structure Quiet (d : Duplex) : Prop where
  waits : ∀ role, (d.party role).side.Waits (d.party role).wire
  pending : ∀ role, d.pending role = []

/-- **At rest each party is where it comes to.** -/
theorem Quiet.prospect_eq (hquiet : d.Quiet) (h : d.Linked course) (role : Role) :
    d.prospect course role =
      ⟨(d.party role).side.ending (d.party role).wire, (d.party role).wire.outgoing⟩ := by
  rw [prospect_eq_outlook h]
  exact Side.outlook_of_waits (hquiet.waits role)

/-- At rest a party has heard all that the other one was going to write. -/
theorem Quiet.heard_eq (hquiet : d.Quiet) (h : d.Linked course) (role : Role) :
    d.heard role = (d.prospect course (peerOf role)).written := by
  rw [hquiet.prospect_eq h, heard_of_pending (hquiet.pending (peerOf role))]

variable {bound : Nat} {role : Role}

theorem rank_work_le (h : d.Linked course) (role : Role) :
    ((d.party role).move .work).side.rank ≤ (d.party role).side.rank := by
  rcases (progress_work h role).further with hlt | ⟨hrank, -, -⟩
  · exact Nat.le_of_lt hlt
  · exact Nat.le_of_eq hrank

theorem side_arrive (p : Party) (bytes : Bytes) : (p.move (.arrive bytes)).side = p.side ∧
    (p.move (.arrive bytes)).wire.finished = p.wire.finished := by
  rw [Party.move]
  split
  · exact ⟨rfl, rfl⟩
  · exact ⟨rfl, rfl⟩

/-- **No event adds to what is left to be done.** -/
theorem load_step_le (h : d.Linked course) (e : Event) (other : Role) :
    (d.step e).load bound other ≤ d.load bound other := by
  cases e with
  | work role =>
      have hrank := rank_work_le h role
      have hfinished : ((d.party role).move .work).wire.finished = (d.party role).wire.finished :=
        Party.finished_work (h.follows role)
      rcases eq_or_eq_peerOf role other with rfl | rfl
      · simp only [load, step, party_move, carried_move, hfinished]
        omega
      · simp only [load, step, party_move_peerOf, carried_move]
        exact Nat.le_refl _
  | carry role count =>
      rcases eq_or_eq_peerOf role other with rfl | rfl
      · simp only [load, party_carry, carried_carry]
        omega
      · obtain ⟨hside, hfinished⟩ :=
          side_arrive (d.party (peerOf role)) ((d.pending role).take count)
        simp only [load, party_carry_peerOf, carried_carry_peerOf, hside, hfinished]
        exact Nat.le_refl _
  | close role =>
      rw [step]
      split
      · rcases eq_or_eq_peerOf role other with rfl | rfl
        · simp only [load, party_move_of_peerOf, carried_move]
          exact Nat.le_refl _
        · have hside : ((d.party (peerOf role)).move .finish).side = (d.party (peerOf role)).side :=
            rfl
          have hfinished : ((d.party (peerOf role)).move .finish).wire.finished = true := rfl
          simp only [load, party_move, carried_move, hside, hfinished, if_true]
          omega
      · exact Nat.le_refl _

/-- A stage that leaves the load as it is has to wait, and wrote nothing. -/
theorem waits_of_load_eq (h : d.Linked course)
    (hload : (d.step (.work role)).load bound role = d.load bound role) :
    ((d.party role).move .work).side.Waits ((d.party role).move .work).wire ∧
      ((d.party role).move .work).wire.outgoing = (d.party role).wire.outgoing := by
  have hfinished : ((d.party role).move .work).wire.finished = (d.party role).wire.finished :=
    Party.finished_work (h.follows role)
  simp only [load, step, party_move, carried_move, hfinished] at hload
  rcases (progress_work h role).further with hlt | ⟨-, hwaits, hout⟩
  · have hlt' : ((d.party role).move .work).side.rank < (d.party role).side.rank := hlt
    omega
  · exact ⟨hwaits, hout⟩

/-- Carrying that leaves the load as it is carries nothing. -/
theorem take_pending_of_load_eq {count : Nat} (h : d.Linked course)
    (hbound : (d.party role).wire.outgoing.length ≤ bound)
    (hload : (d.step (.carry role count)).load bound role = d.load bound role) :
    (d.pending role).take count = [] := by
  have hle := h.carried_le role
  simp only [load, party_carry, carried_carry, pending, List.length_take, List.length_drop] at hload
  rw [← List.length_eq_zero_iff, pending, List.length_take, List.length_drop]
  omega

/-- **An event that leaves the load as it is** changes nothing: what was on the way still is, and
who had to wait still has to. -/
theorem keeps_of_load_eq {e : Event} (h : d.Linked course)
    (hbound : ∀ role, (d.party role).wire.outgoing.length ≤ bound)
    (hload : ∀ role, (d.step e).load bound role = d.load bound role) (other : Role) :
    (d.step e).pending other = d.pending other ∧
      ((d.party other).side.Waits (d.party other).wire →
        ((d.step e).party other).side.Waits ((d.step e).party other).wire) := by
  cases e with
  | work role =>
      obtain ⟨hwaits, hout⟩ := waits_of_load_eq h (hload role)
      rcases eq_or_eq_peerOf role other with rfl | rfl
      · simp only [step, pending, party_move, carried_move, hout]
        exact ⟨trivial, fun _ => hwaits⟩
      · simp only [step, pending, party_move_peerOf, carried_move]
        exact ⟨trivial, id⟩
  | carry role count =>
      rw [step_carry_of_nil (take_pending_of_load_eq h (hbound role) (hload role))]
      exact ⟨rfl, id⟩
  | close role =>
      have hload' := hload (peerOf role)
      rw [step] at hload' ⊢
      split
      · rename_i hclose
        rw [if_pos hclose] at hload'
        -- the end has been seen already
        have hseen : (d.party (peerOf role)).wire.finished = true := by
          have hside : ((d.party (peerOf role)).move .finish).side =
              (d.party (peerOf role)).side := rfl
          have hfinished : ((d.party (peerOf role)).move .finish).wire.finished = true := rfl
          simp only [load, party_move, carried_move, hside, hfinished, if_true] at hload'
          by_contra hopen
          rw [if_neg hopen] at hload'
          omega
        have hsame : (d.party (peerOf role)).move .finish = d.party (peerOf role) := by
          generalize d.party (peerOf role) = p at hseen
          obtain ⟨side, ⟨incoming, finished, outgoing, breach⟩, gone⟩ := p
          cases hseen
          rfl
        rw [move, hsame, Function.update_eq_self]
        exact ⟨rfl, id⟩
      · exact ⟨rfl, id⟩

/-! ### Fair runs -/

/-- The two parties after the first events of a schedule. -/
def after (d : Duplex) (schedule : Nat → Event) (n : Nat) : Duplex :=
  d.run ((List.range n).map schedule)

/-- **A schedule that forgets nobody**: again and again each party may go on, and what it has
written is carried. -/
def Fair (schedule : Nat → Event) : Prop :=
  ∀ role n, (∃ m, n ≤ m ∧ schedule m = .work role) ∧
    ∃ m count, n ≤ m ∧ 0 < count ∧ schedule m = .carry role count

/-- Everybody in turn. -/
def roundRobin (n : Nat) : Event :=
  match n % 4 with
  | 0 => .work .initiator
  | 1 => .carry .initiator 4096
  | 2 => .work .responder
  | _ => .carry .responder 4096

theorem fair_roundRobin : Fair roundRobin := by
  have hwork : ∀ n, roundRobin (4 * n) = .work .initiator ∧
      roundRobin (4 * n + 2) = .work .responder := by
    intro n
    rw [roundRobin, roundRobin, Nat.mul_mod_right, Nat.mul_add_mod]
    exact ⟨rfl, rfl⟩
  have hcarry : ∀ n, roundRobin (4 * n + 1) = .carry .initiator 4096 ∧
      roundRobin (4 * n + 3) = .carry .responder 4096 := by
    intro n
    rw [roundRobin, roundRobin, Nat.mul_add_mod, Nat.mul_add_mod]
    exact ⟨rfl, rfl⟩
  intro role n
  cases role with
  | initiator => exact ⟨⟨_, by omega, (hwork n).1⟩, _, _, by omega, by decide, (hcarry n).1⟩
  | responder => exact ⟨⟨_, by omega, (hwork n).2⟩, _, _, by omega, by decide, (hcarry n).2⟩

variable {schedule : Nat → Event}

theorem after_succ (d : Duplex) (schedule : Nat → Event) (n : Nat) :
    d.after schedule (n + 1) = (d.after schedule n).step (schedule n) := by
  simp only [after, run, List.range_succ, List.map_append, List.foldl_append, List.map_cons,
    List.map_nil, List.foldl_cons, List.foldl_nil]

theorem linked_after (h : d.Linked course) (schedule : Nat → Event) (n : Nat) :
    (d.after schedule n).Linked course :=
  linked_run h _

/-- From `N` on no event takes anything from what is left to be done. -/
def Settled (d : Duplex) (schedule : Nat → Event) (bound N : Nat) : Prop :=
  ∀ n, N ≤ n → ∀ role,
    ((d.after schedule n).step (schedule n)).load bound role = (d.after schedule n).load bound role

/-- A load that cannot grow stays the same from some moment on. -/
theorem exists_settled (h : d.Linked course) (schedule : Nat → Event) (bound : Nat) :
    ∃ N, d.Settled schedule bound N := by
  have hmono : ∀ role, Antitone fun n => (d.after schedule n).load bound role := by
    intro role
    refine antitone_nat_of_succ_le fun n => ?_
    rw [after_succ]
    exact load_step_le (linked_after h schedule n) (schedule n) role
  -- the moment at which the sum is least
  obtain ⟨_, ⟨N, rfl⟩, hleast⟩ := wellFounded_lt.has_min
    (Set.range fun n => (d.after schedule n).load bound .initiator +
      (d.after schedule n).load bound .responder) ⟨_, 0, rfl⟩
  refine ⟨N, fun n hn role => ?_⟩
  rw [← after_succ]
  have hsum := hleast _ ⟨n + 1, rfl⟩
  have hinitiator := hmono .initiator hn
  have hresponder := hmono .responder hn
  have hinitiator' := hmono .initiator (Nat.le_succ n)
  have hresponder' := hmono .responder (Nat.le_succ n)
  simp only [Nat.succ_eq_add_one] at hsum hinitiator hresponder hinitiator' hresponder'
  cases role with
  | initiator => omega
  | responder => omega

section

variable {N : Nat} (h : d.Linked course)
  (hbound : ∀ n role, ((d.after schedule n).party role).wire.outgoing.length ≤ bound)
  (hsettled : d.Settled schedule bound N)

include h hbound hsettled

/-- What is on the way stays on the way, and who has to wait goes on to wait. -/
theorem Settled.keeps {n : Nat} (hn : N ≤ n) (k : Nat) (role : Role) :
    (d.after schedule (n + k)).pending role = (d.after schedule n).pending role ∧
      (((d.after schedule n).party role).side.Waits ((d.after schedule n).party role).wire →
        ((d.after schedule (n + k)).party role).side.Waits
          ((d.after schedule (n + k)).party role).wire) := by
  induction k with
  | zero => exact ⟨rfl, id⟩
  | succ k ih =>
      have hkeeps := keeps_of_load_eq (linked_after h schedule (n + k)) (hbound (n + k))
        (hsettled (n + k) (by omega)) role
      rw [← after_succ] at hkeeps
      exact ⟨hkeeps.1.trans ih.1, hkeeps.2 ∘ ih.2⟩

/-- What is on the way would be carried at some time, and so nothing is. -/
theorem Settled.pending_eq_nil (hfair : Fair schedule) {n : Nat} (hn : N ≤ n) (role : Role) :
    (d.after schedule n).pending role = [] := by
  obtain ⟨-, m, count, hm, hcount, hcarry⟩ := hfair role n
  have hstep := hsettled m (by omega) role
  rw [hcarry] at hstep
  have hnothing := take_pending_of_load_eq (linked_after h schedule m) (hbound m role) hstep
  obtain ⟨k, rfl⟩ := Nat.exists_eq_add_of_le hm
  rw [(hsettled.keeps h hbound hn k role).1, List.take_eq_nil_iff] at hnothing
  exact hnothing.resolve_left (by omega)

/-- A party that had its chance has to wait from then on. -/
theorem Settled.exists_waits (hfair : Fair schedule) (role : Role) : ∃ M, N ≤ M ∧ ∀ n, M ≤ n →
    ((d.after schedule n).party role).side.Waits ((d.after schedule n).party role).wire := by
  obtain ⟨⟨m, hm, hwork⟩, -⟩ := hfair role N
  have hstep := hsettled m hm role
  rw [hwork] at hstep
  have hdone : ((d.after schedule (m + 1)).party role).side.Waits
      ((d.after schedule (m + 1)).party role).wire := by
    rw [after_succ, hwork, step, party_move]
    exact (waits_of_load_eq (linked_after h schedule m) hstep).1
  refine ⟨m + 1, by omega, fun n hn => ?_⟩
  obtain ⟨k, rfl⟩ := Nat.exists_eq_add_of_le hn
  exact (hsettled.keeps h hbound (by omega) k role).2 hdone

end

/-- **Every fair run comes to rest**, if what is written stays within bounds. -/
theorem exists_quiet (h : d.Linked course) (hfair : Fair schedule)
    (hbound : ∀ n role, ((d.after schedule n).party role).wire.outgoing.length ≤ bound) :
    ∃ N, ∀ n, N ≤ n → (d.after schedule n).Quiet := by
  obtain ⟨N, hsettled⟩ := exists_settled h schedule bound
  obtain ⟨M₁, hM₁, hwaits₁⟩ := hsettled.exists_waits h hbound hfair .initiator
  obtain ⟨M₂, hM₂, hwaits₂⟩ := hsettled.exists_waits h hbound hfair .responder
  refine ⟨max M₁ M₂, fun n hn => ⟨?_, hsettled.pending_eq_nil h hbound hfair (by omega)⟩⟩
  intro role
  cases role with
  | initiator => exact hwaits₁ n (by omega)
  | responder => exact hwaits₂ n (by omega)

end Duplex

end LineChat
