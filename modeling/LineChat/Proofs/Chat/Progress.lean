/-
**Sessions that come to their end.**

A session whose other side has finished has only so much left to take: every byte may be a line, and
a line needs three steps.  Behind that are the release and the last word to the handler.  The rank
of a session counts the steps that it may still take.  Its own steps use the rank up, and nothing
that the others or the other side do adds to it.

Main definitions:

* `LineChat.Link.unread` — the bytes that no line was made of yet;
* `LineChat.ServerSession.rank` — **how many steps a session may still take**;
* `LineChat.ServerSession.IsEnding` — a session that waits for nothing any more;
* `LineChat.ChatServer.EndsWithin` — a session that ends within so many steps of its own.

Main results:

* `LineChat.Link.uses_poll` — asking for a line uses bytes up, and waits only for more to come;
* `LineChat.ServerSession.IsEnding.run` — **every step of its own uses up the rank**;
* `LineChat.ChatServer.EndsWithin.run` — **a session that ends is over** once it has taken its
  steps, whatever else happens in between;
* `LineChat.ChatServer.endsWithin_interrupt` — a session that waits can be cut short.
-/

import LineChat.Proofs.Channel.LineCodec
import LineChat.Proofs.Chat.Chronicle
import LineChat.Proofs.Handshake.Course

set_option autoImplicit false

namespace LineChat

/-! ### Bytes that are used up -/

namespace LineCodec

variable {σ : Type} [LineCipher σ]

/-- **Decoding uses up bytes**: it leaves no more than there were, and fewer behind a line. -/
theorem length_decode (c : LineCodec σ) (ended : Bool) (b : Bytes) :
    (c.decode ended b).2.2.length ≤ b.length ∧
      ∀ text, (c.decode ended b).1 = .ok (some text) →
        (c.decode ended b).2.2.length < b.length := by
  refine decode_induction (P := fun c b => (c.decode ended b).2.2.length ≤ b.length ∧
    ∀ text, (c.decode ended b).1 = .ok (some text) → (c.decode ended b).2.2.length < b.length)
    ended ?_ ?_ c b
  · intro c b frame f rest c' hs ha ih
    have hle := Framing.length_step_le c.framing ended b
    rw [hs] at hle
    rw [decode_of_accept_none hs ha]
    exact ⟨Nat.le_trans ih.1 hle, fun text htext => Nat.lt_of_lt_of_le (ih.2 text htext) hle⟩
  · intro c b frame f rest result c' hs ha
    have hle := Framing.length_step_le c.framing ended b
    rw [hs] at hle
    rw [decode_of_accept_some hs ha]
    refine ⟨hle, ?_⟩
    rintro text rfl
    -- a line that is returned was taken from the buffer
    obtain ⟨line, rfl, -⟩ := exists_decrypt_of_accept ha
    have hlt := @Framing.length_step_lt c.framing ended b (by rw [hs]; rfl)
    rw [hs] at hlt
    exact hlt

end LineCodec

namespace Link

/-- **The bytes of which no line was made yet**, those that were read and those that were not. -/
def unread {δ : Type} (l : Link δ) (c : Connection) : Nat := l.buffer.length + c.incoming.length

section

variable {δ : Type} {l l₁ : Link δ} {c c₁ : Connection} {answer : Polled × Link δ × Connection}

/-- **What asking for a line does with the bytes.** -/
structure Uses (l : Link δ) (c : Connection) (answer : Polled × Link δ × Connection) : Prop where
  finished : answer.2.2.finished = c.finished
  unread_le : answer.2.1.unread answer.2.2 ≤ l.unread c
  unread_lt : ∀ text, answer.1 = .line text → answer.2.1.unread answer.2.2 < l.unread c
  waiting : answer.1 = .waiting → c.finished = false

/-- Going on with what is left. -/
theorem Uses.trans (h : l₁.Uses c₁ answer) (hfinished : c₁.finished = c.finished)
    (hunread : l₁.unread c₁ ≤ l.unread c) : l.Uses c answer :=
  ⟨h.finished.trans hfinished, Nat.le_trans h.unread_le hunread,
    fun text htext => Nat.lt_of_lt_of_le (h.unread_lt text htext) hunread,
    fun hwaiting => hfinished.symm.trans (h.waiting hwaiting)⟩

/-- An answer that there is nothing more. -/
theorem uses_of_ended (hunread : l₁.unread c ≤ l.unread c) : l.Uses c (.ended, l₁, c) :=
  ⟨rfl, hunread, nofun, nofun⟩

theorem Uses.not_waiting (h : l.Uses c answer) (hfinished : c.finished = true) :
    answer.1 ≠ .waiting := by
  intro hwaiting
  rw [h.waiting hwaiting] at hfinished
  cases hfinished

end

variable {σ : Type} [LineCipher σ] {l l₁ : Link (LineCodec σ)} {c : Connection}

theorem length_scan (l : Link (LineCodec σ)) :
    l.scan.2.buffer.length ≤ l.buffer.length ∧
      (∀ text, l.scan.1 = some (.line text) → l.scan.2.buffer.length < l.buffer.length) ∧
      l.scan.1 ≠ some .waiting := by
  obtain ⟨hle, hlt⟩ := l.format.length_decode l.atEnd l.buffer
  rcases hd : l.format.decode l.atEnd l.buffer with ⟨_ | _ | text, f, b⟩ <;>
    rw [hd] at hle hlt <;> simp only [scan, LineFormat.decode, hd]
  · exact ⟨hle, by simp, by simp⟩
  · exact ⟨hle, by simp, by simp⟩
  · exact ⟨hle, fun _ _ => hlt text rfl, by simp⟩

/-- What looking into the buffer finds was in it. -/
theorem uses_of_scan {found : Polled} (h : l.scan = (some found, l₁)) :
    l.Uses c (found, l₁, c) := by
  obtain ⟨hle, hlt, hwaiting⟩ := l.length_scan
  rw [h] at hle hlt hwaiting
  refine ⟨rfl, Nat.add_le_add_right hle _, ?_, ?_⟩
  · rintro text rfl
    exact Nat.add_lt_add_right (hlt text rfl) _
  · rintro rfl
    exact absurd rfl hwaiting

theorem unread_le_of_scan {found : Option Polled} (h : l.scan = (found, l₁)) (c : Connection) :
    l₁.unread c ≤ l.unread c := by
  have hle := l.length_scan.1
  rw [h] at hle
  exact Nat.add_le_add_right hle _

theorem uses_scanEnd (l : Link (LineCodec σ)) (c : Connection) :
    l.Uses c (l.scanEnd.1, l.scanEnd.2, c) := by
  rcases hscan : l.scan with ⟨_ | found, l₁⟩ <;> simp only [scanEnd, hscan]
  · exact uses_of_ended (unread_le_of_scan hscan c)
  · exact uses_of_scan hscan

theorem uses_awaitEnd (l : Link (LineCodec σ)) (c : Connection) : l.Uses c (l.awaitEnd c) := by
  unfold awaitEnd
  split
  next hopen => exact ⟨rfl, Nat.le_refl _, nofun, fun _ => by simpa using hopen⟩
  next =>
    split
    · exact uses_of_ended (Nat.le_refl _)
    · exact (uses_scanEnd { l with atEnd := true, readable := true } c).trans rfl (Nat.le_refl _)

theorem uses_fetch (l : Link (LineCodec σ)) (c : Connection) : l.Uses c (l.fetch c) := by
  unfold fetch
  split
  · exact uses_awaitEnd l c
  · -- what was read moves from the connection into the buffer
    let full := { l with buffer := l.buffer ++ c.incoming, atEnd := false, readable := true }
    have hfull : full.unread { c with incoming := [] } = l.unread c := by simp [full, unread]
    rcases hscan : full.scan with ⟨_ | found, l₁⟩ <;> simp only [full] at hscan <;>
      simp only [hscan]
    · refine (uses_awaitEnd l₁ { c with incoming := [] }).trans rfl ?_
      exact Nat.le_trans (unread_le_of_scan hscan _) (Nat.le_of_eq hfull)
    · exact (uses_of_scan hscan).trans rfl (Nat.le_of_eq hfull)

/-- **Asking for a line uses bytes up**, and waits only if more can arrive. -/
theorem uses_poll (l : Link (LineCodec σ)) (c : Connection) : l.Uses c (l.poll c) := by
  unfold poll
  split
  · exact uses_of_ended (Nat.le_refl _)
  · split
    · split
      · exact uses_scanEnd l c
      · rcases hscan : l.scan with ⟨_ | found, l₁⟩
        · exact (uses_fetch l₁ c).trans rfl (unread_le_of_scan hscan c)
        · exact uses_of_scan hscan
    · exact uses_fetch l c

end Link

/-! ### Handshakes that come to their end -/

namespace ServerHandshake

/-- The bytes of which no line was made yet. -/
def State.unread (s : State) (c : Connection) : Nat :=
  match s with
  | start raw => raw.unread c
  | awaitingAuth channel => channel.unread c
  | awaitingEcho channel _ => channel.unread c
  | established e => e.channel.unread c
  | rejected _ => 0

/-- How many stages are left. -/
def State.stagesLeft : State → Nat
  | start _ => 3
  | awaitingAuth _ => 2
  | awaitingEcho _ _ => 1
  | established _ | rejected _ => 0

/-- What a handshake comes to that can wait for nothing: it is closer to its end, or there. -/
structure Closes (s : State) (c : Connection) (next : State × Connection) : Prop where
  finished : next.2.finished = c.finished
  unread_le : next.1.unread next.2 ≤ s.unread c
  stages_lt : next.1.outcome? = none → next.1.stagesLeft < s.stagesLeft

theorem closes_of_rejected {s : State} {c c' : Connection} {r : Rejected}
    (hfinished : c'.finished = c.finished) : Closes s c (.rejected r, c') :=
  ⟨hfinished, Nat.zero_le _, nofun⟩

theorem closes_of_established {s : State} {c c' : Connection} {e : Established}
    (hfinished : c'.finished = c.finished) (hunread : e.channel.unread c' ≤ s.unread c) :
    Closes s c (.established e, c') :=
  ⟨hfinished, hunread, nofun⟩

theorem closes_answer (h : ServerHandshake) (channel : EnvelopeLink) (auth : Authenticate)
    (key : PublicKey) (c : Connection) :
    Closes (.awaitingAuth channel) c (h.answer channel auth key c) := by
  obtain ⟨result, codec, written, -, hsend⟩ := Link.exists_send
    (channel.withCipher (EnvelopeCipher.between key h.key h.seeds)) (h.reply auth).render c
  cases result with
  | error e =>
      simp only [answer, hsend]
      exact closes_of_rejected rfl
  | ok =>
      simp only [answer, hsend]
      exact ⟨rfl, Nat.le_refl _, fun _ => Nat.one_lt_two⟩

/-- **A handshake whose other side has finished** takes its next stage, or ends. -/
theorem closes_step (h : ServerHandshake) (s : State) {c : Connection}
    (hfinished : c.finished = true) : Closes s c (h.step s c) := by
  cases s with
  | start raw => exact ⟨rfl, Nat.le_refl _, fun _ => Nat.lt_succ_self 2⟩
  | awaitingAuth channel =>
      have huses := channel.uses_poll c
      rcases hpoll : channel.poll c with ⟨polled, channel', c'⟩
      rw [hpoll] at huses
      rcases hawaited : awaited "message 1" polled with _ | f | line
      · exact absurd hawaited (Link.awaited_ne_none (huses.not_waiting hfinished))
      · simp only [step, hpoll, hawaited]
        exact closes_of_rejected huses.finished
      · rcases hidentify : h.identify line with f | ⟨auth, key⟩
        · simp only [step, hpoll, hawaited, hidentify]
          exact closes_of_rejected huses.finished
        · simp only [step, hpoll, hawaited, hidentify]
          have hanswer := h.closes_answer channel' auth key c'
          exact ⟨hanswer.finished.trans huses.finished,
            Nat.le_trans hanswer.unread_le huses.unread_le, hanswer.stages_lt⟩
  | awaitingEcho channel username =>
      have huses := channel.uses_poll c
      rcases hpoll : channel.poll c with ⟨polled, channel', c'⟩
      rw [hpoll] at huses
      rcases hawaited : awaited "message 3" polled with _ | f | line
      · exact absurd hawaited (Link.awaited_ne_none (huses.not_waiting hfinished))
      · simp only [step, hpoll, hawaited]
        exact closes_of_rejected huses.finished
      · simp only [step, hpoll, hawaited, judge]
        split
        · exact closes_of_rejected huses.finished
        · split
          · exact closes_of_rejected huses.finished
          · exact closes_of_established huses.finished huses.unread_le
  | established e => exact closes_of_established rfl (Nat.le_refl _)
  | rejected r => exact closes_of_rejected rfl

end ServerHandshake

/-! ### Sessions that come to their end -/

namespace ServerSession

/-- **How many steps a session may still take** once its other side has finished: three for every
byte, which may be a line, and those of the handshake, the beginning and the end. -/
def rank (c : ServerSession) : Nat :=
  match c.phase with
  | .handshaking s => 3 * s.unread c.wire + s.stagesLeft + 7
  | .binding e => 3 * e.channel.unread c.wire + 6
  | .greeting _ channel => 3 * channel.unread c.wire + 5
  | .serving _ channel => 3 * channel.unread c.wire + 4
  | .answering _ channel _ => 3 * channel.unread c.wire + 6
  | .replying _ channel _ => 3 * channel.unread c.wire + 5
  | .releasing _ _ => 2
  | .departing _ _ => 1
  | .ended _ => 0

/-- Whether a session has left its channel, or never had one. -/
def isLeaving (c : ServerSession) : Bool :=
  match c.phase with
  | .releasing _ _ | .departing _ _ | .ended _ => true
  | _ => false

/-- **A session that waits for nothing any more**: the other side has finished, or the session has
left its channel. -/
def IsEnding (c : ServerSession) : Prop := c.wire.finished = true ∨ c.isLeaving = true

theorem isOver_of_rank {c : ServerSession} (h : c.rank = 0) : c.isOver = true := by
  unfold rank at h
  unfold isOver
  split at h
  case h_9 hp => rw [hp]
  all_goals exact absurd h (Nat.succ_ne_zero _)

variable {σ : Type} {v v' : ChatServer σ} {c c' : ServerSession}

/-- A stage of the handshake uses the rank up. -/
theorem rank_afterStage_lt {s s' : ServerHandshake.State} {wire wire' : Connection} (peer : Address)
    (material : HandshakeMaterial) (h : ServerHandshake.Closes s wire (s', wire')) :
    rank ⟨peer, material, ChatServer.afterStage s', wire'⟩ <
      3 * s.unread wire + s.stagesLeft + 7 := by
  have hunread : s'.unread wire' ≤ s.unread wire := h.unread_le
  have hstages : s'.outcome? = none → s'.stagesLeft < s.stagesLeft := h.stages_lt
  cases s' with
  | established e =>
      have hchannel : e.channel.unread wire' ≤ s.unread wire := hunread
      simp only [rank, ChatServer.afterStage]
      omega
  | rejected r => exact Nat.succ_pos _
  | start | awaitingAuth | awaitingEcho =>
      have hlt := hstages rfl
      simp only [rank, ChatServer.afterStage]
      omega

/-- **Every step of its own uses up the rank** of a session that ends. -/
theorem IsEnding.run (h : c.IsEnding) (hrun : v.run c = some (c', v')) :
    c'.IsEnding ∧ c'.rank < c.rank := by
  obtain ⟨peer, material, phase, wire⟩ := c
  -- as long as it has not left its channel, it ends because the other side has finished
  have hfinished : isLeaving ⟨peer, material, phase, wire⟩ = false → wire.finished = true := by
    intro hstays
    rcases h with hf | hleaves
    · exact hf
    · rw [hstays] at hleaves
      cases hleaves
  cases phase with
  | handshaking s =>
      have hf := hfinished rfl
      have hcloses := (v.handshake material).closes_step s hf
      rcases hs : (v.handshake material).step s wire with ⟨s', wire'⟩
      rw [hs] at hcloses
      simp only [ChatServer.run, hs] at hrun
      cases hrun
      exact ⟨Or.inl (hcloses.finished.trans hf), rank_afterStage_lt peer material hcloses⟩
  | binding e =>
      rcases hb : v.registry.bind e.username peer with ⟨_ | id, registry⟩
      · simp only [ChatServer.run, hb] at hrun
        cases hrun
        exact ⟨Or.inl (hfinished rfl), Nat.succ_pos _⟩
      · simp only [ChatServer.run, hb] at hrun
        cases hrun
        exact ⟨Or.inl (hfinished rfl), Nat.lt_succ_self _⟩
  | greeting context channel =>
      cases hrun
      exact ⟨Or.inl (hfinished rfl), Nat.lt_succ_self _⟩
  | serving context channel =>
      have hf := hfinished rfl
      have huses := channel.uses_poll wire
      rcases hpoll : channel.poll wire with ⟨polled, channel', wire'⟩
      rw [hpoll] at huses
      simp only [ChatServer.run, hpoll] at hrun
      cases hrun
      have hf' := huses.finished.trans hf
      cases polled with
      | line line =>
          -- the bytes of the line pay for handling it and for sending the answer
          have hlt : channel'.unread wire' < channel.unread wire := huses.unread_lt line rfl
          refine ⟨Or.inl hf', ?_⟩
          simp only [rank]
          omega
      | failed e => exact ⟨Or.inl hf', by simp only [rank]; omega⟩
      | ended => exact ⟨Or.inl hf', by simp only [rank]; omega⟩
      | waiting => exact absurd rfl (huses.not_waiting hf)
  | answering context channel line =>
      cases hrun
      refine ⟨Or.inl (hfinished rfl), ?_⟩
      cases (v.handler.handle context line v.memory).1 with
      | none => simp only [rank]; omega
      | some answer => simp only [rank]; omega
  | replying context channel answer =>
      obtain ⟨result, codec, written, -, hsend⟩ := Link.exists_send channel answer wire
      cases result with
      | error e =>
          simp only [ChatServer.run, hsend] at hrun
          cases hrun
          exact ⟨Or.inr rfl, by simp only [rank]; omega⟩
      | ok =>
          simp only [ChatServer.run, hsend] at hrun
          cases hrun
          exact ⟨Or.inl (hfinished rfl), Nat.lt_succ_self _⟩
  | releasing context result =>
      cases hrun
      exact ⟨Or.inr rfl, Nat.lt_succ_self _⟩
  | departing context result =>
      cases hrun
      exact ⟨Or.inr rfl, Nat.lt_succ_self _⟩
  | ended result => cases hrun

/-- A session that can take no step of its own has none left. -/
theorem rank_of_run_eq_none (h : v.run c = none) : c.rank = 0 := by
  obtain ⟨peer, material, phase, wire⟩ := c
  cases phase with
  | ended result => rfl
  | binding e =>
      rcases hb : v.registry.bind e.username peer with ⟨_ | id, registry⟩ <;>
        simp only [ChatServer.run, hb] at h <;> cases h
  | replying context channel answer =>
      obtain ⟨_ | _, codec, written, -, hsend⟩ := Link.exists_send channel answer wire <;>
        simp only [ChatServer.run, hsend] at h <;> cases h
  | _ => cases h

theorem rank_finish (c : ServerSession) : rank { c with wire := c.wire.finish } = c.rank := rfl

theorem rank_hangUp (c : ServerSession) : rank { c with wire := c.wire.hangUp } = c.rank := rfl

/-- More bytes can only arrive for a session that has left its channel, which does not read them. -/
theorem IsEnding.arrive (h : c.IsEnding) (hopen : c.wire.finished = false) (bytes : Bytes) :
    IsEnding { c with wire := c.wire.arrive bytes } ∧
      rank { c with wire := c.wire.arrive bytes } = c.rank := by
  obtain ⟨peer, material, phase, wire⟩ := c
  have hleaving : isLeaving ⟨peer, material, phase, wire⟩ = true := by
    rcases h with hf | hleaving
    · rw [hopen] at hf
      cases hf
    · exact hleaving
  refine ⟨Or.inr hleaving, ?_⟩
  cases phase with
  | releasing | departing | ended => rfl
  | _ => cases hleaving

theorem isEnding_of_interrupt (h : ChatServer.interrupt c = some c') :
    c'.IsEnding ∧ c'.rank ≤ 2 ∧ c'.rank ≤ c.rank := by
  obtain ⟨peer, material, phase, wire⟩ := c
  cases phase with
  | handshaking s =>
      cases h
      exact ⟨Or.inr rfl, Nat.zero_le _, Nat.zero_le _⟩
  | serving context channel =>
      cases h
      exact ⟨Or.inr rfl, Nat.le_refl _, by simp only [rank]; omega⟩
  | _ => cases h

theorem isEnding_of_expire (h : ChatServer.expire c = some c') : c'.IsEnding ∧ c'.rank = 0 := by
  obtain ⟨peer, material, phase, wire⟩ := c
  cases phase with
  | handshaking s =>
      cases h
      exact ⟨Or.inr rfl, rfl⟩
  | _ => cases h

end ServerSession

/-! ### Among other sessions -/

namespace ChatServer

/-- Whether a step is a session's own. -/
def Action.isRunOf (i : Nat) : Action → Bool
  | run j => j == i
  | _ => false

variable {σ : Type} {v w : ChatServer σ} {i j m n : Nat} {c d d' : ServerSession}

/-- **A session that ends within so many steps of its own.** -/
def EndsWithin (v : ChatServer σ) (i n : Nat) : Prop :=
  ∃ c, v.sessions[i]? = some c ∧ c.IsEnding ∧ c.rank ≤ n

/-- A step of one session, which leaves the others alone. -/
theorem EndsWithin.setSession (h : v.EndsWithin i n) (hd : v.sessions[j]? = some d)
    (hw : w.sessions = v.sessions)
    (hself : j = i → d.IsEnding → d.rank ≤ n → d'.IsEnding ∧ d'.rank ≤ m)
    (hothers : j ≠ i → n ≤ m) : (w.setSession j d').EndsWithin i m := by
  obtain ⟨c, hc, hending, hrank⟩ := h
  have hj := (List.getElem?_eq_some_iff.1 hd).1
  simp only [EndsWithin, ChatServer.setSession, hw, List.getElem?_set, if_pos hj]
  by_cases hij : j = i
  · subst hij
    cases hc.symm.trans hd
    exact ⟨d', if_pos rfl, hself rfl hending hrank⟩
  · exact ⟨c, (if_neg hij).trans hc, hending, Nat.le_trans hrank (hothers hij)⟩

/-- A step of one session that does not put off its end. -/
theorem EndsWithin.setSession_of_le (h : v.EndsWithin i n) (hd : v.sessions[j]? = some d)
    (hself : d.IsEnding → d'.IsEnding ∧ d'.rank ≤ d.rank) : (v.setSession j d').EndsWithin i n :=
  h.setSession hd rfl
    (fun _ hending hrank => ⟨(hself hending).1, Nat.le_trans (hself hending).2 hrank⟩)
    fun _ => Nat.le_refl n

/-- **Its own step** brings the end of a session closer. -/
theorem EndsWithin.tryStep_run (h : v.EndsWithin i n) (j : Nat) :
    (v.tryStep (.run j)).EndsWithin i (n - if j == i then 1 else 0) := by
  cases hv : v.step? (.run j) with
  | none =>
      rw [ChatServer.tryStep, hv]
      obtain ⟨c, hc, hending, hrank⟩ := h
      by_cases hij : j = i
      · -- only a session that is over has no step of its own
        subst hij
        have hrun : v.run c = none := by
          cases hgo : v.run c with
          | none => rfl
          | some next => simp [step?, hc, hgo] at hv
        rw [Option.getD_none]
        refine ⟨c, hc, hending, ?_⟩
        rw [ServerSession.rank_of_run_eq_none hrun]
        exact Nat.zero_le _
      · exact ⟨c, hc, hending, by simpa [hij] using hrank⟩
  | some v' =>
      rw [ChatServer.tryStep, hv]
      obtain ⟨d, hd, hgo⟩ := Option.bind_eq_some_iff.1 hv
      obtain ⟨⟨d', w⟩, hrun, hset⟩ := Option.bind_eq_some_iff.1 hgo
      cases hset
      have hw : w.sessions = v.sessions := by
        rw [(Does.of_run hrun).2]
        rfl
      refine h.setSession hd hw ?_ ?_
      · intro hij hending hrank
        obtain ⟨hending', hlt⟩ := hending.run hrun
        refine ⟨hending', ?_⟩
        rw [if_pos (by simpa using hij)]
        omega
      · intro hij
        rw [if_neg (by simpa using hij)]
        exact Nat.le_refl n

/-- **No step puts the end off**, and a step of its own brings it closer. -/
theorem EndsWithin.tryStep (h : v.EndsWithin i n) (a : Action) :
    (v.tryStep a).EndsWithin i (n - if a.isRunOf i then 1 else 0) := by
  -- all steps but its own leave the session alone, or change its connection, or cut it short
  cases hv : v.step? a with
  | none =>
      cases a with
      | run j => exact h.tryStep_run j
      | _ =>
          rw [ChatServer.tryStep, hv]
          exact h
  | some v' =>
      cases a with
      | run j => exact h.tryStep_run j
      | accept peer material =>
          obtain ⟨c, hc, hending⟩ := h
          rw [ChatServer.tryStep, hv]
          simp only [step?] at hv
          split at hv
          · cases hv
          · cases hv
            have hi := (List.getElem?_eq_some_iff.1 hc).1
            exact ⟨c, (List.getElem?_append_left hi).trans hc, hending⟩
      | stop => exact h
      | arrive j bytes =>
          rw [ChatServer.tryStep, hv]
          obtain ⟨d, hd, harrive⟩ := Option.bind_eq_some_iff.1 hv
          split at harrive
          next => cases harrive
          next hopen =>
            cases harrive
            refine h.setSession_of_le hd fun hending => ?_
            obtain ⟨hending', hrank⟩ := hending.arrive (by simpa using hopen) bytes
            exact ⟨hending', Nat.le_of_eq hrank⟩
      | finish j =>
          rw [ChatServer.tryStep, hv]
          obtain ⟨d, hd, hfinish⟩ := Option.bind_eq_some_iff.1 hv
          cases hfinish
          exact h.setSession_of_le hd fun _ => ⟨Or.inl rfl, Nat.le_of_eq d.rank_finish⟩
      | hangUp j =>
          rw [ChatServer.tryStep, hv]
          obtain ⟨d, hd, hhangUp⟩ := Option.bind_eq_some_iff.1 hv
          cases hhangUp
          exact h.setSession_of_le hd fun _ => ⟨Or.inl rfl, Nat.le_of_eq d.rank_hangUp⟩
      | expire j =>
          rw [ChatServer.tryStep, hv]
          simp only [step?] at hv
          split at hv
          next =>
            obtain ⟨d, hd, hgo⟩ := Option.bind_eq_some_iff.1 hv
            obtain ⟨d', hexpire, hset⟩ := Option.bind_eq_some_iff.1 hgo
            cases hset
            obtain ⟨hending', hrank⟩ := ServerSession.isEnding_of_expire hexpire
            refine h.setSession_of_le hd fun _ => ⟨hending', ?_⟩
            rw [hrank]
            exact Nat.zero_le _
          next => cases hv
      | interrupt j =>
          rw [ChatServer.tryStep, hv]
          simp only [step?] at hv
          split at hv
          next =>
            obtain ⟨d, hd, hgo⟩ := Option.bind_eq_some_iff.1 hv
            obtain ⟨d', hinterrupt, hset⟩ := Option.bind_eq_some_iff.1 hgo
            cases hset
            obtain ⟨hending', -, hrank⟩ := ServerSession.isEnding_of_interrupt hinterrupt
            exact h.setSession_of_le hd fun _ => ⟨hending', hrank⟩
          next => cases hv

/-- **A session that ends is over** after so many steps of its own, whatever happens in between. -/
theorem EndsWithin.run (h : v.EndsWithin i n) (schedule : List Action) :
    (schedule.foldl ChatServer.tryStep v).EndsWithin i (n - schedule.countP (·.isRunOf i)) := by
  induction schedule generalizing v n with
  | nil => exact h
  | cons a schedule ih =>
      have hrest := ih (h.tryStep a)
      rw [List.foldl_cons, List.countP_cons, Nat.add_comm, ← Nat.sub_sub]
      exact hrest

theorem EndsWithin.exists_isOver (h : v.EndsWithin i 0) :
    ∃ c, v.sessions[i]? = some c ∧ c.isOver = true := by
  obtain ⟨c, hc, -, hrank⟩ := h
  exact ⟨c, hc, ServerSession.isOver_of_rank (Nat.le_zero.1 hrank)⟩

/-- **A session that waits is cut short** when the server shuts down, and then has only the release
and the last word to the handler before it, if it was bound. -/
theorem endsWithin_interrupt (hstopping : v.isStopping = true) (hc : v.sessions[i]? = some c)
    (hwaits : (∃ s, c.phase = .handshaking s) ∨
      ∃ context channel, c.phase = .serving context channel) :
    (v.tryStep (.interrupt i)).EndsWithin i 2 := by
  obtain ⟨c', hinterrupt⟩ : ∃ c', interrupt c = some c' := by
    rcases hwaits with ⟨s, hp⟩ | ⟨context, channel, hp⟩ <;> simp [interrupt, hp]
  obtain ⟨hending, hrank, -⟩ := ServerSession.isEnding_of_interrupt hinterrupt
  have hi := (List.getElem?_eq_some_iff.1 hc).1
  refine ⟨c', ?_, hending, hrank⟩
  have hstep : v.step? (.interrupt i) = some (v.setSession i c') := by
    simp only [step?, hstopping, if_true, hc, Option.bind_eq_bind, Option.bind_some, hinterrupt]
    rfl
  rw [ChatServer.tryStep, hstep, Option.getD_some, ChatServer.setSession]
  exact List.getElem?_set_self hi

end ChatServer

end LineChat
