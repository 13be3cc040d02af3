/-
**What the sessions of a server have done.**

The state of a server forgets: a session that is over has left the registry, and the handler's
memory is one for all.  A chronicle keeps beside the state what the sessions did, in the order in
which they did it, and the bytes that have arrived for each of them.  What the sessions share is
changed by these deeds and by nothing else, and a deed is one of few kinds, each with its guard.

Main definitions:

* `LineChat.Deed` — **what a session does**, and what that changes for the others;
* `LineChat.Chronicle`, `LineChat.Chronicle.run` — **a schedule with what it has done**;
* `LineChat.ChatServer.Does` — **the kinds of steps of a session**, with their guards;
* `LineChat.Chronicle.Step`, `LineChat.Chronicle.Reachable` — the kinds of steps of a server, and
  where they lead.

Main results:

* `LineChat.Chronicle.now_run` — a chronicle leads to the state that its schedule leads to;
* `LineChat.Chronicle.Step.of_step?` — every step that can be taken is of one of these kinds;
* `LineChat.Chronicle.Reachable.run` — every schedule goes on by such steps;
* `LineChat.Chronicle.Reachable.each_session` — **what a session keeps whatever the others do**.
-/

import LineChat.Chat.Server
import LineChat.Proofs.Registry

set_option autoImplicit false

namespace LineChat

/-! ### Deeds -/

/-- **What a session does**, as far as it concerns others. -/
inductive Deed where
  /-- Its handshake succeeds. -/
  | admitted (username : String)
  /-- Its handshake fails. -/
  | refused (failure : HandshakeFailure)
  /-- Its handshake takes too long. -/
  | expired
  /-- It notices that the server shuts down. -/
  | interrupted
  /-- It is bound to its user. -/
  | bound (context : SessionContext)
  /-- It is not bound, because its user is not registered any more. -/
  | vanished (username : String)
  /-- The handler is told that it begins. -/
  | greeted (context : SessionContext)
  /-- It takes a line, or the error that there is in place of one. -/
  | took (line : Except LineError String)
  /-- It sees the end of what the other side sends. -/
  | closed
  /-- The handler is given a line, and may answer it. -/
  | handled (context : SessionContext) (line : String) (answer : Option String)
  /-- It sends an answer. -/
  | sent (answer : String)
  /-- It fails to send an answer. -/
  | unsent (answer : String) (e : LineError)
  /-- It is released. -/
  | released (context : SessionContext)
  /-- The handler is told that it ends. -/
  | departed (context : SessionContext)

namespace Deed

/-- What a deed changes in the registry. -/
def onRegistry (r : Registry) : Deed → Registry
  | bound context => (r.bind context.username context.peer).2
  | released context => (r.release context.username context.session).2
  | _ => r

/-- What a deed changes in the handler's memory. -/
def onMemory {σ : Type} (handler : SessionHandler σ) (memory : σ) : Deed → σ
  | greeted context => handler.onConnect context memory
  | handled context line _ => (handler.handle context line memory).2
  | departed context => handler.onDisconnect context memory
  | _ => memory

end Deed

namespace ChatServer

variable {σ : Type}

/-- **What a session does with its next step.** -/
def deeds (v : ChatServer σ) (c : ServerSession) : List Deed :=
  match c.phase with
  | .handshaking s =>
      match ((v.handshake c.material).step s c.wire).1 with
      | .established e => [.admitted e.username]
      | .rejected r => [.refused r.failure]
      | _ => []
  | .binding e =>
      match (v.registry.bind e.username c.peer).1 with
      | some session => [.bound ⟨e.username, session, c.peer⟩]
      | none => [.vanished e.username]
  | .greeting context _ => [.greeted context]
  | .serving _ channel =>
      match (channel.poll c.wire).1 with
      | .line line => [.took (.ok line)]
      | .failed e => [.took (.error e)]
      | .ended => [.closed]
      | .waiting => []
  | .answering context _ line =>
      [.handled context line (v.handler.handle context line v.memory).1]
  | .replying _ channel answer =>
      match (channel.send answer c.wire).1 with
      | .ok () => [.sent answer]
      | .error e => [.unsent answer e]
  | .releasing context _ => [.released context]
  | .departing context _ => [.departed context]
  | .ended _ => []

/-- A server after some deeds. -/
def after (v : ChatServer σ) (deeds : List Deed) : ChatServer σ :=
  { v with
    registry := deeds.foldl Deed.onRegistry v.registry
    memory := deeds.foldl (Deed.onMemory v.handler) v.memory }

end ChatServer

/-! ### Chronicles -/

/-- **A server with what its sessions have done.** -/
structure Chronicle (σ : Type) where
  now : ChatServer σ
  /-- What was done, and by which session. -/
  log : List (Nat × Deed) := []
  /-- What has arrived, and for which session. -/
  heard : List (Nat × Bytes) := []

namespace Chronicle

open ChatServer (Action)

variable {σ : Type}

/-- What a session has done. -/
def deedsOf (k : Chronicle σ) (i : Nat) : List Deed := (k.log.filter (·.1 = i)).map (·.2)

/-- What has arrived for a session. -/
def streamOf (k : Chronicle σ) (i : Nat) : Bytes := (k.heard.filter (·.1 = i)).flatMap (·.2)

/-- The deeds of a session written down, with the state that they lead to. -/
def write (k : Chronicle σ) (i : Nat) (deeds : List Deed) (v : ChatServer σ) : Chronicle σ :=
  { k with now := v, log := k.log ++ deeds.map (i, ·) }

/-- **A step written down**, with the state it leads to. -/
def record (k : Chronicle σ) (a : Action) (v : ChatServer σ) : Chronicle σ :=
  match a with
  | .arrive i bytes => { k with now := v, heard := k.heard ++ [(i, bytes)] }
  | .run i => k.write i (k.now.sessions[i]?.elim [] k.now.deeds) v
  | .expire i => k.write i [.expired] v
  | .interrupt i => k.write i [.interrupted] v
  | _ => { k with now := v }

/-- A step taken and written down, if it can be taken. -/
def step (k : Chronicle σ) (a : Action) : Chronicle σ := (k.now.step? a).elim k (k.record a)

/-- **A schedule of steps**, with what they do; those that cannot be taken are left out. -/
def run (k : Chronicle σ) (schedule : List Action) : Chronicle σ := schedule.foldl step k

variable {k k' : Chronicle σ} {i j : Nat} {deeds : List Deed} {v : ChatServer σ}

theorem now_record (k : Chronicle σ) (a : Action) (v : ChatServer σ) : (k.record a v).now = v := by
  cases a <;> rfl

/-- Writing down changes nothing: **a chronicle leads to the state that its schedule leads to.** -/
theorem now_run (k : Chronicle σ) (schedule : List Action) :
    (k.run schedule).now = schedule.foldl ChatServer.tryStep k.now := by
  induction schedule generalizing k with
  | nil => rfl
  | cons a schedule ih =>
      have hstep : (k.step a).now = k.now.tryStep a := by
        rw [step, ChatServer.tryStep]
        cases k.now.step? a with
        | none => rfl
        | some v => exact now_record k a v
      rw [List.foldl_cons, ← hstep]
      exact ih (k.step a)

@[simp] theorem deedsOf_write_self (k : Chronicle σ) (i : Nat) (deeds : List Deed)
    (v : ChatServer σ) : (k.write i deeds v).deedsOf i = k.deedsOf i ++ deeds := by
  have hall : (deeds.map (i, ·)).filter (·.1 = i) = deeds.map (i, ·) := by
    rw [List.filter_eq_self]
    simp
  rw [deedsOf, write, List.filter_append, List.map_append, hall, List.map_map]
  exact congrArg (k.deedsOf i ++ ·) (List.map_id deeds)

@[simp] theorem deedsOf_write_of_ne (h : j ≠ i) (deeds : List Deed) (v : ChatServer σ) :
    (k.write i deeds v).deedsOf j = k.deedsOf j := by
  have hnone : (deeds.map (i, ·)).filter (·.1 = j) = [] := by
    rw [List.filter_eq_nil_iff]
    simp [h.symm]
  rw [deedsOf, write, List.filter_append, hnone, List.append_nil, deedsOf]

theorem mem_deedsOf_iff {d : Deed} : d ∈ k.deedsOf i ↔ (i, d) ∈ k.log := by
  simp [deedsOf]

end Chronicle

/-! ### The kinds of steps -/

namespace ChatServer

variable {σ : Type}

/-- **The kinds of steps of a session**, with what it does and what becomes of it. -/
inductive Does (v : ChatServer σ) (c : ServerSession) : List Deed → ServerSession → Prop
  /-- The other side sends nothing more. -/
  | finished : Does v c [] { c with wire := c.wire.finish }
  | hungUp : Does v c [] { c with wire := c.wire.hangUp }
  /-- The handshake goes on, or waits. -/
  | shook {s s' : ServerHandshake.State} {wire : Connection} (hp : c.phase = .handshaking s)
      (hs : (v.handshake c.material).step s c.wire = (s', wire)) (ho : s'.outcome? = none) :
      Does v c [] { c with phase := .handshaking s', wire }
  | admitted {s : ServerHandshake.State} {e : Established} {wire : Connection}
      (hp : c.phase = .handshaking s)
      (hs : (v.handshake c.material).step s c.wire = (.established e, wire)) :
      Does v c [.admitted e.username] { c with phase := .binding e, wire }
  | refused {s : ServerHandshake.State} {r : Rejected} {wire : Connection}
      (hp : c.phase = .handshaking s)
      (hs : (v.handshake c.material).step s c.wire = (.rejected r, wire)) :
      Does v c [.refused r.failure] { c with phase := .ended (.error (.handshake r.failure)), wire }
  | expired {s : ServerHandshake.State} (hp : c.phase = .handshaking s) :
      Does v c [.expired] { c with phase := .ended (.error tooSlow) }
  | dismissed {s : ServerHandshake.State} (hp : c.phase = .handshaking s) :
      Does v c [.interrupted] { c with phase := .ended (.ok ()) }
  | bound {e : Established} {id : Nat} (hp : c.phase = .binding e)
      (hb : (v.registry.bind e.username c.peer).1 = some id) :
      Does v c [.bound ⟨e.username, id, c.peer⟩]
        { c with phase := .greeting ⟨e.username, id, c.peer⟩ e.channel }
  | vanished {e : Established} (hp : c.phase = .binding e)
      (hb : (v.registry.bind e.username c.peer).1 = none) :
      Does v c [.vanished e.username] { c with phase := .ended (.error (removed e.username)) }
  | greeted {context : SessionContext} {channel : SecureLink}
      (hp : c.phase = .greeting context channel) :
      Does v c [.greeted context] { c with phase := .serving context channel }
  | waited {context : SessionContext} {channel channel' : SecureLink} {wire : Connection}
      (hp : c.phase = .serving context channel)
      (hpoll : channel.poll c.wire = (.waiting, channel', wire)) :
      Does v c [] { c with phase := .serving context channel', wire }
  | took {context : SessionContext} {channel channel' : SecureLink} {wire : Connection}
      {line : String} (hp : c.phase = .serving context channel)
      (hpoll : channel.poll c.wire = (.line line, channel', wire)) :
      Does v c [.took (.ok line)] { c with phase := .answering context channel' line, wire }
  | failed {context : SessionContext} {channel channel' : SecureLink} {wire : Connection}
      {e : LineError} (hp : c.phase = .serving context channel)
      (hpoll : channel.poll c.wire = (.failed e, channel', wire)) :
      Does v c [.took (.error e)] { c with phase := .releasing context (.error (.line e)), wire }
  | closed {context : SessionContext} {channel channel' : SecureLink} {wire : Connection}
      (hp : c.phase = .serving context channel)
      (hpoll : channel.poll c.wire = (.ended, channel', wire)) :
      Does v c [.closed] { c with phase := .releasing context (.ok ()), wire }
  | interrupted {context : SessionContext} {channel : SecureLink}
      (hp : c.phase = .serving context channel) :
      Does v c [.interrupted] { c with phase := .releasing context (.ok ()) }
  | ignored {context : SessionContext} {channel : SecureLink} {line : String}
      (hp : c.phase = .answering context channel line)
      (ha : (v.handler.handle context line v.memory).1 = none) :
      Does v c [.handled context line none] { c with phase := .serving context channel }
  | answered {context : SessionContext} {channel : SecureLink} {line answer : String}
      (hp : c.phase = .answering context channel line)
      (ha : (v.handler.handle context line v.memory).1 = some answer) :
      Does v c [.handled context line (some answer)]
        { c with phase := .replying context channel answer }
  | sent {context : SessionContext} {channel channel' : SecureLink} {answer : String}
      {wire : Connection} (hp : c.phase = .replying context channel answer)
      (hsend : channel.send answer c.wire = (.ok (), channel', wire)) :
      Does v c [.sent answer] { c with phase := .serving context channel', wire }
  | unsent {context : SessionContext} {channel channel' : SecureLink} {answer : String}
      {wire : Connection} {e : LineError} (hp : c.phase = .replying context channel answer)
      (hsend : channel.send answer c.wire = (.error e, channel', wire)) :
      Does v c [.unsent answer e] { c with phase := .releasing context (.error (.line e)), wire }
  | released {context : SessionContext} {result : Except ChannelError Unit}
      (hp : c.phase = .releasing context result) :
      Does v c [.released context] { c with phase := .departing context result }
  | departed {context : SessionContext} {result : Except ChannelError Unit}
      (hp : c.phase = .departing context result) :
      Does v c [.departed context] { c with phase := .ended result }

variable {v v' : ChatServer σ} {c c' : ServerSession}

/-- **The next step of a session is of one of these kinds**, and changes for the others what its
deeds change. -/
theorem Does.of_run (h : v.run c = some (c', v')) :
    Does v c (v.deeds c) c' ∧ v' = v.after (v.deeds c) := by
  obtain ⟨peer, material, phase, wire⟩ := c
  cases phase with
  | handshaking s =>
      rcases hs : (v.handshake material).step s wire with ⟨s', wire'⟩
      simp only [run, hs] at h
      cases h
      simp only [deeds, hs]
      cases s' with
      | established e => exact ⟨.admitted rfl hs, rfl⟩
      | rejected r => exact ⟨.refused rfl hs, rfl⟩
      | start | awaitingAuth | awaitingEcho => exact ⟨.shook rfl hs rfl, rfl⟩
  | binding e =>
      rcases hb : v.registry.bind e.username peer with ⟨_ | id, registry⟩
      · simp only [run, hb] at h
        cases h
        simp only [deeds, hb]
        exact ⟨.vanished rfl (congrArg Prod.fst hb), rfl⟩
      · simp only [run, hb] at h
        cases h
        simp only [deeds, hb]
        refine ⟨.bound rfl (congrArg Prod.fst hb), ?_⟩
        simp [after, Deed.onRegistry, Deed.onMemory, hb]
  | greeting context channel =>
      cases h
      exact ⟨.greeted rfl, rfl⟩
  | serving context channel =>
      rcases hpoll : channel.poll wire with ⟨polled, channel', wire'⟩
      simp only [run, hpoll] at h
      cases h
      simp only [deeds, hpoll]
      cases polled with
      | line line => exact ⟨.took rfl hpoll, rfl⟩
      | failed e => exact ⟨.failed rfl hpoll, rfl⟩
      | ended => exact ⟨.closed rfl hpoll, rfl⟩
      | waiting => exact ⟨.waited rfl hpoll, rfl⟩
  | answering context channel line =>
      cases h
      refine ⟨?_, rfl⟩
      simp only [deeds]
      cases ha : (v.handler.handle context line v.memory).1 with
      | none => exact .ignored rfl ha
      | some answer => exact .answered rfl ha
  | replying context channel answer =>
      rcases hsend : channel.send answer wire with ⟨_ | _, channel', wire'⟩
      · simp only [run, hsend] at h
        cases h
        simp only [deeds, hsend]
        exact ⟨.unsent rfl hsend, rfl⟩
      · simp only [run, hsend] at h
        cases h
        simp only [deeds, hsend]
        exact ⟨.sent rfl hsend, rfl⟩
  | releasing context result =>
      cases h
      exact ⟨.released rfl, rfl⟩
  | departing context result =>
      cases h
      exact ⟨.departed rfl, rfl⟩
  | ended result => cases h

theorem Does.of_interrupt (h : interrupt c = some c') : Does v c [.interrupted] c' := by
  rw [interrupt] at h
  split at h
  next hp =>
    cases h
    exact .dismissed hp
  next hp =>
    cases h
    exact .interrupted hp
  next => cases h

theorem Does.of_expire (h : expire c = some c') : Does v c [.expired] c' := by
  rw [expire] at h
  split at h
  next hp =>
    cases h
    exact .expired hp
  next => cases h

end ChatServer

namespace Chronicle

open ChatServer (Action Does)

variable {σ : Type} {k k' : Chronicle σ} {v : ChatServer σ} {a : Action}

/-- **The kinds of steps of a server.** -/
inductive Step (k : Chronicle σ) : Chronicle σ → Prop
  | accepted (peer : Address) (material : HandshakeMaterial) (hopen : k.now.isStopping = false) :
      Step k { k with now := { k.now with sessions := k.now.sessions ++ [{ peer, material }] } }
  | stopped : Step k { k with now := { k.now with isStopping := true } }
  | heard {i : Nat} {c : ServerSession} (bytes : Bytes) (hc : k.now.sessions[i]? = some c)
      (hopen : c.wire.finished = false) :
      Step k { k with
        now := k.now.setSession i { c with wire := c.wire.arrive bytes }
        heard := k.heard ++ [(i, bytes)] }
  /-- A session takes a step. -/
  | did {i : Nat} {c c' : ServerSession} {deeds : List Deed} (hc : k.now.sessions[i]? = some c)
      (hd : Does k.now c deeds c') : Step k (k.write i deeds ((k.now.after deeds).setSession i c'))

theorem Step.silent {i : Nat} {c c' : ServerSession} (hc : k.now.sessions[i]? = some c)
    (hd : Does k.now c [] c') : Step k { k with now := k.now.setSession i c' } := by
  have hdid := Step.did hc hd
  rw [write, List.map_nil, List.append_nil] at hdid
  exact hdid

/-- **Every step that can be taken is of one of these kinds.** -/
theorem Step.of_step? (h : k.now.step? a = some v) : Step k (k.record a v) := by
  cases a with
  | accept peer material =>
      simp only [ChatServer.step?] at h
      split at h
      next => cases h
      next hopen =>
        cases h
        exact .accepted peer material (by simpa using hopen)
  | arrive i bytes =>
      obtain ⟨c, hc, harrive⟩ := Option.bind_eq_some_iff.1 h
      split at harrive
      next => cases harrive
      next hopen =>
        cases harrive
        exact .heard bytes hc (by simpa using hopen)
  | finish i =>
      obtain ⟨c, hc, hfinish⟩ := Option.bind_eq_some_iff.1 h
      cases hfinish
      exact .silent hc .finished
  | hangUp i =>
      obtain ⟨c, hc, hhangUp⟩ := Option.bind_eq_some_iff.1 h
      cases hhangUp
      exact .silent hc .hungUp
  | run i =>
      obtain ⟨c, hc, hgo⟩ := Option.bind_eq_some_iff.1 h
      obtain ⟨⟨c', v'⟩, hrun, hset⟩ := Option.bind_eq_some_iff.1 hgo
      cases hset
      obtain ⟨hdoes, rfl⟩ := Does.of_run hrun
      rw [record, hc]
      exact .did hc hdoes
  | expire i =>
      simp only [ChatServer.step?] at h
      split at h
      next =>
        obtain ⟨c, hc, hgo⟩ := Option.bind_eq_some_iff.1 h
        obtain ⟨c', hexpire, hset⟩ := Option.bind_eq_some_iff.1 hgo
        cases hset
        exact .did hc (.of_expire hexpire)
      next => cases h
  | stop =>
      cases h
      exact .stopped
  | interrupt i =>
      simp only [ChatServer.step?] at h
      split at h
      next =>
        obtain ⟨c, hc, hgo⟩ := Option.bind_eq_some_iff.1 h
        obtain ⟨c', hinterrupt, hset⟩ := Option.bind_eq_some_iff.1 hgo
        cases hset
        exact .did hc (.of_interrupt hinterrupt)
      next => cases h

/-- **A chronicle that some steps lead to.**  Its constructors are what an invariant is proved
by. -/
inductive Reachable (start : ChatServer σ) : Chronicle σ → Prop
  | start : Reachable start { now := start }
  | step {k k' : Chronicle σ} (h : Reachable start k) (hs : Step k k') : Reachable start k'

theorem Reachable.run {start : ChatServer σ} (h : Reachable start k) (schedule : List Action) :
    Reachable start (k.run schedule) := by
  induction schedule generalizing k with
  | nil => exact h
  | cons a schedule ih =>
      refine @ih (k.step a) ?_
      rw [Chronicle.step]
      cases hv : k.now.step? a with
      | none => exact h
      | some v => exact h.step (.of_step? hv)

/-! ### One session among others -/

/-- A server of the same kind: with the same key, users, options and handler. -/
structure Kin (start v : ChatServer σ) : Prop where
  key : v.key = start.key
  options : v.options = start.options
  handler : v.handler = start.handler
  lookup : v.registry.lookup = start.registry.lookup

/-- **Handshakes are what they were.** -/
theorem Kin.handshake_eq {start : ChatServer σ} (h : Kin start v) (material : HandshakeMaterial) :
    v.handshake material = start.handshake material := by
  rw [ChatServer.handshake, ChatServer.handshake, h.key, h.options, h.lookup]

theorem lookup_onRegistry (r : Registry) (d : Deed) : (d.onRegistry r).lookup = r.lookup := by
  cases d with
  | bound context => exact Registry.lookup_bind ..
  | released context => exact Registry.lookup_release ..
  | _ => rfl

/-- No deed changes a key. -/
theorem lookup_after (v : ChatServer σ) (deeds : List Deed) :
    (v.after deeds).registry.lookup = v.registry.lookup := by
  have hfold : ∀ r : Registry, (deeds.foldl Deed.onRegistry r).lookup = r.lookup := by
    induction deeds with
    | nil => exact fun _ => rfl
    | cons d deeds ih => exact fun r => (ih _).trans (lookup_onRegistry r d)
  exact hfold v.registry

/-- **What holds of every chronicle**: the server stays of its kind, and what is written down is
about its sessions. -/
structure Coherent (start : ChatServer σ) (k : Chronicle σ) : Prop where
  kin : Kin start k.now
  logged : ∀ x ∈ k.log, x.1 < k.now.sessions.length
  heard : ∀ x ∈ k.heard, x.1 < k.now.sessions.length

theorem Coherent.step {start : ChatServer σ} (h : Coherent start k) (hs : Step k k') :
    Coherent start k' := by
  cases hs with
  | accepted peer material =>
      have hlength : ∀ v : ChatServer σ, ∀ c : ServerSession,
          (v.sessions ++ [c]).length = v.sessions.length + 1 := fun v c => by simp
      refine ⟨⟨h.kin.key, h.kin.options, h.kin.handler, h.kin.lookup⟩, ?_, ?_⟩
      · intro x hx
        rw [hlength]
        exact Nat.lt_succ_of_lt (h.logged x hx)
      · intro x hx
        rw [hlength]
        exact Nat.lt_succ_of_lt (h.heard x hx)
  | stopped =>
      exact ⟨⟨h.kin.key, h.kin.options, h.kin.handler, h.kin.lookup⟩, h.logged, h.heard⟩
  | heard bytes hc =>
      have hi := (List.getElem?_eq_some_iff.1 hc).1
      refine ⟨⟨h.kin.key, h.kin.options, h.kin.handler, h.kin.lookup⟩, ?_, ?_⟩
      · simpa [ChatServer.setSession] using h.logged
      · intro x hx
        rw [ChatServer.setSession, List.length_set]
        rcases List.mem_append.1 hx with hx | hx
        · exact h.heard x hx
        · rw [List.mem_singleton.1 hx]
          exact hi
  | did hc hd =>
      have hi := (List.getElem?_eq_some_iff.1 hc).1
      refine ⟨⟨h.kin.key, h.kin.options, h.kin.handler,
        (lookup_after _ _).trans h.kin.lookup⟩, ?_, ?_⟩
      · intro x hx
        rw [write, ChatServer.setSession, List.length_set]
        rcases List.mem_append.1 hx with hx | hx
        · exact h.logged x hx
        · obtain ⟨d, -, rfl⟩ := List.mem_map.1 hx
          exact hi
      · simpa [write, ChatServer.setSession, ChatServer.after] using h.heard

theorem Reachable.coherent {start : ChatServer σ} (h : Reachable start k) : Coherent start k := by
  induction h with
  | start => exact ⟨⟨rfl, rfl, rfl, rfl⟩, by simp, by simp⟩
  | step _ hs ih => exact ih.step hs

theorem Coherent.deedsOf_eq_nil {start : ChatServer σ} (h : Coherent start k) {i : Nat}
    (hi : k.now.sessions.length ≤ i) : k.deedsOf i = [] := by
  rw [deedsOf, List.map_eq_nil_iff, List.filter_eq_nil_iff]
  intro x hx
  have hlt := h.logged x hx
  simp
  omega

theorem Coherent.streamOf_eq_nil {start : ChatServer σ} (h : Coherent start k) {i : Nat}
    (hi : k.now.sessions.length ≤ i) : k.streamOf i = [] := by
  have hnone : (k.heard.filter fun x => decide (x.1 = i)) = [] := by
    rw [List.filter_eq_nil_iff]
    intro x hx
    have hlt := h.heard x hx
    simp
    omega
  rw [streamOf, hnone]
  rfl

/-- **What a session keeps whatever the others do**: with what it has done and what has arrived for
it, it is where it is from a start, more bytes, and its own steps. -/
theorem Reachable.each_session {start : ChatServer σ}
    {P : ServerSession → List Deed → Bytes → Prop} (hstart : start.sessions = [])
    (haccept : ∀ peer material, P { peer, material } [] [])
    (hheard : ∀ c deeds stream bytes, P c deeds stream → c.wire.finished = false →
      P { c with wire := c.wire.arrive bytes } deeds (stream ++ bytes))
    (hdoes : ∀ v c deeds stream done c', Kin start v → P c deeds stream → Does v c done c' →
      P c' (deeds ++ done) stream)
    (h : Reachable start k) {i : Nat} {c : ServerSession} (hc : k.now.sessions[i]? = some c) :
    P c (k.deedsOf i) (k.streamOf i) := by
  induction h generalizing i c with
  | start => simp [hstart] at hc
  | @step k k' hk hs ih =>
      have hcoherent := hk.coherent
      cases hs with
      | accepted peer material =>
          rw [List.getElem?_append] at hc
          split at hc
          next => exact ih hc
          next hi =>
            -- the new session is the only one behind the old ones
            have hi' := Nat.le_of_not_lt hi
            obtain rfl := List.mem_singleton.1 (List.mem_of_getElem? hc)
            have hdeeds := hcoherent.deedsOf_eq_nil hi'
            have hstream := hcoherent.streamOf_eq_nil hi'
            rw [deedsOf] at hdeeds
            rw [streamOf] at hstream
            rw [deedsOf, streamOf, hdeeds, hstream]
            exact haccept peer material
      | stopped => exact ih hc
      | @heard j d bytes hd hopen =>
          have hj := (List.getElem?_eq_some_iff.1 hd).1
          simp only [ChatServer.setSession, List.getElem?_set, if_pos hj] at hc
          split at hc
          next hij =>
            subst hij
            cases hc
            have hheard' := hheard d _ _ bytes (ih hd) hopen
            simpa [streamOf, deedsOf] using hheard'
          next hij =>
            have hother := ih hc
            simpa [streamOf, deedsOf, hij] using hother
      | @did j d d' done hd hdone =>
          have hj := (List.getElem?_eq_some_iff.1 hd).1
          simp only [write, ChatServer.setSession, ChatServer.after, List.getElem?_set,
            if_pos hj] at hc
          split at hc
          next hij =>
            subst hij
            cases hc
            rw [deedsOf_write_self]
            exact hdoes k.now d _ _ done _ hcoherent.kin (ih hd) hdone
          next hij =>
            rw [deedsOf_write_of_ne (Ne.symm hij)]
            exact ih hc

end Chronicle

end LineChat
