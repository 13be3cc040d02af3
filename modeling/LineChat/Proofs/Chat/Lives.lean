/-
**The life of a session.**

A session whose handshake fails, takes too long or is cut short does nothing else.  Every other one
is bound to its user, then the handler is told that it begins, then it takes one line after the
other, and the handler's answer to a line is sent before the next one is taken.  However that comes
to an end, the session is released, and the handler is told that it ends.

The phase of a session says how far it has come, so its deeds can be read off the phase, up to what
was said in between.

Main definitions:

* `LineChat.lineDeeds`, `LineChat.served` — what a session does about its lines;
* `LineChat.Leaves` — **how serving comes to an end**;
* `LineChat.Lives` — **the deeds of a session**, phase by phase.

Main results:

* `LineChat.Lives.does` — every step of a session goes on with its life;
* `LineChat.Chronicle.Reachable.lives` — **every session lives so**, and its user is registered when
  it is bound.
-/

import LineChat.Proofs.Chat.Chronicle
import LineChat.Proofs.Result

set_option autoImplicit false

namespace LineChat

/-! ### The deeds of a session -/

/-- What a session does about one line: it takes it, the handler is given it, and the answer is
sent, if there is one. -/
def lineDeeds (context : SessionContext) (e : String × Option String) : List Deed :=
  [.took (.ok e.1), .handled context e.1 e.2] ++ e.2.toList.map .sent

/-- What a session has done when it takes its next line. -/
def served (context : SessionContext) (exchanges : List (String × Option String)) : List Deed :=
  [.admitted context.username, .bound context, .greeted context] ++
    exchanges.flatMap (lineDeeds context)

theorem served_snoc (context : SessionContext) (exchanges : List (String × Option String))
    (e : String × Option String) :
    served context (exchanges ++ [e]) = served context exchanges ++ lineDeeds context e := by
  simp [served]

/-- **How serving comes to an end**, and what the session comes to then. -/
inductive Leaves (context : SessionContext) : List Deed → Except ChannelError Unit → Prop
  /-- The other side has finished. -/
  | closed : Leaves context [.closed] (.ok ())
  /-- The server shuts down. -/
  | interrupted : Leaves context [.interrupted] (.ok ())
  /-- A line cannot be read. -/
  | unreadable (e : LineError) : Leaves context [.took (.error e)] (.error (.line e))
  /-- The answer to a line cannot be sent. -/
  | unsent (line answer : String) (e : LineError) :
      Leaves context
        [.took (.ok line), .handled context line (some answer), .unsent answer e]
        (.error (.line e))

/-- **The deeds of a session**, phase by phase. -/
inductive Lives (peer : Address) : SessionPhase → List Deed → Prop
  | handshaking (s : ServerHandshake.State) : Lives peer (.handshaking s) []
  | refused (failure : HandshakeFailure) :
      Lives peer (.ended (.error (.handshake failure))) [.refused failure]
  | expired : Lives peer (.ended (.error ChatServer.tooSlow)) [.expired]
  | dismissed : Lives peer (.ended (.ok ())) [.interrupted]
  | binding (e : Established) : Lives peer (.binding e) [.admitted e.username]
  | greeting (context : SessionContext) (channel : SecureLink) (hpeer : context.peer = peer) :
      Lives peer (.greeting context channel) [.admitted context.username, .bound context]
  | serving (context : SessionContext) (channel : SecureLink)
      (exchanges : List (String × Option String)) (hpeer : context.peer = peer) :
      Lives peer (.serving context channel) (served context exchanges)
  | answering (context : SessionContext) (channel : SecureLink) (line : String)
      (exchanges : List (String × Option String)) (hpeer : context.peer = peer) :
      Lives peer (.answering context channel line)
        (served context exchanges ++ [.took (.ok line)])
  | replying (context : SessionContext) (channel : SecureLink) (line answer : String)
      (exchanges : List (String × Option String)) (hpeer : context.peer = peer) :
      Lives peer (.replying context channel answer)
        (served context exchanges ++ [.took (.ok line), .handled context line (some answer)])
  | releasing (context : SessionContext) (exchanges : List (String × Option String))
      {leaving : List Deed} {result : Except ChannelError Unit} (hpeer : context.peer = peer)
      (hleaves : Leaves context leaving result) :
      Lives peer (.releasing context result) (served context exchanges ++ leaving)
  | departing (context : SessionContext) (exchanges : List (String × Option String))
      {leaving : List Deed} {result : Except ChannelError Unit} (hpeer : context.peer = peer)
      (hleaves : Leaves context leaving result) :
      Lives peer (.departing context result)
        (served context exchanges ++ leaving ++ [.released context])
  | ended (context : SessionContext) (exchanges : List (String × Option String))
      {leaving : List Deed} {result : Except ChannelError Unit} (hpeer : context.peer = peer)
      (hleaves : Leaves context leaving result) :
      Lives peer (.ended result)
        (served context exchanges ++ leaving ++ [.released context, .departed context])

/-! ### Users that are registered -/

/-- A user that is registered, if there is one. -/
def IsVouched (directory : String → Option PublicKey) (user : Option String) : Prop :=
  ∀ username, user = some username → (directory username).isSome = true

theorem isVouched_none (directory : String → Option PublicKey) : IsVouched directory none := nofun

theorem isVouched_some {directory : String → Option PublicKey} {username : String}
    (h : (directory username).isSome = true) : IsVouched directory (some username) := by
  rintro _ ⟨⟩
  exact h

namespace ServerHandshake

/-- Whom the handshake is with, once the first message was answered. -/
def State.user? : State → Option String
  | awaitingEcho _ username => some username
  | established e => some e.username
  | _ => none

theorem isVouched_answer (h : ServerHandshake) (channel : EnvelopeLink) (auth : Authenticate)
    (key : PublicKey) (c : Connection) (hkey : h.directory auth.username = some key) :
    IsVouched h.directory (h.answer channel auth key c).1.user? := by
  rw [answer]
  split
  · exact isVouched_none _
  · exact isVouched_some (Option.isSome_iff_exists.2 ⟨key, hkey⟩)

theorem isVouched_judge (h : ServerHandshake) (channel : SecureLink) {username : String}
    (line : String) (hknown : IsVouched h.directory (some username)) :
    IsVouched h.directory (h.judge channel username line).user? := by
  rw [judge]
  split
  · exact isVouched_none _
  · split
    · exact isVouched_none _
    · exact hknown

theorem directory_of_identify {h : ServerHandshake} {line : String} {auth : Authenticate}
    {key : PublicKey} (hidentify : h.identify line = .ok (auth, key)) :
    h.directory auth.username = some key := by
  obtain ⟨auth', -, hkey⟩ := bind_eq_ok_iff.1 hidentify
  cases hdir : h.directory auth'.username with
  | none =>
      rw [hdir] at hkey
      cases hkey
  | some key' =>
      rw [hdir] at hkey
      cases hkey
      exact hdir

/-- A stage asks for a key before it answers, and goes on with the same user. -/
theorem isVouched_step (h : ServerHandshake) {s : State} (c : Connection)
    (hs : IsVouched h.directory s.user?) : IsVouched h.directory (h.step s c).1.user? := by
  cases s with
  | start raw => exact isVouched_none _
  | awaitingAuth channel =>
      rcases hpoll : channel.poll c with ⟨polled, channel', c'⟩
      rcases hawaited : awaited "message 1" polled with _ | f | line
      · simp only [step, hpoll, hawaited]
        exact isVouched_none _
      · simp only [step, hpoll, hawaited]
        exact isVouched_none _
      · rcases hidentify : h.identify line with f | ⟨auth, key⟩
        · simp only [step, hpoll, hawaited, hidentify]
          exact isVouched_none _
        · simp only [step, hpoll, hawaited, hidentify]
          exact h.isVouched_answer channel' auth key c' (directory_of_identify hidentify)
  | awaitingEcho channel username =>
      rcases hpoll : channel.poll c with ⟨polled, channel', c'⟩
      rcases hawaited : awaited "message 3" polled with _ | f | line
      · simp only [step, hpoll, hawaited]
        exact hs
      · simp only [step, hpoll, hawaited]
        exact isVouched_none _
      · simp only [step, hpoll, hawaited]
        exact h.isVouched_judge channel' line hs
  | established e => exact hs
  | rejected r => exact hs

end ServerHandshake

/-- Whom a session is with, as long as it is not bound. -/
def SessionPhase.user? : SessionPhase → Option String
  | handshaking s => s.user?
  | binding e => some e.username
  | _ => none

/-! ### Every session lives so -/

open ChatServer (Does)

variable {σ : Type} {v : ChatServer σ} {c c' : ServerSession} {deeds done : List Deed}

theorem IsVouched.does (h : IsVouched v.registry.lookup c.phase.user?) (hdoes : Does v c done c') :
    IsVouched v.registry.lookup c'.phase.user? := by
  cases hdoes with
  | finished | hungUp => exact h
  | @shook s s' wire hp hs ho =>
      rw [hp] at h
      have hstep := (v.handshake c.material).isVouched_step c.wire h
      rw [hs] at hstep
      exact hstep
  | @admitted s e wire hp hs =>
      rw [hp] at h
      have hstep := (v.handshake c.material).isVouched_step c.wire h
      rw [hs] at hstep
      exact hstep
  | _ => exact isVouched_none _

/-- **Every step of a session goes on with its life**, if its user is registered when it is
bound. -/
theorem Lives.does (h : Lives c.peer c.phase deeds)
    (hvouched : IsVouched v.registry.lookup c.phase.user?) (hdoes : Does v c done c') :
    Lives c'.peer c'.phase (deeds ++ done) := by
  obtain ⟨peer, material, phase, wire⟩ := c
  cases hdoes with
  | finished | hungUp => simpa using h
  | shook hp hs ho =>
      obtain rfl : phase = _ := hp
      cases h
      exact .handshaking _
  | admitted hp hs =>
      obtain rfl : phase = _ := hp
      cases h
      exact .binding _
  | refused hp hs =>
      obtain rfl : phase = _ := hp
      cases h
      exact .refused _
  | expired hp =>
      obtain rfl : phase = _ := hp
      cases h
      exact .expired
  | dismissed hp =>
      obtain rfl : phase = _ := hp
      cases h
      exact .dismissed
  | bound hp hb =>
      obtain rfl : phase = _ := hp
      cases h
      exact .greeting _ _ rfl
  | vanished hp hb =>
      -- the user is registered, so binding gives a number
      obtain rfl : phase = _ := hp
      have hsome := Registry.isSome_bind_of_lookup (hvouched _ rfl) peer
      rw [hb] at hsome
      cases hsome
  | greeted hp =>
      obtain rfl : phase = _ := hp
      cases h with
      | greeting _ _ hpeer => exact .serving _ _ [] hpeer
  | waited hp hpoll =>
      obtain rfl : phase = _ := hp
      cases h with
      | serving _ _ exchanges hpeer =>
          rw [List.append_nil]
          exact .serving _ _ exchanges hpeer
  | took hp hpoll =>
      obtain rfl : phase = _ := hp
      cases h with
      | serving _ _ exchanges hpeer => exact .answering _ _ _ exchanges hpeer
  | failed hp hpoll =>
      obtain rfl : phase = _ := hp
      cases h with
      | serving _ _ exchanges hpeer => exact .releasing _ exchanges hpeer (.unreadable _)
  | closed hp hpoll =>
      obtain rfl : phase = _ := hp
      cases h with
      | serving _ _ exchanges hpeer => exact .releasing _ exchanges hpeer .closed
  | interrupted hp =>
      obtain rfl : phase = _ := hp
      cases h with
      | serving _ _ exchanges hpeer => exact .releasing _ exchanges hpeer .interrupted
  | @ignored context channel line hp ha =>
      obtain rfl : phase = _ := hp
      cases h with
      | answering _ _ _ exchanges hpeer =>
          have hserving := @Lives.serving peer context channel (exchanges ++ [(line, none)]) hpeer
          rw [served_snoc] at hserving
          simpa [lineDeeds] using hserving
  | answered hp ha =>
      obtain rfl : phase = _ := hp
      cases h with
      | answering _ _ _ exchanges hpeer =>
          rw [List.append_assoc]
          exact .replying _ _ _ _ exchanges hpeer
  | @sent context channel channel' answer wire' hp hsend =>
      obtain rfl : phase = _ := hp
      cases h with
      | replying _ _ line _ exchanges hpeer =>
          have hserving :=
            @Lives.serving peer context channel' (exchanges ++ [(line, some answer)]) hpeer
          rw [served_snoc] at hserving
          simpa [lineDeeds] using hserving
  | unsent hp hsend =>
      obtain rfl : phase = _ := hp
      cases h with
      | replying _ _ line _ exchanges hpeer =>
          rw [List.append_assoc]
          exact .releasing _ exchanges hpeer (.unsent line _ _)
  | released hp =>
      obtain rfl : phase = _ := hp
      cases h with
      | releasing _ exchanges hpeer hleaves => exact .departing _ exchanges hpeer hleaves
  | departed hp =>
      obtain rfl : phase = _ := hp
      cases h with
      | departing _ exchanges hpeer hleaves =>
          rw [List.append_assoc]
          exact .ended _ exchanges hpeer hleaves

namespace Chronicle

variable {start : ChatServer σ} {k : Chronicle σ} {i : Nat}

/-- **Every session lives so**, whatever the others do. -/
theorem Reachable.lives (h : Reachable start k) (hstart : start.sessions = [])
    (hc : k.now.sessions[i]? = some c) :
    Lives c.peer c.phase (k.deedsOf i) ∧ IsVouched k.now.registry.lookup c.phase.user? := by
  rw [h.coherent.kin.lookup]
  refine @Reachable.each_session σ k start
    (fun c deeds _ =>
      Lives c.peer c.phase deeds ∧ IsVouched start.registry.lookup c.phase.user?)
    hstart ?_ ?_ ?_ h i c hc
  · exact fun peer material => ⟨.handshaking _, isVouched_none _⟩
  · exact fun c deeds stream bytes hlives _ => hlives
  · intro v c deeds stream done c' hkin ⟨hlives, hvouched⟩ hdoes
    rw [← hkin.lookup] at hvouched ⊢
    exact ⟨hlives.does hvouched hdoes, IsVouched.does hvouched hdoes⟩

/-- **No user is removed during a login.** -/
theorem Reachable.isSome_bind (h : Reachable start k) (hstart : start.sessions = [])
    (hc : k.now.sessions[i]? = some c) {e : Established} (hp : c.phase = .binding e) :
    (k.now.registry.bind e.username c.peer).1.isSome = true := by
  have hvouched := (h.lives hstart hc).2
  rw [hp] at hvouched
  exact Registry.isSome_bind_of_lookup (hvouched e.username rfl) c.peer

end Chronicle

end LineChat
