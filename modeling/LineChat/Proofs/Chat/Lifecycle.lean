/-
**The lifecycle of the sessions of a server.**

However the steps of its connections interleave, a server that starts with nobody logged in keeps
to one order of things for each of them, and to one account of what they share.  A connection that
never logs in changes nothing for the others.  One that does is bound, served and released once
each, and a user is logged in on the session that was bound last, as long as that one has not been
released.

Main definitions:

* `LineChat.Deed.IsQuiet` — a deed that changes nothing for others;
* `LineChat.Lifecycle` — **what holds of the sessions of a server**.

Main results:

* `LineChat.Lives.isQuiet` — a session that is never bound does only quiet deeds;
* `LineChat.ChatServer.keeps_lifecycle` — **it holds after every schedule**.
-/

import LineChat.Proofs.Chat.Login
import LineChat.Proofs.Chat.Logins
import LineChat.Proofs.Chat.Progress

set_option autoImplicit false

namespace LineChat

variable {σ : Type}

/-! ### Sessions that are never bound -/

/-- **A deed that changes nothing for others**, neither in the registry nor in the handler's
memory. -/
def Deed.IsQuiet (handler : SessionHandler σ) (d : Deed) : Prop :=
  (∀ r, d.onRegistry r = r) ∧ ∀ memory, d.onMemory handler memory = memory

theorem bound_mem_served (context : SessionContext) (exchanges : List (String × Option String)) :
    .bound context ∈ served context exchanges :=
  bound_mem_served_iff.2 rfl

/-- **A session that is never bound does only quiet deeds.** -/
theorem Lives.isQuiet {peer : Address} {phase : SessionPhase} {deeds : List Deed}
    (h : Lives peer phase deeds) (hnever : ∀ context, .bound context ∉ deeds)
    (handler : SessionHandler σ) : ∀ d ∈ deeds, d.IsQuiet handler := by
  cases h with
  | handshaking => simp
  | refused | expired | dismissed | binding =>
      intro d hd
      rw [List.mem_singleton.1 hd]
      exact ⟨fun _ => rfl, fun _ => rfl⟩
  | greeting context => exact absurd (by simp) (hnever context)
  | serving context _ exchanges =>
      exact absurd (bound_mem_served context exchanges) (hnever context)
  | answering context _ _ exchanges =>
      exact absurd (List.mem_append_left _ (bound_mem_served context exchanges)) (hnever context)
  | replying context _ _ _ exchanges =>
      exact absurd (List.mem_append_left _ (bound_mem_served context exchanges)) (hnever context)
  | releasing context exchanges =>
      exact absurd (List.mem_append_left _ (bound_mem_served context exchanges)) (hnever context)
  | @departing context exchanges leaving =>
      have hmem := List.mem_append_left leaving (bound_mem_served context exchanges)
      exact absurd (List.mem_append_left _ hmem) (hnever context)
  | @ended context exchanges leaving =>
      have hmem := List.mem_append_left leaving (bound_mem_served context exchanges)
      exact absurd (List.mem_append_left _ hmem) (hnever context)

/-! ### What holds of all sessions -/

/-- **What holds of the sessions of a server**, by a chronicle of it. -/
structure Lifecycle (start : ChatServer σ) (k : Chronicle σ) : Prop where
  /-- What the sessions share is what the deeds written down made of it, in the order in which they
  were done; and what is written down was done by one of the sessions. -/
  accounts : Accounts start.handler start.registry start.memory k.log k.now.registry k.now.memory
  logged : ∀ x ∈ k.log, x.1 < k.now.sessions.length
  /-- Every session does one thing after the other: after its handshake it is bound, the handler is
  told, each line is handled and answered before the next one, and however that ends, it is released
  under its own number, and the handler is told. -/
  lives : ∀ (i : Nat) (c : ServerSession), k.now.sessions[i]? = some c →
    Lives c.peer c.phase (k.deedsOf i)
  /-- A session that is never bound changes nothing. -/
  quiet : ∀ (i : Nat) (c : ServerSession), k.now.sessions[i]? = some c →
    (∀ context, .bound context ∉ k.deedsOf i) → ∀ d ∈ k.deedsOf i, d.IsQuiet start.handler
  /-- The lines that a session takes are those that arrived for it, decrypted, none left out, and
  what it writes are the answers. -/
  dialogue : ∀ (i : Nat) (c : ServerSession) (username : String),
    k.now.sessions[i]? = some c → .admitted username ∈ k.deedsOf i →
    Dialogue (start.handshake c.material) username c.wire (k.deedsOf i) (k.streamOf i)
  /-- No user is removed during a login. -/
  bindable : ∀ (i : Nat) (c : ServerSession) (e : Established),
    k.now.sessions[i]? = some c → c.phase = .binding e →
    (k.now.registry.bind e.username c.peer).1.isSome = true
  /-- No number is given to two sessions. -/
  numbered : ∀ i j context context', .bound context ∈ k.deedsOf i → .bound context' ∈ k.deedsOf j →
    context.session = context'.session → i = j
  /-- A user is logged in on the session bound last, unless that one was released. -/
  session?_eq : ∀ user, k.now.registry.session? user = k.loggedIn user
  /-- Once all sessions are over, nobody is logged in. -/
  online_eq_nil : (∀ c ∈ k.now.sessions, c.isOver = true) → k.now.registry.online = []
  /-- A session whose other side has finished, or that has left its channel, is over once it has
  taken so many steps, whatever the others do. -/
  ends : ∀ (i : Nat) (c : ServerSession), k.now.sessions[i]? = some c → c.IsEnding →
    ∀ later : List ChatServer.Action, c.rank ≤ later.countP (·.isRunOf i) →
    ∃ c', (k.run later).now.sessions[i]? = some c' ∧ c'.isOver = true
  /-- A session that waits when the server shuts down can be cut short, and is over soon. -/
  interrupted : ∀ (i : Nat) (c : ServerSession), k.now.sessions[i]? = some c →
    k.now.isStopping = true →
    ((∃ s, c.phase = .handshaking s) ∨ ∃ context channel, c.phase = .serving context channel) →
    (k.now.tryStep (.interrupt i)).EndsWithin i 2

theorem Chronicle.Reachable.lifecycle {start : ChatServer σ} {k : Chronicle σ}
    (h : Reachable start k) (hfresh : Fresh start) : Lifecycle start k where
  accounts := h.accounts
  logged := h.coherent.logged
  lives := fun _ _ hc => (h.lives hfresh.sessions hc).1
  quiet := fun _ _ hc hnever => (h.lives hfresh.sessions hc).1.isQuiet hnever start.handler
  dialogue := fun _ _ _ hc hmem => h.dialogue hfresh.sessions hc hmem
  bindable := fun _ _ _ hc hp => h.isSome_bind hfresh.sessions hc hp
  numbered := fun _ _ _ _ hmem hmem' hid =>
    (h.accounts.eq_of_session_eq (mem_deedsOf_iff.1 hmem) (mem_deedsOf_iff.1 hmem') hid).1
  session?_eq := h.session?_eq hfresh
  online_eq_nil := h.online_eq_nil hfresh
  ends := by
    intro i c hc hending later henough
    have hwithin : k.now.EndsWithin i (later.countP (·.isRunOf i)) := ⟨c, hc, hending, henough⟩
    have hends := hwithin.run later
    rw [Nat.sub_self, ← now_run] at hends
    exact hends.exists_isOver
  interrupted := fun _ _ hc hstopping hwaits => ChatServer.endsWithin_interrupt hstopping hc hwaits

/-- **The lifecycle of sessions**: whatever connections are made, whatever arrives for them, and
however their steps interleave, this is what the sessions of a server have done. -/
theorem ChatServer.keeps_lifecycle {start : ChatServer σ} (hfresh : Chronicle.Fresh start)
    (schedule : List ChatServer.Action) :
    (({ now := start } : Chronicle σ).run schedule).now = schedule.foldl tryStep start ∧
      Lifecycle start (({ now := start } : Chronicle σ).run schedule) :=
  ⟨Chronicle.now_run _ schedule, (Chronicle.Reachable.start.run schedule).lifecycle hfresh⟩

/-- An echo server with one user and a limit for handshakes. -/
def echoServer : ChatServer Unit where
  key := .shorter
  handshakeLimit := some 10
  handler := .echo
  registry := .ofKeys [("ann", PrivateKey.longer.toPublic)]
  memory := ()

/-- The random values of a connection. -/
def drawn (n : UInt8) : HandshakeMaterial where
  challenge := ⟨Vector.replicate 32 n⟩
  session := ⟨Vector.replicate 32 n, Vector.replicate 16 n⟩
  seeds _ := Vector.replicate 32 n

/-- Where a connection comes from. -/
def home : Address := ⟨.v4 (Vector.replicate 4 10), 4000⟩

theorem honest_visitor_echoServer (material : HandshakeMaterial) :
    Honest (Honest.visitor .longer) (echoServer.handshake material) := by
  have hknown : echoServer.registry.lookup "ann" = some PrivateKey.longer.toPublic := rfl
  exact {
    Honest.honest_visitor (by decide +kernel) PrivateKey.opens_longer with
    directory := hknown }

theorem fits_visitor_echoServer (material : HandshakeMaterial) :
    Fits (Honest.visitor .longer) (echoServer.handshake material) := by
  have hfirst : (Text.utf8 "ann").length + 59 + 66 ≤ PrivateKey.shorter.toPublic.size := by
    decide +kernel
  have hsecond : 163 + 66 ≤ PrivateKey.longer.toPublic.size := by decide +kernel
  exact ⟨hfirst, hsecond⟩

/-- Two connections of the user, and a third one on which nothing is said for too long. -/
def threeConnections : List ChatServer.Action :=
  [.accept home (drawn 1), .accept home (drawn 2), .accept home (drawn 3), .run 2, .expire 2]

/-- What they come to. -/
def connected : Chronicle Unit := ({ now := echoServer } : Chronicle Unit).run threeConnections

/-- The user logs in over the first one, and says a line. -/
def firstCall : List ChatServer.Action :=
  let server := echoServer.handshake (drawn 1)
  Chronicle.loggingIn 0 (Honest.visitor .longer).firstMessage (confirmation server) ++
    Chronicle.saying 0 (server.question 1 "hello")

/-- The user logs in over the second one. -/
def secondCall : List ChatServer.Action :=
  Chronicle.loggingIn 1 (Honest.visitor .longer).firstMessage
    (confirmation (echoServer.handshake (drawn 2)))

theorem comes_firstCall : ∃ out, connected.Comes 0 firstCall
    (served ⟨"ann", 0, home⟩ [("hello", some "hello")])
    { peer := home, material := drawn 1
      phase := .serving ⟨"ann", 0, home⟩ ((echoServer.handshake (drawn 1)).channel 1 2)
      wire := { outgoing := out } } := by
  obtain ⟨reply, -, hlogin⟩ := Chronicle.logs_in (k := connected) (i := 0) rfl
    (honest_visitor_echoServer (drawn 1)) (fits_visitor_echoServer _) rfl
  refine ⟨_, hlogin.trans (Chronicle.is_answered hlogin.session (by decide) (by decide) ?_
    (by decide) (by decide) (by decide))⟩
  rw [hlogin.handler_eq]
  rfl

theorem comes_secondCall : ∃ out, (connected.run firstCall).Comes 1 secondCall
    (served ⟨"ann", 1, home⟩ [])
    { peer := home, material := drawn 2
      phase := .serving ⟨"ann", 1, home⟩ ((echoServer.handshake (drawn 2)).channel 0 1)
      wire := { outgoing := out } } := by
  obtain ⟨_, hfirst⟩ := comes_firstCall
  have hissued : (connected.run firstCall).now.registry.issued = 1 := by
    rw [hfirst.registry_eq]
    rfl
  obtain ⟨reply, -, hlogin⟩ := Chronicle.logs_in (hfirst.handshake_eq (drawn 2))
    (honest_visitor_echoServer _) (fits_visitor_echoServer _)
    ((hfirst.session_of_ne Nat.one_ne_zero).trans rfl)
  rw [hissued] at hlogin
  exact ⟨_, hlogin⟩

/-- The whole of it: the first connection is finished when the second login has been made. -/
def threeCalls : List ChatServer.Action :=
  threeConnections ++ (firstCall ++ (secondCall ++ Chronicle.leaving 0))

/-- The second login holds when the first session is released, and nobody hears of the connection
that took too long. -/
theorem keeps_lifecycle_threeCalls :
    Chronicle.Fresh echoServer ∧
      (({ now := echoServer } : Chronicle Unit).run threeCalls).log =
        (2, .expired) ::
          (served ⟨"ann", 0, home⟩ [("hello", some "hello")]).map (0, ·) ++
          (served ⟨"ann", 1, home⟩ []).map (1, ·) ++
          [(0, .closed), (0, .released ⟨"ann", 0, home⟩), (0, .departed ⟨"ann", 0, home⟩)] ∧
      (({ now := echoServer } : Chronicle Unit).run threeCalls).now.registry.session? "ann" =
        some ⟨1, home⟩ ∧
      Lifecycle echoServer (({ now := echoServer } : Chronicle Unit).run threeCalls) := by
  have hfresh : Chronicle.Fresh echoServer := ⟨rfl, by decide +kernel⟩
  obtain ⟨_, hfirst⟩ := comes_firstCall
  obtain ⟨_, hsecond⟩ := comes_secondCall
  have hleft := Chronicle.leaves ((hsecond.session_of_ne Nat.zero_ne_one).trans hfirst.session)
  have hrun : ({ now := echoServer } : Chronicle Unit).run threeCalls =
      ((connected.run firstCall).run secondCall).run (Chronicle.leaving 0) := by
    rw [threeCalls, Chronicle.run_append, Chronicle.run_append, Chronicle.run_append, connected]
  refine ⟨hfresh, ?_, ?_, (ChatServer.keeps_lifecycle hfresh threeCalls).2⟩
  · rw [hrun, hleft.log_eq, hsecond.log_eq, hfirst.log_eq]
    rfl
  · rw [hrun, hleft.registry_eq, hsecond.registry_eq, hfirst.registry_eq]
    rfl

end LineChat
