/-
**A chat server.**

Every connection runs the server's side of the handshake.  If that succeeds, the connection becomes
a session: it is bound to its user in the registry, the handler is told, and then every line goes to
the handler, whose answer is sent before the next line is taken.  When the other side closes, a line
fails, or the server shuts down, the session is released, and the handler is told again.  A
handshake that fails, takes too long or is cut short leaves no trace.

Sessions run side by side.  Each of them takes its next step whenever it likes, so the steps of
different sessions may interleave in any way; what they share is the registry and the handler's
memory.

Main definitions:

* `LineChat.ServerSession` — a connection, and what is to be done about it;
* `LineChat.ChatServer` — **a server with its sessions**;
* `LineChat.ChatServer.Action`, `LineChat.ChatServer.step?` — **the steps that may interleave**;
* `LineChat.ChatServer.settle` — one session running until it has to wait.
-/

import LineChat.Chat.Handler
import LineChat.Handshake.Party
import LineChat.Host.Random
import LineChat.Registry

set_option autoImplicit false

namespace LineChat

/-! ### Sessions -/

/-- **What is to be done next about a connection.** -/
inductive SessionPhase where
  /-- Carry on with the handshake. -/
  | handshaking (s : ServerHandshake.State)
  /-- Bind the session to its user. -/
  | binding (e : Established)
  /-- Tell the handler that the session begins. -/
  | greeting (context : SessionContext) (channel : SecureLink)
  /-- Take the next line. -/
  | serving (context : SessionContext) (channel : SecureLink)
  /-- Have the handler answer a line. -/
  | answering (context : SessionContext) (channel : SecureLink) (line : String)
  /-- Send the handler's answer. -/
  | replying (context : SessionContext) (channel : SecureLink) (answer : String)
  /-- Release the session. -/
  | releasing (context : SessionContext) (result : Except ChannelError Unit)
  /-- Tell the handler that the session ends. -/
  | departing (context : SessionContext) (result : Except ChannelError Unit)
  /-- Nothing any more. -/
  | ended (result : Except ChannelError Unit)

/-- **The random values of one handshake.** -/
structure HandshakeMaterial where
  challenge : Challenge
  session : SessionKey
  seeds : Nat → Oaep.Seed

/-- Draws the random values of one handshake. -/
def HandshakeMaterial.draw {m : Type → Type} [Monad m] [RandomSource m] : m HandshakeMaterial := do
  return { challenge := ⟨← RandomSource.draw 32⟩
           session := ⟨← RandomSource.draw 32, ← RandomSource.draw 16⟩
           seeds := seedsFrom (← RandomSource.draw 32).toList }

/-- **A connection**, where it comes from, and what is to be done about it. -/
structure ServerSession where
  peer : Address
  material : HandshakeMaterial
  phase : SessionPhase := .handshaking (.start { format := {} })
  wire : Connection := {}

/-- Whether nothing is to be done about a connection any more. -/
def ServerSession.isOver (c : ServerSession) : Bool :=
  match c.phase with
  | .ended _ => true
  | _ => false

/-- Whether a connection is in the middle of its handshake. -/
def ServerSession.isHandshaking (c : ServerSession) : Bool :=
  match c.phase with
  | .handshaking _ => true
  | _ => false

/-! ### Servers -/

/-- **A server with its sessions**, which are told apart by their places. -/
structure ChatServer (σ : Type) where
  key : PrivateKey
  options : SessionOptions := {}
  /-- The seconds that a client has for the handshake, if they are limited. -/
  handshakeLimit : Option Nat := none
  handler : SessionHandler σ
  registry : Registry
  memory : σ
  sessions : List ServerSession := []
  /-- Whether it is shutting down, and takes no more connections. -/
  isStopping : Bool := false

namespace ChatServer

variable {σ : Type}

/-- The handshake with one client; whose key is whose is looked up when it is needed. -/
def handshake (v : ChatServer σ) (material : HandshakeMaterial) : ServerHandshake :=
  { key := v.key, directory := v.registry.lookup, options := v.options,
    challenge := material.challenge, session := material.session, seeds := material.seeds }

/-- The failure of a client that took too long. -/
def tooSlow : ChannelError := .handshake ⟨"client did not complete the handshake in time", none⟩

/-- The failure of a client whose user is not registered any more. -/
def removed (username : String) : ChannelError :=
  .handshake ⟨s!"user {Text.quote username} was removed during login", none⟩

/-- What a stage of the handshake leads to. -/
def afterStage (s : ServerHandshake.State) : SessionPhase :=
  match s with
  | .established e => .binding e
  | .rejected r => .ended (.error (.handshake r.failure))
  | other => .handshaking other

/-- **The next step of a session.**  While it waits for a line, it only keeps what has arrived. -/
def run (v : ChatServer σ) (c : ServerSession) : Option (ServerSession × ChatServer σ) :=
  match c.phase with
  | .handshaking s =>
      let (s, wire) := (v.handshake c.material).step s c.wire
      some ({ c with phase := afterStage s, wire }, v)
  | .binding e =>
      match v.registry.bind e.username c.peer with
      | (some session, registry) =>
          let context : SessionContext := ⟨e.username, session, c.peer⟩
          some ({ c with phase := .greeting context e.channel }, { v with registry })
      | (none, _) => some ({ c with phase := .ended (.error (removed e.username)) }, v)
  | .greeting context channel =>
      some ({ c with phase := .serving context channel },
        { v with memory := v.handler.onConnect context v.memory })
  | .serving context channel =>
      let (polled, channel, wire) := channel.poll c.wire
      let phase := match polled with
        | .line line => .answering context channel line
        | .failed e => .releasing context (.error (.line e))
        | .ended => .releasing context (.ok ())
        | .waiting => .serving context channel
      some ({ c with phase, wire }, v)
  | .answering context channel line =>
      let (answer, memory) := v.handler.handle context line v.memory
      let phase := match answer with
        | none => .serving context channel
        | some answer => .replying context channel answer
      some ({ c with phase }, { v with memory })
  | .replying context channel answer =>
      match channel.send answer c.wire with
      | (.ok (), channel, wire) => some ({ c with phase := .serving context channel, wire }, v)
      | (.error e, _, wire) =>
          some ({ c with phase := .releasing context (.error (.line e)), wire }, v)
  | .releasing context result =>
      let (_, registry) := v.registry.release context.username context.session
      some ({ c with phase := .departing context result }, { v with registry })
  | .departing context result =>
      some ({ c with phase := .ended result },
        { v with memory := v.handler.onDisconnect context v.memory })
  | .ended _ => none

/-- **What a session does when it notices that the server shuts down**: nothing, unless it is
waiting for something. -/
def interrupt (c : ServerSession) : Option ServerSession :=
  match c.phase with
  | .handshaking _ => some { c with phase := .ended (.ok ()) }
  | .serving context _ => some { c with phase := .releasing context (.ok ()) }
  | _ => none

/-- A session in the middle of its handshake is given up for taking too long. -/
def expire (c : ServerSession) : Option ServerSession :=
  match c.phase with
  | .handshaking _ => some { c with phase := .ended (.error tooSlow) }
  | _ => none

/-! ### Steps -/

/-- **The steps that may interleave.** -/
inductive Action where
  /-- A connection is made. -/
  | accept (peer : Address) (material : HandshakeMaterial)
  /-- Bytes arrive on a connection, which they cannot behind the end of what the other side
  sends. -/
  | arrive (i : Nat) (bytes : Bytes)
  /-- The other side of a connection sends nothing more. -/
  | finish (i : Nat)
  /-- The other side of a connection closes it.  A connection that breaks counts as closed too, so
  what arrived before is still taken for lines. -/
  | hangUp (i : Nat)
  /-- A session takes its next step. -/
  | run (i : Nat)
  /-- The time for a handshake is over. -/
  | expire (i : Nat)
  /-- The server is told to shut down. -/
  | stop
  /-- A session notices that the server shuts down. -/
  | interrupt (i : Nat)

/-- A session replaced by its next state. -/
def setSession (v : ChatServer σ) (i : Nat) (c : ServerSession) : ChatServer σ :=
  { v with sessions := v.sessions.set i c }

/-- **One step**, if it can be taken. -/
def step? (v : ChatServer σ) : Action → Option (ChatServer σ)
  | .accept peer material =>
      if v.isStopping then none
      else some { v with sessions := v.sessions ++ [{ peer, material }] }
  | .arrive i bytes => do
      let c ← v.sessions[i]?
      if c.wire.finished then none
      else return v.setSession i { c with wire := c.wire.arrive bytes }
  | .finish i => do
      let c ← v.sessions[i]?
      return v.setSession i { c with wire := c.wire.finish }
  | .hangUp i => do
      let c ← v.sessions[i]?
      return v.setSession i { c with wire := c.wire.hangUp }
  | .run i => do
      let (c, v) ← v.run (← v.sessions[i]?)
      return v.setSession i c
  | .expire i =>
      if v.handshakeLimit.isSome then do
        let c ← v.sessions[i]?
        return v.setSession i (← expire c)
      else none
  | .stop => some { v with isStopping := true }
  | .interrupt i =>
      if v.isStopping then do
        let c ← v.sessions[i]?
        return v.setSession i (← interrupt c)
      else none

/-- A step taken if it can be. -/
def tryStep (v : ChatServer σ) (a : Action) : ChatServer σ := (v.step? a).getD v

/-- Whether everything is over. -/
def isStopped (v : ChatServer σ) : Bool := v.isStopping && v.sessions.all (·.isOver)

/-! ### Running until nothing is left to do -/

/-- The number of steps after which a session has nothing left to do: three for every line, of which
every byte may be one, and those of the handshake, the beginning and the end. -/
def stepsLeft (v : ChatServer σ) (i : Nat) : Nat :=
  match v.sessions[i]? with
  | none => 0
  | some c =>
      let buffered := match c.phase with
        | .serving _ channel | .greeting _ channel => channel.buffer.length
        | .answering _ channel _ | .replying _ channel _ => channel.buffer.length
        | .binding e => e.channel.buffer.length
        | .handshaking (.awaitingAuth channel) => channel.buffer.length
        | .handshaking (.awaitingEcho channel _) => channel.buffer.length
        | _ => 0
      3 * (buffered + c.wire.incoming.length) + 12

/-- **One session running until it has to wait.** -/
def settle (v : ChatServer σ) (i : Nat) : ChatServer σ :=
  Nat.fold (v.stepsLeft i) (fun _ _ v => v.tryStep (.run i)) v

/-- Takes what a session has written. -/
def takeOutgoing (v : ChatServer σ) (i : Nat) : Bytes × ChatServer σ :=
  match v.sessions[i]? with
  | none => ([], v)
  | some c => (c.wire.outgoing, v.setSession i { c with wire := { c.wire with outgoing := [] } })

/-- The server shut down, with every session run to its end. -/
def shutDown (v : ChatServer σ) : ChatServer σ :=
  (List.range v.sessions.length).foldl
    (fun v i => ((v.settle i).tryStep (.interrupt i)).settle i) (v.tryStep .stop)

end ChatServer

end LineChat
