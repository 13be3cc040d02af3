/-
**One side of a handshake, with its connection.**

A party is a server or a client that runs its handshake over a connection.  It goes on whenever
something arrives, until its handshake has an outcome; after that, its owner reads and writes lines
on the channel that the handshake led to, the encrypted one or, after a rejection, the plain one.

Main definitions:

* `LineChat.Party` — a side with its connection;
* `LineChat.Party.advance` — **as far as it can come with what has arrived**;
* `LineChat.Party.outcome?` — how the handshake ended, if it has;
* `LineChat.Party.receive`, `LineChat.Party.hangUp` — what the other side can do to it;
* `LineChat.Party.next`, `LineChat.Party.send` — lines on the channel it was led to.
-/

import LineChat.Handshake.Client
import LineChat.Handshake.Server

set_option autoImplicit false

namespace LineChat

/-- **A handshake and how far it has come.** -/
inductive Side where
  | server (h : ServerHandshake) (s : ServerHandshake.State)
  | client (h : ClientHandshake) (s : ClientHandshake.State)

/-- The outcome of a server's handshake, once it has one. -/
def ServerHandshake.State.outcome? : ServerHandshake.State → Option (Except Rejected Established)
  | established e => some (.ok e)
  | rejected r => some (.error r)
  | _ => none

/-- The outcome of a client's handshake, once it has one. -/
def ClientHandshake.State.outcome? : ClientHandshake.State → Option (Except Rejected Established)
  | established e => some (.ok e)
  | rejected r => some (.error r)
  | _ => none

namespace Side

/-- How far the handshake has come. -/
def phase : Side → HandshakePhase
  | server _ s => s.phase
  | client _ s => s.phase

/-- The handshake in a phase, as diagnostics show it. -/
def debug (phase : HandshakePhase) : Side → String
  | server h _ => h.debug phase
  | client h _ => h.debug phase

/-- How the handshake ended, if it has. -/
def outcome? : Side → Option (Except Rejected Established)
  | server _ s => s.outcome?
  | client _ s => s.outcome?

/-- The same side with another channel to use. -/
def setEstablished (e : Established) : Side → Side
  | server h _ => server h (.established e)
  | client h _ => client h (.established e)

/-- The same side with another plain channel to use. -/
def setRejected (r : Rejected) : Side → Side
  | server h _ => server h (.rejected r)
  | client h _ => client h (.rejected r)

end Side

/-- **One side of a handshake, with its connection.** -/
structure Party where
  side : Side
  wire : Connection := {}
  /-- Whether it has dropped its end of the connection. -/
  gone : Bool := false

namespace Party

/-- A server that has not begun. -/
def server (h : ServerHandshake) : Party := { side := .server h (.start { format := {} }) }

/-- A client that has not begun. -/
def client (h : ClientHandshake) : Party := { side := .client h (.start { format := {} }) }

/-- How the handshake ended, if it has. -/
def outcome? (p : Party) : Option (Except Rejected Established) := p.side.outcome?

/-- **As far as it can come with what has arrived.** -/
def advance (p : Party) : Party :=
  if p.gone then p else
  match p.side with
  | .server h s => let (s, wire) := h.advance s p.wire; { p with side := .server h s, wire }
  | .client h s => let (s, wire) := h.advance s p.wire; { p with side := .client h s, wire }

/-- **Bytes that the other side writes**, which fails once the party is gone. -/
def receive (p : Party) (bytes : Bytes) : Except LineError Party :=
  if p.gone then .error (.ofIo ⟨.brokenPipe, "broken pipe"⟩)
  else .ok { p with wire := p.wire.arrive bytes }.advance

/-- The other side closes the connection. -/
def hangUp (p : Party) : Party := { p with wire := p.wire.hangUp }.advance

/-- What the other side of the connection sees of it. -/
def opposite (p : Party) : Connection := { incoming := p.wire.outgoing, finished := p.gone }

/-- What is left of the party's output when the other side has read some of it. -/
def leave (p : Party) (c : Connection) : Party :=
  { p with wire := { p.wire with outgoing := c.incoming } }

/-- The party drops its end; the failure of a rejected handshake comes with it. -/
def drop (p : Party) : Option HandshakeFailure × Party :=
  let failure := match p.gone, p.outcome? with
    | false, some (.error r) => some r.failure
    | _, _ => none
  (failure, { p with gone := true })

/-- **The next line on the channel that the handshake led to**, if it has ended. -/
def next (p : Party) : Option (Polled × Party) :=
  p.outcome?.map fun
    | .ok e =>
        let (polled, channel, wire) := e.channel.poll p.wire
        (polled, { p with side := p.side.setEstablished { e with channel }, wire })
    | .error r =>
        let (polled, channel, wire) := r.channel.poll p.wire
        (polled, { p with side := p.side.setRejected { r with channel }, wire })

/-- **Writes a line to the channel that the handshake led to**, if it has ended. -/
def send (p : Party) (line : String) : Option (Except LineError Unit × Party) :=
  p.outcome?.map fun
    | .ok e =>
        let (sent, channel, wire) := e.channel.send line p.wire
        (sent, { p with side := p.side.setEstablished { e with channel }, wire })
    | .error r =>
        let (sent, channel, wire) := r.channel.send line p.wire
        (sent, { p with side := p.side.setRejected { r with channel }, wire })

end Party

end LineChat
