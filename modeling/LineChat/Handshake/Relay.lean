/-
**Two parties with somebody in between.**

A client and a server each have a connection, and what one of them writes reaches the other only
through a relay, which takes it line by line.  The relay may pass a line on, pass on another one
instead, or drop both connections; it may also write what it likes to either of them.

Main definitions:

* `LineChat.Relay` — the two parties, and the lines not yet taken from them;
* `LineChat.Relay.take`, `LineChat.Relay.give`, `LineChat.Relay.cut` — what the relay can do;
* `LineChat.Relay.pass` — **one line passed on**;
* `LineChat.Relay.shake` — **the three messages of a handshake**;
* `LineChat.Relay.forward` — everything that one party has written.
-/

import LineChat.Handshake.Party

set_option autoImplicit false

namespace LineChat

/-- **Two parties with somebody in between.** -/
structure Relay where
  client : Party
  server : Party
  fromClient : PlainLink := { format := {} }
  fromServer : PlainLink := { format := {} }

/-- What becomes of a line: it is replaced, perhaps by itself, or both connections are dropped. -/
abbrev Tampering := String → Option String

namespace Relay

/-- One of the two parties. -/
def party (r : Relay) (client : Bool) : Party := if client then r.client else r.server

/-- One of the two parties replaced by its next state. -/
def setParty (r : Relay) (client : Bool) (p : Party) : Relay :=
  if client then { r with client := p } else { r with server := p }

/-- Takes the next line that one party has written. -/
def take (r : Relay) (client : Bool) : Option String × Relay :=
  let p := r.party client
  let (found, link, rest) := (if client then r.fromClient else r.fromServer).poll p.opposite
  let r := r.setParty client (p.leave rest)
  let r := if client then { r with fromClient := link } else { r with fromServer := link }
  match found with
  | .line line => (some line, r)
  | _ => (none, r)

/-- Writes bytes to one party; they are lost if it is gone. -/
def give (r : Relay) (client : Bool) (bytes : Bytes) : Relay :=
  match (r.party client).receive bytes with
  | .ok p => r.setParty client p
  | .error _ => r

/-- Drops both connections. -/
def cut (r : Relay) : Relay := { r with client := r.client.hangUp, server := r.server.hangUp }

/-- **Passes on the next line of one party**, if there is one; whether it was comes with it. -/
def pass (r : Relay) (client : Bool) (tampering : Tampering) : Option Bool × Relay :=
  match r.take client with
  | (none, r) => (none, r)
  | (some line, r) =>
      match tampering line with
      | none => (some false, r.cut)
      | some line => (some true, r.give (!client) (frameLine line))

/-- Whether the client writes a message of the handshake, counted from zero. -/
def fromClientSide (index : Nat) : Bool := index != 1

/-- The messages with the given numbers, up to the first that is not passed on. -/
def shakeFrom (tampering : Nat → Tampering) : List Nat → Relay → List Bool × Relay
  | [], r => ([], r)
  | index :: rest, r =>
      match r.pass (fromClientSide index) (tampering index) with
      | (some true, r) => (shakeFrom tampering rest r).map (true :: ·) id
      | (some false, r) => ([false], r)
      | (none, r) => ([false], r.cut)

/-- **The three messages of a handshake**, each of them with its own tampering; which of them were
passed on comes with it.  If a message is not there, both connections are dropped. -/
def shake (r : Relay) (tampering : Nat → Tampering) : List Bool × Relay :=
  shakeFrom tampering [0, 1, 2] r

/-- Passes on up to `fuel` lines of one party. -/
def forwardUpTo (client : Bool) (tampering : Tampering) : Nat → Relay → Nat × Relay
  | 0, r => (0, r)
  | fuel + 1, r =>
      match r.pass client tampering with
      | (some true, r) => (forwardUpTo client tampering fuel r).map (· + 1) id
      | (_, r) => (0, r)

/-- **Passes on everything that one party has written**; the number of lines comes with it.  What it
has written holds no more lines than bytes, nor does what was taken of it. -/
def forward (r : Relay) (client : Bool) (tampering : Tampering) : Nat × Relay :=
  let link := if client then r.fromClient else r.fromServer
  forwardUpTo client tampering
    (link.buffer.length + (r.party client).wire.outgoing.length + 1) r

end Relay

end LineChat
