/-
**The client's side of the handshake.**

The client names itself and sends a challenge in an envelope for the server's key, and waits for an
envelope that echoes the challenge.  Only the holder of the server's key could read it.  It then
takes over the session key and sends the server's challenge back as the first line encrypted under
it.

Main definitions:

* `LineChat.ClientHandshake` — the client's name and keys, its options and its random values;
* `LineChat.ClientHandshake.State` — what it is waiting for;
* `LineChat.ClientHandshake.step` — **one stage**;
* `LineChat.ClientHandshake.advance` — as far as it can come with what has arrived.
-/

import LineChat.Handshake.Message
import LineChat.Handshake.Session

set_option autoImplicit false

namespace LineChat

/-- **What the client brings to a handshake.** -/
structure ClientHandshake where
  username : String
  key : PrivateKey
  serverKey : PublicKey
  options : SessionOptions
  challenge : Challenge
  seeds : Nat → Oaep.Seed

namespace ClientHandshake

/-- **Refuses a name that cannot stand in the first message.** -/
def check (h : ClientHandshake) : Except LineError ClientHandshake := do
  checkUsername h.username
  return h

/-- **What the client is waiting for.** -/
inductive State where
  /-- It has not begun. -/
  | start (raw : PlainLink)
  /-- It wrote the first message. -/
  | sentAuth (channel : EnvelopeLink)
  /-- It waits for the second message. -/
  | awaitingOk (channel : EnvelopeLink)
  /-- It wrote the third message. -/
  | established (result : Established)
  /-- The handshake failed. -/
  | rejected (result : Rejected)

/-- How far the handshake has come. -/
def State.phase : State → HandshakePhase
  | start _ => .start
  | sentAuth _ => .sentClientAuth
  | awaitingOk _ => .awaitingServerOk
  | established _ => .established
  | rejected _ => .failed

/-- The handshake as diagnostics show it. -/
def debug (h : ClientHandshake) (phase : HandshakePhase) : String :=
  Text.openRecord "ClientHandshake"
    [("username", Text.quote h.username), ("phase", phase.name), ("options", h.options.debug)]

/-- A handshake that failed. -/
def reject {σ : Type} (channel : Link (LineCodec σ)) (e : ChannelError) : State :=
  .rejected (channel.reject "client handshake aborted" e)

/-- The first message. -/
def introduction (h : ClientHandshake) : Authenticate := ⟨h.username, h.challenge⟩

/-- **Sends the first message.** -/
def introduce (h : ClientHandshake) (raw : PlainLink) (c : Connection) : State × Connection :=
  let channel := raw.upgrade (EnvelopeCipher.between h.serverKey h.key h.seeds)
  match channel.send h.introduction.render c with
  | (.error e, channel, c) => (reject channel (.line e), c)
  | (.ok (), channel, c) => (.sentAuth channel, c)

/-- **Checks a second message.** -/
def accept (h : ClientHandshake) (line : String) : Except HandshakeFailure ServerOk := do
  let reply ← ServerOk.parse line
  if reply.clientChallenge ≠ h.challenge then throw ⟨"client challenge mismatch", none⟩
  return reply

/-- **Sends the third message**, as the first line under the session key. -/
def confirm (h : ClientHandshake) (channel : EnvelopeLink) (reply : ServerOk) (c : Connection) :
    State × Connection :=
  let channel := channel.withCipher (h.options.cipher reply.session .initiator)
  match channel.send reply.serverChallenge.toBase64 c with
  | (.error e, channel, c) => (reject channel (.line e), c)
  | (.ok (), channel, c) => (.established ⟨channel.withPolicy h.options.policy, h.username⟩, c)

/-- **One stage**, as far as what has arrived allows. -/
def step (h : ClientHandshake) (s : State) (c : Connection) : State × Connection :=
  match s with
  | .start raw => h.introduce raw c
  | .sentAuth channel => (.awaitingOk channel, c)
  | .awaitingOk channel =>
      match channel.poll c with
      | (polled, channel, c) =>
          match awaited "message 2" polled with
          | none => (.awaitingOk channel, c)
          | some (.error f) => (reject channel (.handshake f), c)
          | some (.ok line) =>
              match h.accept line with
              | .error f => (reject channel (.handshake f), c)
              | .ok reply => h.confirm channel reply c
  | done => (done, c)

/-- **As far as the handshake can come with what has arrived**: it has three stages. -/
def advance (h : ClientHandshake) (s : State) (c : Connection) : State × Connection :=
  let (s, c) := h.step s c
  let (s, c) := h.step s c
  h.step s c

end ClientHandshake

end LineChat
