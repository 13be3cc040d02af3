/-
**The server's side of the handshake.**

The server waits for the first message, which it opens with its private key, looks up the user, and
answers with an envelope for that user's key: the client's challenge, one of its own, and a fresh
session key.  From then on lines are encrypted under the session key, and the first of them must be
the server's challenge.  Nothing is written before the first message was found good.

The random values are drawn before the handshake runs and are part of its data.

Main definitions:

* `LineChat.ServerHandshake` — the server's key, its users, its options and its random values;
* `LineChat.ServerHandshake.State` — what it is waiting for;
* `LineChat.ServerHandshake.step` — **one stage**;
* `LineChat.ServerHandshake.advance` — as far as it can come with what has arrived.
-/

import LineChat.Handshake.Message
import LineChat.Handshake.Session

set_option autoImplicit false

namespace LineChat

/-- **What the server brings to a handshake.** -/
structure ServerHandshake where
  key : PrivateKey
  directory : String → Option PublicKey
  options : SessionOptions
  challenge : Challenge
  session : SessionKey
  seeds : Nat → Oaep.Seed

namespace ServerHandshake

/-- **What the server is waiting for.** -/
inductive State where
  /-- It has not begun. -/
  | start (raw : PlainLink)
  /-- It waits for the first message. -/
  | awaitingAuth (channel : EnvelopeLink)
  /-- It wrote the second message, and waits for its challenge to come back. -/
  | awaitingEcho (channel : SecureLink) (username : String)
  /-- The user is who it claims to be. -/
  | established (result : Established)
  /-- The handshake failed. -/
  | rejected (result : Rejected)

/-- How far the handshake has come. -/
def State.phase : State → HandshakePhase
  | start _ => .start
  | awaitingAuth _ => .awaitingClientAuth
  | awaitingEcho _ _ => .sentServerOk
  | established _ => .established
  | rejected _ => .failed

/-- The handshake as diagnostics show it. -/
def debug (h : ServerHandshake) (phase : HandshakePhase) : String :=
  Text.openRecord "ServerHandshake" [("phase", phase.name), ("options", h.options.debug)]

/-- A handshake that failed. -/
def reject {σ : Type} (channel : Link (LineCodec σ)) (e : ChannelError) : State :=
  .rejected (channel.reject "server handshake aborted" e)

/-- **Who a first message is from**, and the key it must be answered under. -/
def identify (h : ServerHandshake) (line : String) :
    Except HandshakeFailure (Authenticate × PublicKey) := do
  let auth ← Authenticate.parse line
  match h.directory auth.username with
  | some key => return (auth, key)
  | none => throw ⟨s!"unknown user {Text.quote auth.username}", none⟩

/-- The second message. -/
def reply (h : ServerHandshake) (auth : Authenticate) : ServerOk :=
  ⟨auth.challenge, h.challenge, h.session⟩

/-- **Answers a first message.** -/
def answer (h : ServerHandshake) (channel : EnvelopeLink) (auth : Authenticate) (key : PublicKey)
    (c : Connection) : State × Connection :=
  let channel := channel.withCipher (EnvelopeCipher.between key h.key h.seeds)
  match channel.send (h.reply auth).render c with
  | (.error e, channel, c) => (reject channel (.line e), c)
  | (.ok (), channel, c) =>
      (.awaitingEcho (channel.withCipher (h.options.cipher h.session .responder)) auth.username, c)

/-- **Judges a third message.** -/
def judge (h : ServerHandshake) (channel : SecureLink) (username line : String) : State :=
  match Challenge.ofBase64 line with
  | .error e =>
      reject channel (.handshake ((ChannelError.line e).toFailure "unreadable server challenge"))
  | .ok echoed =>
      if echoed ≠ h.challenge then
        reject channel (.handshake ⟨"server challenge mismatch", none⟩)
      else .established ⟨channel.withPolicy h.options.policy, username⟩

/-- **One stage**, as far as what has arrived allows. -/
def step (h : ServerHandshake) (s : State) (c : Connection) : State × Connection :=
  match s with
  | .start raw => (.awaitingAuth (raw.upgrade (EnvelopeCipher.openOnly h.key h.seeds)), c)
  | .awaitingAuth channel =>
      match channel.poll c with
      | (polled, channel, c) =>
          match awaited "message 1" polled with
          | none => (.awaitingAuth channel, c)
          | some (.error f) => (reject channel (.handshake f), c)
          | some (.ok line) =>
              match h.identify line with
              | .error f => (reject channel (.handshake f), c)
              | .ok (auth, key) => h.answer channel auth key c
  | .awaitingEcho channel username =>
      match channel.poll c with
      | (polled, channel, c) =>
          match awaited "message 3" polled with
          | none => (.awaitingEcho channel username, c)
          | some (.error f) => (reject channel (.handshake f), c)
          | some (.ok line) => (h.judge channel username line, c)
  | done => (done, c)

/-- **As far as the handshake can come with what has arrived**: it has three stages. -/
def advance (h : ServerHandshake) (s : State) (c : Connection) : State × Connection :=
  let (s, c) := h.step s c
  let (s, c) := h.step s c
  h.step s c

end ServerHandshake

end LineChat
