/-
**Private messages over a connection.**

A private message goes straight from its sender to its receiver.  The sender connects, writes one
sealed line and waits for one sealed line back; the receiver delivers what it got, whether or not it
is authentic, and then answers.  The body names the sender and must be a single line.

Main definitions:

* `LineChat.messageBody`, `LineChat.outgoingLine` — what a sender writes;
* `LineChat.judgeReply` — what a sender makes of the answer;
* `LineChat.sendPrivateMessage` — **sending a private message**;
* `LineChat.DeliveredMessage`, `LineChat.deliver` — what a receiver makes of a line;
* `LineChat.receivePrivateMessage` — **receiving one**.
-/

import LineChat.Network.Access
import LineChat.Private.Sealed

set_option autoImplicit false

namespace LineChat

/-- The number of seconds that either side waits for the other's line. -/
def exchangeSeconds : Nat := 10

/-! ### Errors -/

/-- **What can go wrong with a private message.** -/
inductive PrivateMessageError where
  /-- No connection could be made. -/
  | io (e : IoError)
  /-- The connection failed. -/
  | line (e : LineError)
  | multiLine
  /-- The connection was closed before there was a line. -/
  | noReply
  /-- There was no line in time. -/
  | timeout (seconds : Nat)
  deriving DecidableEq, Repr

namespace PrivateMessageError

/-- The wording of an error, and of what caused it. -/
def messages : PrivateMessageError → List String
  | io e => [s!"i/o error: {e.text}", e.text]
  | line e => [e.message]
  | multiLine => ["message must be a single line"]
  | noReply => ["peer closed the connection without replying"]
  | timeout seconds => [s!"peer did not answer within {seconds}s"]

/-- The name of an error's kind. -/
def name : PrivateMessageError → String
  | io _ => "Io"
  | line _ => "Protocol"
  | multiLine => "MultiLine"
  | noReply => "NoReply"
  | timeout _ => "Timeout"

/-- What asking for the other side's line came to, if it was not a line. -/
def ofPolled : Polled → PrivateMessageError
  | .failed (.timeout _) => .timeout exchangeSeconds
  | .failed e => .line e
  | _ => .noReply

end PrivateMessageError

/-! ### Sending -/

/-- **The body of a private message.** -/
def messageBody (sender text : String) : String := sender ++ ": " ++ text

/-- The line that carries a private message, which must be a single one. -/
def outgoingLine (sender text : String) (secret : SharedSecret) :
    Except PrivateMessageError String :=
  let body := messageBody sender text
  if '\n' ∈ body.toList ∨ '\r' ∈ body.toList then .error .multiLine
  else .ok (SealedLine.ofBody body secret).render

/-- What a sender makes of the answer. -/
def judgeReply (secret : SharedSecret) : Polled → Except PrivateMessageError DeliveryOutcome
  | .line reply => .ok (evaluateReply reply secret)
  | other => .error (.ofPolled other)

section Exchange

variable {m : Type → Type} [Monad m] [NetworkAccess m]

/-- **Sends a private message**, and judges the answer. -/
def sendPrivateMessage (destination sender text : String) (secret : SharedSecret) :
    m (Except PrivateMessageError DeliveryOutcome) := do
  match outgoingLine sender text secret with
  | .error e => return .error e
  | .ok line =>
      match ← connectTo (m := m) destination with
      | .error e => return .error (.io e)
      | .ok socket =>
          let wire : Wire m Framing := { socket, link := { format := {} } }
          match ← wire.send line with
          | (.error e, _) => return .error (.line e)
          | (.ok (), wire) =>
              let (reply, _) ← wire.next (some exchangeSeconds)
              NetworkAccess.close socket
              return judgeReply secret reply

end Exchange

/-! ### Receiving -/

/-- **A message for the local user**: its body, whether it is authentic, and where it came from. -/
structure DeliveredMessage where
  body : String
  authentic : Bool
  peer : Address
  deriving DecidableEq, Repr

/-- A message as it is shown. -/
def DeliveredMessage.render (d : DeliveredMessage) : String :=
  if d.authentic then d.body else "[tampered] " ++ d.body

/-- **What a receiver delivers and answers** when it is given a line; without one, why. -/
def deliver (secret : SharedSecret) (peer : Address) :
    Polled → Except PrivateMessageError (DeliveredMessage × String)
  | .line line =>
      let received := receive line secret
      .ok (⟨received.message, received.authentic, peer⟩, received.reply.render)
  | other => .error (.ofPolled other)

/-- **Receives a private message** over a connection: it is handed over before it is answered. -/
def receivePrivateMessage {m : Type → Type} [Monad m] [NetworkAccess m] (secret : SharedSecret)
    (peer : Address) (socket : NetworkAccess.Socket m) (handOver : DeliveredMessage → m Unit) :
    m (Except PrivateMessageError Unit) := do
  let wire : Wire m Framing := { socket, link := { format := {} } }
  let (line, wire) ← wire.next (some exchangeSeconds)
  match deliver secret peer line with
  | .error e => return .error e
  | .ok (message, reply) =>
      handOver message
      let (sent, _) ← wire.send reply
      NetworkAccess.close socket
      return sent.mapError .line

end LineChat
