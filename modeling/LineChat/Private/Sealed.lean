/-
**Sealed lines: private messages with a tag.**

Private messages travel from peer to peer in plain text.  Both peers hold a secret, and every line
starts with a tag that only the secret's holders can compute.  The receiver answers with a sealed
acknowledgement, or with a sealed report that carries the body as it was received.  A body whose
tag does not fit is delivered all the same: tampering is an outcome and not an error.

Main definitions:

* `LineChat.SharedSecret` — the secret, a byte string that is not empty;
* `LineChat.sign`, `LineChat.verify` — tags of bodies;
* `LineChat.SealedLine` — a tag and a body, with `ofBody`, `parse` and `render`;
* `LineChat.Reply` — what a receiver may answer;
* `LineChat.receive` — **what a receiver makes of a line**;
* `LineChat.evaluateReply` — **what a sender makes of the answer**.
-/

import LineChat.Channel.Error
import LineChat.Crypto.Hmac
import LineChat.Text.Base64
import LineChat.Text.Blank
import LineChat.Text.Hex
import LineChat.Text.Words

set_option autoImplicit false

namespace LineChat

/-! ### Secrets and tags -/

/-- **A secret that two peers share.** -/
structure SharedSecret where
  key : Bytes
  key_ne_nil : key ≠ [] := by decide
  deriving DecidableEq, Repr

namespace SharedSecret

/-- The secret with the given bytes. -/
def ofBytes (key : Bytes) : Except LineError SharedSecret :=
  if h : key = [] then .error (.invalidKey "shared secret is empty") else .ok ⟨key, h⟩

/-- The secret that hexadecimal digits denote, blanks around them ignored. -/
def ofHex (encoded : String) : Except LineError SharedSecret :=
  match Hex.decode (Text.trim encoded) with
  | .error fault => .error (.invalidKey s!"shared secret is not hex: {fault.message}")
  | .ok key => ofBytes key

/-- A secret as diagnostics show it. -/
def debug (_ : SharedSecret) : String := Text.wrapped "SharedSecret" Text.redacted

end SharedSecret

/-- The tag of a body, as it is written in front of it. -/
def sign (body : String) (secret : SharedSecret) : String :=
  Base64.encode (Hmac.tag secret.key (Text.utf8 body)).toList

/-- **Whether a tag fits a body.** -/
def verify (body claimed : String) (secret : SharedSecret) : Bool :=
  match Base64.decodeText claimed with
  | .ok tag => tag == (Hmac.tag secret.key (Text.utf8 body)).toList
  | .error _ => false

/-! ### Sealed lines -/

/-- **A line with a tag and a body.**  The tag is empty if the line had none. -/
structure SealedLine where
  mac : String
  body : String
  deriving DecidableEq, Repr

namespace SealedLine

/-- A body with its tag. -/
def ofBody (body : String) (secret : SharedSecret) : SealedLine := ⟨sign body secret, body⟩

/-- A line cut at its first space.  A line without a space is all body, and never verifies. -/
def parse (line : String) : SealedLine :=
  match Text.cutAtSpace line with
  | some (mac, body) => ⟨mac, body⟩
  | none => ⟨"", line⟩

/-- The line on the wire. -/
def render (l : SealedLine) : String := l.mac ++ " " ++ l.body

/-- Whether the tag fits the body. -/
def isAuthentic (l : SealedLine) (secret : SharedSecret) : Bool := verify l.body l.mac secret

end SealedLine

/-! ### Replies -/

/-- **What a receiver answers.** -/
inductive Reply where
  /-- The message verified. -/
  | ack
  /-- The message did not verify; carries the body as received. -/
  | tampered (body : String)
  deriving DecidableEq, Repr

namespace Reply

/-- The body of an acknowledgement. -/
def ackText : String := "!ack"

/-- The token that opens a report of tampering. -/
def tamperedToken : String := "!tampered"

/-- The body of a reply. -/
def render : Reply → String
  | ack => ackText
  | tampered body => tamperedToken ++ " " ++ body

/-- Reads a reply's body, if it is one. -/
def parse? (body : String) : Option Reply :=
  if body = ackText then some ack
  else
    let opening := (tamperedToken ++ " ").toList
    if opening.isPrefixOf body.toList then
      some (tampered (String.ofList (body.toList.drop opening.length)))
    else none

end Reply

/-! ### An exchange -/

/-- What a receiver makes of a line. -/
structure Received where
  /-- The body, delivered whether or not it verified. -/
  message : String
  /-- Whether the tag fitted. -/
  authentic : Bool
  /-- The sealed line to send back. -/
  reply : SealedLine
  deriving DecidableEq, Repr

/-- **What a receiver makes of a line.** -/
def receive (line : String) (secret : SharedSecret) : Received :=
  let incoming := SealedLine.parse line
  let authentic := incoming.isAuthentic secret
  let reply := if authentic then Reply.ack else Reply.tampered incoming.body
  ⟨incoming.body, authentic, SealedLine.ofBody reply.render secret⟩

/-- How a delivery ended, judged from the reply. -/
inductive DeliveryOutcome where
  /-- The receiver verified the message. -/
  | acknowledged
  /-- The receiver reports the message as tampered. -/
  | rejectedAsTampered
  /-- The reply itself does not verify. -/
  | replyTampered
  /-- The reply verifies but says neither. -/
  | unexpected (body : String)
  deriving DecidableEq, Repr

/-- The name of an outcome. -/
def DeliveryOutcome.name : DeliveryOutcome → String
  | acknowledged => "Acknowledged"
  | rejectedAsTampered => "RejectedAsTampered"
  | replyTampered => "ReplyTampered"
  | unexpected _ => "Unexpected"

/-- Whether the message was delivered intact. -/
def DeliveryOutcome.isDelivered : DeliveryOutcome → Bool
  | acknowledged => true
  | _ => false

/-- **What a sender makes of the reply line.** -/
def evaluateReply (line : String) (secret : SharedSecret) : DeliveryOutcome :=
  let reply := SealedLine.parse line
  if !reply.isAuthentic secret then .replyTampered
  else match Reply.parse? reply.body with
    | some .ack => .acknowledged
    | some (.tampered _) => .rejectedAsTampered
    | none => .unexpected reply.body

end LineChat
