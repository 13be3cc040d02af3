/-
**The messages of the handshake.**

Two messages are lines of tokens with single spaces between them: the client names itself and sends
a challenge, and the server echoes the challenge, adds one of its own and hands out a session key.
Reading asks for the exact number of tokens, so a stray or a doubled space is refused.

Main definitions:

* `LineChat.checkUsername` — whether a name can stand in a message;
* `LineChat.Authenticate`, `LineChat.ServerOk` — the messages;
* `LineChat.Authenticate.render`, `LineChat.ServerOk.render` — **the lines they are**;
* `LineChat.Authenticate.parse`, `LineChat.ServerOk.parse` — reading them.
-/

import LineChat.Handshake.Material
import LineChat.Text.Blank
import LineChat.Text.Words

set_option autoImplicit false

namespace LineChat

/-! ### Names -/

/-- **Whether a name can stand in a message**: it is not empty and has no blanks. -/
def isUsername (name : String) : Bool := name ≠ "" && !name.toList.any Text.isBlank

/-- Refuses a name that cannot stand in a message. -/
def checkUsername (name : String) : Except LineError Unit :=
  if name = "" then .error (.invalidArgument "username must not be empty")
  else if name.toList.any Text.isBlank then
    .error (.invalidArgument s!"username {Text.quote name} contains whitespace")
  else .ok ()

theorem checkUsername_eq_ok_iff (name : String) :
    checkUsername name = .ok () ↔ isUsername name = true := by
  unfold checkUsername isUsername
  by_cases h : name = "" <;> by_cases hb : name.toList.any Text.isBlank <;> simp_all

/-! ### Reading tokens -/

/-- An error of reading a part of a message, as the cause of a handshake failure. -/
def orFail {α : Type} (reason : String) (r : Except LineError α) : Except HandshakeFailure α :=
  r.mapError fun e => (ChannelError.line e).toFailure reason

/-- **The tokens of a message** that must be `count` in number and start with `command`. -/
def tokens (count : Nat) (command line : String) : Except HandshakeFailure (List String) :=
  let parts := Text.words line
  if parts.length ≠ count then
    .error ⟨s!"{command} expects {count} tokens, got {parts.length}", none⟩
  else if parts.head? ≠ some command then
    .error ⟨s!"expected {command}, got another command", none⟩
  else .ok parts

/-! ### The first message -/

/-- **The client's message**: who it claims to be, and a fresh challenge. -/
structure Authenticate where
  username : String
  challenge : Challenge
  deriving DecidableEq, Repr

namespace Authenticate

/-- The token that opens the message. -/
def command : String := "!authenticate"

/-- The message as a line. -/
def render (m : Authenticate) : String :=
  Text.unwords [command, m.username, m.challenge.toBase64]

/-- **Reads the message**, or says why the line is none. -/
def parse (line : String) : Except HandshakeFailure Authenticate := do
  let parts ← tokens 3 command line
  let username := parts.getD 1 ""
  orFail "invalid username" (checkUsername username)
  let challenge ← orFail "unreadable client challenge" (Challenge.ofBase64 (parts.getD 2 ""))
  return ⟨username, challenge⟩

/-- The message as diagnostics show it. -/
def debug (m : Authenticate) : String :=
  Text.record "Authenticate"
    [("username", Text.quote m.username), ("challenge", m.challenge.debug)]

end Authenticate

/-! ### The second message -/

/-- **The server's message**: the client's challenge, one of the server, and a session key. -/
structure ServerOk where
  clientChallenge : Challenge
  serverChallenge : Challenge
  session : SessionKey
  deriving DecidableEq, Repr

namespace ServerOk

/-- The token that opens the message. -/
def command : String := "!ok"

/-- The message as a line. -/
def render (m : ServerOk) : String :=
  Text.unwords [command, m.clientChallenge.toBase64, m.serverChallenge.toBase64,
    m.session.toBase64.1, m.session.toBase64.2]

/-- **Reads the message**, or says why the line is none. -/
def parse (line : String) : Except HandshakeFailure ServerOk := do
  let parts ← tokens 5 command line
  let client ← orFail "unreadable echoed challenge" (Challenge.ofBase64 (parts.getD 1 ""))
  let server ← orFail "unreadable server challenge" (Challenge.ofBase64 (parts.getD 2 ""))
  let session ← orFail "unreadable session key"
    (SessionKey.ofBase64 (parts.getD 3 "") (parts.getD 4 ""))
  return ⟨client, server, session⟩

/-- The message as diagnostics show it. -/
def debug (m : ServerOk) : String :=
  Text.record "ServerOk"
    [("client_challenge", m.clientChallenge.debug), ("server_challenge", m.serverChallenge.debug),
     ("session", m.session.debug)]

end ServerOk

end LineChat
