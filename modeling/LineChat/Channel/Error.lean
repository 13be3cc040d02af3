/-
**What can go wrong on a connection.**

A line may be broken, a key missing or used up, an argument wrong, a line too long, and the
connection may close, stall or fail.  These are the line errors.  A handshake that fails says why,
and keeps the line error that caused it, if there was one; a failed handshake is never itself the
cause of another one, which the types below rule out.

Main definitions:

* `LineChat.LineError` — the errors of lines, keys and connections;
* `LineChat.HandshakeFailure` — a failed handshake with its cause;
* `LineChat.ChannelError` — either of them;
* `LineChat.LineError.ofIo` — what a failure of the operating system means for a connection;
* `LineChat.ChannelError.toFailure` — **an error as the cause of a handshake failure**.

Main results:

* `LineChat.ChannelError.toFailure_handshake` — a handshake failure is not wrapped again.
-/

import LineChat.Host.Failure
import LineChat.Text.Record

set_option autoImplicit false

namespace LineChat

/-! ### Errors of lines and connections -/

/-- **What can go wrong with a line, a key or a connection.** -/
inductive LineError where
  /-- A single line could not be encrypted or decrypted. -/
  | brokenMessage (detail : String)
  /-- Key material is missing or invalid. -/
  | invalidKey (detail : String)
  /-- The session key already protected as many lines as it may. -/
  | keystreamExhausted (limit : Nat)
  /-- The caller asked for something that cannot be done. -/
  | invalidArgument (detail : String)
  /-- A line exceeds the maximum length. -/
  | lineTooLong (max : Nat)
  /-- The other side closed the connection. -/
  | connectionClosed (detail : String)
  /-- The operation took too long. -/
  | timeout (detail : String)
  /-- Any other failure of the connection. -/
  | io (detail : String)
  deriving DecidableEq, Repr

namespace LineError

/-- The wording of an error. -/
def message : LineError → String
  | brokenMessage detail => "broken message: " ++ detail
  | invalidKey detail => "invalid key: " ++ detail
  | keystreamExhausted limit =>
      s!"keystream exhausted: session key already protected {limit} lines"
  | invalidArgument detail => "invalid argument: " ++ detail
  | lineTooLong max => s!"line too long: exceeds maximum of {max} bytes"
  | connectionClosed detail => "connection closed: " ++ detail
  | timeout detail => "operation timed out: " ++ detail
  | io detail => "i/o error: " ++ detail

/-- The name of an error's kind. -/
def name : LineError → String
  | brokenMessage _ => "BrokenMessage"
  | invalidKey _ => "InvalidKey"
  | keystreamExhausted _ => "KeystreamExhausted"
  | invalidArgument _ => "InvalidArgument"
  | lineTooLong _ => "LineTooLong"
  | connectionClosed _ => "ConnectionClosed"
  | timeout _ => "Timeout"
  | io _ => "Io"

/-- The error of a kind with a detail, or with a number for the kinds that have one. -/
def ofName? (name detail : String) (n : Nat) : Option LineError :=
  [brokenMessage detail, invalidKey detail, keystreamExhausted n, invalidArgument detail,
    lineTooLong n, connectionClosed detail, timeout detail, io detail].find? (·.name == name)

/-- An error as diagnostics show it. -/
def debug (e : LineError) : String :=
  match e with
  | keystreamExhausted limit => Text.record e.name [("limit", limit.repr)]
  | lineTooLong max => Text.record e.name [("max", max.repr)]
  | brokenMessage detail | invalidKey detail | invalidArgument detail | connectionClosed detail
  | timeout detail | io detail => Text.wrapped e.name (Text.quote detail)

/-- **Whether an error affects a single line only**, so that a lenient channel may skip it. -/
def isBrokenMessage : LineError → Bool
  | brokenMessage _ => true
  | _ => false

end LineError

/-! ### Failed handshakes -/

/-- **A handshake that failed**, with the line error that caused it, if there was one. -/
structure HandshakeFailure where
  reason : String
  source : Option LineError := none
  deriving DecidableEq, Repr

namespace HandshakeFailure

/-- The wording of a failure, without its cause. -/
def message (f : HandshakeFailure) : String := "handshake failed: " ++ f.reason

/-- A failure as diagnostics show it. -/
def debug (f : HandshakeFailure) : String :=
  let source := match f.source with
    | some e => Text.wrapped "Some" e.debug
    | none => "None"
  Text.record "HandshakeFailed" [("reason", Text.quote f.reason), ("source", source)]

end HandshakeFailure

/-- A line error or a failed handshake. -/
inductive ChannelError where
  | line (e : LineError)
  | handshake (f : HandshakeFailure)
  deriving DecidableEq, Repr

namespace ChannelError

/-- The wording of an error. -/
def message : ChannelError → String
  | line e => e.message
  | handshake f => f.message

/-- An error as diagnostics show it. -/
def debug : ChannelError → String
  | line e => e.debug
  | handshake f => f.debug

/-- Whether an error affects a single line only. -/
def isBrokenMessage : ChannelError → Bool
  | line e => e.isBrokenMessage
  | handshake _ => false

/-- The errors behind an error, from the nearest one on. -/
def causes : ChannelError → List LineError
  | line _ => []
  | handshake f => f.source.toList

/-- **An error as the cause of a handshake failure.**  A handshake failure is its own. -/
def toFailure (reason : String) : ChannelError → HandshakeFailure
  | line e => ⟨reason, some e⟩
  | handshake f => f

/-- A handshake failure is not wrapped again. -/
@[simp] theorem toFailure_handshake (reason : String) (f : HandshakeFailure) :
    toFailure reason (handshake f) = f := rfl

@[simp] theorem toFailure_line (reason : String) (e : LineError) :
    toFailure reason (line e) = ⟨reason, some e⟩ := rfl

end ChannelError

/-! ### Failures of the operating system -/

/-- **What a failure of the operating system means for a connection.** -/
def LineError.ofIo (e : IoError) : LineError :=
  match e.kind with
  | .timedOut => .timeout e.text
  | .connectionReset | .connectionAborted | .brokenPipe | .unexpectedEof =>
      .connectionClosed e.text
  | _ => .io e.text

end LineChat
