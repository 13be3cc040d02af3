/-
**What a handshake leads to.**

A handshake that succeeds gives an encrypted channel and the name of the user; one that fails gives
the failure and the plain channel it ran over.  The options say how the encrypted channel treats
broken lines, how its keystream is laid out, and how many lines it may protect.

Main definitions:

* `LineChat.SessionOptions` — the settings of an encrypted channel;
* `LineChat.HandshakePhase` — how far a handshake has come;
* `LineChat.Established`, `LineChat.Rejected` — **the two outcomes**;
* `LineChat.awaited` — what a line that is waited for comes to.
-/

import LineChat.Channel.EnvelopeCipher
import LineChat.Channel.Link
import LineChat.Channel.SessionCipher

set_option autoImplicit false

namespace LineChat

/-- **The settings of the channel that a handshake gives.** -/
structure SessionOptions where
  policy : BrokenPolicy := .drop
  mode : KeystreamMode := .sequenced
  maxLines : UInt64 := SessionCipher.defaultMaxLines
  deriving DecidableEq, Repr

namespace SessionOptions

/-- The cipher of one side of a session with these settings. -/
def cipher (o : SessionOptions) (session : SessionKey) (role : Role) : SessionCipher :=
  SessionCipher.start session role o.mode o.maxLines

/-- The settings as diagnostics show them. -/
def debug (o : SessionOptions) : String :=
  Text.record "SessionOptions"
    [("broken_message_policy", o.policy.debug), ("keystream_mode", o.mode.debug),
     ("max_lines_per_key", o.maxLines.toNat.repr)]

end SessionOptions

/-- **How far a handshake has come.** -/
inductive HandshakePhase where
  /-- Nothing sent or received yet. -/
  | start
  /-- The client wrote its first message. -/
  | sentClientAuth
  /-- The server waits for the first message. -/
  | awaitingClientAuth
  /-- The client waits for the second message. -/
  | awaitingServerOk
  /-- The server wrote the second message, and waits for the third. -/
  | sentServerOk
  /-- The channel is encrypted under the session key. -/
  | established
  /-- The handshake failed. -/
  | failed
  deriving DecidableEq, Repr

/-- The name of a phase. -/
def HandshakePhase.name : HandshakePhase → String
  | start => "Start"
  | sentClientAuth => "SentClientAuth"
  | awaitingClientAuth => "AwaitingClientAuth"
  | awaitingServerOk => "AwaitingServerOk"
  | sentServerOk => "SentServerOk"
  | established => "Established"
  | failed => "Failed"

/-- The channel of a session. -/
abbrev SecureLink := Link (LineCodec SessionCipher)

/-- A channel whose lines are envelopes. -/
abbrev EnvelopeLink := Link (LineCodec EnvelopeCipher)

/-- A plain channel. -/
abbrev PlainLink := Link Framing

/-- **A handshake that succeeded**: the encrypted channel, and whose it is. -/
structure Established where
  channel : SecureLink
  username : String

/-- **A handshake that failed**, with the plain channel it ran over. -/
structure Rejected where
  failure : HandshakeFailure
  channel : PlainLink

/-- The failure of a handshake on an encrypted channel, which goes back to plain lines. -/
def Link.reject {σ : Type} (channel : Link (LineCodec σ)) (reason : String) (e : ChannelError) :
    Rejected :=
  ⟨e.toFailure reason, channel.change LineCodec.framing⟩

/-- A plain channel that goes on with encrypted lines, all of them required to be sound. -/
def Link.upgrade {σ : Type} (raw : PlainLink) (cipher : σ) : Link (LineCodec σ) :=
  raw.change fun framing => { framing, cipher, policy := .fail }

/-- A channel that goes on under another cipher. -/
def Link.withCipher {σ τ : Type} (channel : Link (LineCodec σ)) (cipher : τ) :
    Link (LineCodec τ) :=
  channel.change fun codec => codec.withCipher cipher

/-- A channel under another policy. -/
def Link.withPolicy {σ : Type} (channel : Link (LineCodec σ)) (policy : BrokenPolicy) :
    Link (LineCodec σ) :=
  channel.modify fun codec => { codec with policy }

/-- **What a line that is waited for comes to**: the line, the failure that it is not there, or
nothing while it may still come. -/
def awaited (what : String) : Polled → Option (Except HandshakeFailure String)
  | .line text => some (.ok text)
  | .failed e => some (.error ((ChannelError.line e).toFailure s!"{what} unreadable"))
  | .ended => some (.error ⟨s!"connection closed before {what}", none⟩)
  | .waiting => none

end LineChat
