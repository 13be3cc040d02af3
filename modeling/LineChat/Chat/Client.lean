/-
**A chat client.**

A client connects, logs in, and then sends lines and reads those that come back.  Lines that start
with a marker go to the queue of that marker, so that several conversations share one connection;
the others go to a queue of their own.

Main definitions:

* `LineChat.Credentials` — who logs in;
* `LineChat.login` — **connecting and logging in**;
* `LineChat.ChatClient` — a client that is logged in;
* `LineChat.ChatClient.open` — a client for a channel, with its markers;
* `LineChat.ChatClient.send`, `LineChat.ChatClient.pump`, `LineChat.ChatClient.read`,
  `LineChat.ChatClient.readAll` — **lines**.
-/

import LineChat.Handshake.Client
import LineChat.Host.Random
import LineChat.Network.Access
import LineChat.Splitter.Waiting

set_option autoImplicit false

namespace LineChat

/-- **Who logs in**: the name of a user, the user's private key, and the server's public key, which
is known in advance. -/
structure Credentials where
  username : String
  key : PrivateKey
  serverKey : PublicKey
  deriving DecidableEq, Repr

/-! ### Logging in -/

section Login

variable {m : Type → Type} [Monad m] [NetworkAccess m]

/-- A handshake carried on, with up to `fuel` waits for bytes. -/
def ClientHandshake.runOver (h : ClientHandshake) (socket : NetworkAccess.Socket m) :
    Nat → ClientHandshake.State → Connection →
      m (Except ChannelError (Established × Connection))
  | 0, _, _ => return .error (.line (.timeout "client handshake aborted"))
  | fuel + 1, s, c => do
      let (s, c) := h.advance s c
      match ← NetworkAccess.send socket c.outgoing with
      | .error e =>
          return .error (.handshake
            ((ChannelError.line (.ofIo e)).toFailure "client handshake aborted"))
      | .ok () =>
          let c := { c with outgoing := [] }
          match s with
          | .established e => return .ok (e, c)
          | .rejected r => return .error (.handshake r.failure)
          | s =>
              match ← NetworkAccess.receive socket none with
              | .error e =>
                  return .error (.handshake
                    ((ChannelError.line (.ofIo e)).toFailure "message 2 unreadable"))
              | .ok [] => h.runOver socket fuel s c.finish
              | .ok bytes => h.runOver socket fuel s (c.arrive bytes)

/-- **Connects and logs in.**  The second message comes before as many bytes have arrived as the
longest line has. -/
def login [RandomSource m] (destination : String) (who : Credentials) (options : SessionOptions) :
    m (Except ChannelError (Wire m (LineCodec SessionCipher))) := do
  match ← connectTo (m := m) destination with
  | .error e => return .error (.line (.ofIo e))
  | .ok socket =>
      let h : ClientHandshake :=
        { username := who.username, key := who.key, serverKey := who.serverKey, options,
          challenge := ⟨← RandomSource.draw 32⟩
          seeds := seedsFrom (← RandomSource.draw 32).toList }
      match h.check with
      | .error e => return .error (.line e)
      | .ok h =>
          match ← h.runOver socket (maxLineLength + 3) (.start { format := {} }) {} with
          | .error e => return .error e
          | .ok (e, seen) => return .ok { socket, link := e.channel, seen }

end Login

/-! ### Clients -/

/-- **A client that is logged in.** -/
structure ChatClient where
  channel : SecureLink
  wire : Connection := {}
  conversation : Conversation := {}

namespace ChatClient

/-- A conversation with one marker more. -/
def withMarker (v : Conversation) (marker : String) : Except LineError Conversation :=
  (v.splitter.register marker).map fun splitter => { v with splitter }

/-- **A client for a channel**, with markers that no line was read for yet. -/
def «open» (channel : SecureLink) (wire : Connection) (markers : List String) :
    Except LineError ChatClient := do
  let conversation ← markers.foldlM withMarker {}
  return { channel, wire, conversation := ← conversation.begin }

/-- **Sends a line.** -/
def send (c : ChatClient) (line : String) : Except LineError Unit × ChatClient :=
  let (sent, channel, wire) := c.channel.send line c.wire
  (sent, { c with channel, wire })

/-- What the stream of lines yields, if it yields something now. -/
def item? : Polled → Option StreamItem
  | .line line => some (.line line)
  | .failed e => some (.failure e.message)
  | .ended => some .finished
  | .waiting => none

/-- Up to `fuel` lines that have arrived passed on to their queues. -/
def pumpUpTo : Nat → ChatClient → ChatClient
  | 0, c => c
  | fuel + 1, c =>
      if !c.conversation.splitter.wantsItem then c
      else
        let (polled, channel, wire) := c.channel.poll c.wire
        let c := { c with channel, wire }
        match item? polled with
        | none => c
        | some item => pumpUpTo fuel { c with conversation := c.conversation.deliver item }

/-- **The lines that have arrived passed on to their queues**; each of them took a byte. -/
def pump (c : ChatClient) : ChatClient :=
  pumpUpTo (c.channel.buffer.length + c.wire.incoming.length + 2) c

/-- **Takes the next line of a marker**, if there is one, without the marker. -/
def read (c : ChatClient) (marker : String) :
    Except LineError (Option (Option String)) × ChatClient :=
  let (line, conversation) := c.conversation.readNow marker true
  (line, { c with conversation })

/-- Up to `fuel` lines of a marker, and whether they are the last. -/
def readUpTo (c : ChatClient) (marker : String) : Nat → List String × Bool × ChatClient
  | 0 => ([], false, c)
  | fuel + 1 =>
      match c.read marker with
      | (.ok (some (some line)), c) =>
          let (lines, ended, c) := c.readUpTo marker fuel
          (line :: lines, ended, c)
      | (.ok none, c) => ([], false, c)
      | (.ok (some none), c) | (.error _, c) => ([], true, c)

/-- **Takes all lines of a marker** that are there, and says whether they are the last. -/
def readAll (c : ChatClient) (marker : String) : List String × Bool × ChatClient :=
  let waiting := (c.conversation.splitter.table.queue? marker).getD []
  c.readUpTo marker (waiting.length + 1)

/-- Takes what was written. -/
def takeOutgoing (c : ChatClient) : Bytes × ChatClient :=
  (c.wire.outgoing, { c with wire := { c.wire with outgoing := [] } })

/-- Sends a line whose answer is expected on a marker, which must be registered. -/
def request (c : ChatClient) (marker line : String) : Except LineError Unit × ChatClient :=
  if marker ∈ c.conversation.splitter.table.sortedMarkers then c.send line
  else (.error (.invalidArgument s!"marker {Text.quote marker} is not registered"), c)

/-- Closes the client: no more lines are read. -/
def close (c : ChatClient) : ChatClient := { c with conversation := c.conversation.shut }

/-- A line that was typed, without its end; it must be text. -/
def typedLine (typed : Bytes) : Except IoError String :=
  let line := match typed.reverse with
    | 10 :: 13 :: line | 10 :: line | line => line.reverse
  (Text.ofUtf8 line).mapError fun _ => .notText

/-- The error that the lines ended with, if they ended with one. -/
def termination (c : ChatClient) : Option String := c.conversation.splitter.termination

end ChatClient

end LineChat
