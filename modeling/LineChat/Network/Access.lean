/-
**Access to the network.**

What the program does with the network is said in terms of a few operations, which the operating
system provides when it runs.  A destination is an address, or a name with a port, which may stand
for several addresses; they are tried one after the other.

A wire is an open connection with the state of the lines on it.  Lines are taken from what has
arrived, and more is waited for only when that holds none.  A line or an error comes before as many
bytes have arrived as the longest line has, so waiting ends.

Main definitions:

* `LineChat.NetworkAccess` — **the operations**;
* `LineChat.Destination.parse` — what a connection is to be made to;
* `LineChat.connectTo` — **making a connection**;
* `LineChat.Wire` — an open connection with its lines;
* `LineChat.Wire.next`, `LineChat.Wire.send` — **lines on an open connection**.
-/

import LineChat.Channel.Link
import LineChat.Network.Address

set_option autoImplicit false

namespace LineChat

/-- **Operations on connections.** -/
class NetworkAccess (m : Type → Type) where
  /-- A connection that is open. -/
  Socket : Type
  /-- The addresses that a name stands for. -/
  resolve : (host : String) → (port : UInt16) → m (Except IoError (List Address))
  /-- Makes a connection to an address. -/
  connect : Address → m (Except IoError Socket)
  /-- Writes bytes to a connection. -/
  send : Socket → Bytes → m (Except IoError Unit)
  /-- Waits for bytes from a connection, for so many seconds if they are limited; there are none
  when the other side has closed it. -/
  receive : Socket → (limit : Option Nat) → m (Except IoError Bytes)
  /-- Closes a connection. -/
  close : Socket → m Unit

/-! ### Destinations -/

/-- **What a connection is to be made to.** -/
inductive Destination where
  | address (a : Address)
  | named (host : String) (port : UInt16)
  deriving DecidableEq, Repr

/-- A text parted at its last colon, if it has one. -/
def Destination.part? (s : String) : Option (String × String) :=
  let behind := s.toList.reverse.takeWhile (· ≠ ':')
  match s.toList.reverse.dropWhile (· ≠ ':') with
  | [] => none
  | _ :: front => some (String.ofList front.reverse, String.ofList behind.reverse)

/-- **The destination that a text names**: an address, or a name and a port behind its last
colon. -/
def Destination.parse (s : String) : Except IoError Destination :=
  match Address.parse? s, Destination.part? s with
  | some a, _ => .ok (.address a)
  | none, none => .error ⟨.invalidInput, "invalid socket address"⟩
  | none, some (host, port) =>
      match (Text.natural? port).filter (· < 65536) with
      | some n => .ok (.named host (UInt16.ofNat n))
      | none => .error ⟨.invalidInput, "invalid port value"⟩

variable {m : Type → Type} [Monad m] [NetworkAccess m]

/-- Makes a connection to the first of some addresses that lets it; `e` is why there is none. -/
def connectFirst (e : IoError) : List Address → m (Except IoError (NetworkAccess.Socket m))
  | [] => return .error e
  | a :: others => do
      match ← NetworkAccess.connect a with
      | .ok socket => return .ok socket
      | .error e => connectFirst e others

/-- **Makes a connection.** -/
def connectTo (destination : String) : m (Except IoError (NetworkAccess.Socket m)) := do
  match Destination.parse destination with
  | .error e => return .error e
  | .ok (.address a) => NetworkAccess.connect a
  | .ok (.named host port) =>
      match ← NetworkAccess.resolve host port with
      | .error e => return .error e
      | .ok addresses => connectFirst ⟨.invalidInput, "could not resolve to any address"⟩ addresses

/-! ### Wires -/

/-- **An open connection with its lines.** -/
structure Wire (m : Type → Type) [NetworkAccess m] (δ : Type) where
  socket : NetworkAccess.Socket m
  link : Link δ
  seen : Connection := {}

namespace Wire

variable {δ : Type} [LineFormat δ]

/-- The next line, waiting for bytes up to `fuel` times. -/
def nextWithin (limit : Option Nat) : Nat → Wire m δ → m (Polled × Wire m δ)
  | 0, w => return (.waiting, w)
  | fuel + 1, w => do
      let (polled, link, seen) := w.link.poll w.seen
      let w := { w with link, seen }
      if polled ≠ .waiting then return (polled, w)
      else match ← NetworkAccess.receive w.socket limit with
        | .error e => return (.failed (.ofIo e), w)
        | .ok [] => nextWithin limit fuel { w with seen := w.seen.finish }
        | .ok bytes => nextWithin limit fuel { w with seen := w.seen.arrive bytes }

/-- **The next line**, waiting for each piece of it for so many seconds if they are limited. -/
def next (limit : Option Nat) (w : Wire m δ) : m (Polled × Wire m δ) :=
  w.nextWithin limit (maxLineLength + 3)

/-- **Writes a line.** -/
def send (line : String) (w : Wire m δ) : m (Except LineError Unit × Wire m δ) := do
  match w.link.send line w.seen with
  | (.error e, link, seen) => return (.error e, { w with link, seen })
  | (.ok (), link, seen) =>
      let w := { w with link, seen := { seen with outgoing := [] } }
      match ← NetworkAccess.send w.socket seen.outgoing with
      | .error e => return (.error (.ofIo e), w)
      | .ok () => return (.ok (), w)

end Wire

end LineChat
