/-
**Channels over a connection.**

A connection carries bytes, and what has arrived need not end with a line.  A link keeps the bytes
that were read and are no line yet, and asks for more only when they hold none.  When the other side
has finished, what is left counts as the last line.  An error is reported once, then the end is,
and after that the link looks at its buffer again only when something new has arrived.

A link can go on under other rules for lines, for instance encrypted where it was plain, and keeps
the bytes it has read.

Main definitions:

* `LineChat.Connection` — what one side sees of a connection, and how writing to it can fail;
* `LineChat.LineFormat` — rules for lines: taking them from a buffer, and writing them;
* `LineChat.Link` — a format with a buffer;
* `LineChat.Link.poll` — **the next line of a connection**;
* `LineChat.Link.send` — **a line written to a connection**;
* `LineChat.Link.change` — going on under another format.
-/

import LineChat.Channel.LineCodec

set_option autoImplicit false

namespace LineChat

/-! ### Connections -/

/-- **How writing fails**: the failure, and how many bytes still get through before it. -/
structure Breach where
  failure : IoError
  through : Nat := 0
  deriving DecidableEq, Repr

/-- **What one side sees of a connection.**  Writing to it can fail, reading cannot: a connection
that breaks while it is read counts as one that the other side has closed, and what arrived before
is still there to be read. -/
structure Connection where
  /-- What has arrived and was not read yet. -/
  incoming : Bytes := []
  /-- Whether nothing more will arrive. -/
  finished : Bool := false
  /-- What was written. -/
  outgoing : Bytes := []
  /-- How writing fails, if it does. -/
  breach : Option Breach := none
  deriving DecidableEq, Repr

namespace Connection

/-- More bytes have arrived. -/
def arrive (c : Connection) (bytes : Bytes) : Connection :=
  { c with incoming := c.incoming ++ bytes }

/-- The other side sends nothing more, but still takes what is sent. -/
def finish (c : Connection) : Connection := { c with finished := true }

/-- The other side has closed the connection, and what is written gets nowhere. -/
def hangUp (c : Connection) : Connection :=
  { c with finished := true, breach := some ⟨⟨.brokenPipe, "broken pipe"⟩, 0⟩ }

/-- Whether writing fails. -/
def broken (c : Connection) : Bool := c.breach.isSome

/-- Writes bytes.  Writing nothing always succeeds, and a write that fails may have come some of the
way. -/
def write (c : Connection) (bytes : Bytes) : Except LineError Unit × Connection :=
  if bytes = [] then (.ok (), c)
  else match c.breach with
    | none => (.ok (), { c with outgoing := c.outgoing ++ bytes })
    | some b =>
        (.error (.ofIo b.failure), { c with outgoing := c.outgoing ++ bytes.take b.through })

end Connection

/-! ### Formats -/

/-- **Rules for lines**: how they are taken from a buffer that may still grow, or from what is left
when nothing more arrives, and how they are written. -/
class LineFormat (δ : Type) where
  decode : δ → Bool → Bytes → Except LineError (Option String) × δ × Bytes
  encode : δ → String → Except LineError Bytes × δ

instance : LineFormat Framing where
  decode := Framing.decode
  encode f line := (.ok (frameLine line), f)

instance {σ : Type} [LineCipher σ] : LineFormat (LineCodec σ) where
  decode := LineCodec.decode
  encode := LineCodec.encode

/-- Plain lines or lines under other rules. -/
instance {δ ε : Type} [LineFormat δ] [LineFormat ε] : LineFormat (δ ⊕ ε) where
  decode
    | .inl f, ended, buffer => (LineFormat.decode f ended buffer).map id (Prod.map .inl id)
    | .inr f, ended, buffer => (LineFormat.decode f ended buffer).map id (Prod.map .inr id)
  encode
    | .inl f, line => (LineFormat.encode f line).map id .inl
    | .inr f, line => (LineFormat.encode f line).map id .inr

/-! ### Links -/

/-- **A format with a buffer.** -/
structure Link (δ : Type) where
  format : δ
  buffer : Bytes := []
  /-- Whether the buffer may hold a line that was not looked for yet. -/
  readable : Bool := false
  /-- Whether the end of the connection was seen, and nothing arrived since. -/
  atEnd : Bool := false
  /-- Whether the last thing reported was an error. -/
  failed : Bool := false

/-- What asking for the next line comes to. -/
inductive Polled where
  | line (text : String)
  | failed (e : LineError)
  | ended
  | waiting
  deriving DecidableEq, Repr

namespace Link

variable {δ ε : Type}

/-- **Goes on under another format**, with the bytes that were read. -/
def change (l : Link δ) (f : δ → ε) : Link ε :=
  { format := f l.format, buffer := l.buffer, readable := true }

/-- The same state with another setting of the format. -/
def modify (l : Link δ) (f : δ → δ) : Link δ := { l with format := f l.format }

variable [LineFormat δ]

/-- Looks for a line in the buffer, and reports nothing if there is none. -/
def scan (l : Link δ) : Option Polled × Link δ :=
  match LineFormat.decode l.format l.atEnd l.buffer with
  | (.error e, format, buffer) =>
      (some (.failed e), { l with format, buffer, failed := true })
  | (.ok (some text), format, buffer) => (some (.line text), { l with format, buffer })
  | (.ok none, format, buffer) => (none, { l with format, buffer, readable := false })

/-- Looks for a last line after the end of the connection. -/
def scanEnd (l : Link δ) : Polled × Link δ :=
  match l.scan with
  | (some found, l) => (found, l)
  | (none, l) => (.ended, l)

/-- Goes on when nothing has arrived that was not looked at. -/
def awaitEnd (l : Link δ) (c : Connection) : Polled × Link δ × Connection :=
  if !c.finished then (.waiting, l, c)
  else if l.atEnd then (.ended, l, c)
  else
    let (found, l) := { l with atEnd := true, readable := true }.scanEnd
    (found, l, c)

/-- Reads what has arrived, and looks for a line. -/
def fetch (l : Link δ) (c : Connection) : Polled × Link δ × Connection :=
  if c.incoming = [] then l.awaitEnd c
  else
    let l := { l with buffer := l.buffer ++ c.incoming, atEnd := false, readable := true }
    let c := { c with incoming := [] }
    match l.scan with
    | (some found, l) => (found, l, c)
    | (none, l) => l.awaitEnd c

/-- **The next line of a connection.** -/
def poll (l : Link δ) (c : Connection) : Polled × Link δ × Connection :=
  if l.failed then (.ended, { l with failed := false, readable := false }, c)
  else if l.readable then
    if l.atEnd then
      let (found, l) := l.scanEnd
      (found, l, c)
    else match l.scan with
      | (some found, l) => (found, l, c)
      | (none, l) => l.fetch c
  else l.fetch c

/-- **A line written to a connection.** -/
def send (l : Link δ) (line : String) (c : Connection) :
    Except LineError Unit × Link δ × Connection :=
  match LineFormat.encode l.format line with
  | (.error e, format) => (.error e, { l with format }, c)
  | (.ok bytes, format) =>
      let (written, c) := c.write bytes
      (written, { l with format }, c)

end Link

end LineChat
