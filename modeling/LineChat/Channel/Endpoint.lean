/-
**Two buffers and a format.**

An endpoint reads lines from what was fed to it and writes lines behind what it has written so far.
Nothing happens by itself: bytes move from the output of one endpoint to the input of another when
somebody moves them, any number at a time, so that every way in which a connection can deliver bytes
is a sequence of feeds.

Main definitions:

* `LineChat.Endpoint` — a format with an input and an output buffer;
* `LineChat.Endpoint.read` — **the next line of the input**;
* `LineChat.Endpoint.write` — **a line behind the output**;
* `LineChat.Endpoint.feed`, `LineChat.Endpoint.drain` — bytes that arrive, and bytes that leave.
-/

import LineChat.Channel.Link

set_option autoImplicit false

namespace LineChat

/-- **A format with an input and an output buffer.** -/
structure Endpoint (δ : Type) where
  format : δ
  input : Bytes := []
  output : Bytes := []

namespace Endpoint

variable {δ : Type}

/-- Bytes have arrived. -/
def feed (e : Endpoint δ) (bytes : Bytes) : Endpoint δ := { e with input := e.input ++ bytes }

/-- The first bytes of the output leave. -/
def drain (e : Endpoint δ) (count : Nat) : Bytes × Endpoint δ :=
  (e.output.take count, { e with output := e.output.drop count })

variable [LineFormat δ]

/-- **The next line of the input**, if there is one; if the input has ended, what is left of it
counts as a line. -/
def read (e : Endpoint δ) (ended : Bool) : Except LineError (Option String) × Endpoint δ :=
  let (result, format, input) := LineFormat.decode e.format ended e.input
  (result, { e with format, input })

/-- **A line behind the output**; the bytes that were written come with it. -/
def write (e : Endpoint δ) (line : String) : Except LineError Bytes × Endpoint δ :=
  match LineFormat.encode e.format line with
  | (.ok bytes, format) => (.ok bytes, { e with format, output := e.output ++ bytes })
  | (.error err, format) => (.error err, { e with format })

end Endpoint

end LineChat
