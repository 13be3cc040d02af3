/-
**Splitting a stream of lines.**

One reader takes the lines off a stream and routes each of them to the queue it belongs to.  It
stops at the stream's end, at its first error, which is kept, or when the splitter is closed; then
the splitter has ended.  The steps of the reader are separate, since others can read, register
markers or close the splitter between any two of them: taking an item, looking for the marker that
the line belongs to, putting the line in that marker's queue, waking those who wait for it, and
setting the flag that says the splitter has ended.  Closing has two steps as well: the reader is
told to stop before the flag is set.

Main definitions:

* `LineChat.StreamItem` — what a stream yields;
* `LineChat.Reader` — what the reader is about to do;
* `LineChat.Splitter` — the table, the reader, and how the stream ended;
* `LineChat.Splitter.take?`, `LineChat.Splitter.route?`, `LineChat.Splitter.push?`,
  `LineChat.Splitter.notify?`, `LineChat.Splitter.cancel?`, `LineChat.Splitter.stop?` — **the
  reader's steps**;
* `LineChat.Splitter.start`, `LineChat.Splitter.register`, `LineChat.Splitter.cancelReader`,
  `LineChat.Splitter.setEnded` — what its owner can do.
-/

import LineChat.Splitter.Table
import LineChat.Text.Record

set_option autoImplicit false

namespace LineChat

/-- **What a stream yields.** -/
inductive StreamItem where
  | line (text : String)
  | failure (message : String)
  | finished
  deriving DecidableEq, Repr

/-- **What the reader is about to do.** -/
inductive Reader where
  /-- There is no reader yet. -/
  | absent
  /-- Take the next item of the stream. -/
  | reading
  /-- Look for the marker that the line it took belongs to. -/
  | routing (line : String)
  /-- Put the line in the queue of its marker. -/
  | pushing (marker line : String)
  /-- Wake those who wait for the lines of a marker. -/
  | waking (marker : String)
  /-- Say that the splitter has ended. -/
  | stopping
  /-- Nothing any more; the stream is dropped. -/
  | stopped
  deriving DecidableEq, Repr

/-- **A splitter**: its markers and queues, its reader, and how the stream ended. -/
structure Splitter where
  table : MarkerTable := {}
  reader : Reader := .absent
  cancelled : Bool := false
  ended : Bool := false
  failure : Option String := none
  deriving DecidableEq, Repr

namespace Splitter

/-! ### Its owner -/

/-- **Starts reading a stream.**  A splitter reads one stream only. -/
def start (s : Splitter) : Except LineError Splitter :=
  if s.reader = .absent then .ok { s with reader := .reading }
  else .error (.invalidArgument "splitter is already reading a stream")

/-- Registers a marker. -/
def register (s : Splitter) (marker : String) : Except LineError Splitter :=
  (s.table.register marker).map fun table => { s with table }

/-- Registers a marker unless it already is registered. -/
def ensure (s : Splitter) (marker : String) : Except LineError Splitter :=
  (s.table.ensure marker).map fun table => { s with table }

/-- The reader is told to stop. -/
def cancelReader (s : Splitter) : Splitter := { s with cancelled := true }

/-- The splitter has ended.  Lines already queued can still be read. -/
def setEnded (s : Splitter) : Splitter := { s with ended := true }

/-- **The error the stream ended with**, if it ended with one. -/
def termination (s : Splitter) : Option String := s.failure

/-- The splitter as diagnostics show it. -/
def debug (s : Splitter) : String :=
  Text.record "LineSplitter"
    [("prefixes", "[" ++ ", ".intercalate (s.table.sortedMarkers.map Text.quote) ++ "]"),
     ("ended", Text.ofBool s.ended)]

/-! ### Its reader -/

/-- Whether the reader still wants items. -/
def wantsItem (s : Splitter) : Bool := s.reader = .reading

/-- **The reader takes an item.**  It may do so although the splitter is closed, if an item is ready
at that moment. -/
def take? (s : Splitter) (item : StreamItem) : Option Splitter :=
  match s.reader with
  | .reading =>
      match item with
      | .line text => some { s with reader := .routing text }
      | .failure message => some { s with reader := .stopping, failure := some message }
      | .finished => some { s with reader := .stopping }
  | _ => none

/-- **The reader notices that the splitter is closed.** -/
def cancel? (s : Splitter) : Option Splitter :=
  if s.reader = .reading ∧ s.cancelled then some { s with reader := .stopping } else none

/-- **The reader looks for the marker** that the line it took belongs to. -/
def route? (s : Splitter) : Option Splitter :=
  match s.reader with
  | .routing line =>
      match s.table.owner? line with
      | some marker => some { s with reader := .pushing marker line }
      | none => some { s with reader := .reading }
  | _ => none

/-- **The reader puts the line in the queue** of the marker it found. -/
def push? (s : Splitter) : Option Splitter :=
  match s.reader with
  | .pushing marker line =>
      some { s with table := s.table.push marker line, reader := .waking marker }
  | _ => none

/-- **The reader wakes** those who wait for lines of a marker, which comes with it. -/
def notify? (s : Splitter) : Option (String × Splitter) :=
  match s.reader with
  | .waking marker => some (marker, { s with reader := .reading })
  | _ => none

/-- **The reader says that the splitter has ended.** -/
def stop? (s : Splitter) : Option Splitter :=
  match s.reader with
  | .stopping => some { s.setEnded with reader := .stopped }
  | _ => none

end Splitter

end LineChat
