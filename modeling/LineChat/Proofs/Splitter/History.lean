/-
**What has happened to the lines.**

The state of a conversation forgets: a line that was read is in no queue any more, and a consumer
that left is not listed.  A history keeps what a schedule has done so far beside the state it has
led to: the items that the reader took off the stream, the lines that it put in queues, with the
markers that it chose from, the lines that consumers took out, and the consumers that left.

Main definitions:

* `LineChat.StreamItem.linesBefore` — the lines of a stream before its first error or its end;
* `LineChat.Consumer.receipt?` — the line that a read has got, if it has got one;
* `LineChat.History`, `LineChat.History.run` — **a schedule with what it has done**.

Main results:

* `LineChat.History.now_run` — a history leads to the state that its schedule leads to;
* `LineChat.History.run_induction` — what every kind of step keeps, every history keeps.
-/

import LineChat.Proofs.Splitter.Routing

set_option autoImplicit false

namespace LineChat

/-- **The lines of a stream before its first error or its end.** -/
def StreamItem.linesBefore : List StreamItem → List String
  | .line text :: rest => text :: linesBefore rest
  | _ => []

/-- The line that the reader has taken and not put in a queue yet. -/
def Reader.inHand : Reader → List String
  | .routing line | .pushing _ line => [line]
  | _ => []

/-- **A line that was put in a queue.** -/
structure Routed where
  /-- The markers that were registered when the reader looked for the one the line belongs to. -/
  known : List String
  marker : String
  line : String

/-- What the reader puts in a queue if it goes on now. -/
def Reader.puts (known : List String) : Reader → List Routed
  | .pushing marker line => [{ known, marker, line }]
  | _ => []

/-- **What a read returned**, if that is a line. -/
structure Receipt where
  id : Nat
  marker : String
  strip : Bool
  text : String

/-- **A line that was taken out of its queue**, and what the read that took it returns for it. -/
structure Taken extends Receipt where
  line : String

namespace Consumer

/-- **What the read has got**, if that is a line.  A read that was refused, one that waits, one that
learnt that there will be no line, and one that gave up before it was finished have none. -/
def receipt? (c : Consumer) : Option Receipt :=
  match c.phase with
  | .finished (some text) => some { id := c.id, marker := c.marker, strip := c.strip, text }
  | _ => none

/-- What the consumer takes out of its queue if it goes on now. -/
def takes (c : Consumer) (t : MarkerTable) : List Taken :=
  if c.phase = .popping then
    match t.pop c.marker with
    | some (line, _) =>
        [{ id := c.id, marker := c.marker, strip := c.strip, text := c.shape line, line }]
    | none => []
  else []

end Consumer

/-- **A conversation with what has happened to the lines.** -/
structure History where
  now : Conversation := {}
  /-- The items that the reader took off the stream. -/
  items : List StreamItem := []
  /-- The markers that were registered when the reader last looked for one. -/
  known : List String := []
  /-- The lines that the reader put in queues. -/
  routed : List Routed := []
  /-- The lines that consumers took out. -/
  taken : List Taken := []
  /-- The consumers that left, as they were then. -/
  gone : List Consumer := []

namespace History

open Conversation (Action Step)

/-- All reads that there were so far. -/
def reads (h : History) : List Consumer := h.gone ++ h.now.consumers

/-- The lines that were put in the queue of a marker. -/
def routedTo (h : History) (m : String) : List String :=
  (h.routed.filter (·.marker = m)).map (·.line)

/-- The lines that were taken out of the queue of a marker. -/
def takenFrom (h : History) (m : String) : List String :=
  (h.taken.filter (·.marker = m)).map (·.line)

/-- **A step written down**, with the state it leads to. -/
def record (h : History) (a : Action) (v : Conversation) : History :=
  match a with
  | .take item => { h with now := v, items := h.items ++ [item] }
  | .route => { h with now := v, known := h.now.splitter.table.markers }
  | .push => { h with now := v, routed := h.routed ++ h.now.splitter.reader.puts h.known }
  | .run id =>
      let taken := (h.now.consumer? id).elim [] fun c => c.takes h.now.splitter.table
      { h with now := v, taken := h.taken ++ taken }
  | .leave id => { h with now := v, gone := h.gone ++ h.now.consumers.filter (·.id = id) }
  | _ => { h with now := v }

/-- A step taken and written down, if it can be taken. -/
def step (h : History) (a : Action) : History := (h.now.step? a).elim h (h.record a)

/-- **A schedule of steps**, with what it does; those that cannot be taken are left out. -/
def run (schedule : List Action) : History := schedule.foldl step {}

variable {h : History} {a : Action} {v : Conversation}

theorem now_record (h : History) (a : Action) (v : Conversation) : (h.record a v).now = v := by
  cases a <;> rfl

theorem record_registration (ha : a.isRegistration = true) :
    h.record a v = { h with now := v } := by
  cases a <;> first | rfl | cases ha

/-- Writing down changes nothing: **a history leads to the state that its schedule leads to.** -/
theorem now_run (schedule : List Action) : (run schedule).now = Conversation.run {} schedule := by
  have hfold : ∀ h : History, (schedule.foldl step h).now = h.now.run schedule := by
    induction schedule with
    | nil => exact fun _ => rfl
    | cons a schedule ih =>
        intro h
        have hstep : (h.step a).now = h.now.tryStep a := by
          rw [step, Conversation.tryStep]
          cases h.now.step? a with
          | none => rfl
          | some v => exact now_record ..
        rw [List.foldl_cons, ih, hstep]
        rfl
  exact hfold {}

theorem run_append (schedule more : List Action) :
    run (schedule ++ more) = more.foldl step (run schedule) :=
  List.foldl_append

/-- What the kinds of steps of a schedule keep, it keeps from any history on. -/
theorem foldl_induction {P : History → Prop} {schedule : List Action}
    (hstep : ∀ h a v, a ∈ schedule → P h → Step h.now a v → P (h.record a v)) (hh : P h) :
    P (schedule.foldl step h) := by
  induction schedule generalizing h with
  | nil => exact hh
  | cons a schedule ih =>
      refine ih (fun h b v hb => hstep h b v (List.mem_cons_of_mem a hb)) ?_
      rw [step]
      cases hv : h.now.step? a with
      | none => exact hh
      | some v => exact hstep h a v List.mem_cons_self hh (.of_step? hv)

/-- **What every kind of step keeps, every history keeps.** -/
theorem run_induction {P : History → Prop}
    (hstep : ∀ h a v, P h → Step h.now a v → P (h.record a v)) (hstart : P {})
    (schedule : List Action) : P (run schedule) :=
  foldl_induction (fun h a v _ => hstep h a v) hstart

end History

end LineChat
