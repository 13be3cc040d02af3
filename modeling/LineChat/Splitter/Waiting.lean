/-
**Waiting for lines.**

A consumer that asks for the next line of a marker and finds none waits until it is woken.  It
first subscribes to the wake-ups of the queue, then looks into it, then looks whether the splitter
has ended, and only then goes to sleep; whoever pushes a line or ends the splitter does that first
and wakes the subscribers afterwards.  Others register markers meanwhile.  The steps of all of them
may interleave in any way.

Lines are handed to the consumers of one marker in the order in which they are woken, which in
`settle` is the order in which they came.

Main definitions:

* `LineChat.Consumer` — a reader of one marker's lines, and what it is about to do;
* `LineChat.EnsureCall` — a call that registers a marker unless it already is registered;
* `LineChat.Conversation` — a splitter, its consumers and calls, and the wake-ups still to come;
* `LineChat.Conversation.Action`, `LineChat.Conversation.step?` — **the atomic steps**;
* `LineChat.Conversation.run` — **a schedule of steps**;
* `LineChat.Conversation.advance`, `LineChat.Conversation.settle` — one consumer or everybody
  running until nobody can go on;
* `LineChat.Conversation.deliver` — an item of the stream, taken and passed on.
-/

import LineChat.Splitter.Reader

set_option autoImplicit false

namespace LineChat

/-- **What a consumer is about to do.** -/
inductive Consumer.Phase where
  /-- Nothing: its marker is not registered. -/
  | refused
  /-- Subscribe to the wake-ups of its queue. -/
  | subscribing
  /-- Take a line from the queue. -/
  | popping
  /-- Look whether the splitter has ended. -/
  | checking
  /-- Sleep until it is woken. -/
  | parked
  /-- Nothing any more: it got a line, or learnt that there will be none. -/
  | finished (line : Option String)
  deriving DecidableEq, Repr

/-- **A reader of one marker's lines.** -/
structure Consumer where
  id : Nat
  marker : String
  /-- Whether the marker is taken off the line. -/
  strip : Bool
  phase : Consumer.Phase := .subscribing
  /-- Whether it was woken since it subscribed. -/
  woken : Bool := false
  deriving DecidableEq, Repr

namespace Consumer

/-- Whether wake-ups of its queue reach it. -/
def isSubscribed (c : Consumer) : Bool :=
  match c.phase with
  | .popping | .checking | .parked => true
  | .refused | .subscribing | .finished _ => false

/-- What it has got, once it is finished. -/
def result? (c : Consumer) : Option (Option String) :=
  match c.phase with
  | .finished line => some line
  | _ => none

/-- **What its read comes to**: an error, a line or the end, or nothing yet. -/
def outcome (c : Consumer) : Except LineError (Option (Option String)) :=
  if c.phase = .refused then .error (MarkerTable.notRegistered c.marker) else .ok c.result?

/-- A line as the consumer wants it. -/
def shape (c : Consumer) (line : String) : String :=
  if c.strip then Text.behind c.marker line else line

end Consumer

/-- **What a call that ensures a marker is about to do.** -/
inductive EnsureCall.Phase where
  /-- Look whether the marker is registered. -/
  | looking
  /-- Register the marker. -/
  | registering
  /-- Look again, since registering failed: another call may have come first. -/
  | lookingAgain (error : LineError)
  /-- Nothing any more. -/
  | finished (error : Option LineError)
  deriving DecidableEq, Repr

/-- **A call that registers a marker unless it already is registered.** -/
structure EnsureCall where
  id : Nat
  marker : String
  phase : EnsureCall.Phase := .looking
  deriving DecidableEq, Repr

/-- **A splitter with its consumers.** -/
structure Conversation where
  splitter : Splitter := {}
  consumers : List Consumer := []
  ensures : List EnsureCall := []
  /-- How many times the splitter is being closed and was not ended by that yet. -/
  closing : Nat := 0
  /-- How many times the splitter was ended without its queues having been listed yet. -/
  ending : Nat := 0
  /-- Queues whose subscribers are still to be woken, since the splitter has ended. -/
  notices : List String := []
  deriving DecidableEq, Repr

namespace Conversation

/-! ### Atomic steps -/

/-- **The steps that can interleave.** -/
inductive Action where
  | register (marker : String)
  /-- A call with a new number asks for a marker to be registered. -/
  | ensure (id : Nat) (marker : String)
  /-- A call for a marker takes its next step. -/
  | ensureNext (id : Nat)
  | start
  /-- The splitter is being closed: the reader is told to stop. -/
  | close
  /-- The splitter has ended, since it is being closed. -/
  | closeEnd
  | take (item : StreamItem)
  | cancel
  | route
  | push
  | notify
  | stop
  /-- The queues are listed whose subscribers are going to be woken, since the splitter has
  ended. -/
  | wakeAll
  /-- The subscribers of a queue are woken, since the splitter has ended. -/
  | wake (marker : String)
  /-- A consumer with a new number asks for the lines of a marker. -/
  | join (id : Nat) (marker : String) (strip : Bool)
  /-- A consumer takes its next step. -/
  | run (id : Nat)
  /-- A consumer hands over what it has got, or gives up. -/
  | leave (id : Nat)
  deriving DecidableEq, Repr

/-- The consumer with a number. -/
def consumer? (v : Conversation) (id : Nat) : Option Consumer := v.consumers.find? (·.id == id)

/-- The call for a marker with a number. -/
def ensure? (v : Conversation) (id : Nat) : Option EnsureCall := v.ensures.find? (·.id == id)

/-- A number that no consumer has. -/
def freshId (v : Conversation) : Nat := v.consumers.foldl (fun n c => max n (c.id + 1)) 0

/-- A consumer replaced by its next state. -/
def setConsumer (v : Conversation) (c : Consumer) : Conversation :=
  { v with consumers := v.consumers.map fun d => if d.id = c.id then c else d }

/-- A call for a marker replaced by its next state. -/
def setEnsure (v : Conversation) (e : EnsureCall) : Conversation :=
  { v with ensures := v.ensures.map fun d => if d.id = e.id then e else d }

/-- Wakes the subscribers of one queue. -/
def wakeSubscribers (marker : String) (cs : List Consumer) : List Consumer :=
  cs.map fun c => if c.marker = marker ∧ c.isSubscribed then { c with woken := true } else c

/-- **A consumer's next step**, if it has one. -/
def runConsumer (v : Conversation) (c : Consumer) : Option Conversation :=
  match c.phase with
  | .refused => none
  | .subscribing => some (v.setConsumer { c with phase := .popping, woken := false })
  | .popping =>
      match v.splitter.table.pop c.marker with
      | some (line, table) =>
          some ({ v with splitter := { v.splitter with table } }.setConsumer
            { c with phase := .finished (some (c.shape line)) })
      | none => some (v.setConsumer { c with phase := .checking })
  | .checking =>
      some (v.setConsumer
        { c with phase := if v.splitter.ended then .finished none else .parked })
  | .parked => if c.woken then some (v.setConsumer { c with phase := .subscribing }) else none
  | .finished _ => none

/-- **The next step of a call for a marker**, if it has one.  It holds the table during one step
only, so others may register markers between any two of them. -/
def runEnsure (v : Conversation) (e : EnsureCall) : Option Conversation :=
  match e.phase with
  | .looking =>
      let found := v.splitter.table.contains e.marker
      some (v.setEnsure { e with phase := if found then .finished none else .registering })
  | .registering =>
      match v.splitter.register e.marker with
      | .ok splitter => some ({ v with splitter }.setEnsure { e with phase := .finished none })
      | .error error => some (v.setEnsure { e with phase := .lookingAgain error })
  | .lookingAgain error =>
      let found := v.splitter.table.contains e.marker
      some (v.setEnsure { e with phase := .finished (if found then none else some error) })
  | .finished _ => none

/-- **One atomic step**, if it can be taken. -/
def step? (v : Conversation) : Action → Option Conversation
  | .register marker =>
      (v.splitter.register marker).toOption.map fun splitter => { v with splitter }
  | .ensure id marker =>
      if v.ensure? id = none then some { v with ensures := v.ensures ++ [{ id, marker }] }
      else none
  | .ensureNext id => (v.ensure? id).bind v.runEnsure
  | .start => v.splitter.start.toOption.map fun splitter => { v with splitter }
  | .close => some { v with splitter := v.splitter.cancelReader, closing := v.closing + 1 }
  | .closeEnd =>
      if 0 < v.closing then
        some { v with
          splitter := v.splitter.setEnded
          closing := v.closing - 1
          ending := v.ending + 1 }
      else none
  | .take item => (v.splitter.take? item).map fun splitter => { v with splitter }
  | .cancel => v.splitter.cancel?.map fun splitter => { v with splitter }
  | .route => v.splitter.route?.map fun splitter => { v with splitter }
  | .push => v.splitter.push?.map fun splitter => { v with splitter }
  | .notify =>
      v.splitter.notify?.map fun (marker, splitter) =>
        { v with splitter, consumers := wakeSubscribers marker v.consumers }
  | .stop => v.splitter.stop?.map fun splitter => { v with splitter, ending := v.ending + 1 }
  | .wakeAll =>
      if 0 < v.ending then
        some { v with
          ending := v.ending - 1
          notices := v.notices ++ v.splitter.table.markers }
      else none
  | .wake marker =>
      if marker ∈ v.notices then
        some { v with
          consumers := wakeSubscribers marker v.consumers
          notices := v.notices.erase marker }
      else none
  | .join id marker strip =>
      if v.consumer? id = none then
        let registered := v.splitter.table.contains marker
        let phase := if registered then .subscribing else .refused
        some { v with consumers := v.consumers ++ [{ id, marker, strip, phase }] }
      else none
  | .run id => (v.consumer? id).bind v.runConsumer
  | .leave id => some { v with consumers := v.consumers.filter (·.id ≠ id) }

/-- A step taken if it can be. -/
def tryStep (v : Conversation) (a : Action) : Conversation := (v.step? a).getD v

/-- **A schedule of steps**; those that cannot be taken are left out. -/
def run (v : Conversation) (schedule : List Action) : Conversation := schedule.foldl tryStep v

/-! ### Running until nobody can go on -/

/-- **A consumer runs until it sleeps or is finished**: at most four steps, since nobody wakes it
meanwhile. -/
def advance (v : Conversation) (id : Nat) : Conversation := v.run (List.replicate 4 (.run id))

/-- All wake-ups that are due are carried out. -/
def wakeDue (v : Conversation) : Conversation :=
  let v := v.run (List.replicate v.ending .wakeAll)
  v.run (v.notices.map .wake)

/-- **Everybody runs until nobody can go on**: the wake-ups that are due, then the consumers in the
order in which they came. -/
def settle (v : Conversation) : Conversation :=
  let v := v.wakeDue
  v.consumers.foldl (fun v c => v.advance c.id) v

/-- **An item of the stream, taken and passed on**, with everybody running afterwards. -/
def deliver (v : Conversation) (item : StreamItem) : Conversation :=
  (v.run [.take item, .route, .push, .notify, .stop]).settle

/-- **A stream started** of which some items are ready.  The reader takes those before it notices
that the splitter is closed, if it is. -/
def begin (v : Conversation) (ready : List StreamItem := []) : Except LineError Conversation :=
  v.splitter.start.map fun splitter =>
    ((ready.foldl deliver { v with splitter }).run [.cancel, .stop]).settle

/-- The splitter closed, with the reader noticing and everybody running afterwards. -/
def shut (v : Conversation) : Conversation :=
  (v.run [.close, .closeEnd, .cancel, .stop]).settle

/-- A read that does not wait: a line, the end, or nothing yet.  A marker that is not registered is
refused. -/
def readNow (v : Conversation) (marker : String) (strip : Bool) :
    Except LineError (Option (Option String)) × Conversation :=
  let id := v.freshId
  let v := (v.tryStep (.join id marker strip)).advance id
  ((v.consumer? id).elim (.ok none) Consumer.outcome, v.tryStep (.leave id))

end Conversation

end LineChat
