/-
**Markers and their queues.**

Many conversations share one stream of lines.  Each of them owns a marker, a text that its lines
start with, and a queue of lines; the empty marker owns the lines that no other marker claims.  No
marker but the empty one is the start of another, so at most one of them claims a line, and it is
the longest one that does.

Main definitions:

* `LineChat.Text.opens` — one text is the start of another;
* `LineChat.MarkerTable` — markers with their queues, in the order of registration;
* `LineChat.MarkerTable.register`, `LineChat.MarkerTable.ensure` — adding a marker;
* `LineChat.MarkerTable.owner?` — **the marker that a line belongs to**;
* `LineChat.MarkerTable.push`, `LineChat.MarkerTable.pop` — putting a line in a queue, and taking
  the oldest one out.

Main results:

* `LineChat.MarkerTable.queue?_push`, `LineChat.MarkerTable.markers_push` — what a push changes.
-/

import LineChat.Channel.Error

set_option autoImplicit false

namespace LineChat

/-- Whether one text is the start of another. -/
def Text.opens (opening text : String) : Bool := opening.toList.isPrefixOf text.toList

/-- A text without a text at its start. -/
def Text.behind (opening text : String) : String :=
  String.ofList (text.toList.drop opening.toList.length)

/-- The marker of the lines that no other marker claims. -/
def catchAll : String := ""

/-- **Markers with their queues**, oldest line first, in the order of registration. -/
structure MarkerTable where
  queues : List (String × List String) := [(catchAll, [])]
  deriving DecidableEq, Repr

namespace MarkerTable

/-- All markers, the empty one included. -/
def markers (t : MarkerTable) : List String := t.queues.map (·.1)

/-- The queue of a marker, if it is registered. -/
def queue? (t : MarkerTable) (marker : String) : Option (List String) :=
  (t.queues.find? (·.1 == marker)).map (·.2)

/-- Whether a marker is registered. -/
def contains (t : MarkerTable) (marker : String) : Bool := t.markers.contains marker

/-- The registered markers but the empty one, sorted. -/
def sortedMarkers (t : MarkerTable) : List String :=
  (t.markers.filter (· ≠ catchAll)).mergeSort fun a b => decide (a ≤ b)

/-! ### Adding markers -/

/-- Whether two markers cannot be told apart on every line: one is the start of the other. -/
def conflict (a b : String) : Bool := Text.opens a b || Text.opens b a

/-- **Registers a marker** that is not empty and conflicts with no other. -/
def register (t : MarkerTable) (marker : String) : Except LineError MarkerTable :=
  if marker = catchAll then
    .error (.invalidArgument "the catch-all marker is always registered")
  else match t.markers.find? fun m => m ≠ catchAll && conflict m marker with
    | some existing =>
        .error (.invalidArgument
          s!"marker {Text.quote marker} conflicts with {Text.quote existing}")
    | none => .ok ⟨t.queues ++ [(marker, [])]⟩

/-- **Registers a marker unless it already is registered.** -/
def ensure (t : MarkerTable) (marker : String) : Except LineError MarkerTable :=
  if t.contains marker then .ok t else t.register marker

/-- The error of asking for the lines of a marker that is not registered. -/
def notRegistered (marker : String) : LineError :=
  .invalidArgument s!"marker {Text.quote marker} is not registered"

/-! ### Lines -/

/-- The longest of some texts in bytes, a later one among equals. -/
def longest (texts : List String) : Option String :=
  texts.foldl (fun best m =>
    match best with
    | some b => if b.utf8ByteSize ≤ m.utf8ByteSize then some m else some b
    | none => some m) none

/-- **The marker that a line belongs to**: the longest one that it starts with. -/
def owner? (t : MarkerTable) (line : String) : Option String :=
  longest (t.markers.filter fun m => Text.opens m line)

/-- A line at the end of a marker's queue. -/
def push (t : MarkerTable) (marker line : String) : MarkerTable :=
  ⟨t.queues.map fun q => if q.1 = marker then (q.1, q.2 ++ [line]) else q⟩

/-- The table with a marker's queue replaced. -/
def setQueue (t : MarkerTable) (marker : String) (lines : List String) : MarkerTable :=
  ⟨t.queues.map fun q => if q.1 = marker then (q.1, lines) else q⟩

/-- **Takes the oldest line of a marker's queue**, if there is one. -/
def pop (t : MarkerTable) (marker : String) : Option (String × MarkerTable) :=
  match t.queue? marker with
  | some (line :: rest) => some (line, t.setQueue marker rest)
  | _ => none

/-! ### What a push changes -/

/-- A push adds no marker. -/
@[simp] theorem markers_push (t : MarkerTable) (marker line : String) :
    (t.push marker line).markers = t.markers := by
  simp only [markers, push, List.map_map]
  refine List.map_congr_left fun q _ => ?_
  by_cases h : q.1 = marker <;> simp [h]

theorem find?_map_key (qs : List (String × List String)) (m : String)
    (f : String × List String → String × List String) (hf : ∀ q, (f q).1 = q.1) :
    (qs.map f).find? (·.1 == m) = (qs.find? (·.1 == m)).map f := by
  induction qs with
  | nil => rfl
  | cons q qs ih =>
      by_cases h : q.1 = m
      · simp [h, hf]
      · simp [h, hf, ih]

/-- A push adds one line to one queue. -/
theorem queue?_push (t : MarkerTable) (marker line m : String) :
    (t.push marker line).queue? m =
      if m = marker then (t.queue? m).map (· ++ [line]) else t.queue? m := by
  unfold queue? push
  rw [find?_map_key _ _ _ (by intro q; by_cases h : q.1 = marker <;> simp [h])]
  cases hq : t.queues.find? (·.1 == m) with
  | none => simp
  | some q =>
      have hm : q.1 = m := by simpa using List.find?_some hq
      by_cases h : m = marker
      · simp [h, hm]
      · simp [h, hm]

end MarkerTable

end LineChat
