/-
**What one step of a conversation can do.**

The reader, the consumers, the calls that register markers and those that close the splitter take
their steps in any order.  What a step changes depends on little: each kind of step has its guard
and its effect, and every invariant of a conversation goes through them once.

Main definitions:

* `LineChat.Conversation.Step` — **the kinds of steps**, with their guards and effects.

Main results:

* `LineChat.Conversation.Step.of_step?` — every step that can be taken is of one of these kinds;
* `LineChat.Conversation.run_induction` — **what every kind of step keeps, every schedule keeps**.
-/

import LineChat.Proofs.Splitter.Table
import LineChat.Splitter.Waiting

set_option autoImplicit false

namespace LineChat

/-- Whether the reader takes no items any more. -/
def Reader.isDone : Reader → Bool
  | .stopping | .stopped => true
  | _ => false

namespace Conversation

/-! ### The kinds of steps -/

/-- Whether a step belongs to a call that registers a marker. -/
def Action.isRegistration : Action → Bool
  | .register _ | .ensure _ _ | .ensureNext _ => true
  | _ => false

/-- **The kinds of steps.** -/
inductive Step (v : Conversation) : Action → Conversation → Prop where
  /-- A marker is registered. -/
  | registered {a : Action} {marker : String} {table : MarkerTable} (ensures : List EnsureCall)
      (ha : a.isRegistration = true) (h : v.splitter.table.register marker = .ok table) :
      Step v a { v with splitter := { v.splitter with table }, ensures }
  /-- A call for a marker comes, or goes on without registering it. -/
  | ensuring {a : Action} (ensures : List EnsureCall) (ha : a.isRegistration = true) :
      Step v a { v with ensures }
  | started (h : v.splitter.reader = .absent) :
      Step v .start { v with splitter := { v.splitter with reader := .reading } }
  | closing :
      Step v .close { v with splitter := v.splitter.cancelReader, closing := v.closing + 1 }
  | closed (h : 0 < v.closing) :
      Step v .closeEnd
        { v with splitter := v.splitter.setEnded, closing := v.closing - 1, ending := v.ending + 1 }
  | tookLine {line : String} (h : v.splitter.reader = .reading) :
      Step v (.take (.line line))
        { v with splitter := { v.splitter with reader := .routing line } }
  | tookFailure {message : String} (h : v.splitter.reader = .reading) :
      Step v (.take (.failure message))
        { v with splitter := { v.splitter with reader := .stopping, failure := some message } }
  | tookEnd (h : v.splitter.reader = .reading) :
      Step v (.take .finished) { v with splitter := { v.splitter with reader := .stopping } }
  | cancelled (h : v.splitter.reader = .reading) (hc : v.splitter.cancelled = true) :
      Step v .cancel { v with splitter := { v.splitter with reader := .stopping } }
  | routed {line marker : String} (h : v.splitter.reader = .routing line)
      (ho : v.splitter.table.owner? line = some marker) :
      Step v .route { v with splitter := { v.splitter with reader := .pushing marker line } }
  /-- No marker opens the line, which cannot be. -/
  | unrouted {line : String} (h : v.splitter.reader = .routing line)
      (ho : v.splitter.table.owner? line = none) :
      Step v .route { v with splitter := { v.splitter with reader := .reading } }
  | pushed {line marker : String} (h : v.splitter.reader = .pushing marker line) :
      Step v .push
        { v with
          splitter := { v.splitter with
            table := v.splitter.table.push marker line
            reader := .waking marker } }
  | notified {marker : String} (h : v.splitter.reader = .waking marker) :
      Step v .notify
        { v with
          splitter := { v.splitter with reader := .reading }
          consumers := wakeSubscribers marker v.consumers }
  | stopped (h : v.splitter.reader = .stopping) :
      Step v .stop
        { v with
          splitter := { v.splitter.setEnded with reader := .stopped }
          ending := v.ending + 1 }
  | listed (h : 0 < v.ending) :
      Step v .wakeAll
        { v with ending := v.ending - 1, notices := v.notices ++ v.splitter.table.markers }
  | woke {marker : String} (h : marker ∈ v.notices) :
      Step v (.wake marker)
        { v with
          consumers := wakeSubscribers marker v.consumers
          notices := v.notices.erase marker }
  | refused {id : Nat} {marker : String} {strip : Bool} (hid : v.consumer? id = none)
      (h : marker ∉ v.splitter.table.markers) :
      Step v (.join id marker strip)
        { v with consumers := v.consumers ++ [{ id, marker, strip, phase := .refused }] }
  | joined {id : Nat} {marker : String} {strip : Bool} (hid : v.consumer? id = none)
      (h : marker ∈ v.splitter.table.markers) :
      Step v (.join id marker strip)
        { v with consumers := v.consumers ++ [{ id, marker, strip, phase := .subscribing }] }
  | subscribed {id : Nat} {c : Consumer} (hc : v.consumer? id = some c)
      (hp : c.phase = .subscribing) :
      Step v (.run id) (v.setConsumer { c with phase := .popping, woken := false })
  | gotLine {id : Nat} {c : Consumer} {line : String} {rest : List String}
      (hc : v.consumer? id = some c) (hp : c.phase = .popping)
      (hq : v.splitter.table.queue? c.marker = some (line :: rest)) :
      Step v (.run id)
        ({ v with
            splitter := { v.splitter with
              table := v.splitter.table.setQueue c.marker rest } }.setConsumer
          { c with phase := .finished (some (c.shape line)) })
  | gotNone {id : Nat} {c : Consumer} (hc : v.consumer? id = some c) (hp : c.phase = .popping)
      (hq : v.splitter.table.linesOf c.marker = []) :
      Step v (.run id) (v.setConsumer { c with phase := .checking })
  | gotEnd {id : Nat} {c : Consumer} (hc : v.consumer? id = some c) (hp : c.phase = .checking)
      (he : v.splitter.ended = true) :
      Step v (.run id) (v.setConsumer { c with phase := .finished none })
  | slept {id : Nat} {c : Consumer} (hc : v.consumer? id = some c) (hp : c.phase = .checking)
      (he : v.splitter.ended = false) :
      Step v (.run id) (v.setConsumer { c with phase := .parked })
  | awoke {id : Nat} {c : Consumer} (hc : v.consumer? id = some c) (hp : c.phase = .parked)
      (hw : c.woken = true) :
      Step v (.run id) (v.setConsumer { c with phase := .subscribing })
  | left {id : Nat} :
      Step v (.leave id) { v with consumers := v.consumers.filter (·.id ≠ id) }

variable {v v' : Conversation} {a : Action}

theorem Step.of_runConsumer {id : Nat} {c : Consumer} (hc : v.consumer? id = some c)
    (h : v.runConsumer c = some v') : Step v (.run id) v' := by
  rw [runConsumer] at h
  split at h
  next => cases h
  next hp =>
    cases h
    exact .subscribed hc hp
  next hp =>
    split at h
    next line table hpop =>
      obtain ⟨rest, hq, rfl⟩ := MarkerTable.pop_eq_some_iff.1 hpop
      cases h
      exact .gotLine hc hp hq
    next hpop =>
      cases h
      exact .gotNone hc hp (MarkerTable.pop_eq_none_iff.1 hpop)
  next hp =>
    cases h
    cases he : v.splitter.ended with
    | true => exact .gotEnd hc hp he
    | false => exact .slept hc hp he
  next hp =>
    split at h
    next hw =>
      cases h
      exact .awoke hc hp hw
    next => cases h
  next => cases h

theorem Step.of_runEnsure {id : Nat} {e : EnsureCall} (h : v.runEnsure e = some v') :
    Step v (.ensureNext id) v' := by
  rw [runEnsure] at h
  split at h
  next =>
    cases h
    exact .ensuring _ rfl
  next =>
    rw [Splitter.register] at h
    cases hr : v.splitter.table.register e.marker with
    | error error =>
        rw [hr] at h
        cases h
        exact .ensuring _ rfl
    | ok table =>
        rw [hr] at h
        cases h
        exact .registered _ rfl hr
  next =>
    cases h
    exact .ensuring _ rfl
  next => cases h

/-- **Every step that can be taken is of one of these kinds.** -/
theorem Step.of_step? (h : v.step? a = some v') : Step v a v' := by
  cases a with
  | register marker =>
      simp only [step?, Splitter.register] at h
      cases hr : v.splitter.table.register marker with
      | error error =>
          rw [hr] at h
          cases h
      | ok table =>
          rw [hr] at h
          cases h
          exact .registered _ rfl hr
  | ensure id marker =>
      simp only [step?] at h
      split at h
      · cases h
        exact .ensuring _ rfl
      · cases h
  | ensureNext id =>
      obtain ⟨e, -, he⟩ := Option.bind_eq_some_iff.1 h
      exact .of_runEnsure he
  | start =>
      simp only [step?, Splitter.start] at h
      split at h
      next hr =>
        cases h
        exact .started hr
      next => cases h
  | close =>
      cases h
      exact .closing
  | closeEnd =>
      simp only [step?] at h
      split at h
      next hc =>
        cases h
        exact .closed hc
      next => cases h
  | take item =>
      simp only [step?, Splitter.take?] at h
      split at h
      next hr =>
        cases item with
        | line line =>
            cases h
            exact .tookLine hr
        | failure message =>
            cases h
            exact .tookFailure hr
        | finished =>
            cases h
            exact .tookEnd hr
      next => cases h
  | cancel =>
      simp only [step?, Splitter.cancel?] at h
      split at h
      next hr =>
        cases h
        exact .cancelled hr.1 hr.2
      next => cases h
  | route =>
      simp only [step?, Splitter.route?] at h
      split at h
      next line hr =>
        split at h
        next marker ho =>
          cases h
          exact .routed hr ho
        next ho =>
          cases h
          exact .unrouted hr ho
      next => cases h
  | push =>
      simp only [step?, Splitter.push?] at h
      split at h
      next hr =>
        cases h
        exact .pushed hr
      next => cases h
  | notify =>
      simp only [step?, Splitter.notify?] at h
      split at h
      next hr =>
        cases h
        exact .notified hr
      next => cases h
  | stop =>
      simp only [step?, Splitter.stop?] at h
      split at h
      next hr =>
        cases h
        exact .stopped hr
      next => cases h
  | wakeAll =>
      simp only [step?] at h
      split at h
      next he =>
        cases h
        exact .listed he
      next => cases h
  | wake marker =>
      simp only [step?] at h
      split at h
      next hm =>
        cases h
        exact .woke hm
      next => cases h
  | join id marker strip =>
      simp only [step?] at h
      split at h
      next hid =>
        cases h
        cases hm : v.splitter.table.contains marker with
        | true => exact .joined hid (MarkerTable.contains_iff.1 hm)
        | false =>
            refine .refused hid fun hmem => ?_
            rw [MarkerTable.contains_iff.2 hmem] at hm
            cases hm
      next => cases h
  | run id =>
      obtain ⟨c, hc, hrun⟩ := Option.bind_eq_some_iff.1 h
      exact .of_runConsumer hc hrun
  | leave id =>
      cases h
      exact .left

/-- A reader that takes no items any more does not start again. -/
theorem Step.isDone (h : Step v a v') (hd : v.splitter.reader.isDone = true) :
    v'.splitter.reader.isDone = true := by
  cases h with
  | started hr | tookLine hr | routed hr _ | unrouted hr _ | pushed hr | notified hr =>
      rw [hr] at hd
      cases hd
  | tookFailure | tookEnd | cancelled | stopped => rfl
  | _ => exact hd

/-- Nor does a splitter that has ended. -/
theorem Step.ended (h : Step v a v') (he : v.splitter.ended = true) :
    v'.splitter.ended = true := by
  cases h with
  | closed | stopped => rfl
  | _ => exact he

/-! ### Consumers -/

theorem mem_of_consumer? {id : Nat} {c : Consumer} (h : v.consumer? id = some c) :
    c ∈ v.consumers :=
  List.mem_of_find?_eq_some h

theorem id_of_consumer? {id : Nat} {c : Consumer} (h : v.consumer? id = some c) : c.id = id := by
  simpa using List.find?_some h

theorem eq_or_mem_of_mem_setConsumer {c d : Consumer} (h : c ∈ (v.setConsumer d).consumers) :
    c = d ∨ (c ∈ v.consumers ∧ c.id ≠ d.id) := by
  obtain ⟨e, he, rfl⟩ := List.mem_map.1 h
  by_cases hid : e.id = d.id
  · rw [if_pos hid]
    exact Or.inl rfl
  · rw [if_neg hid]
    exact Or.inr ⟨he, hid⟩

theorem exists_of_mem_wakeSubscribers {marker : String} {cs : List Consumer} {c : Consumer}
    (h : c ∈ wakeSubscribers marker cs) : ∃ d ∈ cs, c = d ∨ c = { d with woken := true } := by
  obtain ⟨d, hd, rfl⟩ := List.mem_map.1 h
  by_cases hw : d.marker = marker ∧ d.isSubscribed = true
  · rw [if_pos hw]
    exact ⟨d, hd, Or.inr rfl⟩
  · rw [if_neg hw]
    exact ⟨d, hd, Or.inl rfl⟩

/-! ### Schedules -/

theorem run_append (v : Conversation) (before later : List Action) :
    v.run (before ++ later) = (v.run before).run later :=
  List.foldl_append

/-- **What every step keeps, every schedule keeps.** -/
theorem run_induction_of_step? {P : Conversation → Prop}
    (hstep : ∀ v a v', P v → v.step? a = some v' → P v') (h : P v) (schedule : List Action) :
    P (v.run schedule) := by
  induction schedule generalizing v with
  | nil => exact h
  | cons a schedule ih =>
      refine ih ?_
      rw [tryStep]
      cases hs : v.step? a with
      | none => exact h
      | some v' => exact hstep v a v' h hs

/-- **What every kind of step keeps, every schedule keeps.** -/
theorem run_induction {P : Conversation → Prop} (hstep : ∀ v a v', P v → Step v a v' → P v')
    (h : P v) (schedule : List Action) : P (v.run schedule) :=
  run_induction_of_step? (fun v a v' hv hs => hstep v a v' hv (Step.of_step? hs)) h schedule

end Conversation

end LineChat
