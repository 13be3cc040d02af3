/-
**When the end is final.**

A read that finds its queue empty and the splitter ended returns that there will be no line.  That
is not always so.  A read looks into its queue before it looks whether the splitter has ended, and
the reader can put a last line in the queue and end the splitter in between.  Closing a splitter
ends it while the reader may hold a line, or take one that is ready; and a splitter that was closed
can still be started.  In each case a line waits in a queue although a read has returned the end.

What holds is this: once the reader takes no items any more, a read that has yet to look into its
queue and returns the end is right, from then on and for good.

Main definitions:

* `LineChat.Conversation.EndKept` — whoever has learnt the end is right;
* `LineChat.Conversation.lateStart` — a schedule after which a read was wrong;
* `LineChat.Conversation.Over` — **nothing comes for a marker any more**.

Main results:

* `LineChat.Conversation.not_forall_endKept` — the end is not final in every state;
* `LineChat.Conversation.Step.over` — nothing comes for a marker once nothing can;
* `LineChat.Conversation.end_is_final` — **the end is final once the reader takes no items**.
-/

import LineChat.Proofs.Splitter.Calls
import LineChat.Proofs.Splitter.Wakeups

set_option autoImplicit false

namespace LineChat

namespace Conversation

/-! ### An end that is not final -/

/-- **Whoever has learnt the end is right**: no line waits for its marker, and no read gets one. -/
def EndKept (v : Conversation) : Prop :=
  ∀ c ∈ v.consumers, c.phase = .finished none →
    v.splitter.table.queue? c.marker = some [] ∧
      ∀ strip, (v.readNow c.marker strip).1 = .ok (some none)

/-- A splitter is closed, a read returns the end, and the splitter is started with a line that is
ready. -/
def lateStart : List Action :=
  [.close, .closeEnd, .join 0 catchAll false, .run 0, .run 0, .run 0,
    .start, .take (.line "x"), .route, .push]

/-- **The end is not final in every state.** -/
theorem not_forall_endKept : ¬ ∀ schedule, (run {} schedule).EndKept := by
  intro h
  have hlate : ∃ c ∈ (run {} lateStart).consumers, c.phase = .finished none ∧
      (run {} lateStart).splitter.table.queue? c.marker = some ["x"] := by decide
  obtain ⟨c, hc, hnone, hline⟩ := hlate
  have hempty := (h lateStart c hc hnone).1
  rw [hline] at hempty
  cases hempty

/-- Nobody closes this one: a read looks into its queue, the reader puts the last line there and
ends the splitter, and the read looks at the flag. -/
example :
    let v := run {} [.start, .join 0 catchAll false, .run 0, .run 0, .take (.line "x"), .route,
      .push, .notify, .take .finished, .stop, .run 0]
    (v.consumer? 0).map (·.phase) = some (.finished none) ∧
      v.splitter.table.queue? catchAll = some ["x"] := by
  decide

/-! ### An end that is -/

variable {v v' : Conversation} {a : Action} {m : String}

/-- **Nothing comes for a marker any more.** -/
structure Over (v : Conversation) (m : String) : Prop where
  done : v.splitter.reader.isDone = true
  ended : v.splitter.ended = true
  registered : m ∈ v.splitter.table.markers
  empty : v.splitter.table.linesOf m = []

/-- A queue that is empty stays so once the reader takes no items any more. -/
theorem Step.linesOf_of_isDone (h : Step v a v') (hd : v.splitter.reader.isDone = true)
    (hempty : v.splitter.table.linesOf m = []) : v'.splitter.table.linesOf m = [] := by
  cases h with
  | registered ensures ha hr =>
      obtain ⟨-, -, rfl⟩ := MarkerTable.register_eq_ok_iff.1 hr
      rw [MarkerTable.linesOf_add, hempty]
  | pushed hr =>
      rw [hr] at hd
      cases hd
  | @gotLine _ c line rest hc hp hq =>
      have hne : m ≠ c.marker := by
        rintro rfl
        rw [MarkerTable.linesOf, hq] at hempty
        cases hempty
      rw [setConsumer, MarkerTable.linesOf_setQueue (MarkerTable.mem_markers_of_queue? hq),
        if_neg hne, hempty]
  | _ => exact hempty

/-- Nothing comes for a marker once nothing can. -/
theorem Step.over (h : Step v a v') (hv : v.Over m) : v'.Over m where
  done := h.isDone hv.done
  ended := h.ended hv.ended
  registered := h.markers_subset hv.registered
  empty := h.linesOf_of_isDone hv.done hv.empty

theorem Over.queue? (hv : v.Over m) : v.splitter.table.queue? m = some [] := by
  rw [MarkerTable.queue?_eq_some_linesOf hv.registered, hv.empty]

/-- A read learns the end then. -/
theorem Over.fst_readNow (hv : v.Over m) (strip : Bool) :
    (v.readNow m strip).1 = .ok (some none) := by
  rw [Conversation.fst_readNow, hv.queue?]
  simp [hv.ended]

/-- **What a read has learnt is so**: its queue was empty when it looked, and is; and the splitter
had ended. -/
structure Informed (v : Conversation) (c : Consumer) : Prop where
  empty : c.phase = .checking ∨ c.phase = .finished none →
    v.splitter.table.linesOf c.marker = []
  ended : c.phase = .finished none → v.splitter.ended = true

/-- A read that has yet to look, or looks again, has learnt nothing. -/
theorem Informed.of_phase {c : Consumer} (hc : c.phase ≠ .checking)
    (hn : c.phase ≠ .finished none) : v.Informed c where
  empty h := absurd h (not_or.2 ⟨hc, hn⟩)
  ended h := absurd h hn

theorem Informed.step {c : Consumer} (hc : v.Informed c) (hd : v.splitter.reader.isDone = true)
    (h : Step v a v') : v'.Informed c where
  empty hp := h.linesOf_of_isDone hd (hc.empty hp)
  ended hp := h.ended (hc.ended hp)

/-- Once the reader takes no items any more, what a read learns stays so. -/
theorem Step.informed {id : Nat} (h : Step v a v') (hd : v.splitter.reader.isDone = true)
    (hv : ∀ c ∈ v.consumers, c.id = id → v.Informed c) :
    ∀ c ∈ v'.consumers, c.id = id → v'.Informed c := by
  have hold : ∀ c ∈ v.consumers, c.id = id → v'.Informed c := fun c hc hid =>
    (hv c hc hid).step hd h
  cases h with
  | notified _ | woke _ =>
      intro c hc hid
      obtain ⟨d, hmem, rfl | rfl⟩ := exists_of_mem_wakeSubscribers hc
      · exact hold _ hmem hid
      · have hinformed := hold d hmem hid
        exact ⟨hinformed.empty, hinformed.ended⟩
  | refused _ _ | joined _ _ =>
      intro c hc hid
      rcases List.mem_append.1 hc with hc | hc
      · exact hold c hc hid
      · rw [List.mem_singleton.1 hc]
        exact .of_phase (by simp) (by simp)
  | subscribed _ _ | gotLine _ _ _ | slept _ _ _ | awoke _ _ _ =>
      intro c hc hid
      rcases eq_or_mem_of_mem_setConsumer hc with rfl | ⟨hc, -⟩
      · exact .of_phase (by simp) (by simp)
      · exact hold c hc hid
  | gotNone _ _ hq =>
      intro c hc hid
      rcases eq_or_mem_of_mem_setConsumer hc with rfl | ⟨hc, -⟩
      · exact ⟨fun _ => hq, fun hp => by cases hp⟩
      · exact hold c hc hid
  | gotEnd hfind hp he =>
      intro c hc hid
      rcases eq_or_mem_of_mem_setConsumer hc with rfl | ⟨hc, -⟩
      · exact ⟨fun _ => (hv _ (mem_of_consumer? hfind) hid).empty (Or.inl hp), fun _ => he⟩
      · exact hold c hc hid
  | left => exact fun c hc => hold c (List.mem_filter.1 hc).1
  | _ => exact hold

/-- **The end is final once the reader takes no items.**  A read has yet to look into its queue
then, or to look again.  If it returns the end, its queue is empty and stays so, and no later read
gets a line. -/
theorem end_is_final (before later more : List Action) (id : Nat) (c : Consumer)
    (hdone : (run {} before).splitter.reader.isDone = true)
    (hlook : ∀ d ∈ (run {} before).consumers, d.id = id →
      d.phase ≠ .checking ∧ d.phase ≠ .finished none)
    (hc : (run {} (before ++ later)).consumer? id = some c) (hnone : c.phase = .finished none) :
    let v := run {} (before ++ later ++ more)
    v.splitter.table.queue? c.marker = some [] ∧
      ∀ strip, (v.readNow c.marker strip).1 = .ok (some none) := by
  have hmem := mem_of_consumer? hc
  have hid := id_of_consumer? hc
  obtain ⟨hdone', hinformed⟩ : (run {} (before ++ later)).splitter.reader.isDone = true ∧
      ∀ d ∈ (run {} (before ++ later)).consumers, d.id = id →
        (run {} (before ++ later)).Informed d := by
    rw [run_append]
    exact run_induction
      (P := fun v => v.splitter.reader.isDone = true ∧ ∀ d ∈ v.consumers, d.id = id → v.Informed d)
      (fun _ _ _ hv h => ⟨h.isDone hv.1, h.informed hv.1 hv.2⟩)
      ⟨hdone, fun d hd hid => .of_phase (hlook d hd hid).1 (hlook d hd hid).2⟩ later
  have hc' := hinformed c hmem hid
  have hover : (run {} (before ++ later)).Over c.marker :=
    ⟨hdone', hc'.ended hnone, (watched_run _ c hmem).registered (by simp [hnone]),
      hc'.empty (Or.inr hnone)⟩
  have hlater : (run {} (before ++ later ++ more)).Over c.marker := by
    rw [run_append]
    exact run_induction (P := fun v => v.Over c.marker) (fun _ _ _ hv h => h.over hv) hover more
  exact ⟨hlater.queue?, hlater.fst_readNow⟩

/-- A line comes and the stream ends.  One read gets the line and the next one the end, which is
so after the splitter was closed as well. -/
theorem end_is_final_drained :
    let before : List Action := [.start, .take (.line "x"), .route, .push, .notify, .take .finished]
    let later : List Action := [.join 0 catchAll false, .run 0, .run 0, .stop,
      .join 1 catchAll false, .run 1, .run 1, .run 1]
    let v := run {} (before ++ later ++ [.close, .closeEnd])
    v.splitter.table.queue? catchAll = some [] ∧
      ∀ strip, (v.readNow catchAll strip).1 = .ok (some none) :=
  end_is_final _ _ _ 1 { id := 1, marker := catchAll, strip := false, phase := .finished none }
    (by decide) (by decide) (by decide) rfl

end Conversation

end LineChat
