/-
**Why a stream ended.**

A consumer that learns the end may want to know whether the stream ended or failed.  The reader
keeps the text of an error first and says afterwards that the splitter has ended, and it takes
nothing off the stream once it has met an error or the end.  So, as long as nobody closes the
splitter, whoever has learnt the end finds the reason there and finds the same one ever after.

Closing ends the splitter without the reader, which may then still meet an error: nobody who has
learnt the end of a closed splitter can rely on the reason.

Main definitions:

* `LineChat.StreamItem.reason?` — why a stream ended;
* `LineChat.History.Stopped` — **the reader has stopped, and the reason is kept**;
* `LineChat.History.Candid` — what a splitter that nobody closes says of itself.

Main results:

* `LineChat.History.Candid.stop`, `LineChat.History.Candid.record` — the reason is kept before
  anybody can learn the end, and every step but closing keeps it so;
* `LineChat.History.Stopped.record` — the reason stays what it is;
* `LineChat.History.termination_tells_why` — **whoever has learnt the end finds the reason**.
-/

import LineChat.Proofs.Splitter.Conservation

set_option autoImplicit false

namespace LineChat

/-- **Why a stream ended** with an item: the text of the error, or nothing if it just ended. -/
def StreamItem.reason? : StreamItem → Option String
  | .failure message => some message
  | _ => none

theorem StreamItem.linesBefore_map (lines : List String) :
    linesBefore (lines.map .line) = lines := by
  induction lines with
  | nil => rfl
  | cons line lines ih => rw [List.map_cons, linesBefore, ih]

/-- A reader that has stopped holds no line. -/
theorem Reader.inHand_of_isDone {r : Reader} (h : r.isDone = true) : r.inHand = [] := by
  cases r with
  | stopping | stopped => rfl
  | _ => cases h

namespace History

open Conversation (Action Step)

variable {h : History} {a : Action} {v : Conversation} {lines : List String} {ending : StreamItem}

/-! ### The reason that is kept -/

/-- **The reader has stopped**: it has taken some lines and an item that is none, and the reason
that is kept is that item's. -/
structure Stopped (h : History) (lines : List String) (ending : StreamItem) : Prop where
  done : h.now.splitter.reader.isDone = true
  items : h.items = lines.map .line ++ [ending]
  last : ∀ text, ending ≠ .line text
  termination : h.now.splitter.termination = ending.reason?

/-- **The reason stays what it is.** -/
theorem Stopped.record (hh : h.Stopped lines ending) (hs : Step h.now a v) :
    (h.record a v).Stopped lines ending := by
  have hdone : (h.record a v).now.splitter.reader.isDone = true := by
    rw [now_record]
    exact hs.isDone hh.done
  have hreader := hh.done
  cases hs with
  | registered ensures ha _ | ensuring ensures ha =>
      rw [record_registration ha] at hdone ⊢
      exact ⟨hdone, hh.items, hh.last, hh.termination⟩
  | tookLine hr | tookFailure hr | tookEnd hr =>
      rw [hr] at hreader
      cases hreader
  | _ => exact ⟨hdone, hh.items, hh.last, hh.termination⟩

/-- **What a splitter that nobody closes says of itself**: it has ended when its reader has, and why
it has is known by then. -/
structure Candid (h : History) : Prop where
  uncancelled : h.now.splitter.cancelled = false
  unclosed : h.now.closing = 0
  ended : h.now.splitter.ended = true → h.now.splitter.reader = .stopped
  going : h.now.splitter.reader.isDone = false →
    h.now.splitter.failure = none ∧ ∃ lines : List String, h.items = lines.map .line
  done : h.now.splitter.reader.isDone = true → ∃ lines ending, h.Stopped lines ending
  learnt : ∀ c ∈ h.reads, c.phase = .finished none → h.now.splitter.ended = true

theorem Candid.start : Candid {} where
  uncancelled := rfl
  unclosed := rfl
  ended hended := by cases hended
  going _ := ⟨rfl, [], rfl⟩
  done hdone := by cases hdone
  learnt c hc := by cases hc

/-- **A read learns the end from the flag.** -/
theorem learnt_record
    (hh : ∀ c ∈ h.reads, c.phase = .finished none → h.now.splitter.ended = true)
    (hs : Step h.now a v) :
    ∀ c ∈ (h.record a v).reads, c.phase = .finished none → v.splitter.ended = true := by
  have hgone : ∀ c ∈ h.gone, c.phase = .finished none → v.splitter.ended = true :=
    fun c hc hp => hs.ended (hh c (List.mem_append_left _ hc) hp)
  have hnow : ∀ c ∈ h.now.consumers, c.phase = .finished none → v.splitter.ended = true :=
    fun c hc hp => hs.ended (hh c (List.mem_append_right _ hc) hp)
  intro c hc hp
  cases hs with
  | @left id =>
      rw [reads, List.mem_append] at hc
      rcases hc with hc | hc
      · rcases List.mem_append.1 hc with hc | hc
        · exact hgone c hc hp
        · exact hnow c (List.mem_filter.1 hc).1 hp
      · exact hnow c (List.mem_filter.1 hc).1 hp
  | registered ensures ha _ | ensuring ensures ha =>
      rw [record_registration ha] at hc
      rcases List.mem_append.1 hc with hc | hc
      · exact hgone c hc hp
      · exact hnow c hc hp
  | notified _ | woke _ =>
      rcases List.mem_append.1 hc with hc | hc
      · exact hgone c hc hp
      · obtain ⟨d, hd, rfl | rfl⟩ := Conversation.exists_of_mem_wakeSubscribers hc
        · exact hnow _ hd hp
        · exact hnow d hd hp
  | refused _ _ | joined _ _ =>
      rcases List.mem_append.1 hc with hc | hc
      · exact hgone c hc hp
      · rcases List.mem_append.1 hc with hc | hc
        · exact hnow c hc hp
        · rw [List.mem_singleton.1 hc] at hp
          cases hp
  | subscribed _ _ | gotLine _ _ _ | gotNone _ _ _ | slept _ _ _ | awoke _ _ _ =>
      rcases List.mem_append.1 hc with hc | hc
      · exact hgone c hc hp
      · rcases Conversation.eq_or_mem_of_mem_setConsumer hc with rfl | ⟨hc, -⟩
        · cases hp
        · exact hnow c hc hp
  | gotEnd _ _ he => exact he
  | _ =>
      rcases List.mem_append.1 hc with hc | hc
      · exact hgone c hc hp
      · exact hnow c hc hp

/-- A step that neither ends the splitter nor stops the reader. -/
theorem Candid.keep {w : History} (hh : h.Candid)
    (hcancelled : w.now.splitter.cancelled = h.now.splitter.cancelled)
    (hclosing : w.now.closing = h.now.closing)
    (hended : w.now.splitter.ended = h.now.splitter.ended)
    (hfailure : w.now.splitter.failure = h.now.splitter.failure) (hitems : w.items = h.items)
    (hreader : w.now.splitter.reader = h.now.splitter.reader ∨
      w.now.splitter.reader.isDone = false ∧ h.now.splitter.reader.isDone = false)
    (hlearnt : ∀ c ∈ w.reads, c.phase = .finished none → w.now.splitter.ended = true) :
    w.Candid where
  uncancelled := hcancelled.trans hh.uncancelled
  unclosed := hclosing.trans hh.unclosed
  ended he := by
    have hstopped := hh.ended (hended ▸ he)
    rcases hreader with hsame | ⟨-, hgoing⟩
    · rw [hsame, hstopped]
    · rw [hstopped] at hgoing
      cases hgoing
  going hgoing := by
    rw [hfailure, hitems]
    rcases hreader with hsame | ⟨-, hold⟩
    · exact hh.going (hsame ▸ hgoing)
    · exact hh.going hold
  done hdone := by
    rcases hreader with hsame | ⟨hgoing, -⟩
    · obtain ⟨lines, ending, hs⟩ := hh.done (hsame ▸ hdone)
      exact ⟨lines, ending, hdone, hitems.trans hs.items, hs.last, hfailure.trans hs.termination⟩
    · rw [hgoing] at hdone
      cases hdone
  learnt := hlearnt

/-- A splitter whose reader goes on has not ended. -/
theorem Candid.ended_eq_false (hh : h.Candid) (hr : h.now.splitter.reader.isDone = false) :
    h.now.splitter.ended = false := by
  cases he : h.now.splitter.ended with
  | false => rfl
  | true =>
      rw [hh.ended he] at hr
      cases hr

/-- **A reader that meets an error or the end** keeps the reason before it says anything. -/
theorem Candid.stop {w : History} (ending : StreamItem) (hh : h.Candid)
    (hr : h.now.splitter.reader.isDone = false)
    (hcancelled : w.now.splitter.cancelled = h.now.splitter.cancelled)
    (hclosing : w.now.closing = h.now.closing)
    (hended : w.now.splitter.ended = h.now.splitter.ended)
    (hdone : w.now.splitter.reader.isDone = true) (hitems : w.items = h.items ++ [ending])
    (hlast : ∀ text, ending ≠ .line text) (hreason : w.now.splitter.failure = ending.reason?)
    (hlearnt : ∀ c ∈ w.reads, c.phase = .finished none → w.now.splitter.ended = true) :
    w.Candid where
  uncancelled := hcancelled.trans hh.uncancelled
  unclosed := hclosing.trans hh.unclosed
  ended he := by
    rw [hended, hh.ended_eq_false hr] at he
    cases he
  going hgoing := by
    rw [hdone] at hgoing
    cases hgoing
  done _ := by
    obtain ⟨-, lines, hlines⟩ := hh.going hr
    exact ⟨lines, ending, hdone, by rw [hitems, hlines], hlast, hreason⟩
  learnt := hlearnt

/-- **Every step but closing keeps it.** -/
theorem Candid.record (hh : h.Candid) (hs : Step h.now a v) (ha : a ≠ .close) :
    (h.record a v).Candid := by
  have hlearnt : ∀ c ∈ (h.record a v).reads, c.phase = .finished none →
      (h.record a v).now.splitter.ended = true := by
    rw [now_record]
    exact learnt_record hh.learnt hs
  cases hs with
  | closing => exact absurd rfl ha
  | closed hpos =>
      rw [hh.unclosed] at hpos
      cases hpos
  | cancelled _ hc =>
      rw [hh.uncancelled] at hc
      cases hc
  | registered ensures hreg _ | ensuring ensures hreg =>
      rw [record_registration hreg] at hlearnt ⊢
      exact hh.keep rfl rfl rfl rfl rfl (Or.inl rfl) hlearnt
  | started hr | routed hr _ | unrouted hr _ | pushed hr | notified hr =>
      exact hh.keep rfl rfl rfl rfl rfl (Or.inr ⟨rfl, by rw [hr]; rfl⟩) hlearnt
  | @tookLine line hr =>
      have hgoing : h.now.splitter.reader.isDone = false := by rw [hr]; rfl
      obtain ⟨hfailure, lines, hlines⟩ := hh.going hgoing
      exact
        { uncancelled := hh.uncancelled
          unclosed := hh.unclosed
          ended := fun he => by
            rw [now_record] at he
            exact absurd ((hh.ended_eq_false hgoing).symm.trans he) (by simp)
          going := fun _ => ⟨hfailure, lines ++ [line], by simp [History.record, hlines]⟩
          done := fun hdone => by cases hdone
          learnt := hlearnt }
  | @tookFailure message hr =>
      exact hh.stop (.failure message) (by rw [hr]; rfl) rfl rfl rfl rfl rfl (by simp) rfl hlearnt
  | tookEnd hr =>
      have hgoing : h.now.splitter.reader.isDone = false := by rw [hr]; rfl
      exact hh.stop .finished hgoing rfl rfl rfl rfl rfl (by simp) (hh.going hgoing).1 hlearnt
  | stopped hr =>
      obtain ⟨lines, ending, hstopped⟩ := hh.done (by rw [hr]; rfl)
      exact
        { uncancelled := hh.uncancelled
          unclosed := hh.unclosed
          ended := fun _ => rfl
          going := fun hd => by cases hd
          done := fun hdone => ⟨lines, ending, hdone, hstopped.items, hstopped.last,
            hstopped.termination⟩
          learnt := hlearnt }
  | _ => exact hh.keep rfl rfl rfl rfl rfl (Or.inl rfl) hlearnt

theorem candid_run {schedule : List Action} (hopen : .close ∉ schedule) :
    (run schedule).Candid :=
  foldl_induction (P := Candid)
    (fun _ _ _ ha hh hs => hh.record hs fun hclose => hopen (hclose ▸ ha)) Candid.start

theorem Stopped.run {schedule : List Action} (hh : (run schedule).Stopped lines ending)
    (more : List Action) : (run (schedule ++ more)).Stopped lines ending := by
  rw [run_append]
  exact foldl_induction (P := fun h => h.Stopped lines ending)
    (fun _ _ _ _ hh hs => hh.record hs) hh

/-! ### What is routed -/

theorem arrived_run (schedule : List Action) : (run schedule).Arrived :=
  (run_induction (P := fun h => h.Arrived ∧ h.Owned)
    (fun _ _ _ ⟨ha, hw⟩ hs => ⟨ha.record hw.prefixFree hs, hw.record hs⟩)
    ⟨Arrived.start, Owned.start⟩ schedule).1

/-- What is routed are the first lines of the stream. -/
theorem Arrived.routed_front (hh : h.Arrived) {stream : List StreamItem}
    (hstream : h.items <+: stream) :
    h.routed.map (·.line) <+: StreamItem.linesBefore stream := by
  refine List.IsPrefix.trans ?_ (StreamItem.linesBefore_prefix hstream)
  rw [hh.lines]
  exact List.prefix_append ..

/-- A reader that has stopped has routed all lines that it took. -/
theorem Stopped.routed_eq (hh : h.Stopped lines ending) (ha : h.Arrived) :
    h.routed.map (·.line) = lines := by
  have hlast : StreamItem.linesBefore [ending] = [] := by
    cases he : ending with
    | line text => exact absurd he (hh.last text)
    | failure | finished => rfl
  have hlines := ha.lines
  rw [hh.items, StreamItem.linesBefore_append (by simp), hlast,
    Reader.inHand_of_isDone hh.done, List.append_nil, List.append_nil,
    StreamItem.linesBefore_map] at hlines
  exact hlines.symm

/-- **Whoever has learnt the end finds the reason**, as long as nobody closes the splitter: the text
of the error that the stream failed with, or none if it just ended, at once and ever after.  The
lines before that, and nothing else, have been routed by then; and no lines but the first ones of
the stream are routed at any time. -/
theorem termination_tells_why (schedule more : List Action) (hopen : .close ∉ schedule ++ more) :
    (∀ stream, (run schedule).items <+: stream →
        (run schedule).routed.map (·.line) <+: StreamItem.linesBefore stream) ∧
      ∀ c ∈ (run schedule).reads, c.phase = .finished none →
        ∃ lines ending, (run schedule).Stopped lines ending ∧
          (run (schedule ++ more)).Stopped lines ending ∧
          (run (schedule ++ more)).routed.map (·.line) = lines := by
  refine ⟨fun stream hstream => (arrived_run schedule).routed_front hstream, ?_⟩
  intro c hc hend
  have hcandid : (run schedule).Candid :=
    candid_run fun hclose => hopen (List.mem_append_left _ hclose)
  have hreader := hcandid.ended (hcandid.learnt c hc hend)
  obtain ⟨lines, ending, hstopped⟩ := hcandid.done (by rw [hreader]; rfl)
  have hlater := hstopped.run more
  exact ⟨lines, ending, hstopped, hlater, hlater.routed_eq (arrived_run _)⟩

/-- A line comes and the stream fails.  One read gets the line and the next one the end; what the
stream might yield after that is not taken. -/
theorem termination_tells_why_failed :
    let schedule : List Action := [.start, .take (.line "x"), .route, .push, .notify,
      .take (.failure "reset"), .stop, .join 0 catchAll false, .run 0, .run 0,
      .join 1 catchAll false, .run 1, .run 1, .run 1]
    let more : List Action := [.leave 1, .take (.line "y"), .route, .push, .notify]
    ∃ lines ending, (run schedule).Stopped lines ending ∧
      (run (schedule ++ more)).Stopped lines ending ∧
      (run (schedule ++ more)).routed.map (·.line) = lines :=
  (termination_tells_why _ _ (by decide)).2
    { id := 1, marker := catchAll, strip := false, phase := .finished none } (by decide) rfl

end History

end LineChat
