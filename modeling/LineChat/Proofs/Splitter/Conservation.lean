/-
**The splitter loses, duplicates and reorders nothing.**

A line that the reader takes off the stream is in its hand until it is in a queue, and in that queue
until a read takes it; nothing else moves lines.  So the lines of each queue can be told from what
was put in and what was taken out, in order, and each line taken out was returned by one read.  The
marker is at the start of each line of its queue, so it can be taken off.

Main definitions:

* `LineChat.History.Arrived`, `LineChat.History.Owned`, `LineChat.History.Balanced`,
  `LineChat.History.Accounted` — the invariants of a history;
* `LineChat.History.Faithful` — **what the splitter promises about the lines**.

Main results:

* `LineChat.History.Arrived.record`, `LineChat.History.Owned.record`,
  `LineChat.History.Balanced.record`, `LineChat.History.Accounted.record` — every step keeps them;
* `LineChat.History.faithful_run` — **no schedule breaks the promise**.
-/

import LineChat.Proofs.Splitter.History

set_option autoImplicit false

namespace LineChat

/-! ### Lines of a stream -/

theorem StreamItem.linesBefore_append {items : List StreamItem}
    (h : ∀ item ∈ items, ∃ text, item = .line text) (more : List StreamItem) :
    linesBefore (items ++ more) = linesBefore items ++ linesBefore more := by
  induction items with
  | nil => rfl
  | cons item items ih =>
      obtain ⟨text, rfl⟩ := h item List.mem_cons_self
      rw [List.cons_append, linesBefore, linesBefore, List.cons_append,
        ih fun item hi => h item (List.mem_cons_of_mem _ hi)]

/-- More of a stream shows more of its lines. -/
theorem StreamItem.linesBefore_prefix {items stream : List StreamItem} (h : items <+: stream) :
    linesBefore items <+: linesBefore stream := by
  obtain ⟨more, rfl⟩ := h
  induction items with
  | nil => exact List.nil_prefix
  | cons item items ih =>
      cases item with
      | line text => exact List.cons_prefix_cons.2 ⟨rfl, ih⟩
      | failure message => exact List.nil_prefix
      | finished => exact List.nil_prefix

namespace Consumer

variable {c : Consumer} {t : MarkerTable}

theorem takes_of_phase (h : c.phase ≠ .popping) : c.takes t = [] := if_neg h

theorem takes_of_empty (h : t.linesOf c.marker = []) : c.takes t = [] := by
  rw [takes, MarkerTable.pop_eq_none_iff.2 h, ite_self]

theorem takes_of_line {line : String} {rest : List String} (hp : c.phase = .popping)
    (hq : t.queue? c.marker = some (line :: rest)) :
    c.takes t =
      [{ id := c.id, marker := c.marker, strip := c.strip, text := c.shape line, line }] := by
  rw [takes, if_pos hp, MarkerTable.pop_eq_some_iff.2 ⟨rest, hq, rfl⟩]

theorem text_of_mem_takes {taken : Taken} (h : taken ∈ c.takes t) :
    taken.text = if taken.strip then Text.behind taken.marker taken.line else taken.line := by
  rw [takes] at h
  split at h
  next =>
    split at h
    next => rw [List.mem_singleton.1 h, shape]
    next => cases h
  next => cases h

theorem id_of_receipt? {r : Receipt} (h : c.receipt? = some r) : c.id = r.id := by
  rw [receipt?] at h
  split at h
  next =>
    cases h
    rfl
  next => cases h

theorem receipt?_of_phase (h : ∀ text, c.phase ≠ .finished (some text)) : c.receipt? = none := by
  rw [receipt?]
  split
  next text hp => exact absurd hp (h text)
  next => rfl

end Consumer

namespace History

open Conversation (Action Step wakeSubscribers)

variable {h : History} {a : Action} {v : Conversation}

theorem record_run {id : Nat} {c : Consumer} (hc : h.now.consumer? id = some c) :
    h.record (.run id) v =
      { h with now := v, taken := h.taken ++ c.takes h.now.splitter.table } := by
  rw [record, hc, Option.elim_some]

/-- A consumer's step that takes no line. -/
theorem record_run_of_takes {id : Nat} {c : Consumer} (hc : h.now.consumer? id = some c)
    (ht : c.takes h.now.splitter.table = []) : h.record (.run id) v = { h with now := v } := by
  rw [record_run hc, ht, List.append_nil]

/-! ### From the stream to the queues -/

/-- **The lines that were put in queues, then the one in the reader's hand**, are those that the
stream yielded before it failed or ended. -/
structure Arrived (h : History) : Prop where
  lines : StreamItem.linesBefore h.items =
    h.routed.map (·.line) ++ h.now.splitter.reader.inHand
  /-- Nothing is taken after an error or the end. -/
  going : h.now.splitter.reader.isDone = false → ∀ item ∈ h.items, ∃ text, item = .line text

/-- A step of the reader that leaves its hand as it is. -/
theorem Arrived.keep {w : History} (hh : h.Arrived) (hi : w.items = h.items)
    (hr : w.routed = h.routed)
    (hhand : w.now.splitter.reader.inHand = h.now.splitter.reader.inHand)
    (hd : w.now.splitter.reader.isDone = false → h.now.splitter.reader.isDone = false) :
    w.Arrived where
  lines := by rw [hi, hr, hhand, hh.lines]
  going hdone := by
    rw [hi]
    exact hh.going (hd hdone)

/-- An item that the reader takes comes after the lines that were put in queues, since its hand is
empty. -/
theorem Arrived.linesBefore_take (hh : h.Arrived) (hr : h.now.splitter.reader = .reading)
    (item : StreamItem) :
    StreamItem.linesBefore (h.items ++ [item]) =
      h.routed.map (·.line) ++ StreamItem.linesBefore [item] := by
  have hhand : h.now.splitter.reader.inHand = [] := by rw [hr]; rfl
  rw [StreamItem.linesBefore_append (hh.going (by rw [hr]; rfl)), hh.lines, hhand, List.append_nil]

theorem Arrived.start : Arrived {} := ⟨rfl, by simp⟩

theorem Arrived.record (hh : h.Arrived) (hfree : h.now.splitter.table.PrefixFree)
    (hs : Step h.now a v) : (h.record a v).Arrived := by
  cases hs with
  | registered ensures ha _ | ensuring ensures ha =>
      rw [record_registration ha]
      exact ⟨hh.lines, hh.going⟩
  | started hr | routed hr _ | notified hr =>
      exact hh.keep rfl rfl (by rw [hr]; rfl) (fun _ => by rw [hr]; rfl)
  | cancelled hr _ | stopped hr =>
      exact hh.keep rfl rfl (by rw [hr]; rfl) (fun hd => by cases hd)
  | @unrouted line hr ho =>
      obtain ⟨m, hm, -⟩ := hfree.exists_owner line
      rw [ho] at hm
      cases hm
  | @tookLine line hr =>
      refine ⟨hh.linesBefore_take hr (.line line), fun _ item hi => ?_⟩
      rcases List.mem_append.1 hi with hi | hi
      · exact hh.going (by rw [hr]; rfl) item hi
      · exact ⟨line, List.mem_singleton.1 hi⟩
  | @tookFailure message hr =>
      exact ⟨hh.linesBefore_take hr (.failure message), fun hd => by cases hd⟩
  | tookEnd hr => exact ⟨hh.linesBefore_take hr .finished, fun hd => by cases hd⟩
  | @pushed line marker hr =>
      refine ⟨?_, fun _ => hh.going (by rw [hr]; rfl)⟩
      have hlines := hh.lines
      rw [hr] at hlines
      simp [History.record, hr, hlines, Reader.puts, Reader.inHand]
  | _ => exact ⟨hh.lines, hh.going⟩

/-! ### Which queue -/

/-- **Every line was put in the queue of the longest marker that it starts with.** -/
structure Owned (h : History) : Prop where
  prefixFree : h.now.splitter.table.PrefixFree
  found : ∀ m line, h.now.splitter.reader = .pushing m line →
    LongestOpening h.known line m ∧ m ∈ h.now.splitter.table.markers
  owner : ∀ r ∈ h.routed, LongestOpening r.known r.line r.marker

theorem Owned.start : Owned {} := ⟨.start, by simp, by simp⟩

theorem Owned.record (hh : h.Owned) (hs : Step h.now a v) : (h.record a v).Owned := by
  have hfree := hs.prefixFree hh.prefixFree
  have hsub := hs.markers_subset
  cases hs with
  | registered ensures ha _ | ensuring ensures ha =>
      rw [record_registration ha]
      exact ⟨hfree, fun m line hr => ⟨(hh.found m line hr).1, hsub (hh.found m line hr).2⟩,
        hh.owner⟩
  | @routed line marker hr ho =>
      refine ⟨hfree, fun m l heq => ?_, hh.owner⟩
      obtain ⟨rfl, rfl⟩ := Reader.pushing.inj heq
      have hlongest := MarkerTable.owner?_eq_some_iff.1 ho
      exact ⟨hlongest, hlongest.mem⟩
  | @pushed line marker hr =>
      refine ⟨hfree, fun _ _ heq => (by cases heq), fun r hmem => ?_⟩
      rw [History.record, hr] at hmem
      rcases List.mem_append.1 hmem with hmem | hmem
      · exact hh.owner r hmem
      · rw [List.mem_singleton.1 hmem]
        exact (hh.found marker line hr).1
  | started | tookLine | tookFailure | tookEnd | cancelled | unrouted | notified | stopped =>
      exact ⟨hfree, fun _ _ heq => (by cases heq), hh.owner⟩
  | _ =>
      exact ⟨hfree, fun m line hr => ⟨(hh.found m line hr).1, hsub (hh.found m line hr).2⟩,
        hh.owner⟩

/-! ### From the queues to the reads -/

/-- **What was taken out of a queue, then what waits in it, is what was put in.** -/
def Balanced (h : History) : Prop :=
  ∀ m, h.takenFrom m ++ h.now.splitter.table.linesOf m = h.routedTo m

theorem Balanced.start : Balanced {} := by
  intro m
  by_cases hm : m = catchAll
  · subst hm
    rfl
  · simp [takenFrom, routedTo, MarkerTable.linesOf, MarkerTable.queue?, Ne.symm hm]

theorem Balanced.record (hh : h.Balanced) (hw : h.Owned) (hs : Step h.now a v) :
    (h.record a v).Balanced := by
  cases hs with
  | registered ensures ha hr =>
      obtain ⟨-, -, rfl⟩ := MarkerTable.register_eq_ok_iff.1 hr
      rw [record_registration ha]
      exact fun m => (congrArg _ (MarkerTable.linesOf_add ..)).trans (hh m)
  | ensuring ensures ha =>
      rw [record_registration ha]
      exact hh
  | @pushed line marker hr =>
      obtain ⟨-, hmem⟩ := hw.found marker line hr
      intro m
      have hm := hh m
      simp only [History.record, takenFrom, routedTo, hr, Reader.puts] at hm ⊢
      rw [MarkerTable.linesOf_push hmem, List.filter_append, List.map_append, ← hm]
      by_cases heq : m = marker
      · simp [heq]
      · simp [heq, Ne.symm heq]
  | @gotLine _ c line rest hc hp hq =>
      have hmem := MarkerTable.mem_markers_of_queue? hq
      intro m
      have hm := hh m
      rw [record_run hc, Consumer.takes_of_line hp hq]
      simp only [takenFrom, routedTo, Conversation.setConsumer] at hm ⊢
      rw [MarkerTable.linesOf_setQueue hmem, List.filter_append, List.map_append, ← hm]
      by_cases heq : m = c.marker
      · simp [heq, MarkerTable.linesOf, hq]
      · simp [heq, Ne.symm heq]
  | gotNone hc hp hq =>
      rw [record_run_of_takes hc (Consumer.takes_of_empty hq)]
      exact hh
  | subscribed hc hp | gotEnd hc hp _ | slept hc hp _ | awoke hc hp _ =>
      rw [record_run_of_takes hc (Consumer.takes_of_phase (by simp [hp]))]
      exact hh
  | _ => exact hh

/-- A consumer replaced by its next state adds what it has got by that. -/
theorem receipts_setConsumer {v : Conversation} {c d : Consumer}
    (hids : (v.consumers.map (·.id)).Nodup) (hc : c ∈ v.consumers) (hd : d.id = c.id)
    (hnone : c.receipt? = none) :
    ((v.setConsumer d).consumers.filterMap Consumer.receipt?).Perm
      (v.consumers.filterMap Consumer.receipt? ++ d.receipt?.toList) := by
  obtain ⟨before, after, heq⟩ := List.append_of_mem hc
  -- no other consumer has the number, so only this one is replaced
  rw [heq, List.map_append, List.map_cons, List.nodup_middle, ← List.map_append,
    List.nodup_cons, ← hd] at hids
  have hkeep : ∀ es : List Consumer, es ⊆ before ++ after →
      es.map (fun e => if e.id = d.id then d else e) = es := by
    intro es hes
    refine (List.map_congr_left fun e he => if_neg fun heid => ?_).trans (List.map_id' es)
    exact hids.1 (heid ▸ List.mem_map_of_mem (hes he))
  have hset : (v.setConsumer d).consumers = before ++ d :: after := by
    rw [Conversation.setConsumer, heq, List.map_append, List.map_cons, if_pos hd.symm,
      hkeep before (List.subset_append_left ..), hkeep after (List.subset_append_right ..)]
  rw [hset, heq]
  simp only [List.filterMap_append, List.filterMap_cons, hnone]
  cases d.receipt? with
  | none => simp
  | some r =>
      rw [Option.toList_some]
      exact List.perm_middle.trans (List.perm_append_singleton ..).symm

/-- Being woken is no part of what a read has got, nor of its number. -/
theorem filterMap_wakeSubscribers {β : Type} {f : Consumer → Option β}
    (hf : ∀ c, f { c with woken := true } = f c) (marker : String) (cs : List Consumer) :
    (wakeSubscribers marker cs).filterMap f = cs.filterMap f := by
  rw [wakeSubscribers, List.filterMap_map]
  refine List.filterMap_congr fun c _ => ?_
  rw [Function.comp_apply]
  split
  next => exact hf c
  next => rfl

theorem ids_wakeSubscribers (marker : String) (cs : List Consumer) :
    (wakeSubscribers marker cs).map (·.id) = cs.map (·.id) := by
  rw [← List.filterMap_eq_map, filterMap_wakeSubscribers fun _ => rfl]

theorem ids_setConsumer (v : Conversation) (d : Consumer) :
    (v.setConsumer d).consumers.map (·.id) = v.consumers.map (·.id) := by
  rw [Conversation.setConsumer, List.map_map]
  congr 1
  funext c
  rw [Function.comp_apply]
  split
  next hid => exact hid.symm
  next => rfl

/-- **Each line that was taken out was returned by one read**, and each read returned one line at
most. -/
structure Accounted (h : History) : Prop where
  ids : (h.now.consumers.map (·.id)).Nodup
  receipts : (h.taken.map (·.toReceipt)).Perm (h.reads.filterMap Consumer.receipt?)
  shaped : ∀ t ∈ h.taken, t.text = if t.strip then Text.behind t.marker t.line else t.line

theorem Accounted.start : Accounted {} := ⟨by simp, .refl _, by simp⟩

/-- A consumer's step, with the line it takes if it takes one. -/
theorem Accounted.run {id : Nat} {c d : Consumer} (hh : h.Accounted)
    (hc : h.now.consumer? id = some c) (hnone : c.receipt? = none)
    (hv : v.consumers = (h.now.setConsumer d).consumers) (hd : d.id = c.id)
    (ht : (c.takes h.now.splitter.table).map (·.toReceipt) = d.receipt?.toList) :
    (h.record (.run id) v).Accounted := by
  rw [record_run hc]
  refine ⟨?_, ?_, fun t hmem => ?_⟩
  · rw [hv, ids_setConsumer]
    exact hh.ids
  · have hset := receipts_setConsumer hh.ids (Conversation.mem_of_consumer? hc) hd hnone
    rw [← hv] at hset
    rw [List.map_append, ht]
    refine (hh.receipts.append_right _).trans ?_
    simp only [reads, List.filterMap_append, List.append_assoc]
    exact hset.symm.append_left _
  · rcases List.mem_append.1 hmem with hmem | hmem
    · exact hh.shaped t hmem
    · exact Consumer.text_of_mem_takes hmem

theorem Accounted.record (hh : h.Accounted) (hs : Step h.now a v) : (h.record a v).Accounted := by
  cases hs with
  | registered ensures ha _ | ensuring ensures ha =>
      rw [record_registration ha]
      exact ⟨hh.ids, hh.receipts, hh.shaped⟩
  | notified | woke =>
      refine ⟨?_, ?_, hh.shaped⟩
      · rw [now_record, ids_wakeSubscribers]
        exact hh.ids
      · refine hh.receipts.trans (.of_eq ?_)
        rw [reads, reads, List.filterMap_append, List.filterMap_append, now_record,
          filterMap_wakeSubscribers fun _ => rfl]
        rfl
  | refused hid _ | joined hid _ =>
      refine ⟨?_, ?_, hh.shaped⟩
      · rw [now_record, List.map_append, List.nodup_append]
        refine ⟨hh.ids, List.nodup_singleton _, fun i hi j hj => ?_⟩
        obtain ⟨c, hc, rfl⟩ := List.mem_map.1 hi
        rw [List.mem_singleton.1 hj]
        simpa using List.find?_eq_none.1 hid c hc
      · refine hh.receipts.trans (.of_eq ?_)
        simp [reads, History.record, List.filterMap_append, Consumer.receipt?]
  | subscribed hc hp | slept hc hp _ | awoke hc hp _ | gotEnd hc hp _ =>
      exact hh.run hc (Consumer.receipt?_of_phase (by simp [hp])) rfl rfl
        (by rw [Consumer.takes_of_phase (by simp [hp])]; rfl)
  | gotNone hc hp hq =>
      exact hh.run hc (Consumer.receipt?_of_phase (by simp [hp])) rfl rfl
        (by rw [Consumer.takes_of_empty hq]; rfl)
  | gotLine hc hp hq =>
      exact hh.run hc (Consumer.receipt?_of_phase (by simp [hp])) rfl rfl
        (by rw [Consumer.takes_of_line hp hq]; rfl)
  | @left id =>
      refine ⟨hh.ids.sublist (List.filter_sublist.map _), hh.receipts.trans ?_, hh.shaped⟩
      refine List.Perm.filterMap _ ?_
      simp only [reads, History.record, List.append_assoc]
      refine List.Perm.append_left _ ?_
      simpa using (List.filter_append_perm (fun c => decide (c.id = id)) h.now.consumers).symm
  | _ => exact ⟨hh.ids, hh.receipts, hh.shaped⟩

/-! ### The promise -/

/-- **What the splitter promises about the lines.** -/
structure Faithful (h : History) : Prop where
  /-- The lines that were put in queues, then the one in the reader's hand, are all that came
  before the stream's first error or its end. -/
  arrived : StreamItem.linesBefore h.items =
    h.routed.map (·.line) ++ h.now.splitter.reader.inHand
  /-- So whatever the stream holds in all, they are the first of its lines. -/
  in_order : ∀ stream, h.items <+: stream →
    h.routed.map (·.line) <+: StreamItem.linesBefore stream
  /-- Each was put in the queue of the longest marker that it starts with, and of that one only. -/
  one_owner : ∀ r ∈ h.routed, ∀ m, LongestOpening r.known r.line m ↔ m = r.marker
  /-- What was taken out of a queue, then what waits in it, is what was put in, in order. -/
  conserved : ∀ m, h.takenFrom m ++ h.now.splitter.table.linesOf m = h.routedTo m
  /-- Each line taken out was returned by one read, and each read returned one line at most. -/
  returned : (h.taken.map (·.toReceipt)).Perm (h.reads.filterMap Consumer.receipt?)
  /-- Reads that returned no line, since they were refused, still wait, learnt that there is none
  or were given up, took none. -/
  empty_handed : ∀ id, (∀ c ∈ h.reads, c.id = id → c.receipt? = none) → ∀ t ∈ h.taken, t.id ≠ id
  /-- A line is returned whole, or without exactly the marker, if that is to be taken off. -/
  whole : ∀ t ∈ h.taken, t.line = if t.strip then t.marker ++ t.text else t.text
  /-- The marker ends between two characters of the line. -/
  boundary : ∀ t ∈ h.taken, t.marker.rawEndPos.IsValid t.line

/-- A line that was taken out of a queue was put in there. -/
theorem Balanced.exists_routed (hh : h.Balanced) {t : Taken} (ht : t ∈ h.taken) :
    ∃ r ∈ h.routed, r.marker = t.marker ∧ r.line = t.line := by
  have hmem : t.line ∈ h.takenFrom t.marker :=
    List.mem_map.2 ⟨t, List.mem_filter.2 ⟨ht, by simp⟩, rfl⟩
  have hrouted : t.line ∈ h.routedTo t.marker := by
    rw [← hh t.marker]
    exact List.mem_append_left _ hmem
  obtain ⟨r, hr, hline⟩ := List.mem_map.1 hrouted
  obtain ⟨hr, hmarker⟩ := List.mem_filter.1 hr
  exact ⟨r, hr, by simpa using hmarker, hline⟩

/-- A line that was taken out starts with the marker of its queue. -/
theorem exists_rest (hw : h.Owned) (hb : h.Balanced) {t : Taken} (ht : t ∈ h.taken) :
    ∃ rest, t.line = t.marker ++ rest := by
  obtain ⟨r, hr, hmarker, hline⟩ := hb.exists_routed ht
  rw [← hmarker, ← hline]
  exact Text.opens_iff.1 (hw.owner r hr).opens

theorem faithful (ha : h.Arrived) (hw : h.Owned) (hb : h.Balanced) (hc : h.Accounted) :
    h.Faithful where
  arrived := ha.lines
  in_order stream hstream := by
    refine List.IsPrefix.trans ?_ (StreamItem.linesBefore_prefix hstream)
    rw [ha.lines]
    exact List.prefix_append ..
  one_owner r hr m :=
    ⟨fun hm => hm.unique (hw.owner r hr), fun hm => hm ▸ hw.owner r hr⟩
  conserved := hb
  returned := hc.receipts
  empty_handed id hnone t ht := by
    intro hid
    have hmem := hc.receipts.mem_iff.1 (List.mem_map_of_mem (f := (·.toReceipt)) ht)
    obtain ⟨c, hread, hreceipt⟩ := List.mem_filterMap.1 hmem
    rw [hnone c hread ((Consumer.id_of_receipt? hreceipt).trans hid)] at hreceipt
    cases hreceipt
  whole t ht := by
    obtain ⟨rest, hline⟩ := exists_rest hw hb ht
    have hshape := hc.shaped t ht
    split
    next hstrip => rw [hshape, if_pos hstrip, hline, Text.behind_append]
    next hstrip => rw [hshape, if_neg hstrip]
  boundary t ht := by
    obtain ⟨rest, hline⟩ := exists_rest hw hb ht
    rw [hline, String.Pos.Raw.isValid_iff_exists_append]
    exact ⟨t.marker, rest, rfl, rfl⟩

/-- **No schedule breaks the promise.** -/
theorem faithful_run (schedule : List Action) : (run schedule).Faithful := by
  obtain ⟨ha, hw, hb, hc⟩ := run_induction
    (P := fun h => h.Arrived ∧ h.Owned ∧ h.Balanced ∧ h.Accounted)
    (fun h a v ⟨ha, hw, hb, hc⟩ hs =>
      ⟨ha.record hw.prefixFree hs, hw.record hs, hb.record hw hs, hc.record hs⟩)
    ⟨Arrived.start, Owned.start, Balanced.start, Accounted.start⟩ schedule
  exact faithful ha hw hb hc

end History

end LineChat
