/-
**No wake-up is lost.**

A consumer that sleeps is woken only by those who change something.  It has subscribed before it
looked into its queue and at the flag that says that the splitter has ended, and the others push or
set the flag before they wake the subscribers.  So whatever a sleeping consumer would want to know
is either not the case, or somebody is on the way to wake it: the reader, which has pushed a line,
or one of those who ended the splitter.  A marker that was registered too late to be listed when the
splitter ended has no such consumer, since its consumers see the flag.

Main definitions:

* `LineChat.Conversation.WakeDue` — somebody is on the way to wake the consumers of a marker;
* `LineChat.Conversation.Watched` — **the invariant of one consumer**;
* `LineChat.Conversation.Keeps` — a change that no consumer of a marker can miss;
* `LineChat.Conversation.NobodyForgotten` — no consumer sleeps on what it waits for.

Main results:

* `LineChat.Conversation.Step.watched` — every step keeps the invariant;
* `LineChat.Conversation.nobodyForgotten_run` — **no schedule loses a wake-up**.
-/

import LineChat.Proofs.Splitter.Routing

set_option autoImplicit false

namespace LineChat

namespace Conversation

variable {v v' : Conversation} {a : Action} {c : Consumer} {m : String}

/-! ### Those who are on the way -/

/-- **Somebody is on the way to wake the consumers of a marker**: the reader, which has pushed a
line to its queue, or somebody who has ended the splitter. -/
def WakeDue (v : Conversation) (m : String) : Prop :=
  v.splitter.reader = .waking m ∨ 0 < v.ending ∨ m ∈ v.notices

/-- **The invariant of one consumer.** -/
structure Watched (v : Conversation) (c : Consumer) : Prop where
  registered : c.phase ≠ .refused → c.marker ∈ v.splitter.table.markers
  /-- Once it has looked into its queue, it is woken after a line was pushed. -/
  line : c.phase = .checking ∨ c.phase = .parked → c.woken = false →
    v.splitter.table.linesOf c.marker = [] ∨ v.WakeDue c.marker
  /-- Once it has looked at the flag, it is woken after the splitter has ended. -/
  ended : c.phase = .parked → c.woken = false → v.splitter.ended = false ∨ v.WakeDue c.marker

/-- **A change that no consumer of a marker can miss.** -/
structure Keeps (v v' : Conversation) (m : String) : Prop where
  registered : m ∈ v.splitter.table.markers → m ∈ v'.splitter.table.markers
  line : v.splitter.table.linesOf m = [] → v'.splitter.table.linesOf m = [] ∨ v'.WakeDue m
  ended : v.splitter.ended = false → v'.splitter.ended = false ∨ v'.WakeDue m
  due : m ∈ v.splitter.table.markers → v.WakeDue m → v'.WakeDue m

theorem Watched.keep (h : v.Watched c) (hk : Keeps v v' c.marker) : v'.Watched c where
  registered hp := hk.registered (h.registered hp)
  line hp hw := by
    have hm : c.marker ∈ v.splitter.table.markers :=
      h.registered (by rcases hp with hp | hp <;> simp [hp])
    rcases h.line hp hw with hline | hdue
    · exact hk.line hline
    · exact Or.inr (hk.due hm hdue)
  ended hp hw := by
    have hm : c.marker ∈ v.splitter.table.markers := h.registered (by simp [hp])
    rcases h.ended hp hw with hended | hdue
    · exact hk.ended hended
    · exact Or.inr (hk.due hm hdue)

/-- A consumer that has not looked yet, or will not look any more, can miss nothing. -/
theorem Watched.of_phase (hm : c.phase ≠ .refused → c.marker ∈ v.splitter.table.markers)
    (hc : c.phase ≠ .checking) (hp : c.phase ≠ .parked) : v.Watched c where
  registered := hm
  line h := absurd h (not_or.2 ⟨hc, hp⟩)
  ended h := absurd h hp

/-- Nor can one that was woken. -/
theorem Watched.of_woken (hm : c.phase ≠ .refused → c.marker ∈ v.splitter.table.markers)
    (hw : c.woken = true) : v.Watched c where
  registered := hm
  line _ h := by
    rw [hw] at h
    cases h
  ended _ h := by
    rw [hw] at h
    cases h

/-- What is on the way stays so while the reader has nobody to wake. -/
theorem WakeDue.mono (h : v.WakeDue m) (hr : v.splitter.reader ≠ .waking m)
    (he : v.ending ≤ v'.ending) (hn : v.notices = v'.notices) : v'.WakeDue m := by
  rcases h with h | h | h
  · exact absurd h hr
  · exact Or.inr (Or.inl (Nat.lt_of_lt_of_le h he))
  · exact Or.inr (Or.inr (hn ▸ h))

/-- A step of the reader that leaves the table alone. -/
theorem Keeps.of_reader (hr : ∀ m, v.splitter.reader ≠ .waking m)
    (ht : v'.splitter.table = v.splitter.table) (hs : v'.splitter.ended = v.splitter.ended)
    (he : v'.ending = v.ending) (hn : v'.notices = v.notices) : Keeps v v' m where
  registered h := by rwa [ht]
  line h := Or.inl (by rwa [ht])
  ended h := Or.inl (by rwa [hs])
  due _ h := h.mono (hr m) (Nat.le_of_eq he.symm) hn.symm

/-- The splitter has ended, and somebody is on the way to say so. -/
theorem Keeps.of_ending (ht : v'.splitter.table = v.splitter.table) (he : 0 < v'.ending) :
    Keeps v v' m where
  registered h := by rwa [ht]
  line _ := Or.inr (Or.inr (Or.inl he))
  ended _ := Or.inr (Or.inr (Or.inl he))
  due _ _ := Or.inr (Or.inl he)

/-! ### Consumers after a step -/

theorem watched_setConsumer {d : Consumer} (hv : ∀ c ∈ v.consumers, v'.Watched c)
    (hcs : v'.consumers = (v.setConsumer d).consumers) (hd : v'.Watched d) :
    ∀ c ∈ v'.consumers, v'.Watched c := by
  intro c hc
  rw [hcs] at hc
  rcases eq_or_mem_of_mem_setConsumer hc with rfl | ⟨hc, -⟩
  · exact hd
  · exact hv c hc

/-- Those who were on the way to the consumers of one marker have reached them. -/
theorem watched_wakeSubscribers (hv : ∀ c ∈ v.consumers, v.Watched c)
    (hm : v'.splitter.table.markers = v.splitter.table.markers)
    (hk : ∀ n, n ≠ m → Keeps v v' n) :
    ∀ c ∈ wakeSubscribers m v.consumers, v'.Watched c := by
  intro c hc
  obtain ⟨d, hd, rfl⟩ := List.mem_map.1 hc
  have hreg : d.phase ≠ .refused → d.marker ∈ v'.splitter.table.markers := by
    rw [hm]
    exact (hv d hd).registered
  by_cases hmarker : d.marker = m
  · by_cases hsub : d.isSubscribed = true
    · rw [if_pos ⟨hmarker, hsub⟩]
      exact .of_woken hreg rfl
    · rw [if_neg fun h => hsub h.2]
      refine .of_phase hreg ?_ ?_ <;>
      · intro hp
        exact hsub (by rw [Consumer.isSubscribed, hp])
  · rw [if_neg fun h => hmarker h.1]
    exact (hv d hd).keep (hk d.marker hmarker)

/-! ### The invariant -/

/-- **Every step keeps the invariant of every consumer.** -/
theorem Step.watched (hv : ∀ c ∈ v.consumers, v.Watched c) (h : Step v a v') :
    ∀ c ∈ v'.consumers, v'.Watched c := by
  cases h with
  | @registered _ marker table ensures ha hr =>
      have hsub := (Step.registered ensures ha hr).markers_subset
      obtain ⟨-, -, rfl⟩ := MarkerTable.register_eq_ok_iff.1 hr
      refine fun c hc => (hv c hc).keep ⟨fun h => hsub h, fun h => Or.inl ?_, Or.inl, fun _ => id⟩
      rw [← h]
      exact MarkerTable.linesOf_add ..
  | ensuring ensures ha => exact fun c hc => (hv c hc).keep ⟨id, Or.inl, Or.inl, fun _ => id⟩
  | closing => exact fun c hc => (hv c hc).keep ⟨id, Or.inl, Or.inl, fun _ => id⟩
  | closed _ | stopped _ => exact fun c hc => (hv c hc).keep (.of_ending rfl (Nat.succ_pos _))
  | started hr | tookLine hr | tookFailure hr | tookEnd hr | cancelled hr _ | routed hr _
  | unrouted hr _ =>
      intro c hc
      refine (hv c hc).keep (.of_reader (fun m => ?_) rfl rfl rfl rfl)
      rw [hr]
      exact Reader.noConfusion
  | @pushed line marker hr =>
      intro c hc
      refine (hv c hc).keep ⟨?_, fun h => ?_, Or.inl, fun _ h => ?_⟩
      · rw [MarkerTable.markers_push]
        exact id
      · by_cases hm : c.marker = marker
        · exact Or.inr (Or.inl (by rw [hm]))
        · refine Or.inl ?_
          rw [← h, MarkerTable.linesOf, MarkerTable.linesOf, MarkerTable.queue?_push, if_neg hm]
      · refine h.mono ?_ (Nat.le_refl _) rfl
        rw [hr]
        exact Reader.noConfusion
  | @notified marker hr =>
      refine watched_wakeSubscribers hv rfl fun n hn => ⟨id, Or.inl, Or.inl, fun _ h => ?_⟩
      refine h.mono ?_ (Nat.le_refl _) rfl
      rw [hr]
      exact fun heq => hn (Reader.waking.inj heq).symm
  | listed he =>
      refine fun c hc => (hv c hc).keep ⟨id, Or.inl, Or.inl, fun hm h => ?_⟩
      rcases h with h | h | h
      · exact Or.inl h
      -- the marker is listed, since its consumers came after it was registered
      · exact Or.inr (Or.inr (List.mem_append_right _ hm))
      · exact Or.inr (Or.inr (List.mem_append_left _ h))
  | woke hm =>
      refine watched_wakeSubscribers hv rfl fun n hn => ⟨id, Or.inl, Or.inl, fun _ h => ?_⟩
      rcases h with h | h | h
      · exact Or.inl h
      · exact Or.inr (Or.inl h)
      · exact Or.inr (Or.inr ((List.mem_erase_of_ne hn).2 h))
  | refused hid hm =>
      intro c hc
      rcases List.mem_append.1 hc with hc | hc
      · exact (hv c hc).keep ⟨id, Or.inl, Or.inl, fun _ => id⟩
      · rw [List.mem_singleton.1 hc]
        exact .of_phase (fun h => absurd rfl h) (by simp) (by simp)
  | joined hid hm =>
      intro c hc
      rcases List.mem_append.1 hc with hc | hc
      · exact (hv c hc).keep ⟨id, Or.inl, Or.inl, fun _ => id⟩
      · rw [List.mem_singleton.1 hc]
        exact .of_phase (fun _ => hm) (by simp) (by simp)
  | @subscribed _ c hc hp =>
      have hreg := (hv c (mem_of_consumer? hc)).registered (by simp [hp])
      exact watched_setConsumer (fun d hd => (hv d hd).keep ⟨id, Or.inl, Or.inl, fun _ => id⟩) rfl
        (.of_phase (fun _ => hreg) (by simp) (by simp))
  | @gotLine _ c line rest hc hp hq =>
      have hreg := (hv c (mem_of_consumer? hc)).registered (by simp [hp])
      refine watched_setConsumer (fun d hd => (hv d hd).keep ⟨?_, fun h => Or.inl ?_, Or.inl,
        fun _ => id⟩) rfl (.of_phase (fun _ => ?_) (by simp) (by simp))
      · rw [setConsumer, MarkerTable.markers_setQueue]
        exact id
      -- the queue that loses a line was not empty before
      · have hne : d.marker ≠ c.marker := by
          intro heq
          rw [heq, MarkerTable.linesOf, hq] at h
          cases h
        rw [← h, setConsumer, MarkerTable.linesOf, MarkerTable.linesOf, MarkerTable.queue?_setQueue,
          if_neg hne]
      · rw [setConsumer, MarkerTable.markers_setQueue]
        exact hreg
  | @gotNone _ c hc hp hq =>
      have hreg := (hv c (mem_of_consumer? hc)).registered (by simp [hp])
      exact watched_setConsumer (fun d hd => (hv d hd).keep ⟨id, Or.inl, Or.inl, fun _ => id⟩) rfl
        ⟨fun _ => hreg, fun _ _ => Or.inl hq, fun h => by cases h⟩
  | @gotEnd _ c hc hp he =>
      have hreg := (hv c (mem_of_consumer? hc)).registered (by simp [hp])
      exact watched_setConsumer (fun d hd => (hv d hd).keep ⟨id, Or.inl, Or.inl, fun _ => id⟩) rfl
        (.of_phase (fun _ => hreg) (by simp) (by simp))
  | @slept _ c hc hp he =>
      have hwatched := hv c (mem_of_consumer? hc)
      exact watched_setConsumer (fun d hd => (hv d hd).keep ⟨id, Or.inl, Or.inl, fun _ => id⟩) rfl
        ⟨fun _ => hwatched.registered (by simp [hp]), fun _ hw => hwatched.line (Or.inl hp) hw,
          fun _ _ => Or.inl he⟩
  | @awoke _ c hc hp hw =>
      have hreg := (hv c (mem_of_consumer? hc)).registered (by simp [hp])
      exact watched_setConsumer (fun d hd => (hv d hd).keep ⟨id, Or.inl, Or.inl, fun _ => id⟩) rfl
        (.of_phase (fun _ => hreg) (by simp) (by simp))
  | left =>
      exact fun c hc =>
        (hv c (List.mem_filter.1 hc).1).keep ⟨id, Or.inl, Or.inl, fun _ => id⟩

/-- **No consumer sleeps on what it waits for**: while it sleeps and was not woken, its queue is
empty and the splitter has not ended, or somebody is on the way to wake it. -/
def NobodyForgotten (v : Conversation) : Prop :=
  ∀ c ∈ v.consumers, c.phase = .parked → c.woken = false →
    (v.splitter.table.queue? c.marker = some [] ∧ v.splitter.ended = false) ∨ v.WakeDue c.marker

theorem Watched.not_forgotten (h : v.Watched c) (hp : c.phase = .parked) (hw : c.woken = false) :
    (v.splitter.table.queue? c.marker = some [] ∧ v.splitter.ended = false) ∨
      v.WakeDue c.marker := by
  have hm : c.marker ∈ v.splitter.table.markers := h.registered (by simp [hp])
  rcases h.line (Or.inr hp) hw with hline | hdue
  · rcases h.ended hp hw with hended | hdue
    · refine Or.inl ⟨?_, hended⟩
      rw [MarkerTable.queue?_eq_some_linesOf hm, hline]
    · exact Or.inr hdue
  · exact Or.inr hdue

theorem watched_run (schedule : List Action) :
    ∀ c ∈ (run {} schedule).consumers, (run {} schedule).Watched c :=
  run_induction (P := fun v => ∀ c ∈ v.consumers, v.Watched c) (fun _ _ _ hv h => h.watched hv)
    (by simp) schedule

/-- **No schedule loses a wake-up.** -/
theorem nobodyForgotten_run (schedule : List Action) : (run {} schedule).NobodyForgotten :=
  fun c hc hp hw => (watched_run schedule c hc).not_forgotten hp hw

end Conversation

end LineChat
