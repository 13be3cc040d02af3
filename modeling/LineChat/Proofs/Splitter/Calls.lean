/-
**Calls that nobody disturbs.**

A call that reads a line or ensures a marker is a sequence of steps, and others may take theirs in
between.  Taken without a break the steps come to something simple: a read that does not wait takes
the oldest line of its queue, or learns whether there can be another one; a call that ensures a
marker does what looking for it once and registering it does.

Main results:

* `LineChat.Conversation.fst_readNow` — **what a read that does not wait comes to**;
* `LineChat.Conversation.run_ensure` — **what a call that ensures a marker comes to**.
-/

import LineChat.Proofs.Splitter.Steps

set_option autoImplicit false

namespace LineChat

/-- What is replaced is found under its number. -/
theorem find?_replace {α : Type} {f : α → Nat} {xs : List α} {x y : α} {n : Nat}
    (hx : xs.find? (f · == n) = some x) (hy : f y = n) :
    (xs.map fun z => if f z = f y then y else z).find? (f · == n) = some y := by
  have hkey : (fun z => f z == n) ∘ (fun z => if f z = f y then y else z) = fun z => f z == n := by
    funext z
    by_cases hz : f z = f y <;> simp [hz]
  have hn : f x = n := by simpa using List.find?_some hx
  rw [List.find?_map, hkey, hx, Option.map_some, hn, hy, if_pos rfl]

namespace Conversation

variable {v : Conversation} {id : Nat}

/-! ### A read -/

theorem consumer?_setConsumer {c d : Consumer} (hc : v.consumer? id = some c) (hd : d.id = id) :
    (v.setConsumer d).consumer? id = some d :=
  find?_replace (f := Consumer.id) hc hd

/-- A number above all others is free. -/
theorem consumer?_freshId (v : Conversation) : v.consumer? v.freshId = none := by
  have hlt : ∀ (cs : List Consumer) (n : Nat),
      n ≤ cs.foldl (fun n c => max n (c.id + 1)) n ∧
        ∀ c ∈ cs, c.id < cs.foldl (fun n c => max n (c.id + 1)) n := by
    intro cs
    induction cs with
    | nil => exact fun n => ⟨Nat.le_refl n, by simp⟩
    | cons d cs ih =>
        intro n
        obtain ⟨hle, hmem⟩ := ih (max n (d.id + 1))
        refine ⟨Nat.le_trans (Nat.le_max_left _ _) hle, fun c hc => ?_⟩
        rcases List.mem_cons.1 hc with rfl | hc
        · exact Nat.le_trans (Nat.le_max_right _ _) hle
        · exact hmem c hc
  rw [consumer?, List.find?_eq_none]
  intro c hc
  have := (hlt v.consumers 0).2 c hc
  simp only [beq_iff_eq, freshId]
  omega

/-- A consumer that has just come. -/
theorem tryStep_join (hid : v.consumer? id = none) (marker : String) (strip : Bool) :
    let phase := if v.splitter.table.contains marker then .subscribing else .refused
    (v.tryStep (.join id marker strip)).splitter = v.splitter ∧
      (v.tryStep (.join id marker strip)).consumer? id = some { id, marker, strip, phase } := by
  intro phase
  have hstep : v.tryStep (.join id marker strip) =
      { v with consumers := v.consumers ++ [{ id, marker, strip, phase }] } := by
    rw [tryStep, step?, if_pos hid, Option.getD_some]
  rw [hstep]
  refine ⟨rfl, ?_⟩
  rw [consumer?, List.find?_append, ← consumer?, hid]
  simp

theorem tryStep_run {c : Consumer} (hc : v.consumer? id = some c) :
    v.tryStep (.run id) = (v.runConsumer c).getD v := by
  rw [tryStep, step?, hc, Option.bind_some]

/-- A consumer's step that replaces it by its next state. -/
theorem tryStep_run_some {c d : Consumer} {w : Conversation} (hc : v.consumer? id = some c)
    (hd : d.id = id) (hw : w.consumers = v.consumers)
    (hrun : v.runConsumer c = some (w.setConsumer d)) :
    (v.tryStep (.run id)).consumer? id = some d ∧
      (v.tryStep (.run id)).splitter = w.splitter := by
  rw [tryStep_run hc, hrun, Option.getD_some]
  have hc' : w.consumer? id = some c := by
    rw [consumer?, hw]
    exact hc
  exact ⟨consumer?_setConsumer hc' hd, rfl⟩

/-- A consumer that has nothing to do for now. -/
theorem tryStep_run_none {c : Consumer} (hc : v.consumer? id = some c)
    (hrun : v.runConsumer c = none) : v.tryStep (.run id) = v := by
  rw [tryStep_run hc, hrun, Option.getD_none]

theorem advance_eq (v : Conversation) (id : Nat) :
    v.advance id =
      (((v.tryStep (.run id)).tryStep (.run id)).tryStep (.run id)).tryStep (.run id) :=
  rfl

/-- A consumer whose marker is not registered stays where it is. -/
theorem advance_refused {c : Consumer} (hc : v.consumer? id = some c) (hp : c.phase = .refused) :
    (v.advance id).consumer? id = some c := by
  have hrun : v.runConsumer c = none := by rw [runConsumer, hp]
  have hstep := tryStep_run_none hc hrun
  rw [advance_eq, hstep, hstep, hstep, hstep]
  exact hc

/-- A consumer that comes while a line waits for it takes the line. -/
theorem advance_of_line {c : Consumer} {line : String} {rest : List String}
    (hc : v.consumer? id = some c) (hp : c.phase = .subscribing)
    (hq : v.splitter.table.queue? c.marker = some (line :: rest)) :
    ∃ d, (v.advance id).consumer? id = some d ∧ d.phase = .finished (some (c.shape line)) := by
  have hid := id_of_consumer? hc
  obtain ⟨hc₁, hs₁⟩ := tryStep_run_some (w := v) (d := { c with phase := .popping, woken := false })
    hc hid rfl (by rw [runConsumer, hp])
  rw [advance_eq]
  generalize v.tryStep (.run id) = v₁ at hc₁ hs₁ ⊢
  have hpop : v₁.splitter.table.pop c.marker =
      some (line, v₁.splitter.table.setQueue c.marker rest) := by
    rw [hs₁]
    exact MarkerTable.pop_eq_some_iff.2 ⟨rest, hq, rfl⟩
  obtain ⟨hc₂, -⟩ := tryStep_run_some
    (w := { v₁ with splitter := { v₁.splitter with
      table := v₁.splitter.table.setQueue c.marker rest } })
    (d := { c with phase := .finished (some (c.shape line)), woken := false }) hc₁ hid rfl
    (by simp only [runConsumer, hpop]; rfl)
  have hstep := tryStep_run_none hc₂ (by simp only [runConsumer])
  rw [hstep, hstep]
  exact ⟨_, hc₂, rfl⟩

/-- A consumer that comes while no line waits for it learns whether there can be one. -/
theorem advance_of_empty {c : Consumer} (hc : v.consumer? id = some c) (hp : c.phase = .subscribing)
    (hq : v.splitter.table.linesOf c.marker = []) :
    ∃ d, (v.advance id).consumer? id = some d ∧
      d.phase = if v.splitter.ended then .finished none else .parked := by
  have hid := id_of_consumer? hc
  obtain ⟨hc₁, hs₁⟩ := tryStep_run_some (w := v) (d := { c with phase := .popping, woken := false })
    hc hid rfl (by rw [runConsumer, hp])
  rw [advance_eq]
  generalize v.tryStep (.run id) = v₁ at hc₁ hs₁ ⊢
  have hpop : v₁.splitter.table.pop c.marker = none := by
    rw [hs₁]
    exact MarkerTable.pop_eq_none_iff.2 hq
  obtain ⟨hc₂, hs₂⟩ := tryStep_run_some (w := v₁)
    (d := { c with phase := .checking, woken := false }) hc₁ hid rfl
    (by simp only [runConsumer, hpop])
  generalize v₁.tryStep (.run id) = v₂ at hc₂ hs₂ ⊢
  obtain ⟨hc₃, -⟩ := tryStep_run_some (w := v₂)
    (d := { c with
      phase := if v.splitter.ended then .finished none else .parked
      woken := false }) hc₂ hid rfl
    (by simp only [runConsumer, hs₂, hs₁])
  have hstep := tryStep_run_none hc₃ (by
    cases v.splitter.ended <;> simp [runConsumer])
  rw [hstep]
  exact ⟨_, hc₃, rfl⟩

/-- **What a read that does not wait comes to.** -/
theorem fst_readNow (v : Conversation) (marker : String) (strip : Bool) :
    (v.readNow marker strip).1 =
      match v.splitter.table.queue? marker with
      | none => .error (MarkerTable.notRegistered marker)
      | some [] => .ok (if v.splitter.ended then some none else none)
      | some (line :: _) =>
          .ok (some (some (if strip then Text.behind marker line else line))) := by
  obtain ⟨hs, hc⟩ := tryStep_join (consumer?_freshId v) marker strip
  rw [readNow]
  generalize v.tryStep (.join v.freshId marker strip) = w at hs hc ⊢
  have hq : w.splitter.table.queue? marker = v.splitter.table.queue? marker := by rw [hs]
  cases h : v.splitter.table.queue? marker with
  | none =>
      have hcontains : v.splitter.table.contains marker = false := by
        rw [Bool.eq_false_iff]
        exact fun hm => MarkerTable.queue?_eq_none_iff.1 h (MarkerTable.contains_iff.1 hm)
      have hfind := advance_refused hc (by simp [hcontains])
      simp [hfind, hcontains, Consumer.outcome]
  | some lines =>
      have hcontains := MarkerTable.contains_iff.2 (MarkerTable.mem_markers_of_queue? h)
      cases lines with
      | nil =>
          obtain ⟨d, hd, hphase⟩ := advance_of_empty hc (by simp [hcontains])
            (by rw [MarkerTable.linesOf, hq, h, Option.getD_some])
          rw [hs] at hphase
          cases he : v.splitter.ended <;>
            simp [hd, hphase, he, Consumer.outcome, Consumer.result?]
      | cons line rest =>
          obtain ⟨d, hd, hphase⟩ := advance_of_line hc (by simp [hcontains]) (hq.trans h)
          simp [hd, hphase, Consumer.outcome, Consumer.result?, Consumer.shape]

/-! ### A call that ensures a marker -/

theorem ensure?_setEnsure {e f : EnsureCall} (he : v.ensure? id = some e) (hf : f.id = id) :
    (v.setEnsure f).ensure? id = some f :=
  find?_replace (f := EnsureCall.id) he hf

/-- A call's step, which replaces it by its next state. -/
theorem tryStep_ensureNext_some {e f : EnsureCall} {w : Conversation} (he : v.ensure? id = some e)
    (hf : f.id = id) (hw : w.ensures = v.ensures) (hrun : v.runEnsure e = some (w.setEnsure f)) :
    (v.tryStep (.ensureNext id)).ensure? id = some f ∧
      (v.tryStep (.ensureNext id)).splitter = w.splitter := by
  rw [tryStep, step?, he, Option.bind_some, hrun, Option.getD_some]
  have he' : w.ensure? id = some e := by
    rw [ensure?, hw]
    exact he
  exact ⟨ensure?_setEnsure he' hf, rfl⟩

/-- A call that is done has no step any more. -/
theorem tryStep_ensureNext_finished {e : EnsureCall} {error : Option LineError}
    (he : v.ensure? id = some e) (hp : e.phase = .finished error) :
    v.tryStep (.ensureNext id) = v := by
  rw [tryStep, step?, he, Option.bind_some, runEnsure, hp, Option.getD_none]

/-- **What a call that ensures a marker comes to**: its three looks at the table have the effect
of looking for the marker and registering it at once. -/
theorem run_ensure (hid : v.ensure? id = none) (marker : String) :
    let w := v.run [.ensure id marker, .ensureNext id, .ensureNext id, .ensureNext id]
    match v.splitter.ensure marker with
    | .ok splitter =>
        w.splitter = splitter ∧ w.ensure? id = some { id, marker, phase := .finished none }
    | .error e =>
        w.splitter = v.splitter ∧
          w.ensure? id = some { id, marker, phase := .finished (some e) } := by
  have hstep : v.tryStep (.ensure id marker) =
      { v with ensures := v.ensures ++ [{ id, marker }] } := by
    rw [tryStep, step?, if_pos hid, Option.getD_some]
  have he₀ : (v.tryStep (.ensure id marker)).ensure? id = some { id, marker } := by
    rw [hstep, ensure?, List.find?_append, ← ensure?, hid]
    simp
  have hs₀ : (v.tryStep (.ensure id marker)).splitter = v.splitter := by rw [hstep]
  simp only [run, List.foldl_cons, List.foldl_nil]
  generalize v.tryStep (.ensure id marker) = v₀ at he₀ hs₀ ⊢
  rw [← hs₀]
  obtain ⟨he₁, hs₁⟩ := tryStep_ensureNext_some (w := v₀)
    (f := { id, marker, phase := if v₀.splitter.table.contains marker then .finished none
      else .registering }) he₀ rfl rfl rfl
  generalize v₀.tryStep (.ensureNext id) = v₁ at he₁ hs₁ ⊢
  rw [Splitter.ensure, MarkerTable.ensure]
  cases hcontains : v₀.splitter.table.contains marker with
  | true =>
      rw [hcontains, if_pos rfl] at he₁
      have hdone := tryStep_ensureNext_finished he₁ rfl
      rw [hdone, hdone]
      exact ⟨hs₁, he₁⟩
  | false =>
      rw [hcontains] at he₁
      rw [← hs₁]
      cases hr : v₁.splitter.table.register marker with
      | ok table =>
          obtain ⟨he₂, hs₂⟩ := tryStep_ensureNext_some
            (w := { v₁ with splitter := { v₁.splitter with table } })
            (f := { id, marker, phase := .finished none }) he₁ rfl rfl
            (by simp [runEnsure, Splitter.register, hr, Except.map])
          rw [tryStep_ensureNext_finished he₂ rfl]
          exact ⟨hs₂, he₂⟩
      | error error =>
          obtain ⟨he₂, hs₂⟩ := tryStep_ensureNext_some (w := v₁)
            (f := { id, marker, phase := .lookingAgain error }) he₁ rfl rfl
            (by simp [runEnsure, Splitter.register, hr, Except.map])
          generalize v₁.tryStep (.ensureNext id) = v₂ at he₂ hs₂ ⊢
          obtain ⟨he₃, hs₃⟩ := tryStep_ensureNext_some (w := v₂)
            (f := { id, marker, phase := .finished (some error) }) he₂ rfl rfl
            (by simp [runEnsure, hs₂, hs₁, hcontains])
          exact ⟨hs₃.trans hs₂, he₃⟩

end Conversation

end LineChat
