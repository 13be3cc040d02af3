/-
**Every line has one place to go.**

Markers are registered while lines are routed and read, by several calls at once.  Each of them
holds the table during one step, and only registering changes which markers there are; so the
markers can be told apart in every state, and the marker that the reader finds for a line is the
same whatever the order of the table.

Main results:

* `LineChat.Conversation.Step.markers_subset` — a marker stays registered;
* `LineChat.Conversation.Step.prefixFree` — every step keeps the markers apart;
* `LineChat.Conversation.unambiguous_run` — **no schedule makes the table ambiguous**.
-/

import LineChat.Proofs.Splitter.Steps

set_option autoImplicit false

namespace LineChat

namespace Conversation

variable {v v' : Conversation} {a : Action}

/-- **The markers of a step's table**: the same ones, or one more. -/
theorem Step.markers_eq (h : Step v a v') :
    v'.splitter.table.markers = v.splitter.table.markers ∨
      ∃ marker, v.splitter.table.register marker = .ok v'.splitter.table := by
  cases h with
  | registered ensures ha hr => exact Or.inr ⟨_, hr⟩
  | pushed hr => exact Or.inl (MarkerTable.markers_push ..)
  | gotLine hc hp hq => exact Or.inl (MarkerTable.markers_setQueue ..)
  | _ => exact Or.inl rfl

/-- A marker stays registered. -/
theorem Step.markers_subset (h : Step v a v') :
    v.splitter.table.markers ⊆ v'.splitter.table.markers := by
  rcases h.markers_eq with heq | ⟨marker, hr⟩
  · rw [heq]
    exact List.Subset.refl _
  · obtain ⟨-, -, hadd⟩ := MarkerTable.register_eq_ok_iff.1 hr
    rw [hadd, MarkerTable.markers_add]
    exact List.subset_append_left ..

theorem Step.prefixFree (hv : v.splitter.table.PrefixFree) (h : Step v a v') :
    v'.splitter.table.PrefixFree := by
  rcases h.markers_eq with heq | ⟨marker, hr⟩
  · exact hv.congr heq
  · exact hv.register hr

/-- **No schedule makes the table ambiguous.** -/
theorem unambiguous_run (schedule : List Action) :
    (run {} schedule).splitter.table.Unambiguous := by
  have hfree : (run {} schedule).splitter.table.PrefixFree :=
    run_induction (P := fun v => v.splitter.table.PrefixFree) (fun _ _ _ hv h => h.prefixFree hv)
      MarkerTable.PrefixFree.start schedule
  exact hfree.unambiguous

end Conversation

end LineChat
