/-
**Texts in order.**

Markers and users are listed sorted.  Texts of which none is listed twice have one order only, so a
sorted list does not tell in which order its texts came.

Main results:

* `LineChat.Text.sorted_pairwise_lt` — **each text once, in order**;
* `LineChat.Text.sorted_eq_of_perm` — **the order in which the texts came is forgotten**.
-/

import Mathlib.Data.List.Nodup

set_option autoImplicit false

namespace LineChat.Text

variable {texts texts' : List String}

/-- **Each text once, in order.** -/
theorem sorted_pairwise_lt (h : texts.Nodup) :
    (texts.mergeSort fun a b => decide (a ≤ b)).Pairwise (· < ·) := by
  have hsorted : (texts.mergeSort fun a b => decide (a ≤ b)).Pairwise
      fun a b => decide (a ≤ b) = true :=
    List.pairwise_mergeSort (fun a b c hab hbc => by
        simp only [decide_eq_true_eq] at hab hbc ⊢
        exact String.le_trans hab hbc)
      (fun a b => by simpa using String.le_total a b) _
  refine (hsorted.and ((List.mergeSort_perm ..).nodup_iff.2 h)).imp fun {a b} hab => ?_
  have hle : a ≤ b := of_decide_eq_true hab.1
  exact String.not_le.1 fun hba => hab.2 (String.le_antisymm hle hba)

/-- **The order in which the texts came is forgotten.** -/
theorem sorted_eq_of_perm (hperm : texts.Perm texts') (h : texts.Nodup) :
    (texts.mergeSort fun a b => decide (a ≤ b)) = texts'.mergeSort fun a b => decide (a ≤ b) := by
  have hboth : (texts.mergeSort fun a b => decide (a ≤ b)).Perm
      (texts'.mergeSort fun a b => decide (a ≤ b)) :=
    ((List.mergeSort_perm ..).trans hperm).trans (List.mergeSort_perm ..).symm
  refine hboth.eq_of_pairwise (fun a b _ _ hab hba => ?_) (sorted_pairwise_lt h)
    (sorted_pairwise_lt (hperm.nodup_iff.1 h))
  exact absurd hba (String.lt_asymm hab)

end LineChat.Text
