/-
**Results that succeed.**

A reader checks one thing after the other, and gives a result exactly if every check passes.  Seen
from its result it is a conjunction: the lemmas here turn a chain of steps and checks into one.

Main results:

* `LineChat.bind_eq_ok_iff`, `LineChat.bind_eq_error_iff` — a step and the ones that follow;
* `LineChat.if_error_eq_ok_iff`, `LineChat.if_else_error_eq_ok_iff` — a check and what follows;
* `LineChat.foldlM_preserves` — what every step of a loop preserves;
* `LineChat.eq_ok_of_toOption` — a result that is there.
-/

import LineChat.Bytes

set_option autoImplicit false

namespace LineChat

variable {ε α β : Type} {p : Prop} [Decidable p] {e : ε}

theorem bind_eq_ok_iff {x : Except ε α} {f : α → Except ε β} {b : β} :
    (x >>= f) = .ok b ↔ ∃ a, x = .ok a ∧ f a = .ok b := by
  cases x with
  | error e =>
      constructor
      · intro h
        cases h
      · rintro ⟨a, ha, -⟩
        cases ha
  | ok a =>
      constructor
      · exact fun h => ⟨a, rfl, h⟩
      · rintro ⟨a', ha, h⟩
        cases ha
        exact h

theorem bind_eq_error_iff {x : Except ε α} {f : α → Except ε β} :
    (x >>= f) = .error e ↔ x = .error e ∨ ∃ a, x = .ok a ∧ f a = .error e := by
  cases x with
  | error e' =>
      constructor
      · intro h
        cases h
        exact Or.inl rfl
      · rintro (h | ⟨a, ha, -⟩)
        · cases h
          rfl
        · cases ha
  | ok a =>
      constructor
      · exact fun h => Or.inr ⟨a, rfl, h⟩
      · rintro (h | ⟨a', ha, h⟩)
        · cases h
        · cases ha
          exact h

theorem if_error_eq_ok_iff {x : Except ε α} {a : α} :
    (if p then .error e else x) = .ok a ↔ ¬ p ∧ x = .ok a := by
  by_cases hp : p <;> simp [hp]

theorem if_else_error_eq_ok_iff {x : Except ε α} {a : α} :
    (if p then x else .error e) = .ok a ↔ p ∧ x = .ok a := by
  by_cases hp : p <;> simp [hp]

/-- What every step preserves, all of them do. -/
theorem foldlM_preserves {σ : Type} {P : σ → Prop} {step : σ → β → Except ε σ} {bs : List β}
    (hstep : ∀ b ∈ bs, ∀ t t', P t → step t b = .ok t' → P t') {t t' : σ} (ht : P t)
    (h : bs.foldlM step t = .ok t') : P t' := by
  induction bs generalizing t with
  | nil =>
      cases h
      exact ht
  | cons b bs ih =>
      rw [List.foldlM_cons] at h
      obtain ⟨next, hnext, hmore⟩ := bind_eq_ok_iff.1 h
      exact ih (fun b hb => hstep b (List.mem_cons_of_mem _ hb))
        (hstep b (List.mem_cons_self ..) t next ht hnext) hmore

theorem eq_ok_of_toOption {x : Except ε α} {a : α} (h : x.toOption = some a) : x = .ok a := by
  cases x with
  | error e => cases h
  | ok b => rw [Option.some.inj h]

end LineChat
