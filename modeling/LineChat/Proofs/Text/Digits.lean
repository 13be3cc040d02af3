/-
**Numbers come back from their digits.**

Reading the digits that a number is written in, in any base up to sixteen, gives the number again.
A run of digits is read from the front of a text up to the first character that is none.

Main definitions:

* `LineChat.Text.Stops` — a text that does not go on with a character of some class.

Main results:

* `LineChat.Text.ofDigits_toDigits` — **reading digits undoes writing them**;
* `LineChat.Text.takeWhile_append_of_stops`, `LineChat.Text.dropWhile_append_of_stops` — a run is
  taken as a whole, and nothing else;
* `LineChat.Text.takeWhile_digits`, `LineChat.Text.dropWhile_digits` — the digits of a number;
* `LineChat.Text.toDigits_of_head` — only zero is written with a zero in front.
-/

import LineChat.Text.Digits
import LineChat.Text.Scan
import Mathlib.Data.List.TakeWhile
import Mathlib.Tactic.SplitIfs

set_option autoImplicit false

namespace LineChat.Text

/-! ### Runs of characters -/

/-- **A text that does not go on with a character of a class.** -/
def Stops (isOf : Char → Bool) (rest : List Char) : Prop :=
  ∀ c, rest.head? = some c → isOf c = false

variable {isOf : Char → Bool} {cs rest : List Char}

theorem Stops.nil : Stops isOf [] := by
  intro c hc
  simp at hc

theorem Stops.cons {c : Char} (h : isOf c = false) : Stops isOf (c :: rest) := by
  intro d hd
  obtain rfl : c = d := by simpa using hd
  exact h

/-- A text that does not go on with one class does not go on with a smaller one. -/
theorem Stops.mono {isOf' : Char → Bool} (h : Stops isOf rest)
    (hsub : ∀ c, isOf' c = true → isOf c = true) : Stops isOf' rest := by
  intro c hc
  rw [← Bool.not_eq_true]
  intro hof
  exact absurd (hsub c hof) (by simp [h c hc])

theorem Stops.takeWhile_eq (h : Stops isOf rest) : rest.takeWhile isOf = [] := by
  cases rest with
  | nil => rfl
  | cons c rest => rw [List.takeWhile_cons, h c rfl, if_neg Bool.false_ne_true]

theorem Stops.dropWhile_eq (h : Stops isOf rest) : rest.dropWhile isOf = rest := by
  cases rest with
  | nil => rfl
  | cons c rest => rw [List.dropWhile_cons, h c rfl, if_neg Bool.false_ne_true]

@[simp] theorem expect_self (c : Char) (rest : List Char) : expect c (c :: rest) = some rest :=
  if_pos rfl

theorem takeWhile_append_of_stops (hcs : ∀ c ∈ cs, isOf c = true) (h : Stops isOf rest) :
    (cs ++ rest).takeWhile isOf = cs := by
  rw [List.takeWhile_append_of_pos hcs, h.takeWhile_eq, List.append_nil]

theorem dropWhile_append_of_stops (hcs : ∀ c ∈ cs, isOf c = true) (h : Stops isOf rest) :
    (cs ++ rest).dropWhile isOf = rest := by
  rw [List.dropWhile_append_of_pos hcs, h.dropWhile_eq]

/-! ### Digits -/

variable {base : Nat}

theorem ofDigits_append_singleton (cs : List Char) (c : Char) :
    ofDigits base (cs ++ [c]) = ofDigits base cs * base + (digitValue? base c).getD 0 := by
  simp [ofDigits, List.foldl_append]

theorem digitValue?_digitChar {d : Nat} (hbase : base ≤ 16) (hd : d < base) :
    digitValue? base d.digitChar = some d := by
  have hvalue : ∀ d < 16, ∀ base ≤ 16, d < base → digitValue? base d.digitChar = some d := by
    decide
  exact hvalue d (by omega) base hbase hd

theorem isDigit_digitChar {d : Nat} (hbase : base ≤ 16) (hd : d < base) :
    isDigit base d.digitChar = true := by
  rw [isDigit, digitValue?_digitChar hbase hd]
  rfl

/-- A digit is one in every larger base, too. -/
theorem isDigit_mono {base' : Nat} (hbases : base ≤ base') {c : Char} (h : isDigit base c = true) :
    isDigit base' c = true := by
  simp only [isDigit, digitValue?, Option.isSome_ite] at h ⊢
  split_ifs at h ⊢ <;> omega

/-- A digit is no other character than a digit. -/
theorem ne_of_isDigit {c d : Char} (hc : isDigit base c = true) (hd : isDigit base d = false) :
    c ≠ d := by
  rintro rfl
  exact Bool.false_ne_true (hd.symm.trans hc)

/-- **Reading digits undoes writing them.** -/
theorem ofDigits_toDigits (h1 : 1 < base) (hbase : base ≤ 16) (n : Nat) :
    ofDigits base (Nat.toDigits base n) = n := by
  induction n using Nat.strong_induction_on with
  | _ n ih =>
      by_cases hn : n < base
      · rw [Nat.toDigits_of_lt_base hn]
        simp [ofDigits, digitValue?_digitChar hbase hn]
      · have hless : n / base < n := Nat.div_lt_self (by omega) h1
        have hmod : n % base < base := Nat.mod_lt n (by omega)
        rw [Nat.toDigits_of_base_le h1 (by omega), ofDigits_append_singleton, ih _ hless,
          digitValue?_digitChar hbase hmod]
        exact Nat.div_add_mod' n base

theorem isDigit_of_mem_toDigits (h1 : 1 < base) (hbase : base ≤ 16) {n : Nat} {c : Char}
    (hc : c ∈ Nat.toDigits base n) : isDigit base c = true := by
  induction n using Nat.strong_induction_on with
  | _ n ih =>
      by_cases hn : n < base
      · rw [Nat.toDigits_of_lt_base hn, List.mem_singleton] at hc
        exact hc ▸ isDigit_digitChar hbase hn
      · rw [Nat.toDigits_of_base_le h1 (by omega)] at hc
        rcases List.mem_append.1 hc with hc | hc
        · exact ih _ (Nat.div_lt_self (by omega) h1) hc
        · rw [List.mem_singleton] at hc
          exact hc ▸ isDigit_digitChar hbase (Nat.mod_lt n (by omega))

theorem eq_zero_of_head_toDigits (h1 : 1 < base) (hbase : base ≤ 16) {n : Nat}
    (h : (Nat.toDigits base n).head? = some '0') : n = 0 := by
  induction n using Nat.strong_induction_on with
  | _ n ih =>
      by_cases hn : n < base
      · rw [Nat.toDigits_of_lt_base hn, List.head?_cons, Option.some.injEq] at h
        have hvalue := digitValue?_digitChar hbase hn
        rw [h] at hvalue
        have hzero : digitValue? base (Nat.digitChar 0) = some 0 :=
          digitValue?_digitChar hbase (by omega)
        exact Option.some.inj (hvalue.symm.trans hzero)
      · rw [Nat.toDigits_of_base_le h1 (by omega), List.head?_append,
          List.head?_eq_some_head Nat.toDigits_ne_nil, Option.some_or,
          ← List.head?_eq_some_head Nat.toDigits_ne_nil] at h
        have hquotient := ih _ (Nat.div_lt_self (by omega) h1) h
        have hpos : 0 < n / base := Nat.div_pos (by omega) (by omega)
        omega

/-- Only zero is written with a zero in front. -/
theorem toDigits_of_head (h1 : 1 < base) (hbase : base ≤ 16) {n : Nat}
    (h : (Nat.toDigits base n).head? = some '0') : Nat.toDigits base n = ['0'] := by
  rw [eq_zero_of_head_toDigits h1 hbase h, Nat.toDigits_of_lt_base (by omega)]
  rfl

/-- A number is written with a digit in front. -/
theorem exists_toDigits_eq_cons (h1 : 1 < base) (hbase : base ≤ 16) (n : Nat) :
    ∃ c cs, Nat.toDigits base n = c :: cs ∧ isDigit base c = true := by
  cases hdigits : Nat.toDigits base n with
  | nil => exact absurd hdigits Nat.toDigits_ne_nil
  | cons c cs =>
      refine ⟨c, cs, rfl, isDigit_of_mem_toDigits h1 hbase (n := n) ?_⟩
      rw [hdigits]
      exact List.mem_cons_self ..

theorem takeWhile_digits (h1 : 1 < base) (hbase : base ≤ 16) (n : Nat)
    (hrest : Stops (isDigit base) rest) :
    (Nat.toDigits base n ++ rest).takeWhile (isDigit base) = Nat.toDigits base n :=
  takeWhile_append_of_stops (fun _ => isDigit_of_mem_toDigits h1 hbase) hrest

theorem dropWhile_digits (h1 : 1 < base) (hbase : base ≤ 16) (n : Nat)
    (hrest : Stops (isDigit base) rest) :
    (Nat.toDigits base n ++ rest).dropWhile (isDigit base) = rest :=
  dropWhile_append_of_stops (fun _ => isDigit_of_mem_toDigits h1 hbase) hrest

end LineChat.Text
