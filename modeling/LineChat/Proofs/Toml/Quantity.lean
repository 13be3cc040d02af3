/-
**Integers come back from a configuration document.**

A number in decimal digits is read as the same integer, as long as it fits.  It is no date and no
time, since those have another mark behind their first digits, and no floating-point number, since
it has neither a point nor an exponent.

Main results:

* `LineChat.Toml.takeMoment_digits`, `LineChat.Toml.takeFloat_digits` — what digits are not;
* `LineChat.Toml.takeInteger_digits` — integers;
* `LineChat.Toml.takeQuantity_digits` — **a number that fits comes back**.
-/

import LineChat.Proofs.Text.Digits
import LineChat.Toml.Quantity

set_option autoImplicit false

namespace LineChat.Toml

open Text (Stops isDigit)

variable {ds rest : List Char}

/-! ### Dates and times -/

/-- Behind the first digits of a line of digits there is another one, or the line ends. -/
theorem expect_behind_takeField (hds : ∀ c ∈ ds, isDigit 10 c = true) {count low high n : Nat}
    {behind : List Char} (h : takeField count low high (ds ++ '\n' :: rest) = some (n, behind))
    (mark : Char) (hmark : isDigit 10 mark = false) (hbreak : mark ≠ '\n') :
    Text.expect mark behind = none := by
  simp only [takeField, Text.exactly, Option.bind_eq_bind] at h
  split at h
  case isFalse => simp at h
  case isTrue htaken =>
    simp only [Option.bind_some] at h
    split at h
    case isFalse => simp at h
    case isTrue =>
      simp only [Option.some.injEq, Prod.mk.injEq] at h
      obtain ⟨-, rfl⟩ := h
      obtain ⟨hlength, hdigits⟩ := htaken
      have hcount : count ≤ ds.length := by
        by_contra hlong
        have hmem : '\n' ∈ (ds ++ '\n' :: rest).take count := by
          rw [List.take_append, List.mem_append]
          refine Or.inr ?_
          obtain ⟨k, hk⟩ : ∃ k, count - ds.length = k + 1 := ⟨count - ds.length - 1, by omega⟩
          rw [hk, List.take_succ_cons]
          exact List.mem_cons_self ..
        exact absurd (List.all_eq_true.1 hdigits _ hmem) (by decide)
      rw [List.drop_append_of_le_length hcount]
      cases hdrop : ds.drop count with
      | nil => rw [List.nil_append, Text.expect, if_neg hbreak.symm]
      | cons c more =>
          have hc : isDigit 10 c = true :=
            hds c (List.mem_of_mem_drop (hdrop ▸ List.mem_cons_self ..))
          rw [List.cons_append, Text.expect, if_neg (Text.ne_of_isDigit hc hmark)]

theorem takeMoment_digits (hds : ∀ c ∈ ds, isDigit 10 c = true) :
    takeMoment (ds ++ '\n' :: rest) = none := by
  have hdate : takeDate (ds ++ '\n' :: rest) = none := by
    unfold takeDate
    cases hyear : takeField 4 0 9999 (ds ++ '\n' :: rest) with
    | none => rfl
    | some found =>
        have hmark := expect_behind_takeField hds hyear '-' (by decide) (by decide)
        simp [hmark]
  have htime : takeTime (ds ++ '\n' :: rest) = none := by
    unfold takeTime
    cases hhour : takeField 2 0 23 (ds ++ '\n' :: rest) with
    | none => rfl
    | some found =>
        have hmark := expect_behind_takeField hds hhour ':' (by decide) (by decide)
        simp [hmark]
  rw [takeMoment, hdate, htime]

/-! ### Numbers -/

variable {n : Nat}

/-- Digits without underscores are taken as they are. -/
theorem takeDigits_append (hds : ∀ c ∈ ds, isDigit 10 c = true) (hne : ds ≠ []) :
    takeDigits 10 (ds ++ '\n' :: rest) = some (ds, '\n' :: rest) := by
  have hbare : ∀ c ∈ ds, c ≠ '_' := fun c hc => Text.ne_of_isDigit (hds c hc) (by decide)
  have hpart : ∀ c ∈ ds, (isDigit 10 c || decide (c = '_')) = true := by
    intro c hc
    rw [hds c hc, Bool.true_or]
  have hstops : Stops (fun c => isDigit 10 c || decide (c = '_')) ('\n' :: rest) :=
    .cons (by decide)
  have hgrouped : isGrouped ds = true := by
    have hsplit : (['_'].intercalate [ds]).splitOn '_' = [ds] :=
      List.splitOn_intercalate '_' (by simpa using fun h => hbare _ h rfl) (by simp)
    rw [List.intercalate_singleton] at hsplit
    simpa [isGrouped, hsplit] using hne
  have hfilter : ds.filter (· ≠ '_') = ds :=
    List.filter_eq_self.2 fun c hc => decide_eq_true (hbare c hc)
  simp only [takeDigits, Text.takeWhile_append_of_stops hpart hstops,
    Text.dropWhile_append_of_stops hpart hstops, hgrouped, hfilter, if_true]

theorem takeWhole_digits (n : Nat) :
    takeWhole (Nat.toDigits 10 n ++ '\n' :: rest) = some (Nat.toDigits 10 n, '\n' :: rest) := by
  have htaken : takeDigits 10 (Nat.toDigits 10 n ++ '\n' :: rest) =
      some (Nat.toDigits 10 n, '\n' :: rest) :=
    takeDigits_append (fun c => Text.isDigit_of_mem_toDigits (by decide) (by decide))
      Nat.toDigits_ne_nil
  rw [takeWhole, htaken]
  simp only
  rw [if_neg]
  rintro ⟨hhead, hne⟩
  exact hne (Text.toDigits_of_head (by decide) (by decide) hhead)

/-- Digits have no sign. -/
theorem takeSign_digits (n : Nat) (rest : List Char) :
    takeSign (Nat.toDigits 10 n ++ rest) = (false, Nat.toDigits 10 n ++ rest) := by
  obtain ⟨c, cs, hdigits, hc⟩ := Text.exists_toDigits_eq_cons (by decide : 1 < 10) (by decide) n
  rw [hdigits, List.cons_append]
  unfold takeSign
  split
  case h_1 heq => exact absurd (List.cons.inj heq).1 (Text.ne_of_isDigit hc (by decide))
  case h_2 heq => exact absurd (List.cons.inj heq).1 (Text.ne_of_isDigit hc (by decide))
  case h_3 => rfl

theorem takeSpecial_digits (negative : Bool) (n : Nat) (rest : List Char) :
    takeSpecial negative (Nat.toDigits 10 n ++ rest) = none := by
  obtain ⟨c, cs, hdigits, hc⟩ := Text.exists_toDigits_eq_cons (by decide : 1 < 10) (by decide) n
  have hi : 'i' ≠ c := (Text.ne_of_isDigit hc (by decide)).symm
  have hn : 'n' ≠ c := (Text.ne_of_isDigit hc (by decide)).symm
  simp [takeSpecial, Text.expectAll, hdigits, hi, hn]

theorem takeFloat_digits (n : Nat) : takeFloat (Nat.toDigits 10 n ++ '\n' :: rest) = none := by
  simp [takeFloat, takeSign_digits, takeSpecial_digits, takeWhole_digits, takeFraction,
    takeExponent]

theorem takeInteger_digits (hn : n ≤ maxInteger) :
    takeInteger (Nat.toDigits 10 n ++ '\n' :: rest) = some ((n : Int), '\n' :: rest) := by
  have hprefix : ∀ x more, isDigit 10 x = false → x ≠ '\n' →
      Nat.toDigits 10 n ++ '\n' :: rest ≠ '0' :: x :: more := by
    intro x more hx hbreak h
    obtain ⟨c, cs, hdigits, -⟩ := Text.exists_toDigits_eq_cons (by decide : 1 < 10) (by decide) n
    rw [hdigits, List.cons_append, List.cons.injEq] at h
    cases cs with
    | nil => exact hbreak (List.cons.inj h.2).1.symm
    | cons d cs =>
        have hd : isDigit 10 d = true := by
          refine Text.isDigit_of_mem_toDigits (by decide) (by decide) (n := n) ?_
          simp [hdigits]
        exact Text.ne_of_isDigit hd hx (List.cons.inj h.2).1
  have hfits : fitting? (n : Int) = some (n : Int) := by
    rw [fitting?, if_pos ⟨by unfold maxInteger; omega, hn⟩]
  rw [takeInteger]
  · simp [takeSign_digits, takeWhole_digits, hfits,
      Text.ofDigits_toDigits (by decide : 1 < 10) (by decide)]
  · exact fun more => hprefix 'x' more (by decide) (by decide)
  · exact fun more => hprefix 'o' more (by decide) (by decide)
  · exact fun more => hprefix 'b' more (by decide) (by decide)

/-- **A number that fits comes back.** -/
theorem takeQuantity_digits (hn : n ≤ maxInteger) :
    takeQuantity (Nat.toDigits 10 n ++ '\n' :: rest) = some (.integer n, '\n' :: rest) := by
  have hmoment : takeMoment (Nat.toDigits 10 n ++ '\n' :: rest) = none :=
    takeMoment_digits fun c => Text.isDigit_of_mem_toDigits (by decide) (by decide)
  rw [takeQuantity, hmoment, takeFloat_digits, takeInteger_digits hn]
  rfl

end LineChat.Toml
