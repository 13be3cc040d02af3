/-
**Powers modulo a number.**

Both directions of an RSA envelope are a power modulo the key's modulus.  The exponent has as many
bits as the modulus, so the power is taken by squaring, one bit of the exponent at a time.

Main definitions:

* `LineChat.powMod` — a power modulo a number.

Main results:

* `LineChat.powMod_eq` — **it is the remainder of the power**.
-/

set_option autoImplicit false

namespace LineChat

/-- **A power modulo `n`**, by squaring. -/
def powMod (b e n : Nat) : Nat :=
  if h : e = 0 then 1 % n
  else
    let half := powMod b (e / 2) n
    let square := half * half % n
    if e % 2 = 1 then square * b % n else square
termination_by e
decreasing_by omega

/-- The square of a power. -/
theorem pow_mul_pow_self (b k : Nat) : Nat.pow b k * Nat.pow b k = Nat.pow b (k * 2) := by
  rw [Nat.mul_two]
  exact (Nat.pow_add b k k).symm

/-- **It is the remainder of the power.** -/
theorem powMod_eq (b e n : Nat) : powMod b e n = Nat.pow b e % n := by
  induction e using Nat.strongRecOn with
  | ind e ih =>
      rw [powMod]
      by_cases h : e = 0
      · subst h
        rfl
      · rw [dif_neg h, ih (e / 2) (by omega)]
        have hsq : Nat.pow b (e / 2) % n * (Nat.pow b (e / 2) % n) % n =
            Nat.pow b (e / 2 * 2) % n := by
          rw [← Nat.mul_mod, pow_mul_pow_self]
        by_cases hodd : e % 2 = 1
        · have he : e = e / 2 * 2 + 1 := by omega
          have hpow : Nat.pow b e = Nat.pow b (e / 2 * 2) * b := congrArg (Nat.pow b) he
          simp only [hodd, if_true, hsq]
          rw [Nat.mod_mul_mod, hpow]
        · have he : e / 2 * 2 = e := by omega
          simp only [hodd, if_false, hsq, he]

end LineChat
