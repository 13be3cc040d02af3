/-
**What a lenient codec leaves out.**

A strict codec returns a broken line as an error, and a lenient one skips it and counts it.  That is
all: whether a line is broken, and what it does to the cipher, is settled before the policy is
asked.  So a lenient codec comes to the results of a strict one without the broken lines, and to the
same state but for the count.  Every other error is returned under either policy.

Main definitions:

* `LineChat.LineCodec.lenient` — a codec made lenient;
* `LineChat.LeavesOut` — how a lenient codec compares with a strict one.

Main results:

* `LineChat.LineCodec.decode_lenient_of_broken`, `LineChat.LineCodec.decode_lenient_of_sound` — one
  frame under a lenient policy;
* `LineChat.LineCodec.readAll_lenient` — a whole buffer under either policy;
* `LineChat.LineCodec.lenient_leaves_out_broken` — **lenience leaves out the broken lines and
  nothing else**.
-/

import LineChat.Proofs.Channel.ReadAll

set_option autoImplicit false

namespace LineChat

namespace LineCodec

variable {σ : Type} [LineCipher σ] {c : LineCodec σ} {ended : Bool} {b rest : Bytes} {f : Framing}
  {frame : Frame}

/-! ### One frame -/

theorem exists_frame_of_strict {c' : LineCodec σ} {result : Except LineError (Option String)}
    (hpolicy : c.policy = .fail) (h : c.decode ended b = (result, c', rest)) :
    ∃ frame f, c.framing.step ended b = (frame, f, rest) ∧ (opened c.cipher frame).1 = result ∧
      c' = c.after f frame := by
  rcases hs : c.framing.step ended b with ⟨frame, f, left⟩
  rw [decode_of_strict hpolicy hs] at h
  obtain ⟨hresult, hnext⟩ := Prod.mk.inj h
  obtain ⟨rfl, rfl⟩ := Prod.mk.inj hnext
  exact ⟨frame, f, rfl, hresult, rfl⟩

/-- A codec made lenient, with some lines counted before. -/
def lenient (c : LineCodec σ) (dropped : Nat) : LineCodec σ := { c with policy := .drop, dropped }

/-- **A lenient codec skips a broken line**, and goes on. -/
theorem decode_lenient_of_broken (hs : c.framing.step ended b = (frame, f, rest))
    (hbroken : isBroken (opened c.cipher frame).1 = true) (n : Nat) :
    (c.lenient n).decode ended b = ((c.after f frame).lenient (n + 1)).decode ended rest :=
  decode_of_accept_none (c := c.lenient n) hs
    (accept_of_broken (c := { c.lenient n with framing := f }) rfl hbroken)

/-- **A lenient codec returns everything else** as a strict one does. -/
theorem decode_lenient_of_sound (hs : c.framing.step ended b = (frame, f, rest))
    (hsound : isBroken (opened c.cipher frame).1 = false) (n : Nat) :
    (c.lenient n).decode ended b = ((opened c.cipher frame).1, (c.after f frame).lenient n, rest) :=
  decode_of_accept_some (c := c.lenient n) hs
    (accept_of_sound (c := { c.lenient n with framing := f }) hsound)

/-! ### Whole buffers -/

/-- **A strict codec counts nothing**, and stays strict. -/
theorem readAll_of_strict (ended : Bool) (hpolicy : c.policy = .fail) (b : Bytes) :
    (c.readAll ended b).2.1.policy = .fail ∧ (c.readAll ended b).2.1.dropped = c.dropped := by
  refine readAll_induction (P := fun c b => c.policy = .fail →
    (c.readAll ended b).2.1.policy = .fail ∧ (c.readAll ended b).2.1.dropped = c.dropped)
    ended ?_ ?_ c b hpolicy
  · intro c b c' b' h hpolicy
    obtain ⟨frame, f, -, -, rfl⟩ := exists_frame_of_strict hpolicy h
    rw [readAll_of_none h]
    exact ⟨hpolicy, rfl⟩
  · intro c b r c' b' h ih hpolicy
    obtain ⟨frame, f, -, -, rfl⟩ := exists_frame_of_strict hpolicy h
    rw [readAll_of_some h]
    exact ih hpolicy

/-- **A lenient codec comes to what a strict one comes to**, without the broken lines, and counts
them. -/
theorem readAll_lenient (ended : Bool) (hpolicy : c.policy = .fail) (n : Nat) (b : Bytes) :
    (c.lenient n).readAll ended b =
      ((c.readAll ended b).1.filter fun r => !isBroken r,
        (c.readAll ended b).2.1.lenient (n + (c.readAll ended b).1.countP isBroken),
        (c.readAll ended b).2.2) := by
  refine readAll_induction (P := fun c b => c.policy = .fail → ∀ n,
    (c.lenient n).readAll ended b =
      ((c.readAll ended b).1.filter fun r => !isBroken r,
        (c.readAll ended b).2.1.lenient (n + (c.readAll ended b).1.countP isBroken),
        (c.readAll ended b).2.2)) ended ?_ ?_ c b hpolicy n
  · intro c b c' b' h hpolicy n
    obtain ⟨frame, f, hs, hresult, rfl⟩ := exists_frame_of_strict hpolicy h
    have hlenient := decode_lenient_of_sound hs (by rw [hresult]; rfl) n
    rw [hresult] at hlenient
    rw [readAll_of_none h, readAll_of_none hlenient]
    rfl
  · intro c b r c' b' h ih hpolicy n
    obtain ⟨frame, f, hs, hresult, rfl⟩ := exists_frame_of_strict hpolicy h
    have hsame : isBroken (opened c.cipher frame).1 = isBroken r := by
      rw [hresult, isBroken_map_some]
    cases hr : isBroken r with
    | true =>
        -- the lenient codec is at the next frame already, with one more line counted
        rw [readAll_congr (decode_lenient_of_broken hs (hsame.trans hr) n), ih hpolicy,
          readAll_of_some h, List.filter_cons_of_neg (by simp [hr]), List.countP_cons_of_pos hr,
          Nat.add_assoc, Nat.add_comm 1]
    | false =>
        have hlenient := decode_lenient_of_sound hs (hsame.trans hr) n
        rw [hresult] at hlenient
        rw [readAll_of_some h, readAll_of_some hlenient, ih hpolicy,
          List.filter_cons_of_pos (by simp [hr]), List.countP_cons_of_neg (by simp [hr])]

end LineCodec

/-- **How a lenient codec compares with a strict one** that reads the same buffer in the same state,
given what each of them comes to and how many lines were counted before. -/
structure LeavesOut {σ : Type}
    (lenient strict : List (Except LineError String) × LineCodec σ × Bytes) (dropped : Nat) :
    Prop where
  /-- The results are those of the strict codec without the broken lines, in the same order. -/
  results : lenient.1 = strict.1.filter fun r => !isBroken r
  /-- The lenient codec has counted the lines that it left out. -/
  counted : lenient.2.1.dropped = dropped + strict.1.countP isBroken
  /-- The strict codec has counted nothing. -/
  uncounted : strict.2.1.dropped = dropped
  /-- Framing and cipher are the same. -/
  framing : lenient.2.1.framing = strict.2.1.framing
  cipher : lenient.2.1.cipher = strict.2.1.cipher
  /-- Each codec has kept its policy. -/
  stays_lenient : lenient.2.1.policy = .drop
  stays_strict : strict.2.1.policy = .fail
  /-- The same bytes are left. -/
  left : lenient.2.2 = strict.2.2

/-- **Lenience leaves out the broken lines and nothing else**, in a buffer that may still grow and
at the end of a stream. -/
theorem LineCodec.lenient_leaves_out_broken {σ : Type} [LineCipher σ] (c : LineCodec σ)
    (ended : Bool) (b : Bytes) :
    LeavesOut ({ c with policy := .drop }.readAll ended b)
      ({ c with policy := .fail }.readAll ended b) c.dropped := by
  have hlenient : { c with policy := .drop }.readAll ended b = _ :=
    readAll_lenient (c := { c with policy := .fail }) ended rfl c.dropped b
  obtain ⟨hpolicy, hdropped⟩ := readAll_of_strict (c := { c with policy := .fail }) ended rfl b
  exact {
    results := by rw [hlenient]
    counted := by rw [hlenient]; rfl
    uncounted := hdropped
    framing := by rw [hlenient]; rfl
    cipher := by rw [hlenient]; rfl
    stays_lenient := by rw [hlenient]; rfl
    stays_strict := hpolicy
    left := by rw [hlenient] }

end LineChat
