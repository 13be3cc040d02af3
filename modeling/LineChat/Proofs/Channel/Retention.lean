/-
**How little a codec keeps.**

Decoding comes to an end, and where it returns nothing it leaves no more than the beginning of a
line.  So whoever asks for lines until there is none left, and reads more only then, never keeps
more than that, however broken the stream is and however its bytes arrive; and what is returned and
skipped on the way is limited by the bytes that there were.

Main definitions:

* `LineChat.LineCodec.held` — what is kept of a stream between its pieces;
* `LineChat.LineCodec.Sparing`, `LineChat.LineCodec.Frugal` — **what is to be true** of a call, and
  of reading a stream.

Main results:

* `LineChat.LineCodec.readAll_budget` — how much can be returned and skipped at all;
* `LineChat.LineCodec.leftover_readAll`, `LineChat.LineCodec.leftover_of_mem_held` — **what is
  kept**;
* `LineChat.LineCodec.ends_and_keeps_little` — all of it, for every codec and every stream;
* `LineChat.Link.leftover_of_waiting` — a link that waits keeps as little.
-/

import LineChat.Proofs.Channel.Link
import LineChat.Proofs.Channel.ReadAll

set_option autoImplicit false

namespace LineChat

namespace LineCodec

open Framing (Leftover)

variable {σ : Type} [LineCipher σ] {c : LineCodec σ} {b : Bytes}

/-! ### Calls -/

/-- **What is to be true of a call**, whatever is in its buffer. -/
structure Sparing (c : LineCodec σ) (ended : Bool) (b : Bytes) : Prop where
  /-- A turn that goes on takes at least one byte off the front. -/
  shrinks : ∀ c' rest, c.turn ended b = (none, c', rest) → ∃ taken, taken ≠ [] ∧ b = taken ++ rest
  /-- The call is some turns that go on, no more than it takes bytes, and one that returns.  It
  counts the former, and what it leaves is the end of its buffer behind all that they took. -/
  turns : ∃ skipped last, Turns ended c b skipped (c.decode ended b) ∧ [] ∉ skipped ∧
    b = skipped.flatten ++ (last ++ (c.decode ended b).2.2) ∧
    skipped.length + (c.decode ended b).2.2.length ≤ b.length ∧
    (c.decode ended b).2.1.dropped = c.dropped + skipped.length
  /-- If it returns nothing, there is no line in what it leaves. -/
  leftover : (c.decode ended b).1 = .ok none → Leftover ended (c.decode ended b).2.2

theorem sparing (c : LineCodec σ) (ended : Bool) (b : Bytes) : c.Sparing ended b where
  shrinks _ _ h := exists_taken_of_turn h
  turns := by
    obtain ⟨skipped, hturns⟩ := exists_turns c ended b
    obtain ⟨last, hlast⟩ := hturns.flatten_append
    exact ⟨skipped, last, hturns, hturns.nil_notMem, hlast, hturns.length_le, hturns.dropped⟩
  leftover hnone := by
    obtain ⟨skipped, hturns⟩ := exists_turns c ended b
    exact hturns.leftover hnone

/-! ### Reading a stream -/

/-- **How much can be returned and skipped at all** when a buffer is read out. -/
theorem readAll_budget (c : LineCodec σ) (ended : Bool) (b : Bytes) :
    (c.readAll ended b).1.length + (c.readAll ended b).2.1.dropped ≤
      c.dropped + c.framing.load b := by
  refine readAll_induction (P := fun c b =>
    (c.readAll ended b).1.length + (c.readAll ended b).2.1.dropped ≤
      c.dropped + c.framing.load b) ended ?_ ?_ c b
  · intro c b c' b' h
    rw [readAll_of_none h]
    simpa using (decode_budget h).1
  · intro c b r c' b' h ih
    have hlt := (decode_budget h).2 (Reads.map_some_ne r)
    rw [readAll_of_some h, List.length_cons]
    dsimp only
    omega

/-- **What is left of a buffer that was read out.** -/
theorem leftover_readAll (c : LineCodec σ) (ended : Bool) (b : Bytes) :
    Leftover ended (c.readAll ended b).2.2 := by
  refine readAll_induction (P := fun c b => Leftover ended (c.readAll ended b).2.2) ended ?_ ?_ c b
  · intro c b c' b' h
    rw [readAll_of_none h]
    exact leftover_of_decode h
  · intro c b r c' b' h ih
    rw [readAll_of_some h]
    exact ih

/-- **What is kept of a stream between its pieces**: the bytes that are left each time when all that
has arrived was read out. -/
def held (c : LineCodec σ) (b : Bytes) : List Bytes → List Bytes
  | [] => []
  | piece :: pieces =>
      let (_, c', b') := c.readAll false (b ++ piece)
      b' :: c'.held b' pieces

theorem leftover_of_mem_held {pieces : List Bytes} {kept : Bytes} (h : kept ∈ c.held b pieces) :
    Leftover false kept := by
  induction pieces generalizing c b with
  | nil => cases h
  | cons piece pieces ih =>
      rcases List.mem_cons.1 h with rfl | hmem
      · exact leftover_readAll c false (b ++ piece)
      · exact ih hmem

/-- **What is to be true of reading a stream**, in whatever pieces it arrives. -/
structure Frugal (c : LineCodec σ) (b : Bytes) (pieces : List Bytes) : Prop where
  /-- What is returned and what is skipped are not much more than the bytes that there were. -/
  budget : (c.receive b pieces).1.length + (c.receive b pieces).2.1.dropped ≤
    c.dropped + (2 * (b.length + pieces.flatten.length) + 1)
  /-- No more than the beginning of one line is kept between two pieces. -/
  held : ∀ kept ∈ c.held b pieces, Leftover false kept
  /-- Nothing but a carriage return is left at the end. -/
  left : Leftover true (c.receive b pieces).2.2

theorem frugal (c : LineCodec σ) (b : Bytes) (pieces : List Bytes) : c.Frugal b pieces where
  budget := by
    have hbudget := c.readAll_budget true (b ++ pieces.flatten)
    have hload := c.framing.load_le (b ++ pieces.flatten)
    rw [List.length_append] at hload
    rw [receive_eq_readAll]
    omega
  held _ hmem := leftover_of_mem_held hmem
  left := by
    rw [receive_eq_readAll]
    exact leftover_readAll c true _

/-- **Decoding ends and keeps little**, whatever the bytes, the cipher and the policy are, and
whether an overlong line is being skipped or not: no call goes on forever, every turn that goes on
takes bytes off the front, what is left where nothing is returned is no more than the beginning of a
line, and so it is between the pieces of every stream. -/
theorem ends_and_keeps_little (c : LineCodec σ) (b : Bytes) :
    (∀ ended, WellFounded (GoesOn ended : LineCodec σ × Bytes → LineCodec σ × Bytes → Prop)) ∧
      (∀ ended, c.Sparing ended b) ∧ ∀ pieces, c.Frugal b pieces :=
  ⟨goesOn_wellFounded, fun ended => sparing c ended b, frugal c b⟩

/-- Behind the rest of a line that was too long, one that is not text is skipped in the same turn,
and the carriage return after it is left. -/
example :
    let session : SessionKey := ⟨Vector.replicate 32 7, Vector.replicate 16 255⟩
    let c : LineCodec SessionCipher :=
      { framing := ⟨true⟩, cipher := SessionCipher.start session .responder .sequenced 8,
        policy := .drop }
    let (answer, next, rest) := c.turn true [97, 10, 255, 10, 13]
    answer = none ∧ next.dropped = 1 ∧ rest = [13] := by
  decide

end LineCodec

/-! ### Waiting for more -/

/-- **A link that waits for more** after it has looked keeps no more than the beginning of a
line. -/
theorem Link.leftover_of_waiting {σ : Type} [LineCipher σ] {l l' : Link (LineCodec σ)}
    {c c' : Connection} (hsound : l.Sound c) (hlooks : l.Looks c)
    (h : l.poll c = (.waiting, l', c')) : Framing.Leftover false (l'.buffer ++ c'.incoming) := by
  have hpolls : l.Polls c c.finished [] (l.poll c) := polls hsound fun hf => ⟨hf, rfl⟩
  rw [h] at hpolls
  generalize hpolled : Polled.waiting = polled at hpolls
  cases hpolls with
  | @found x _ _ _ _ => cases x <;> cases hpolled
  | nothing _ _ _ hlooked =>
      obtain ⟨hanswer, hleft, -⟩ := hlooked hlooks
      cases hfinished : c.finished with
      | true =>
          rw [hfinished] at hanswer
          cases hpolled.trans hanswer
      | false =>
          rw [hfinished] at hleft
          exact LineCodec.leftover_of_decode hleft

end LineChat
