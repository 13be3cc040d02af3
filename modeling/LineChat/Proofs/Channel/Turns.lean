/-
**The turns of a call.**

A codec that skips broken lines reads on in the same call, so a call is a loop.  It goes on only
behind a line that was taken, whether that line could not be decrypted or is not even text, and so
every turn that goes on takes bytes off the front of the buffer: also at the end of a stream, and
where the line stands behind the rest of one that is too long.  No input keeps a call going for more
turns than it has bytes.

A call returns nothing only if its last turn has found no line.  What it leaves then has no line
feed and is not longer than a line may be, and at the end of a stream it is at most a carriage
return.

Main definitions:

* `LineChat.Framing.Leftover` — **what may be left where no line is**;
* `LineChat.LineCodec.turn`, `LineChat.LineCodec.GoesOn` — one turn of a call, and one that goes on;
* `LineChat.LineCodec.Turns` — **all turns of a call**, with the bytes that each one takes.

Main results:

* `LineChat.LineCodec.exists_taken_of_turn` — **a turn that goes on takes bytes off the front**;
* `LineChat.LineCodec.goesOn_wellFounded`, `LineChat.LineCodec.exists_turns` — **a call comes to an
  end**, and what it returns is what its turns come to;
* `LineChat.LineCodec.Turns.flatten_append`, `LineChat.LineCodec.Turns.length_le` — a call leaves
  the end of its buffer, and has no more turns that go on than it takes bytes;
* `LineChat.LineCodec.leftover_of_decode` — **what is left when nothing is returned**;
* `LineChat.LineCodec.decode_budget` — how much a call can skip and return at all.
-/

import LineChat.Proofs.Channel.LineCodec

set_option autoImplicit false

namespace LineChat

namespace Framing

variable {f f' : Framing} {ended : Bool} {b b' : Bytes}

/-- **What may be left where no line is**: the beginning of one, and at the end of a stream nothing
but a carriage return that waits for its line feed. -/
structure Leftover (ended : Bool) (b : Bytes) : Prop where
  lineFeed_notMem : lineFeed ∉ b
  length_le : b.length ≤ maxLineLength
  at_end : ended = true → b = [] ∨ b = [carriageReturn]

/-- **What a read leaves that finds no line.** -/
theorem leftover_of_step (h : f.step ended b = (.incomplete, f', b')) : Leftover ended b' := by
  cases ended with
  | false =>
      obtain ⟨hfeed, hlen⟩ := next_eq_incomplete h
      exact ⟨hfeed, hlen, nofun⟩
  | true =>
      rw [step_true, nextAtEnd] at h
      rcases hn : f.next b with ⟨frame, f₁, rest⟩
      rw [hn] at h
      cases frame with
      | incomplete =>
          -- what is left would have been taken as the last line, but for a carriage return
          obtain ⟨hfeed, hlen⟩ := next_eq_incomplete hn
          rcases lastLine_cases f₁ rest with ⟨hrest, hkept⟩ | htaken
          · cases h.symm.trans hkept
            exact ⟨hfeed, hlen, fun _ => hrest⟩
          · exact absurd (congrArg Prod.fst (h.symm.trans htaken)).symm (ofLine_ne_incomplete rest)
      | line text | notText | tooLong => cases h

end Framing

namespace LineCodec

open Framing (Leftover)

variable {σ : Type} [LineCipher σ] {c c' : LineCodec σ} {ended : Bool} {b b' rest : Bytes}
  {result : Except LineError (Option String)}
  {answer : Option (Except LineError (Option String))}

/-! ### One turn -/

/-- **One turn of a call**: it takes a frame, and has a result or goes on with the codec and the
buffer behind it. -/
def turn (c : LineCodec σ) (ended : Bool) (b : Bytes) :
    Option (Except LineError (Option String)) × LineCodec σ × Bytes :=
  match c.framing.step ended b with
  | (frame, framing, rest) =>
      let (answer, next) := { c with framing }.accept frame
      (answer, next, rest)

theorem turn_of_accept {frame : Frame} {f : Framing}
    (hs : c.framing.step ended b = (frame, f, rest))
    (ha : { c with framing := f }.accept frame = (answer, c')) :
    c.turn ended b = (answer, c', rest) := by
  rw [turn, hs]
  simp only [ha]

theorem exists_frame_of_turn (h : c.turn ended b = (answer, c', rest)) :
    ∃ frame f, c.framing.step ended b = (frame, f, rest) ∧
      { c with framing := f }.accept frame = (answer, c') := by
  unfold turn at h
  rcases hs : c.framing.step ended b with ⟨frame, f, left⟩
  rw [hs] at h
  rcases ha : { c with framing := f }.accept frame with ⟨answer', next⟩
  simp only [ha, Prod.mk.injEq] at h
  obtain ⟨rfl, rfl, rfl⟩ := h
  exact ⟨frame, f, rfl, ha⟩

/-- Every turn leaves the end of its buffer. -/
theorem turn_suffix (h : c.turn ended b = (answer, c', rest)) : rest <:+ b := by
  obtain ⟨frame, f, hs, -⟩ := exists_frame_of_turn h
  have hsuffix := Framing.step_suffix c.framing ended b
  rwa [hs] at hsuffix

theorem length_turn_lt (h : c.turn ended b = (none, c', rest)) : rest.length < b.length := by
  obtain ⟨frame, f, hs, ha⟩ := exists_frame_of_turn h
  exact length_lt_of_accept_none hs ha

/-- **A turn that goes on takes bytes off the front of the buffer**, at least one. -/
theorem exists_taken_of_turn (h : c.turn ended b = (none, c', rest)) :
    ∃ taken, taken ≠ [] ∧ b = taken ++ rest := by
  obtain ⟨taken, rfl⟩ := turn_suffix h
  refine ⟨taken, ?_, rfl⟩
  rintro rfl
  exact Nat.lt_irrefl _ (length_turn_lt h)

/-- A turn that goes on counts the line that it skips. -/
theorem dropped_of_turn_none (h : c.turn ended b = (none, c', rest)) :
    c'.dropped = c.dropped + 1 := by
  obtain ⟨frame, f, -, ha⟩ := exists_frame_of_turn h
  rw [accept_eq] at ha
  split at ha
  · cases ha
    rfl
  · cases ha

theorem dropped_of_turn_some (h : c.turn ended b = (some result, c', rest)) :
    c'.dropped = c.dropped := by
  obtain ⟨frame, f, -, ha⟩ := exists_frame_of_turn h
  obtain ⟨-, rfl⟩ := eq_of_accept_eq_some ha
  rfl

/-- A turn that goes on, or has a result that is not nothing, uses the buffer up. -/
theorem load_turn_lt (h : c.turn ended b = (answer, c', rest))
    (hanswer : answer ≠ some (.ok none)) : c'.framing.load rest < c.framing.load b := by
  obtain ⟨frame, f, hs, ha⟩ := exists_frame_of_turn h
  have hframing : c'.framing = f := framing_of_accept ha
  rw [hframing]
  refine Framing.load_step_lt hs ?_
  rintro rfl
  exact hanswer (congrArg Prod.fst ha).symm

/-! ### All turns of a call -/

/-- A call goes on from one codec and buffer with the next ones. -/
def GoesOn (ended : Bool) (next now : LineCodec σ × Bytes) : Prop :=
  now.1.turn ended now.2 = (none, next)

/-- **No call goes on forever.** -/
theorem goesOn_wellFounded (ended : Bool) :
    WellFounded (GoesOn ended : LineCodec σ × Bytes → LineCodec σ × Bytes → Prop) :=
  Subrelation.wf (fun h => length_turn_lt h)
    (InvImage.wf (fun now : LineCodec σ × Bytes => now.2.length) Nat.lt_wfRel.wf)

/-- **All turns of a call**: some that go on, each with the bytes that it takes, and one that has a
result. -/
inductive Turns (ended : Bool) : LineCodec σ → Bytes → List Bytes →
    Except LineError (Option String) × LineCodec σ × Bytes → Prop
  | result {c c' : LineCodec σ} {b rest : Bytes} {result : Except LineError (Option String)}
      (h : c.turn ended b = (some result, c', rest)) : Turns ended c b [] (result, c', rest)
  | goesOn {c c' : LineCodec σ} {b taken rest : Bytes} {skipped : List Bytes}
      {found : Except LineError (Option String) × LineCodec σ × Bytes}
      (h : c.turn ended b = (none, c', rest)) (htaken : b = taken ++ rest)
      (hrest : Turns ended c' rest skipped found) : Turns ended c b (taken :: skipped) found

/-- **What a call returns is what its turns come to.** -/
theorem exists_turns (c : LineCodec σ) (ended : Bool) (b : Bytes) :
    ∃ skipped, Turns ended c b skipped (c.decode ended b) := by
  refine decode_induction (P := fun c b => ∃ skipped, Turns ended c b skipped (c.decode ended b))
    ended ?_ ?_ c b
  · -- a skipped line is one turn, and the others are those of the call behind it
    intro c b frame f rest c' hs ha ih
    obtain ⟨skipped, hrest⟩ := ih
    have hturn := turn_of_accept hs ha
    obtain ⟨taken, -, htaken⟩ := exists_taken_of_turn hturn
    rw [decode_of_accept_none hs ha]
    exact ⟨taken :: skipped, .goesOn hturn htaken hrest⟩
  · intro c b frame f rest result c' hs ha
    rw [decode_of_accept_some hs ha]
    exact ⟨[], .result (turn_of_accept hs ha)⟩

namespace Turns

variable {skipped : List Bytes} {found : Except LineError (Option String) × LineCodec σ × Bytes}

/-- **Every turn that goes on takes something.** -/
theorem nil_notMem (h : Turns ended c b skipped found) : [] ∉ skipped := by
  induction h with
  | result h => exact List.not_mem_nil
  | goesOn h htaken hrest ih =>
      intro hmem
      rcases List.mem_cons.1 hmem with rfl | hmem
      · have hlt := length_turn_lt h
        rw [htaken, List.nil_append] at hlt
        exact Nat.lt_irrefl _ hlt
      · exact ih hmem

/-- **A call leaves the end of its buffer**: in front of it are the bytes of the lines that were
skipped, and those that the last turn took. -/
theorem flatten_append (h : Turns ended c b skipped found) :
    ∃ last, b = skipped.flatten ++ (last ++ found.2.2) := by
  induction h with
  | result h =>
      obtain ⟨last, hlast⟩ := turn_suffix h
      exact ⟨last, hlast.symm⟩
  | goesOn h htaken hrest ih =>
      obtain ⟨last, hlast⟩ := ih
      refine ⟨last, ?_⟩
      rw [htaken, List.flatten_cons, List.append_assoc, ← hlast]

/-- Every line that is skipped is counted. -/
theorem dropped (h : Turns ended c b skipped found) :
    found.2.1.dropped = c.dropped + skipped.length := by
  induction h with
  | result h => exact dropped_of_turn_some h
  | goesOn h htaken hrest ih =>
      rw [ih, dropped_of_turn_none h, List.length_cons]
      omega

/-- **A call has no more turns that go on than it takes bytes.** -/
theorem length_le (h : Turns ended c b skipped found) :
    skipped.length + found.2.2.length ≤ b.length := by
  induction h with
  | result h =>
      rw [List.length_nil, Nat.zero_add]
      exact (turn_suffix h).length_le
  | goesOn h htaken hrest ih =>
      have hlt := length_turn_lt h
      rw [List.length_cons]
      omega

/-- **A call that returns nothing** has looked at a buffer without a line in its last turn. -/
theorem leftover (h : Turns ended c b skipped found) (hfound : found.1 = .ok none) :
    Leftover ended found.2.2 := by
  induction h with
  | result h =>
      obtain ⟨frame, f, hs, ha⟩ := exists_frame_of_turn h
      cases hfound
      obtain ⟨rfl, -⟩ := eq_of_accept_eq_ok_none ha
      exact Framing.leftover_of_step hs
  | goesOn h htaken hrest ih => exact ih hfound

/-- **A call that has found something uses the buffer up**, by one for each of its turns. -/
theorem load_lt (h : Turns ended c b skipped found) (hfound : found.1 ≠ .ok none) :
    skipped.length + found.2.1.framing.load found.2.2 < c.framing.load b := by
  induction h with
  | result h =>
      rw [List.length_nil, Nat.zero_add]
      exact load_turn_lt h fun hnone => hfound (Option.some.inj hnone)
  | goesOn h htaken hrest ih =>
      have hlt := load_turn_lt h nofun
      have hrest_lt := ih hfound
      rw [List.length_cons]
      omega

end Turns

/-- **What a call leaves that returns nothing.** -/
theorem leftover_of_decode (h : c.decode ended b = (.ok none, c', b')) : Leftover ended b' := by
  obtain ⟨skipped, hturns⟩ := exists_turns c ended b
  rw [h] at hturns
  exact hturns.leftover rfl

/-- **What a call skips and returns** uses the buffer up. -/
theorem decode_budget (h : c.decode ended b = (result, c', b')) :
    c'.dropped ≤ c.dropped + c.framing.load b ∧
      (result ≠ .ok none →
        c'.dropped + c'.framing.load b' < c.dropped + c.framing.load b) := by
  obtain ⟨skipped, hturns⟩ := exists_turns c ended b
  rw [h] at hturns
  have hcounted : c'.dropped = c.dropped + skipped.length := hturns.dropped
  refine ⟨?_, fun hresult => ?_⟩
  · have hle : skipped.length + b'.length ≤ b.length := hturns.length_le
    have hload := Framing.le_load c.framing b
    omega
  · have hlt : skipped.length + c'.framing.load b' < c.framing.load b := hturns.load_lt hresult
    omega

end LineCodec

end LineChat
