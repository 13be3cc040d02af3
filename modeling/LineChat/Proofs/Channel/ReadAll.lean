/-
**Reading a buffer out.**

A reader asks its codec for the next line until there is none left.  That comes to an end: every
call that returns something takes bytes from the buffer, or reports a line that is too long, which
is reported only once.  So what it comes to is a function of the codec and the buffer: the results,
the codec then, and what is left of the bytes.

Reading out the beginning of a stream, and the rest when it arrives, is reading out all of it.  So
it does not matter in which pieces the bytes arrive, wherever they are cut: inside a character,
between a carriage return and its line feed, at the last byte that a line may have, or inside a line
that is being skipped.

Main definitions:

* `LineChat.LineCodec.readAll` — **all results that a codec returns for a buffer**;
* `LineChat.LineCodec.receive` — reading a stream in the pieces in which it arrives.

Main results:

* `LineChat.LineCodec.load_decode_lt` — **every call that returns something uses the buffer up**;
* `LineChat.LineCodec.reads_readAll` — what is read out is what `Reads` says;
* `LineChat.LineCodec.readAll_append` — **reading a stream out in two parts**;
* `LineChat.LineCodec.receive_eq_readAll` — reading it as it arrives is reading it at its end;
* `LineChat.LineCodec.receive_eq_of_flatten_eq` — **where a stream is cut makes no difference**.
-/

import LineChat.Channel.SessionCipher
import LineChat.Proofs.Channel.Turns

set_option autoImplicit false

namespace LineChat.LineCodec

variable {σ : Type} [LineCipher σ] {c c' : LineCodec σ} {ended : Bool} {b b' : Bytes}
  {r : Except LineError String} {result : Except LineError (Option String)}

/-! ### One call after the other -/

/-- What a call has returned, if it has returned something. -/
def returned? : Except LineError (Option String) → Option (Except LineError String)
  | .ok none => none
  | .ok (some text) => some (.ok text)
  | .error e => some (.error e)

@[simp] theorem returned?_map_some (r : Except LineError String) :
    returned? (r.map some) = some r := by
  cases r <;> rfl

/-- **Every call that returns something uses the buffer up.** -/
theorem load_decode_lt (h : c.decode ended b = (result, c', b')) (hresult : result ≠ .ok none) :
    c'.framing.load b' < c.framing.load b := by
  obtain ⟨skipped, hturns⟩ := exists_turns c ended b
  rw [h] at hturns
  have hlt : skipped.length + c'.framing.load b' < c.framing.load b := hturns.load_lt hresult
  omega

/-- **All results that a codec returns for a buffer**, the codec after them, and what is left of the
buffer. -/
def readAll (c : LineCodec σ) (ended : Bool) (b : Bytes) :
    List (Except LineError String) × LineCodec σ × Bytes :=
  match _hd : c.decode ended b with
  | (result, c', b') =>
      match _hr : returned? result with
      | none => ([], c', b')
      | some r =>
          let (results, last, left) := c'.readAll ended b'
          (r :: results, last, left)
termination_by c.framing.load b
decreasing_by
  refine load_decode_lt _hd ?_
  rintro rfl
  cases _hr

theorem readAll_of_none (h : c.decode ended b = (.ok none, c', b')) :
    c.readAll ended b = ([], c', b') := by
  rw [readAll]
  split
  rename_i hd
  cases h.symm.trans hd
  rfl

theorem readAll_of_some (h : c.decode ended b = (r.map some, c', b')) :
    c.readAll ended b = (r :: (c'.readAll ended b').1, (c'.readAll ended b').2) := by
  rw [readAll]
  split
  rename_i hd
  cases h.symm.trans hd
  split
  · rename_i hr
    rw [returned?_map_some] at hr
    cases hr
  · rename_i hr
    rw [returned?_map_some] at hr
    cases hr
    rfl

theorem readAll_congr {c₁ : LineCodec σ} {b₁ : Bytes} (h : c.decode ended b = c₁.decode ended b₁) :
    c.readAll ended b = c₁.readAll ended b₁ := by
  rw [readAll, readAll, h]

/-- **Calls are made until one returns nothing**, so what holds of a call that does, and of one that
returns something if it holds of the next one, holds of every call. -/
theorem readAll_induction {P : LineCodec σ → Bytes → Prop} (ended : Bool)
    (hdone : ∀ (c : LineCodec σ) (b : Bytes) (c' : LineCodec σ) (b' : Bytes),
      c.decode ended b = (.ok none, c', b') → P c b)
    (hmore : ∀ (c : LineCodec σ) (b : Bytes) (r : Except LineError String) (c' : LineCodec σ)
      (b' : Bytes), c.decode ended b = (r.map some, c', b') → P c' b' → P c b)
    (c : LineCodec σ) (b : Bytes) : P c b := by
  induction hn : c.framing.load b using Nat.strongRecOn generalizing c b with
  | _ n ih =>
      rcases hd : c.decode ended b with ⟨result, c', b'⟩
      by_cases hresult : result = .ok none
      · subst hresult
        exact hdone c b c' b' hd
      · obtain ⟨r, rfl⟩ := Reads.exists_map_some hresult
        have hlt := load_decode_lt hd hresult
        exact hmore c b r c' b' hd (ih _ (hn ▸ hlt) c' b' rfl)

/-- What is read out is what reading on and on gives, which therefore always comes to an end. -/
theorem reads_readAll (c : LineCodec σ) (b : Bytes) :
    Reads c b (c.readAll false b).1 (c.readAll false b).2.1 (c.readAll false b).2.2 := by
  refine readAll_induction (P := fun c b =>
    Reads c b (c.readAll false b).1 (c.readAll false b).2.1 (c.readAll false b).2.2) false ?_ ?_ c b
  · intro c b c' b' h
    rw [readAll_of_none h]
    exact .done h
  · intro c b r c' b' h ih
    rw [readAll_of_some h]
    exact .more h ih

/-! ### Streams in pieces -/

/-- **Reading a stream out in two parts** is reading it out at once. -/
theorem readAll_append (c : LineCodec σ) (ended : Bool) (b more : Bytes) :
    let first := c.readAll false b
    let rest := first.2.1.readAll ended (first.2.2 ++ more)
    c.readAll ended (b ++ more) = (first.1 ++ rest.1, rest.2) := by
  refine readAll_induction (P := fun c b =>
    let first := c.readAll false b
    let rest := first.2.1.readAll ended (first.2.2 ++ more)
    c.readAll ended (b ++ more) = (first.1 ++ rest.1, rest.2)) false ?_ ?_ c b
  · intro c b c' b' h
    rw [readAll_of_none h, readAll_congr (decode_append_of_none h ended more)]
    rfl
  · intro c b r c' b' h ih
    have happend := decode_append h (Reads.map_some_ne r) ended more
    rw [readAll_of_some h, readAll_of_some happend, ih]
    rfl

/-- **Reading a stream in the pieces in which it arrives**, behind what is left of the bytes before:
everything is read out as soon as it is there, and once more at the end of the stream. -/
def receive (c : LineCodec σ) (b : Bytes) :
    List Bytes → List (Except LineError String) × LineCodec σ × Bytes
  | [] => c.readAll true b
  | piece :: pieces =>
      let (results, c', b') := c.readAll false (b ++ piece)
      let (more, last, left) := c'.receive b' pieces
      (results ++ more, last, left)

/-- **Reading a stream as it arrives** is reading it when all of it is there. -/
theorem receive_eq_readAll (c : LineCodec σ) (b : Bytes) (pieces : List Bytes) :
    c.receive b pieces = c.readAll true (b ++ pieces.flatten) := by
  induction pieces generalizing c b with
  | nil => rw [receive, List.flatten_nil, List.append_nil]
  | cons piece pieces ih =>
      rw [receive, List.flatten_cons, ← List.append_assoc,
        readAll_append c true (b ++ piece) pieces.flatten]
      simp only [ih]

/-- **Where a stream is cut makes no difference**: the results are the same, and so are the codec
after them and what is left of the bytes. -/
theorem receive_eq_of_flatten_eq (c : LineCodec σ) (b : Bytes) {pieces pieces' : List Bytes}
    (h : pieces.flatten = pieces'.flatten) : c.receive b pieces = c.receive b pieces' := by
  rw [receive_eq_readAll, receive_eq_readAll, h]

/-- A carriage return may arrive before its line feed, and a character in two halves. -/
theorem receive_eq_of_flatten_eq_halves :
    let session : SessionKey := ⟨Vector.replicate 32 7, Vector.replicate 16 255⟩
    let c : LineCodec SessionCipher :=
      { cipher := SessionCipher.start session .responder .sequenced 8, policy := .drop }
    let pieces : List Bytes := [[56, 65, 61, 61, 13], [10, 195], [169, 10]]
    let whole : List Bytes := [[56, 65, 61, 61, 13, 10, 195, 169, 10]]
    pieces.flatten = whole.flatten ∧ c.receive [] pieces = c.receive [] whole := by
  intro session c pieces whole
  exact ⟨rfl, receive_eq_of_flatten_eq c [] rfl⟩

end LineChat.LineCodec
