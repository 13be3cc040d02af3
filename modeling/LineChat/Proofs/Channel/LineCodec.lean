/-
**Reading encrypted lines piece by piece.**

A codec skips broken lines on its own, so one call may take any number of lines from its buffer.
Still, what it returns does not depend on how the bytes arrive: a result that it returns is the same
with more bytes behind it, and when it returns nothing yet, going on later is the same as having
waited.  Reading on and on until nothing is left to return is therefore a relation between a stream
of bytes and a list of results, which can be put together from streams one after the other.

Main definitions:

* `LineChat.isBroken` — the results that a lenient codec leaves out;
* `LineChat.LineCodec.opened`, `LineChat.LineCodec.after` — **what a frame comes to before the
  policy is asked**, and the codec after it;
* `LineChat.LineCodec.Reads` — **what reading on and on gives**.

Main results:

* `LineChat.LineCodec.accept_eq` — the policy makes the only difference;
* `LineChat.LineCodec.exists_stop` — where a call stops;
* `LineChat.LineCodec.decode_append`, `LineChat.LineCodec.decode_append_of_none` — **decoding when
  more has arrived**;
* `LineChat.LineCodec.Reads.append` — reading two streams one after the other;
* `LineChat.LineCodec.Reads.decode_some`, `LineChat.LineCodec.Reads.decode_none` — one call on the
  way through a stream;
* `LineChat.LineCodec.reads_line`, `LineChat.LineCodec.reads_skipped`,
  `LineChat.LineCodec.reads_overlong` — what a single line comes to;
* `LineChat.LineCodec.encode_of_encrypted`, `LineChat.LineCodec.encode_of_skipped`,
  `LineChat.LineCodec.encode_of_not_encrypted` — what writing a line comes to;
* `LineChat.LineCodec.decode_of_strict`, `LineChat.LineCodec.exists_encode_of_fail`,
  `LineChat.LineCodec.decode_eq_line_iff` — a codec that skips nothing.
-/

import LineChat.Channel.LineCodec
import LineChat.Proofs.Channel.Framing

set_option autoImplicit false

namespace LineChat

/-- Whether a result is the error of a broken line. -/
def isBroken {α : Type} : Except LineError α → Bool
  | .ok _ => false
  | .error e => e.isBrokenMessage

@[simp] theorem isBroken_map_some {α : Type} (r : Except LineError α) :
    isBroken (r.map some) = isBroken r := by
  cases r <;> rfl

namespace LineCodec

variable {σ : Type} [LineCipher σ]

/-! ### What becomes of a frame -/

section

variable {c c' : LineCodec σ} {cipher cipher' : σ} {frame : Frame} {text plaintext : String}
  {e : LineError}

/-- **What a frame comes to before the policy is asked**, and the cipher after it. -/
def opened (cipher : σ) : Frame → Except LineError (Option String) × σ
  | .incomplete => (.ok none, cipher)
  | .tooLong => (.error (.lineTooLong maxLineLength), cipher)
  | .notText => (.error notTextError, cipher)
  | .line text => ((LineCipher.decrypt cipher text).1.map some, (LineCipher.decrypt cipher text).2)

/-- The codec after a frame, with the framing behind it. -/
def after (c : LineCodec σ) (f : Framing) (frame : Frame) : LineCodec σ :=
  { c with framing := f, cipher := (opened c.cipher frame).2 }

theorem opened_line {r : Except LineError String}
    (h : LineCipher.decrypt cipher text = (r, cipher')) :
    opened cipher (.line text) = (r.map some, cipher') := by
  rw [opened, h]

theorem opened_eq_ok_none_iff : (opened cipher frame).1 = .ok none ↔ frame = .incomplete := by
  cases frame with
  | line text => cases h : (LineCipher.decrypt cipher text).1 <;> simp [opened, h, Except.map]
  | _ => simp [opened]

theorem exists_decrypt_of_opened (h : (opened cipher frame).1 = .ok (some plaintext)) :
    ∃ text, frame = .line text ∧
      LineCipher.decrypt cipher text = (.ok plaintext, (opened cipher frame).2) := by
  cases frame with
  | line text =>
      rcases hdecrypt : LineCipher.decrypt cipher text with ⟨e | opened, cipher'⟩
      · rw [opened_line hdecrypt] at h
        cases h
      · rw [opened_line hdecrypt] at h
        cases h
        exact ⟨text, rfl, by rw [opened_line hdecrypt, hdecrypt]⟩
  | _ => cases h

/-- **The policy makes the only difference**: whether the error of a broken line is returned, or the
line is counted. -/
theorem accept_eq (c : LineCodec σ) (frame : Frame) :
    c.accept frame =
      if c.policy = .drop ∧ isBroken (opened c.cipher frame).1 = true then
        (none, { c.after c.framing frame with dropped := c.dropped + 1 })
      else (some (opened c.cipher frame).1, c.after c.framing frame) := by
  cases frame with
  | incomplete => simp [accept, after, opened, isBroken]
  | tooLong => simp [accept, after, opened, isBroken, LineError.isBrokenMessage]
  | notText =>
      by_cases hskip : c.policy = .drop ∧ notTextError.isBrokenMessage = true
      · simp only [accept, absorb, if_pos hskip]
        exact (if_pos hskip).symm
      · simp only [accept, absorb, if_neg hskip]
        exact (if_neg hskip).symm
  | line text =>
      rcases hdecrypt : LineCipher.decrypt c.cipher text with ⟨e | plaintext, cipher⟩
      · by_cases hskip : c.policy = .drop ∧ e.isBrokenMessage = true
        · simp only [accept, absorb, after, opened, hdecrypt, isBroken, Except.map, if_pos hskip]
        · simp only [accept, absorb, after, opened, hdecrypt, isBroken, Except.map, if_neg hskip]
      · simp [accept, after, opened, hdecrypt, isBroken, Except.map]

theorem accept_of_broken (hpolicy : c.policy = .drop)
    (hbroken : isBroken (opened c.cipher frame).1 = true) :
    c.accept frame = (none, { c.after c.framing frame with dropped := c.dropped + 1 }) := by
  rw [accept_eq, if_pos ⟨hpolicy, hbroken⟩]

theorem accept_of_kept (hkept : ¬ (c.policy = .drop ∧ isBroken (opened c.cipher frame).1 = true)) :
    c.accept frame = (some (opened c.cipher frame).1, c.after c.framing frame) := by
  rw [accept_eq, if_neg hkept]

theorem accept_of_strict (hpolicy : c.policy = .fail) (frame : Frame) :
    c.accept frame = (some (opened c.cipher frame).1, c.after c.framing frame) :=
  accept_of_kept fun hskip => by cases hpolicy.symm.trans hskip.1

theorem accept_of_sound (hsound : isBroken (opened c.cipher frame).1 = false) :
    c.accept frame = (some (opened c.cipher frame).1, c.after c.framing frame) :=
  accept_of_kept fun hskip => by cases hsound.symm.trans hskip.2

theorem eq_of_accept_eq_some {result : Except LineError (Option String)}
    (h : c.accept frame = (some result, c')) :
    result = (opened c.cipher frame).1 ∧ c' = c.after c.framing frame := by
  rw [accept_eq] at h
  split at h
  · cases h
  · cases h
    exact ⟨rfl, rfl⟩

/-- Of all frames only the missing line is reported as one, and it changes nothing. -/
theorem eq_of_accept_eq_ok_none (h : c.accept frame = (some (.ok none), c')) :
    frame = .incomplete ∧ c' = c := by
  obtain ⟨hresult, rfl⟩ := eq_of_accept_eq_some h
  obtain rfl := opened_eq_ok_none_iff.1 hresult.symm
  exact ⟨rfl, rfl⟩

/-- Of all frames only a line comes to a line, the one that it is decrypted as. -/
theorem exists_decrypt_of_accept (h : c.accept frame = (some (.ok (some plaintext)), c')) :
    ∃ text, frame = .line text ∧ LineCipher.decrypt c.cipher text = (.ok plaintext, c'.cipher) := by
  obtain ⟨hresult, rfl⟩ := eq_of_accept_eq_some h
  exact exists_decrypt_of_opened hresult.symm

theorem framing_accept (c : LineCodec σ) (frame : Frame) :
    (c.accept frame).2.framing = c.framing := by
  rw [accept_eq]
  split <;> rfl

theorem framing_of_accept {f : Framing}
    {answer : Option (Except LineError (Option String)) × LineCodec σ}
    (h : { c with framing := f }.accept frame = answer) : answer.2.framing = f := by
  rw [← h]
  exact framing_accept { c with framing := f } frame

theorem cipher_accept (c : LineCodec σ) (frame : Frame) :
    (c.accept frame).2.cipher = (opened c.cipher frame).2 := by
  rw [accept_eq]
  split <;> rfl

theorem accept_line_of_ok (h : LineCipher.decrypt c.cipher text = (.ok plaintext, cipher)) :
    c.accept (.line text) = (some (.ok (some plaintext)), { c with cipher }) := by
  simp only [accept, h]

theorem accept_line_of_broken (hpolicy : c.policy = .drop)
    (h : LineCipher.decrypt c.cipher text = (.error e, cipher)) (he : e.isBrokenMessage = true) :
    c.accept (.line text) = (none, { c with cipher, dropped := c.dropped + 1 }) := by
  simp only [accept, h, absorb, hpolicy, he, and_self, if_true]

theorem accept_notText (hpolicy : c.policy = .drop) :
    c.accept .notText = (none, { c with dropped := c.dropped + 1 }) :=
  accept_of_broken hpolicy rfl

end

section

variable {c c' : LineCodec σ} {ended : Bool} {b b' rest line more : Bytes} {f : Framing}
  {frame : Frame} {result : Except LineError (Option String)}

/-! ### One line at a time -/

theorem decode_of_accept_some (hs : c.framing.step ended b = (frame, f, rest))
    (ha : { c with framing := f }.accept frame = (some result, c')) :
    c.decode ended b = (result, c', rest) := by
  rw [decode]
  split
  rename_i frame₁ f₁ rest₁ hs₁
  cases hs.symm.trans hs₁
  split
  · rename_i ha₁
    cases ha.symm.trans ha₁
    rfl
  · rename_i ha₁
    cases ha.symm.trans ha₁

theorem decode_of_accept_none (hs : c.framing.step ended b = (frame, f, rest))
    (ha : { c with framing := f }.accept frame = (none, c')) :
    c.decode ended b = c'.decode ended rest := by
  rw [decode]
  split
  rename_i frame₁ f₁ rest₁ hs₁
  cases hs.symm.trans hs₁
  split
  · rename_i ha₁
    cases ha.symm.trans ha₁
  · rename_i ha₁
    cases ha.symm.trans ha₁
    rfl

/-- Decoding depends on the buffer only through the next frame. -/
theorem decode_congr {b₁ : Bytes} {f₁ : Framing} (h : c.framing.step ended b = f₁.step ended b₁) :
    c.decode ended b = { c with framing := f₁ }.decode ended b₁ := by
  rcases hs : c.framing.step ended b with ⟨frame, f, rest⟩
  have hs₁ : { c with framing := f₁ }.framing.step ended b₁ = (frame, f, rest) := h.symm.trans hs
  rcases ha : { c with framing := f }.accept frame with ⟨_ | result, c'⟩
  · rw [decode_of_accept_none hs ha, decode_of_accept_none hs₁ ha]
  · rw [decode_of_accept_some hs ha, decode_of_accept_some hs₁ ha]

/-- **A line that is skipped** makes the buffer shorter. -/
theorem length_lt_of_accept_none (hs : c.framing.step ended b = (frame, f, rest))
    (ha : { c with framing := f }.accept frame = (none, c')) : rest.length < b.length := by
  have htaken := isTaken_of_accept_eq_none (congrArg Prod.fst ha)
  have hlt := @Framing.length_step_lt c.framing ended b (by rw [hs]; exact htaken)
  rwa [hs] at hlt

/-- **A call takes frames until one has a result**, so what holds of a call that is given its result
at once, and of one that skips a line if it holds of the rest, holds of every call. -/
theorem decode_induction {P : LineCodec σ → Bytes → Prop} (ended : Bool)
    (hskip : ∀ (c : LineCodec σ) (b : Bytes) (frame : Frame) (f : Framing) (rest : Bytes)
      (c' : LineCodec σ), c.framing.step ended b = (frame, f, rest) →
      { c with framing := f }.accept frame = (none, c') → P c' rest → P c b)
    (hstop : ∀ (c : LineCodec σ) (b : Bytes) (frame : Frame) (f : Framing) (rest : Bytes)
      (result : Except LineError (Option String)) (c' : LineCodec σ),
      c.framing.step ended b = (frame, f, rest) →
      { c with framing := f }.accept frame = (some result, c') → P c b)
    (c : LineCodec σ) (b : Bytes) : P c b := by
  -- every skipped line makes the buffer shorter
  induction hn : b.length using Nat.strongRecOn generalizing c b with
  | _ n ih =>
      rcases hs : c.framing.step ended b with ⟨frame, f, rest⟩
      rcases ha : { c with framing := f }.accept frame with ⟨_ | result, c'⟩
      · have hlt := length_lt_of_accept_none hs ha
        rw [hn] at hlt
        exact hskip c b frame f rest c' hs ha (ih _ hlt c' rest rfl)
      · exact hstop c b frame f rest result c' hs ha

/-! ### Bytes that arrive later -/

/-- **A call skips broken lines up to a frame with a result**, whatever arrives behind the buffer:
from there on it is the call `c₀.decode` with the buffer `b₀`. -/
theorem exists_stop (c : LineCodec σ) (b : Bytes) :
    ∃ (c₀ : LineCodec σ) (b₀ : Bytes) (frame : Frame) (f : Framing) (rest : Bytes)
      (result : Except LineError (Option String)) (c' : LineCodec σ),
      c₀.framing.step false b₀ = (frame, f, rest) ∧
      { c₀ with framing := f }.accept frame = (some result, c') ∧
      ∀ ended more, c.decode ended (b ++ more) = c₀.decode ended (b₀ ++ more) := by
  -- every skipped line makes the buffer shorter
  induction hn : b.length using Nat.strongRecOn generalizing c b with
  | _ n ih =>
      rcases hs : c.framing.step false b with ⟨frame, f, rest⟩
      rcases ha : { c with framing := f }.accept frame with ⟨_ | result, c₁⟩
      · have hframe : frame ≠ .incomplete := by rintro rfl; cases ha
        have hlt := length_lt_of_accept_none hs ha
        rw [hn] at hlt
        obtain ⟨c₀, b₀, frame₀, f₀, rest₀, result₀, c', hs₀, ha₀, hdecode⟩ := ih _ hlt c₁ rest rfl
        refine ⟨c₀, b₀, frame₀, f₀, rest₀, result₀, c', hs₀, ha₀, fun ended more => ?_⟩
        rw [decode_of_accept_none (Framing.step_append hs hframe ended more) ha]
        exact hdecode ended more
      · exact ⟨c, b, frame, f, rest, result, c₁, hs, ha, fun _ _ => rfl⟩

theorem exists_stop_of_decode (h : c.decode false b = (result, c', b')) :
    ∃ (c₀ : LineCodec σ) (b₀ : Bytes) (frame : Frame) (f : Framing),
      c₀.framing.step false b₀ = (frame, f, b') ∧
      { c₀ with framing := f }.accept frame = (some result, c') ∧
      ∀ ended more, c.decode ended (b ++ more) = c₀.decode ended (b₀ ++ more) := by
  obtain ⟨c₀, b₀, frame, f, rest, result₀, c₁, hs, ha, hdecode⟩ := exists_stop c b
  have hcall := hdecode false []
  rw [List.append_nil, List.append_nil, h, decode_of_accept_some hs ha] at hcall
  cases hcall
  exact ⟨c₀, b₀, frame, f, hs, ha, hdecode⟩

/-- **What a call returns does not depend on the bytes behind it**, which it leaves alone, nor on
whether the stream ends after them. -/
theorem decode_append (h : c.decode false b = (result, c', b')) (hresult : result ≠ .ok none)
    (ended : Bool) (more : Bytes) : c.decode ended (b ++ more) = (result, c', b' ++ more) := by
  obtain ⟨c₀, b₀, frame, f, hs, ha, hdecode⟩ := exists_stop_of_decode h
  have hframe : frame ≠ .incomplete := by
    rintro rfl
    cases ha
    exact hresult rfl
  rw [hdecode ended more]
  exact decode_of_accept_some (Framing.step_append hs hframe ended more) ha

/-- **A call that returns nothing loses nothing**: going on with what it left is decoding everything
at once. -/
theorem decode_append_of_none (h : c.decode false b = (.ok none, c', b')) (ended : Bool)
    (more : Bytes) : c.decode ended (b ++ more) = c'.decode ended (b' ++ more) := by
  obtain ⟨c₀, b₀, frame, f, hs, ha, hdecode⟩ := exists_stop_of_decode h
  obtain ⟨rfl, rfl⟩ := eq_of_accept_eq_ok_none ha
  rw [hdecode ended more]
  exact decode_congr (Framing.step_append_of_incomplete hs ended more)

/-- **A call that returned nothing** returns nothing when it is made again. -/
theorem decode_idle (h : c.decode ended b = (.ok none, c', b')) :
    c'.decode ended b' = (.ok none, c', b') := by
  refine decode_induction (P := fun c b => c.decode ended b = (.ok none, c', b') →
    c'.decode ended b' = (.ok none, c', b')) ended ?_ ?_ c b h
  · intro c b frame f rest c₁ hs ha ih h
    rw [decode_of_accept_none hs ha] at h
    exact ih h
  · intro c b frame f rest result c₁ hs ha h
    rw [decode_of_accept_some hs ha] at h
    obtain ⟨hresult, hrest⟩ := Prod.mk.inj h
    obtain ⟨rfl, rfl⟩ := Prod.mk.inj hrest
    rw [hresult] at ha
    obtain ⟨rfl, rfl⟩ := eq_of_accept_eq_ok_none ha
    exact decode_of_accept_some (Framing.step_idle hs) rfl

/-- **A line that a call returns** was decrypted from one that is not too long, and changed nothing
but the cipher after that. -/
theorem exists_decrypt_of_decode {plaintext : String}
    (h : c.decode ended b = (.ok (some plaintext), c', b')) :
    ∃ (cipher : σ) (text : String), (Text.utf8 text).length ≤ maxLineLength ∧
      LineCipher.decrypt cipher text = (.ok plaintext, c'.cipher) := by
  refine decode_induction (P := fun c b => c.decode ended b = (.ok (some plaintext), c', b') →
    ∃ (cipher : σ) (text : String), (Text.utf8 text).length ≤ maxLineLength ∧
      LineCipher.decrypt cipher text = (.ok plaintext, c'.cipher)) ended ?_ ?_ c b h
  · intro c b frame f rest c₁ hs ha ih h
    rw [decode_of_accept_none hs ha] at h
    exact ih h
  · intro c b frame f rest result c₁ hs ha h
    rw [decode_of_accept_some hs ha] at h
    cases h
    obtain ⟨text, rfl, hdecrypt⟩ := exists_decrypt_of_accept ha
    exact ⟨_, text, Framing.length_of_step_line hs, hdecrypt⟩

end

/-! ### Reading on and on -/

/-- **What reading on and on gives**: the results that a codec returns for a buffer until it has
none left, the codec then, and what is left of the buffer. -/
inductive Reads : LineCodec σ → Bytes → List (Except LineError String) → LineCodec σ → Bytes → Prop
  | done {c c' : LineCodec σ} {b b' : Bytes} (h : c.decode false b = (.ok none, c', b')) :
      Reads c b [] c' b'
  | more {c c₁ c' : LineCodec σ} {b b₁ b' : Bytes} {r : Except LineError String}
      {results : List (Except LineError String)} (h : c.decode false b = (r.map some, c₁, b₁))
      (hrest : Reads c₁ b₁ results c' b') : Reads c b (r :: results) c' b'

namespace Reads

variable {c c₁ c' c'' : LineCodec σ} {b b₁ b' b'' more : Bytes} {r : Except LineError String}
  {results results' : List (Except LineError String)}

theorem map_some_ne (r : Except LineError String) : r.map some ≠ .ok none := by
  cases r <;> simp [Except.map]

theorem exists_map_some {result : Except LineError (Option String)} (h : result ≠ .ok none) :
    ∃ r : Except LineError String, result = r.map some := by
  rcases result with e | _ | text
  · exact ⟨.error e, rfl⟩
  · exact absurd rfl h
  · exact ⟨.ok text, rfl⟩

theorem congr (h : Reads c b results c' b') (hd : c₁.decode false b₁ = c.decode false b) :
    Reads c₁ b₁ results c' b' := by
  cases h with
  | done h => exact .done (hd.trans h)
  | more h hrest => exact .more (hd.trans h) hrest

/-- **Reading two streams one after the other.** -/
theorem append (h : Reads c b results c' b') (h' : Reads c' (b' ++ more) results' c'' b'') :
    Reads c (b ++ more) (results ++ results') c'' b'' := by
  induction h with
  | done h => exact h'.congr (decode_append_of_none h false more)
  | more h _ ih => exact .more (decode_append h (map_some_ne _) false more) (ih h')

theorem of_more (h : Reads c b results c' b') (hd : c.decode false b = (r.map some, c₁, b₁)) :
    ∃ rest, results = r :: rest ∧ Reads c₁ b₁ rest c' b' := by
  cases h with
  | done h =>
      rw [hd] at h
      exact absurd (congrArg Prod.fst h) (map_some_ne r)
  | @more _ c₂ _ _ b₂ _ r₂ rest h hrest =>
      rw [hd] at h
      obtain ⟨hr, hc⟩ := Prod.mk.inj h
      cases hc
      have hr' : r = r₂ := by
        cases r <;> cases r₂ <;> simp_all [Except.map]
      exact ⟨rest, by rw [hr'], hrest⟩

/-- **Reading on and on** comes to one thing only. -/
theorem unique (h : Reads c b results c' b') (h' : Reads c b results' c'' b'') :
    results' = results ∧ c'' = c' ∧ b'' = b' := by
  induction h generalizing results' with
  | done h =>
      cases h' with
      | done h' =>
          rw [h] at h'
          obtain ⟨-, hrest⟩ := Prod.mk.inj h'
          obtain ⟨rfl, rfl⟩ := Prod.mk.inj hrest
          exact ⟨rfl, rfl, rfl⟩
      | @more _ _ _ _ _ _ r _ h' _ =>
          rw [h] at h'
          exact absurd (congrArg Prod.fst h').symm (map_some_ne r)
  | more h _ ih =>
      obtain ⟨rest, rfl, hrest⟩ := h'.of_more h
      obtain ⟨rfl, hlast⟩ := ih hrest
      exact ⟨rfl, hlast⟩

/-- **A call on the way through a stream** that returns a result returns the next one. -/
theorem decode_some (h : Reads c (b ++ more) results c' b')
    (hd : c.decode false b = (r.map some, c₁, b₁)) :
    ∃ rest, results = r :: rest ∧ Reads c₁ (b₁ ++ more) rest c' b' :=
  h.of_more (decode_append hd (map_some_ne r) false more)

/-- **A call on the way through a stream** that returns nothing changes nothing. -/
theorem decode_none (h : Reads c (b ++ more) results c' b')
    (hd : c.decode false b = (.ok none, c₁, b₁)) : Reads c₁ (b₁ ++ more) results c' b' :=
  h.congr (decode_append_of_none hd false more).symm

end Reads

/-! ### Writing a line -/

section

variable {c : LineCodec σ} {cipher : σ} {line ciphertext : String} {e : LineError}

theorem encode_of_hasLineEnd (hend : hasLineEnd line = true) :
    c.encode line = (.error (.invalidArgument "line contains a line terminator"), c) :=
  if_pos hend

theorem encode_of_isTooLong (hend : hasLineEnd line = false)
    (hlong : isTooLong c.cipher line = true) :
    c.encode line = (.error (.lineTooLong maxLineLength), c) := by
  rw [encode, hend, hlong]
  rfl

variable (hend : hasLineEnd line = false) (hfits : isTooLong c.cipher line = false)

include hend hfits

/-- **A line is written** if its ciphertext is not too long. -/
theorem encode_of_encrypted (h : LineCipher.encrypt c.cipher line = (.ok ciphertext, cipher))
    (hlen : (Text.utf8 ciphertext).length ≤ maxLineLength) :
    c.encode line = (.ok (frameLine ciphertext), { c with cipher }) := by
  simp only [encode, hend, hfits, h, Bool.false_eq_true, if_false, if_neg (Nat.not_lt.2 hlen)]

theorem encode_of_overlong (h : LineCipher.encrypt c.cipher line = (.ok ciphertext, cipher))
    (hlen : maxLineLength < (Text.utf8 ciphertext).length) :
    c.encode line = (.error (.lineTooLong maxLineLength), { c with cipher }) := by
  simp only [encode, hend, hfits, h, Bool.false_eq_true, if_false, if_pos hlen]

theorem encode_of_skipped (h : LineCipher.encrypt c.cipher line = (.error e, cipher))
    (hskip : c.policy = .drop ∧ e.isBrokenMessage = true) :
    c.encode line = (.ok [], { c with cipher, dropped := c.dropped + 1 }) := by
  simp only [encode, hend, hfits, h, absorb, Bool.false_eq_true, if_false, if_pos hskip]

theorem encode_of_not_encrypted (h : LineCipher.encrypt c.cipher line = (.error e, cipher))
    (hkept : ¬ (c.policy = .drop ∧ e.isBrokenMessage = true)) :
    c.encode line = (.error e, { c with cipher }) := by
  simp only [encode, hend, hfits, h, absorb, Bool.false_eq_true, if_false, if_neg hkept]

end

/-! ### Codecs that skip nothing -/

section

variable {c c' : LineCodec σ} {ended : Bool} {b rest : Bytes} {f : Framing} {frame : Frame}
  {plaintext : String}

/-- **A codec that skips nothing** returns what the next frame comes to. -/
theorem decode_of_strict (hpolicy : c.policy = .fail)
    (hs : c.framing.step ended b = (frame, f, rest)) :
    c.decode ended b = ((opened c.cipher frame).1, c.after f frame, rest) :=
  decode_of_accept_some hs (accept_of_strict (c := { c with framing := f }) hpolicy frame)

/-- It takes one line in a call, and leaves what the framing leaves. -/
theorem exists_decode_of_fail (hpolicy : c.policy = .fail) (ended : Bool) (b : Bytes) :
    ∃ result cipher, c.decode ended b =
      (result, { c with framing := (c.framing.decode ended b).2.1, cipher },
        (c.framing.decode ended b).2.2) := by
  rcases hs : c.framing.step ended b with ⟨frame, f, rest⟩
  rw [Framing.decode_of_step hs]
  exact ⟨_, _, decode_of_strict hpolicy hs⟩

/-- Writing changes nothing but the cipher. -/
theorem exists_encode_of_fail (hpolicy : c.policy = .fail) (line : String) :
    ∃ result cipher, c.encode line = (result, { c with cipher }) := by
  cases hend : hasLineEnd line with
  | true => exact ⟨_, c.cipher, encode_of_hasLineEnd hend⟩
  | false =>
  cases hfits : isTooLong c.cipher line with
  | true => exact ⟨_, c.cipher, encode_of_isTooLong hend hfits⟩
  | false =>
  rcases hencrypt : LineCipher.encrypt c.cipher line with ⟨e | ciphertext, cipher⟩
  · refine ⟨_, cipher, encode_of_not_encrypted hend hfits hencrypt ?_⟩
    rintro ⟨hdrop, -⟩
    cases hpolicy.symm.trans hdrop
  · rcases Nat.lt_or_ge maxLineLength (Text.utf8 ciphertext).length with hlong | hlen
    · exact ⟨_, cipher, encode_of_overlong hend hfits hencrypt hlong⟩
    · exact ⟨_, cipher, encode_of_encrypted hend hfits hencrypt hlen⟩

/-- **The line that it gives** is the next line of the framing, decrypted. -/
theorem decode_eq_line_iff (hpolicy : c.policy = .fail) :
    c.decode ended b = (.ok (some plaintext), c', rest) ↔
      ∃ text f cipher, c.framing.decode ended b = (.ok (some text), f, rest) ∧
        LineCipher.decrypt c.cipher text = (.ok plaintext, cipher) ∧
        c' = { c with framing := f, cipher } := by
  rcases hs : c.framing.step ended b with ⟨frame, f, left⟩
  rw [Framing.decode_of_step hs, decode_of_strict hpolicy hs]
  constructor
  · intro h
    obtain ⟨hresult, hrest⟩ := Prod.mk.inj h
    obtain ⟨rfl, rfl⟩ := Prod.mk.inj hrest
    obtain ⟨text, rfl, hdecrypt⟩ := exists_decrypt_of_opened hresult
    exact ⟨text, f, _, rfl, hdecrypt, rfl⟩
  · rintro ⟨text, f', cipher, hline, hdecrypt, rfl⟩
    obtain ⟨hresult, hrest⟩ := Prod.mk.inj hline
    cases hrest
    cases frame with
    | line text' =>
        cases hresult
        rw [after, opened_line hdecrypt]
        rfl
    | incomplete => cases hresult
    | tooLong => cases hresult
    | notText => cases hresult

end

/-! ### Single lines -/

section

variable {c c₁ : LineCodec σ} {line b : Bytes} {r : Except LineError String}

/-- **The beginning of a line** is kept until the rest arrives. -/
theorem decode_of_notMem (hf : c.framing = ⟨false⟩) (hb : lineFeed ∉ b)
    (hlen : b.length ≤ maxLineLength) : c.decode false b = (.ok none, c, b) := by
  have hs : c.framing.step false b = (.incomplete, c.framing, b) := by
    rw [hf]
    exact Framing.nextLine_of_notMem hb hlen
  exact decode_of_accept_some hs rfl

theorem decode_line (hf : c.framing = ⟨false⟩) (hline : lineFeed ∉ line)
    (hlen : line.length ≤ maxLineLength)
    (ha : c.accept (Frame.ofLine line) = (some (r.map some), c₁)) (rest : Bytes) :
    c.decode false (line ++ lineFeed :: rest) = (r.map some, c₁, rest) :=
  decode_of_accept_some (Framing.step_line hf hline hlen rest) ha

theorem reads_line (hf : c.framing = ⟨false⟩) (hline : lineFeed ∉ line)
    (hlen : line.length ≤ maxLineLength)
    (ha : c.accept (Frame.ofLine line) = (some (r.map some), c₁)) :
    Reads c (line ++ [lineFeed]) [r] c₁ [] := by
  have hf₁ : c₁.framing = ⟨false⟩ := by rw [← hf, ← framing_accept c (Frame.ofLine line), ha]
  refine .more (decode_line hf hline hlen ha []) (.done ?_)
  exact decode_of_notMem hf₁ (List.not_mem_nil) (Nat.zero_le _)

theorem reads_skipped (hf : c.framing = ⟨false⟩) (hline : lineFeed ∉ line)
    (hlen : line.length ≤ maxLineLength) (ha : c.accept (Frame.ofLine line) = (none, c₁)) :
    Reads c (line ++ [lineFeed]) [] c₁ [] := by
  have hf₁ : c₁.framing = ⟨false⟩ := by rw [← hf, ← framing_accept c (Frame.ofLine line), ha]
  refine .done ?_
  rw [decode_of_accept_none (Framing.step_line hf hline hlen []) ha]
  exact decode_of_notMem hf₁ (List.not_mem_nil) (Nat.zero_le _)

/-- **A single overlong line** is one error, and nothing of it is left. -/
theorem reads_overlong (hf : c.framing = ⟨false⟩) (hline : lineFeed ∉ line)
    (hlen : maxLineLength < line.length) :
    Reads c (line ++ [lineFeed]) [.error (.lineTooLong maxLineLength)] c [] := by
  -- the error comes first, and the next call skips up to the line feed
  have hfirst : c.framing.step false (line ++ [lineFeed]) =
      (.tooLong, ⟨true⟩, line ++ [lineFeed]) := by
    rw [hf]
    exact Framing.nextLine_overlong hline hlen [lineFeed]
  have hsecond : Framing.step ⟨true⟩ false (line ++ [lineFeed]) = (.incomplete, c.framing, []) := by
    rw [hf, Framing.step_false, Framing.next_skipping_line hline]
    exact Framing.nextLine_of_notMem List.not_mem_nil (Nat.zero_le _)
  exact .more (decode_of_accept_some hfirst rfl) (.done (decode_of_accept_some hsecond rfl))

end

end LineCodec

end LineChat
