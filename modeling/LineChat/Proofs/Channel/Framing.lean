/-
**Framing and bytes that arrive later.**

A line is found by its line feed, so what a read takes from a buffer does not depend on the bytes
behind it, and a read that finds no line yet loses nothing: reading again when more has arrived is
the same as having waited.  The second holds also while an overlong line is being skipped, where the
buffer is thrown away.

Main definitions:

* `LineChat.Framing.load` — how much a buffer may still come to.

Main results:

* `LineChat.Framing.nextLine_line`, `LineChat.Framing.nextLine_overlong`,
  `LineChat.Framing.next_skipping_line` — reading a line that is there with its end;
* `LineChat.Framing.nextLine_cases`, `LineChat.Framing.step_eq_or` — what a read comes to;
* `LineChat.Framing.next_append`, `LineChat.Framing.next_append_of_incomplete` — **reading when more
  has arrived**;
* `LineChat.Framing.step_append`, `LineChat.Framing.step_append_of_incomplete`,
  `LineChat.Framing.decode_append_of_step` — the same when the stream may have ended after it;
* `LineChat.Framing.decode_append`, `LineChat.Framing.decode_append_of_none`,
  `LineChat.Framing.decode_idle` — the same for plain lines;
* `LineChat.Framing.exists_line_of_step`, `LineChat.Framing.length_of_step_line`,
  `LineChat.Framing.lineFeed_notMem_of_step_line` — **a line that is taken** has no line feed and is
  not too long;
* `LineChat.Framing.next_eq_incomplete`, `LineChat.Framing.step_suffix` — **what a read leaves** is
  a part of the buffer, and the beginning of a line if no line was found;
* `LineChat.Framing.load_step_lt` — **reading comes to an end**: every read that finds something
  uses the buffer up.
-/

import LineChat.Channel.Framing

set_option autoImplicit false

namespace LineChat.Framing

variable {f f' : Framing} {frame : Frame} {b b' line : Bytes}

/-! ### Line feeds -/

theorem untilFeed_append (h : lineFeed ∉ line) (rest : Bytes) :
    untilFeed (line ++ rest) = line ++ untilFeed rest := by
  refine List.takeWhile_append_of_pos ?_
  intro x hx
  rw [bne_iff_ne]
  rintro rfl
  exact h hx

theorem untilFeed_of_notMem (h : lineFeed ∉ b) : untilFeed b = b := by
  have happ := untilFeed_append h []
  simpa [untilFeed] using happ

theorem afterFeed?_of_notMem (h : lineFeed ∉ b) : afterFeed? b = none := by
  cases ha : afterFeed? b with
  | none => rfl
  | some rest =>
      refine absurd ?_ h
      rw [eq_of_afterFeed? ha]
      exact List.mem_append_right _ (List.mem_cons_self ..)

/-- **The first line of a buffer** that has its line feed. -/
@[simp] theorem untilFeed_line (h : lineFeed ∉ line) (rest : Bytes) :
    untilFeed (line ++ lineFeed :: rest) = line := by
  rw [untilFeed_append h]
  simp [untilFeed]

/-- **What is left behind the first line** of a buffer. -/
@[simp] theorem afterFeed?_line (h : lineFeed ∉ line) (rest : Bytes) :
    afterFeed? (line ++ lineFeed :: rest) = some rest := by
  have hdrop : (line ++ lineFeed :: rest).dropWhile (· != lineFeed) = lineFeed :: rest := by
    rw [List.dropWhile_append_of_pos]
    · simp
    · intro x hx
      rw [bne_iff_ne]
      rintro rfl
      exact h hx
  rw [afterFeed?, hdrop]

/-- **A buffer has a first line, or no line feed.** -/
theorem exists_line_or_notMem (b : Bytes) :
    (∃ line rest, lineFeed ∉ line ∧ b = line ++ lineFeed :: rest) ∨ lineFeed ∉ b := by
  by_cases h : lineFeed ∈ b
  · obtain ⟨line, rest, rfl, hline⟩ := List.eq_append_cons_of_mem h
    exact Or.inl ⟨line, rest, hline, rfl⟩
  · exact Or.inr h

/-- **The beginning of a stream** has its first line with the line feed, or a part of the line. -/
theorem append_eq_line {rest u : Bytes} (h : b ++ u = line ++ lineFeed :: rest) :
    (∃ b', b = line ++ lineFeed :: b' ∧ b' ++ u = rest) ∨
      ∃ tail, line = b ++ tail ∧ u = tail ++ lineFeed :: rest := by
  rcases List.append_eq_append_iff.1 h with hpart | ⟨_ | ⟨x, tail⟩, hb, hu⟩
  · exact Or.inr hpart
  · exact Or.inr ⟨[], by simpa using hb.symm, hu.symm⟩
  · obtain ⟨rfl, rfl⟩ := List.cons.inj hu
    exact Or.inl ⟨tail, hb, rfl⟩

/-! ### Lines that are there -/

/-- **A line that is there is taken.** -/
theorem nextLine_line (h : lineFeed ∉ line) (hlen : line.length ≤ maxLineLength) (rest : Bytes) :
    nextLine (line ++ lineFeed :: rest) = (Frame.ofLine line, ⟨false⟩, rest) := by
  rw [nextLine, untilFeed_line h, if_neg (Nat.not_lt.2 hlen), afterFeed?_line h]

/-- **A line that is too long is reported** as soon as its beginning is there. -/
theorem nextLine_overlong (h : lineFeed ∉ line) (hlen : maxLineLength < line.length)
    (rest : Bytes) : nextLine (line ++ rest) = (.tooLong, ⟨true⟩, line ++ rest) := by
  have hlong : maxLineLength < (untilFeed (line ++ rest)).length := by
    rw [untilFeed_append h, List.length_append]
    omega
  rw [nextLine, if_pos hlong]

theorem nextLine_of_notMem (h : lineFeed ∉ b) (hlen : b.length ≤ maxLineLength) :
    nextLine b = (.incomplete, ⟨false⟩, b) := by
  rw [nextLine, untilFeed_of_notMem h, if_neg (Nat.not_lt.2 hlen), afterFeed?_of_notMem h]

theorem ofLine_ne_incomplete (line : Bytes) : Frame.ofLine line ≠ .incomplete := by
  unfold Frame.ofLine
  split <;> simp

theorem ofLine_ne_tooLong (line : Bytes) : Frame.ofLine line ≠ .tooLong := by
  unfold Frame.ofLine
  split <;> simp

/-- **What reading a line comes to**: the line is there, or the beginning of one that is too long,
or the beginning of one that may still be a line. -/
theorem nextLine_cases (b : Bytes) :
    (∃ line rest, lineFeed ∉ line ∧ line.length ≤ maxLineLength ∧ b = line ++ lineFeed :: rest ∧
        nextLine b = (Frame.ofLine line, ⟨false⟩, rest)) ∨
      (∃ line rest, lineFeed ∉ line ∧ maxLineLength < line.length ∧ b = line ++ rest ∧
        nextLine b = (.tooLong, ⟨true⟩, b)) ∨
      lineFeed ∉ b ∧ b.length ≤ maxLineLength ∧ nextLine b = (.incomplete, ⟨false⟩, b) := by
  rcases exists_line_or_notMem b with ⟨line, rest, hline, rfl⟩ | hb
  · rcases Nat.lt_or_ge maxLineLength line.length with hlen | hlen
    · exact Or.inr (Or.inl ⟨line, _, hline, hlen, rfl, nextLine_overlong hline hlen _⟩)
    · exact Or.inl ⟨line, rest, hline, hlen, rfl, nextLine_line hline hlen rest⟩
  · rcases Nat.lt_or_ge maxLineLength b.length with hlen | hlen
    · refine Or.inr (Or.inl ⟨b, [], hb, hlen, (List.append_nil b).symm, ?_⟩)
      simpa using nextLine_overlong hb hlen []
    · exact Or.inr (Or.inr ⟨hb, hlen, nextLine_of_notMem hb hlen⟩)

/-- **The end of a skipped line** is where the next line begins. -/
theorem next_skipping_line (h : lineFeed ∉ line) (rest : Bytes) :
    next ⟨true⟩ (line ++ lineFeed :: rest) = nextLine rest := by
  rw [next, if_pos rfl, afterFeed?_line h]

theorem next_skipping_of_notMem (h : lineFeed ∉ b) : next ⟨true⟩ b = (.incomplete, ⟨true⟩, []) := by
  rw [next, if_pos rfl, afterFeed?_of_notMem h]

@[simp] theorem step_false (f : Framing) (b : Bytes) : f.step false b = f.next b := rfl

@[simp] theorem step_true (f : Framing) (b : Bytes) : f.step true b = f.nextAtEnd b := rfl

theorem step_line (hf : f = ⟨false⟩) (h : lineFeed ∉ line) (hlen : line.length ≤ maxLineLength)
    (rest : Bytes) : f.step false (line ++ lineFeed :: rest) = (Frame.ofLine line, f, rest) := by
  rw [hf]
  exact nextLine_line h hlen rest

/-! ### Bytes that arrive later -/

theorem nextLine_append (h : nextLine b = (frame, f', b')) (hframe : frame ≠ .incomplete)
    (more : Bytes) : nextLine (b ++ more) = (frame, f', b' ++ more) := by
  rcases nextLine_cases b with ⟨line, rest, hline, hlen, rfl, hb⟩ |
    ⟨line, rest, hline, hlen, rfl, hb⟩ | ⟨-, -, hb⟩ <;> cases h.symm.trans hb
  · rw [List.append_assoc, List.cons_append, nextLine_line hline hlen]
  · -- an overlong line is reported without its line feed, and stays in the buffer
    rw [List.append_assoc, nextLine_overlong hline hlen]
  · exact absurd rfl hframe

theorem nextLine_eq_incomplete (h : nextLine b = (.incomplete, f', b')) :
    f' = ⟨false⟩ ∧ b' = b ∧ lineFeed ∉ b ∧ b.length ≤ maxLineLength := by
  rcases nextLine_cases b with ⟨line, rest, -, -, -, hb⟩ | ⟨-, -, -, -, -, hb⟩ | ⟨hfeed, hlen, hb⟩
  · exact absurd (congrArg Prod.fst (h.symm.trans hb)).symm (ofLine_ne_incomplete line)
  · cases h.symm.trans hb
  · cases h.symm.trans hb
    exact ⟨rfl, rfl, hfeed, hlen⟩

theorem nextLine_eq_tooLong (h : nextLine b = (.tooLong, f', b')) : f' = ⟨true⟩ ∧ b' = b := by
  rcases nextLine_cases b with ⟨line, rest, -, -, -, hb⟩ | ⟨-, -, -, -, -, hb⟩ | ⟨-, -, hb⟩
  · exact absurd (congrArg Prod.fst (h.symm.trans hb)).symm (ofLine_ne_tooLong line)
  · cases h.symm.trans hb
    exact ⟨rfl, rfl⟩
  · cases h.symm.trans hb

/-- **What a read finds does not depend on the bytes behind it.** -/
theorem next_append (h : f.next b = (frame, f', b')) (hframe : frame ≠ .incomplete)
    (more : Bytes) : f.next (b ++ more) = (frame, f', b' ++ more) := by
  obtain ⟨skipping⟩ := f
  cases skipping with
  | false => exact nextLine_append h hframe more
  | true =>
      rcases exists_line_or_notMem b with ⟨line, rest, hline, rfl⟩ | hb
      · rw [next_skipping_line hline] at h
        rw [List.append_assoc, List.cons_append, next_skipping_line hline]
        exact nextLine_append h hframe more
      · rw [next_skipping_of_notMem hb] at h
        exact absurd (congrArg Prod.fst h).symm hframe

/-- **A read that finds no line loses nothing**: reading on with what it left is reading everything
at once. -/
theorem next_append_of_incomplete (h : f.next b = (.incomplete, f', b')) (more : Bytes) :
    f.next (b ++ more) = f'.next (b' ++ more) := by
  obtain ⟨skipping⟩ := f
  cases skipping with
  | false =>
      obtain ⟨rfl, rfl, -⟩ := nextLine_eq_incomplete h
      rfl
  | true =>
      rcases exists_line_or_notMem b with ⟨line, rest, hline, rfl⟩ | hb
      · rw [next_skipping_line hline] at h
        obtain ⟨rfl, rfl, -⟩ := nextLine_eq_incomplete h
        rw [List.append_assoc, List.cons_append, next_skipping_line hline]
        rfl
      · -- the part that is skipped is thrown away, and the line feed is still to come
        rw [next_skipping_of_notMem hb] at h
        cases h
        rw [List.nil_append]
        rcases exists_line_or_notMem more with ⟨line, rest, hline, rfl⟩ | hmore
        · have hboth : lineFeed ∉ b ++ line := by simp [hb, hline]
          rw [← List.append_assoc, next_skipping_line hboth, next_skipping_line hline]
        · rw [next_skipping_of_notMem hmore, next_skipping_of_notMem (by simp [hb, hmore])]

/-- **At the end of a stream** a read finds what it would have found before, or takes what is
left. -/
theorem step_eq_or (f : Framing) (ended : Bool) (b : Bytes) :
    f.step ended b = f.next b ∨
      ∃ f' rest, f.next b = (.incomplete, f', rest) ∧ f.step ended b = f'.lastLine rest := by
  cases ended with
  | false => exact Or.inl rfl
  | true =>
      rw [step_true, nextAtEnd]
      rcases hn : f.next b with ⟨frame, f', rest⟩
      cases frame with
      | incomplete => exact Or.inr ⟨f', rest, rfl, rfl⟩
      | line text => exact Or.inl rfl
      | notText => exact Or.inl rfl
      | tooLong => exact Or.inl rfl

/-- What is left at the end of a stream is taken, unless there is nothing to take. -/
theorem lastLine_cases (f : Framing) (rest : Bytes) :
    (rest = [] ∨ rest = [carriageReturn]) ∧ f.lastLine rest = (.incomplete, f, rest) ∨
      f.lastLine rest = (Frame.ofLine rest, f, []) := by
  by_cases hrest : rest = [] ∨ rest = [carriageReturn]
  · exact Or.inl ⟨hrest, if_pos hrest⟩
  · exact Or.inr (if_neg hrest)

theorem step_append (h : f.next b = (frame, f', b')) (hframe : frame ≠ .incomplete) (ended : Bool)
    (more : Bytes) : f.step ended (b ++ more) = (frame, f', b' ++ more) := by
  have hnext := next_append h hframe more
  cases ended with
  | false => exact hnext
  | true =>
      rw [step_true, nextAtEnd, hnext]
      cases frame with
      | incomplete => exact absurd rfl hframe
      | line text => rfl
      | notText => rfl
      | tooLong => rfl

theorem step_append_of_incomplete (h : f.next b = (.incomplete, f', b')) (ended : Bool)
    (more : Bytes) : f.step ended (b ++ more) = f'.step ended (b' ++ more) := by
  have hnext := next_append_of_incomplete h more
  cases ended with
  | false => exact hnext
  | true => rw [step_true, step_true, nextAtEnd, nextAtEnd, hnext]

/-- **An unfinished line at the end of a stream** is taken, unless it is a lone carriage return. -/
theorem step_true_of_notMem (h : lineFeed ∉ b) (hlen : b.length ≤ maxLineLength) (hne : b ≠ [])
    (hreturn : b ≠ [carriageReturn]) :
    step ⟨false⟩ true b = (Frame.ofLine b, ⟨false⟩, []) := by
  have hnext : next ⟨false⟩ b = (.incomplete, ⟨false⟩, b) := nextLine_of_notMem h hlen
  rw [step_true, nextAtEnd, hnext]
  exact if_neg (by simp [hne, hreturn])

theorem step_true_nil : step ⟨false⟩ true [] = (.incomplete, ⟨false⟩, []) := by
  have hnext : next ⟨false⟩ [] = (.incomplete, ⟨false⟩, []) :=
    nextLine_of_notMem List.not_mem_nil (Nat.zero_le _)
  rw [step_true, nextAtEnd, hnext]
  rfl

/-- **A read that found no line** finds none in what it left. -/
theorem step_idle {ended : Bool} (h : f.step ended b = (.incomplete, f', b')) :
    f'.step ended b' = (.incomplete, f', b') := by
  have hagain : f.next b = (.incomplete, f', b') → f'.step ended b' = (.incomplete, f', b') := by
    intro hnext
    have happend := step_append_of_incomplete hnext ended []
    rw [List.append_nil, List.append_nil, h] at happend
    exact happend.symm
  rcases step_eq_or f ended b with hnext | ⟨f₁, rest, hnext, hlast⟩
  · exact hagain (hnext.symm.trans h)
  · -- what is left at the end is nothing, or a carriage return
    rcases lastLine_cases f₁ rest with ⟨-, hkept⟩ | htaken
    · cases (h.symm.trans hlast).trans hkept
      exact hagain hnext
    · exact absurd (congrArg Prod.fst ((h.symm.trans hlast).trans htaken)).symm
        (ofLine_ne_incomplete rest)

/-! ### The line that is taken -/

theorem length_dropReturn_le (line : Bytes) : (dropReturn line).length ≤ line.length := by
  unfold dropReturn
  split
  · simp
  · exact Nat.le_refl _

theorem mem_of_mem_dropReturn {x : UInt8} (h : x ∈ dropReturn line) : x ∈ line := by
  unfold dropReturn at h
  split at h
  · exact List.dropLast_subset line h
  · exact h

theorem utf8_of_ofLine {text : String} (h : Frame.ofLine line = .line text) :
    Text.utf8 text = dropReturn line := by
  unfold Frame.ofLine at h
  split at h
  · rename_i htext
    cases h
    exact Text.utf8_of_ofUtf8 htext
  · cases h

theorem exists_line_of_nextLine {text : String} (h : nextLine b = (.line text, f', b')) :
    ∃ line, lineFeed ∉ line ∧ line.length ≤ maxLineLength ∧ Text.utf8 text = dropReturn line := by
  rcases nextLine_cases b with ⟨line, rest, hfeed, hlen, -, hb⟩ | ⟨-, -, -, -, -, hb⟩ | ⟨-, -, hb⟩
  · have hframe := congrArg Prod.fst (h.symm.trans hb)
    exact ⟨line, hfeed, hlen, utf8_of_ofLine hframe.symm⟩
  · cases h.symm.trans hb
  · cases h.symm.trans hb

/-- A read looks for a line in the buffer, or behind the end of the line that is being skipped. -/
theorem exists_nextLine_of_next (h : f.next b = (frame, f', b')) :
    (∃ rest, nextLine rest = (frame, f', b')) ∨ frame = .incomplete ∧ b' = [] := by
  obtain ⟨skipping⟩ := f
  cases skipping with
  | false => exact Or.inl ⟨b, h⟩
  | true =>
      rcases exists_line_or_notMem b with ⟨line, rest, hline, rfl⟩ | hb
      · rw [next_skipping_line hline] at h
        exact Or.inl ⟨rest, h⟩
      · rw [next_skipping_of_notMem hb] at h
        cases h
        exact Or.inr ⟨rfl, rfl⟩

/-- **A read that finds no line** leaves the beginning of one that may still be a line. -/
theorem next_eq_incomplete (h : f.next b = (.incomplete, f', b')) :
    lineFeed ∉ b' ∧ b'.length ≤ maxLineLength := by
  rcases exists_nextLine_of_next h with ⟨_, hline⟩ | ⟨-, rfl⟩
  · obtain ⟨-, rfl, hfeed, hlen⟩ := nextLine_eq_incomplete hline
    exact ⟨hfeed, hlen⟩
  · exact ⟨List.not_mem_nil, Nat.zero_le _⟩

/-- **A line that is taken** had no line feed in it and was not too long. -/
theorem exists_line_of_step {ended : Bool} {text : String}
    (h : f.step ended b = (.line text, f', b')) :
    ∃ line, lineFeed ∉ line ∧ line.length ≤ maxLineLength ∧ Text.utf8 text = dropReturn line := by
  rcases step_eq_or f ended b with hnext | ⟨f₁, rest, hnext, hlast⟩
  · rcases exists_nextLine_of_next (hnext.symm.trans h) with ⟨_, hline⟩ | ⟨hframe, -⟩
    · exact exists_line_of_nextLine hline
    · cases hframe
  · -- what is left at the end has no line feed, and was not long enough to be reported
    have hrest := next_eq_incomplete hnext
    rcases lastLine_cases f₁ rest with ⟨-, hkept⟩ | htaken
    · cases (h.symm.trans hlast).trans hkept
    · have hframe := congrArg Prod.fst ((h.symm.trans hlast).trans htaken)
      exact ⟨rest, hrest.1, hrest.2, utf8_of_ofLine hframe.symm⟩

theorem length_of_step_line {ended : Bool} {text : String}
    (h : f.step ended b = (.line text, f', b')) : (Text.utf8 text).length ≤ maxLineLength := by
  obtain ⟨line, -, hlen, htext⟩ := exists_line_of_step h
  rw [htext]
  exact Nat.le_trans (length_dropReturn_le line) hlen

theorem lineFeed_notMem_of_step_line {ended : Bool} {text : String}
    (h : f.step ended b = (.line text, f', b')) : lineFeed ∉ Text.utf8 text := by
  obtain ⟨line, hfeed, -, htext⟩ := exists_line_of_step h
  rw [htext]
  exact fun hmem => hfeed (mem_of_mem_dropReturn hmem)

/-! ### How much is left -/

theorem suffix_line (line rest : Bytes) : rest <:+ line ++ lineFeed :: rest :=
  (List.suffix_cons lineFeed rest).trans (List.suffix_append line _)

theorem nextLine_suffix (b : Bytes) : (nextLine b).2.2 <:+ b := by
  rcases nextLine_cases b with ⟨line, rest, -, -, rfl, hb⟩ | ⟨-, -, -, -, -, hb⟩ | ⟨-, -, hb⟩
  · rw [hb]
    exact suffix_line line rest
  · simp only [hb, List.suffix_refl]
  · simp only [hb, List.suffix_refl]

theorem next_suffix (f : Framing) (b : Bytes) : (f.next b).2.2 <:+ b := by
  obtain ⟨skipping⟩ := f
  cases skipping with
  | false => exact nextLine_suffix b
  | true =>
      rcases exists_line_or_notMem b with ⟨line, rest, hline, rfl⟩ | hb
      · rw [next_skipping_line hline]
        exact (nextLine_suffix rest).trans (suffix_line line rest)
      · rw [next_skipping_of_notMem hb]
        exact List.nil_suffix

/-- **A read takes bytes off the front of a buffer**, and leaves the others as they are. -/
theorem step_suffix (f : Framing) (ended : Bool) (b : Bytes) : (f.step ended b).2.2 <:+ b := by
  have hsuffix := next_suffix f b
  rcases step_eq_or f ended b with hnext | ⟨f₁, rest, hnext, hlast⟩
  · rwa [hnext]
  · rw [hnext] at hsuffix
    rcases lastLine_cases f₁ rest with ⟨-, hkept⟩ | htaken
    · rwa [hlast, hkept]
    · rw [hlast, htaken]
      exact List.nil_suffix

theorem length_step_le (f : Framing) (ended : Bool) (b : Bytes) :
    (f.step ended b).2.2.length ≤ b.length :=
  (step_suffix f ended b).length_le

/-- **A line that is too long is reported once**: the next read skips it, and if one was being
skipped already, that one has ended. -/
theorem step_eq_tooLong {ended : Bool} (h : f.step ended b = (.tooLong, f', b')) :
    f'.skipping = true ∧ (f.skipping = true → b'.length < b.length) := by
  rcases step_eq_or f ended b with hnext | ⟨f₁, rest, -, hlast⟩
  · have hn := hnext.symm.trans h
    obtain ⟨skipping⟩ := f
    cases skipping with
    | false =>
        obtain ⟨rfl, -⟩ := nextLine_eq_tooLong hn
        exact ⟨rfl, fun hskip => by cases hskip⟩
    | true =>
        rcases exists_line_or_notMem b with ⟨line, rest, hline, rfl⟩ | hb
        · rw [next_skipping_line hline] at hn
          obtain ⟨rfl, rfl⟩ := nextLine_eq_tooLong hn
          refine ⟨rfl, fun _ => ?_⟩
          rw [List.length_append, List.length_cons]
          omega
        · rw [next_skipping_of_notMem hb] at hn
          cases hn
  · rcases lastLine_cases f₁ rest with ⟨-, hkept⟩ | htaken
    · cases (h.symm.trans hlast).trans hkept
    · exact absurd (congrArg Prod.fst ((h.symm.trans hlast).trans htaken)).symm
        (ofLine_ne_tooLong rest)

/-- **How much a buffer may still come to**: its bytes, and the report of a line that is too long,
which takes none of them but is made only once. -/
def load (f : Framing) (b : Bytes) : Nat := 2 * b.length + if f.skipping then 0 else 1

theorem load_le (f : Framing) (b : Bytes) : f.load b ≤ 2 * b.length + 1 := by
  unfold load
  split <;> omega

theorem le_load (f : Framing) (b : Bytes) : 2 * b.length ≤ f.load b := Nat.le_add_right _ _

/-- **Every read that finds something uses the buffer up.** -/
theorem load_step_lt {ended : Bool} (h : f.step ended b = (frame, f', b'))
    (hframe : frame ≠ .incomplete) : f'.load b' < f.load b := by
  have hshorter : b'.length < b.length → f'.load b' < f.load b := by
    intro hlt
    have hafter := load_le f' b'
    have hbefore := le_load f b
    omega
  have htaken : frame.isTaken = true → b'.length < b.length := by
    intro ht
    have hlt := @length_step_lt f ended b (by rw [h]; exact ht)
    rwa [h] at hlt
  cases frame with
  | incomplete => exact absurd rfl hframe
  | line text => exact hshorter (htaken rfl)
  | notText => exact hshorter (htaken rfl)
  | tooLong =>
      obtain ⟨hskip', hlt⟩ := step_eq_tooLong h
      have hle := length_step_le f ended b
      rw [h] at hle
      by_cases hskip : f.skipping = true
      · exact hshorter (hlt hskip)
      · rw [load, load, if_pos hskip', if_neg hskip]
        dsimp only at hle
        omega

/-! ### Plain lines -/

theorem decode_of_step {ended : Bool} (h : f.step ended b = (frame, f', b')) :
    f.decode ended b = (plainResult frame, f', b') := by
  rw [decode, h]

theorem exists_step_of_decode {ended : Bool} {result : Except LineError (Option String)}
    (h : f.decode ended b = (result, f', b')) :
    ∃ frame, f.step ended b = (frame, f', b') ∧ plainResult frame = result := by
  rcases hs : f.step ended b with ⟨frame, f₁, rest⟩
  rw [decode_of_step hs] at h
  obtain ⟨hresult, hrest⟩ := Prod.mk.inj h
  exact ⟨frame, by rw [hrest], hresult⟩

@[simp] theorem plainResult_eq_ok_none_iff :
    plainResult frame = .ok none ↔ frame = .incomplete := by
  cases frame <;> simp [plainResult]

/-- A plain line has no line feed in it. -/
theorem lineFeed_notMem_of_decode {ended : Bool} {text : String}
    (h : f.decode ended b = (.ok (some text), f', b')) : lineFeed ∉ Text.utf8 text := by
  obtain ⟨frame, hs, hresult⟩ := exists_step_of_decode h
  cases frame with
  | line found =>
      cases hresult
      exact lineFeed_notMem_of_step_line hs
  | notText | tooLong | incomplete => cases hresult

theorem decode_append {result : Except LineError (Option String)}
    (h : f.decode false b = (result, f', b')) (hresult : result ≠ .ok none) (ended : Bool)
    (more : Bytes) : f.decode ended (b ++ more) = (result, f', b' ++ more) := by
  obtain ⟨frame, hs, rfl⟩ := exists_step_of_decode h
  have hframe : frame ≠ .incomplete := fun he => hresult (plainResult_eq_ok_none_iff.2 he)
  exact decode_of_step (step_append hs hframe ended more)

theorem decode_append_of_none (h : f.decode false b = (.ok none, f', b')) (ended : Bool)
    (more : Bytes) : f.decode ended (b ++ more) = f'.decode ended (b' ++ more) := by
  obtain ⟨frame, hs, hresult⟩ := exists_step_of_decode h
  obtain rfl := plainResult_eq_ok_none_iff.1 hresult
  rw [decode, decode, step_append_of_incomplete hs ended more]

theorem decode_idle {ended : Bool} (h : f.decode ended b = (.ok none, f', b')) :
    f'.decode ended b' = (.ok none, f', b') := by
  obtain ⟨frame, hs, hresult⟩ := exists_step_of_decode h
  obtain rfl := plainResult_eq_ok_none_iff.1 hresult
  exact decode_of_step (step_idle hs)

/-- **A frame that has arrived** is the next one of the whole stream, if nothing arrives after its
end. -/
theorem decode_append_of_step {ended finished : Bool} {more : Bytes}
    (h : f.step finished b = (frame, f', b')) (hframe : frame ≠ .incomplete)
    (hmore : finished = true → ended = true ∧ more = []) :
    f.decode ended (b ++ more) = (plainResult frame, f', b' ++ more) := by
  cases finished with
  | false => rw [decode, step_append h hframe ended more]
  | true =>
      obtain ⟨rfl, rfl⟩ := hmore rfl
      rw [decode, List.append_nil, List.append_nil, h]

end LineChat.Framing
