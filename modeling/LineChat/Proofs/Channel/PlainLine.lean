/-
**A plain line on its way.**

A text that is written with a line feed behind it need not arrive as it was: if it is too long, its
reader refuses it, and if it ends with a carriage return, the reader takes that for a part of the
line's end.  Nothing else happens to it.  It does not matter in which pieces it arrives, nor what
arrives behind it.

Main definitions:

* `LineChat.Text.withoutReturn` — a text without the carriage return at its end;
* `LineChat.readBack` — **what a reader makes of a line that was written**;
* `LineChat.Link.firstAnswer` — what a reader that waits is told first.

Main results:

* `LineChat.Framing.decode_frameLine` — **reading what was written**;
* `LineChat.Link.firstAnswer_eq` — the pieces in which a line arrives do not matter;
* `LineChat.Link.firstAnswer_frameLine` — **what a reader that waits for a line is told**.
-/

import LineChat.Proofs.Channel.Link
import LineChat.Proofs.Channel.SessionLine
import LineChat.Proofs.Text.Utf8

set_option autoImplicit false

namespace LineChat

variable {line : String}

/-! ### Carriage returns -/

/-- A text without the carriage return at its end, if it has one there. -/
def Text.withoutReturn (text : String) : String :=
  if text.toList.getLast? = some '\r' then String.ofList text.toList.dropLast else text

theorem Text.withoutReturn_of_ne {text : String} (h : text.toList.getLast? ≠ some '\r') :
    withoutReturn text = text :=
  if_neg h

/-- What stands in front of a text has no part in it, unless it ends with a carriage return. -/
theorem Text.withoutReturn_append {front : String} (h : front.toList.getLast? ≠ some '\r')
    (text : String) : withoutReturn (front ++ text) = front ++ withoutReturn text := by
  rcases List.eq_nil_or_concat text.toList with hnil | ⟨cs, c, hcs⟩
  · obtain rfl : text = "" := String.toList_inj.1 hnil
    rw [String.append_empty, withoutReturn_of_ne h, withoutReturn_of_ne (by simp),
      String.append_empty]
  · have hlast : (front ++ text).toList.getLast? = text.toList.getLast? := by
      simp [hcs]
    rw [withoutReturn, withoutReturn, hlast]
    split
    · rw [← String.toList_inj]
      simp [hcs, ← List.append_assoc]
    · rfl

theorem dropReturn_utf8 (line : String) :
    dropReturn (Text.utf8 line) = Text.utf8 (Text.withoutReturn line) := by
  have hlast : (Text.utf8 line).getLast? = some carriageReturn ↔
      line.toList.getLast? = some '\r' := Text.getLast?_utf8_eq_some_iff (by decide)
  by_cases h : line.toList.getLast? = some '\r'
  · rw [dropReturn, if_pos (hlast.2 h), Text.withoutReturn, if_pos h]
    obtain ⟨cs, hcs⟩ := List.getLast?_eq_some_iff.1 h
    have hreturn : String.utf8EncodeChar '\r' = [carriageReturn] := by decide
    rw [← String.ofList_toList (s := line), Text.utf8_ofList, Text.utf8_ofList,
      String.toList_ofList, hcs, List.flatMap_append, List.flatMap_singleton, hreturn,
      List.dropLast_concat, List.dropLast_concat]
  · rw [dropReturn, if_neg (mt hlast.1 h), Text.withoutReturn_of_ne h]

theorem Frame.ofLine_utf8 (line : String) :
    Frame.ofLine (Text.utf8 line) = .line (Text.withoutReturn line) :=
  Frame.ofLine_of_dropReturn (dropReturn_utf8 line)

/-! ### Reading what was written -/

/-- **What a reader makes of a line that was written.** -/
def readBack (line : String) : Except LineError String :=
  if maxLineLength < (Text.utf8 line).length then .error (.lineTooLong maxLineLength)
  else .ok (Text.withoutReturn line)

theorem frameLine_append (line : String) (more : Bytes) :
    frameLine line ++ more = Text.utf8 line ++ lineFeed :: more := by
  rw [frameLine, List.append_assoc, List.singleton_append]

/-- A single line that is not too long is read, and what is behind it is left. -/
theorem Framing.decode_frameLine_of_le (h : lineFeed ∉ Text.utf8 line)
    (hlen : (Text.utf8 line).length ≤ maxLineLength) (more : Bytes) :
    Framing.decode {} false (frameLine line ++ more) =
      (.ok (some (Text.withoutReturn line)), {}, more) := by
  have hstep := step_line (f := {}) rfl h hlen more
  rw [Frame.ofLine_utf8] at hstep
  rw [frameLine_append]
  exact decode_of_step hstep

/-- **Reading what was written**, if that is a single line. -/
theorem Framing.decode_frameLine (h : lineFeed ∉ Text.utf8 line) (more : Bytes) :
    (Framing.decode {} false (frameLine line ++ more)).1 = (readBack line).map some := by
  rw [readBack]
  rcases Nat.lt_or_ge maxLineLength (Text.utf8 line).length with hlong | hfits
  · rw [if_pos hlong, frameLine_append, decode, step_false, next, if_neg (by simp),
      nextLine_overlong h hlong]
    rfl
  · rw [if_neg (Nat.not_lt.2 hfits), decode_frameLine_of_le h hfits]
    rfl

namespace Link

variable {δ : Type} [LineFormat δ]

/-- **What a reader that waits is told first**, when the bytes arrive in pieces. -/
def firstAnswer (l : Link δ) (c : Connection) : List Bytes → Polled
  | [] => (l.poll c).1
  | piece :: pieces =>
      match l.poll c with
      | (.waiting, l, c) => l.firstAnswer (c.arrive piece) pieces
      | (answer, _) => answer

/-- **The pieces do not matter**: the answer is what all of their bytes together come to. -/
theorem firstAnswer_eq [LawfulFormat δ] {l : Link δ} {c : Connection} (h : l.Ready)
    (hopen : c.finished = false) (pieces : List Bytes) :
    l.firstAnswer c pieces = Polled.ofResult false
      (LineFormat.decode l.format false (l.buffer ++ (c.incoming ++ pieces.flatten))).1 := by
  -- on the pieces: a poll either answers, or leaves the same bytes to be looked at
  induction pieces generalizing l c with
  | nil =>
      rcases hd : LineFormat.decode l.format c.finished (l.buffer ++ c.incoming) with
        ⟨result, format, rest⟩
      obtain ⟨l', incoming, hpoll, -⟩ := poll_of_ready h hd
      rw [firstAnswer, hpoll, List.flatten_nil, List.append_nil, ← hopen, hd]
  | cons piece pieces ih =>
      have hpolls : l.Polls c false (piece :: pieces).flatten (l.poll c) :=
        polls (h.sound c) fun hfinished => by simp [hopen] at hfinished
      rw [firstAnswer]
      generalize l.poll c = polled at hpolls ⊢
      cases hpolls with
      | @found x l' incoming hsound hfound =>
          rw [hfound]
          cases x <;> rfl
      | @nothing polled l' incoming hsound hpolled hnothing hlooks =>
          obtain ⟨hanswer, -, hready⟩ := hlooks (h.looks c)
          have hwaiting : polled = .waiting := by rw [hanswer, hopen]; rfl
          rw [hwaiting, ← hnothing]
          have hrest := ih (c := ({ c with incoming } : Connection).arrive piece)
            (hready hopen) hopen
          rw [List.flatten_cons, ← List.append_assoc incoming]
          exact hrest

/-- **What a reader that waits for a line is told**, whatever arrives behind the line. -/
theorem firstAnswer_frameLine {pieces : List Bytes} {more : Bytes} (h : lineFeed ∉ Text.utf8 line)
    (hpieces : pieces.flatten = frameLine line ++ more) :
    ({ format := {} } : Link Framing).firstAnswer {} pieces =
      Polled.ofResult false ((readBack line).map some) := by
  have hready : ({ format := {} } : Link Framing).Ready := ⟨rfl, rfl, Or.inr rfl⟩
  rw [firstAnswer_eq hready rfl, hpieces]
  exact congrArg (Polled.ofResult false) (Framing.decode_frameLine h more)

end Link

end LineChat
