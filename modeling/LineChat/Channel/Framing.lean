/-
**Lines in a stream of bytes.**

A line ends with a line feed, and one carriage return before it belongs to the end.  A line has at
most 65536 bytes.  A longer one is reported once, before it has ended, and then skipped up to its
end, however many bytes that takes; the bytes skipped so far need not be kept.

A buffer is read from the front, and what is left of it is handed back.  The only state between
two reads is whether an overlong line is being skipped.

Main definitions:

* `LineChat.maxLineLength` — the longest line;
* `LineChat.Framing` — the state between two reads;
* `LineChat.Frame` — what a read finds;
* `LineChat.Framing.next` — **reading from a buffer that may still grow**;
* `LineChat.Framing.nextAtEnd` — **reading from the rest of a stream that ended**;
* `LineChat.frameLine` — a line with its end, as it is written.

Main results:

* `LineChat.Framing.length_step_lt` — **a read that takes a line shortens the buffer**.
-/

import LineChat.Channel.Error
import LineChat.Text.Utf8

set_option autoImplicit false

namespace LineChat

/-- The longest line, in bytes and without its end. -/
def maxLineLength : Nat := 65536

/-- The line feed. -/
def lineFeed : UInt8 := 10

/-- The carriage return. -/
def carriageReturn : UInt8 := 13

/-- A line with its end. -/
def frameLine (line : String) : Bytes := Text.utf8 line ++ [lineFeed]

/-- A line without the carriage return at its end. -/
def dropReturn (line : Bytes) : Bytes :=
  if line.getLast? = some carriageReturn then line.dropLast else line

/-- **What a read finds at the front of a buffer.** -/
inductive Frame where
  /-- A line, which was taken. -/
  | line (text : String)
  /-- A line that is not UTF-8, which was taken. -/
  | notText
  /-- The beginning of an overlong line, of which nothing was taken yet. -/
  | tooLong
  /-- No line yet. -/
  | incomplete
  deriving DecidableEq, Repr

/-- A taken line as text. -/
def Frame.ofLine (line : Bytes) : Frame :=
  match Text.ofUtf8 (dropReturn line) with
  | .ok text => .line text
  | .error _ => .notText

/-- Whether a line was taken. -/
def Frame.isTaken : Frame → Bool
  | line _ | notText => true
  | tooLong | incomplete => false

/-- **The state between two reads**: whether an overlong line is being skipped. -/
structure Framing where
  skipping : Bool := false
  deriving DecidableEq, Repr

namespace Framing

/-- The bytes in front of the first line feed, or all of them. -/
def untilFeed (buffer : Bytes) : Bytes := buffer.takeWhile (· != lineFeed)

/-- The bytes behind the first line feed, if there is one. -/
def afterFeed? (buffer : Bytes) : Option Bytes :=
  match buffer.dropWhile (· != lineFeed) with
  | [] => none
  | _ :: rest => some rest

/-- Reads a line when none is being skipped. -/
def nextLine (buffer : Bytes) : Frame × Framing × Bytes :=
  if maxLineLength < (untilFeed buffer).length then (.tooLong, ⟨true⟩, buffer)
  else match afterFeed? buffer with
    | none => (.incomplete, ⟨false⟩, buffer)
    | some rest => (Frame.ofLine (untilFeed buffer), ⟨false⟩, rest)

/-- **Reads from a buffer that may still grow.** -/
def next (f : Framing) (buffer : Bytes) : Frame × Framing × Bytes :=
  if f.skipping then
    match afterFeed? buffer with
    | none => (.incomplete, ⟨true⟩, [])
    | some rest => nextLine rest
  else nextLine buffer

/-- Takes what is left at the end of a stream. -/
def lastLine (f : Framing) (rest : Bytes) : Frame × Framing × Bytes :=
  if rest = [] ∨ rest = [carriageReturn] then (.incomplete, f, rest)
  else (Frame.ofLine rest, f, [])

/-- **Reads from the rest of a stream that ended**: an unfinished line counts, unless it is a
carriage return that waits for its line feed. -/
def nextAtEnd (f : Framing) (buffer : Bytes) : Frame × Framing × Bytes :=
  match f.next buffer with
  | (.incomplete, f, rest) => f.lastLine rest
  | found => found

/-- Reads from a buffer that may still grow, or from the rest of a stream. -/
def step (f : Framing) (ended : Bool) (buffer : Bytes) : Frame × Framing × Bytes :=
  if ended then f.nextAtEnd buffer else f.next buffer

/-! ### Reading takes bytes -/

theorem eq_of_afterFeed? {buffer rest : Bytes} (h : afterFeed? buffer = some rest) :
    buffer = untilFeed buffer ++ lineFeed :: rest := by
  induction buffer with
  | nil => simp [afterFeed?] at h
  | cons b bs ih =>
      by_cases hb : b = lineFeed
      · subst hb
        simp [afterFeed?] at h
        simp [untilFeed, h]
      · have hb' : (b != lineFeed) = true := by simpa using hb
        have h' : afterFeed? bs = some rest := by
          unfold afterFeed? at h ⊢
          simpa [List.dropWhile_cons, hb] using h
        have hu : untilFeed (b :: bs) = b :: untilFeed bs := by
          simp [untilFeed, hb]
        rw [hu, List.cons_append, ← ih h']

theorem length_afterFeed?_lt {buffer rest : Bytes} (h : afterFeed? buffer = some rest) :
    rest.length < buffer.length := by
  have he := congrArg List.length (eq_of_afterFeed? h)
  simp only [List.length_append, List.length_cons] at he
  omega

@[simp] theorem isTaken_tooLong : Frame.tooLong.isTaken = false := rfl

@[simp] theorem isTaken_incomplete : Frame.incomplete.isTaken = false := rfl

theorem length_nextLine_lt {buffer : Bytes} (h : (nextLine buffer).1.isTaken = true) :
    (nextLine buffer).2.2.length < buffer.length := by
  unfold nextLine at h ⊢
  by_cases hl : maxLineLength < (untilFeed buffer).length
  · simp [hl] at h
  · simp only [hl, if_false] at h ⊢
    cases ha : afterFeed? buffer with
    | none => simp [ha] at h
    | some rest => simpa using length_afterFeed?_lt ha

theorem length_nextLine_le (buffer : Bytes) : (nextLine buffer).2.2.length ≤ buffer.length := by
  unfold nextLine
  by_cases hl : maxLineLength < (untilFeed buffer).length
  · simp [hl]
  · simp only [hl, if_false]
    cases ha : afterFeed? buffer with
    | none => simp
    | some rest => simpa using Nat.le_of_lt (length_afterFeed?_lt ha)

theorem length_next_lt {f : Framing} {buffer : Bytes} (h : (f.next buffer).1.isTaken = true) :
    (f.next buffer).2.2.length < buffer.length := by
  unfold next at h ⊢
  by_cases hs : f.skipping = true
  · simp only [hs, if_true] at h ⊢
    cases ha : afterFeed? buffer with
    | none => simp [ha] at h
    | some rest =>
        simp only [ha] at h ⊢
        exact Nat.lt_trans (length_nextLine_lt h) (length_afterFeed?_lt ha)
  · simp only [hs] at h ⊢
    exact length_nextLine_lt h

theorem length_next_le (f : Framing) (buffer : Bytes) :
    (f.next buffer).2.2.length ≤ buffer.length := by
  unfold next
  by_cases hs : f.skipping = true
  · simp only [hs, if_true]
    cases ha : afterFeed? buffer with
    | none => simp
    | some rest =>
        exact Nat.le_trans (length_nextLine_le rest) (Nat.le_of_lt (length_afterFeed?_lt ha))
  · simp only [hs]
    exact length_nextLine_le buffer

theorem length_lastLine_lt {f : Framing} {rest : Bytes}
    (h : (f.lastLine rest).1.isTaken = true) : (f.lastLine rest).2.2.length < rest.length := by
  unfold lastLine at h ⊢
  by_cases hr : rest = [] ∨ rest = [carriageReturn]
  · simp [hr] at h
  · simp only [hr, if_false]
    exact List.length_pos_iff.2 fun he => hr (.inl he)

theorem length_nextAtEnd_lt {f : Framing} {buffer : Bytes}
    (h : (f.nextAtEnd buffer).1.isTaken = true) :
    (f.nextAtEnd buffer).2.2.length < buffer.length := by
  have hlt := @length_next_lt f buffer
  have hle := length_next_le f buffer
  unfold nextAtEnd at h ⊢
  rcases hn : f.next buffer with ⟨frame, f', rest⟩
  rw [hn] at hle hlt
  simp only [hn] at h ⊢
  cases frame with
  | incomplete => exact Nat.lt_of_lt_of_le (length_lastLine_lt h) hle
  | line text => exact hlt rfl
  | notText => exact hlt rfl
  | tooLong => simp at h

/-- **A read that takes a line shortens the buffer.** -/
theorem length_step_lt {f : Framing} {ended : Bool} {buffer : Bytes}
    (h : (f.step ended buffer).1.isTaken = true) :
    (f.step ended buffer).2.2.length < buffer.length := by
  cases ended with
  | false => exact length_next_lt h
  | true => exact length_nextAtEnd_lt h

/-! ### Plain lines -/

/-- What the reader of plain lines is told: a line, an error, or nothing yet. -/
def plainResult : Frame → Except LineError (Option String)
  | .line text => .ok (some text)
  | .notText => .error (.ofIo ⟨.invalidData, "Unable to decode input as UTF8"⟩)
  | .tooLong => .error (.lineTooLong maxLineLength)
  | .incomplete => .ok none

/-- **Reads one plain line.** -/
def decode (f : Framing) (ended : Bool) (buffer : Bytes) :
    Except LineError (Option String) × Framing × Bytes :=
  match f.step ended buffer with
  | (frame, f, rest) => (plainResult frame, f, rest)

end Framing

end LineChat
