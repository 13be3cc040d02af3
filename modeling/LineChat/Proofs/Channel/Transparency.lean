/-
**The encrypted channel is transparent.**

The two sides of a session write and read lines at any time, and the bytes of either direction move
through a pipe that keeps their order, any number at a time.  What one side has read is then always
the beginning of what the other side has written.  A line that is refused must leave no trace: the
ciphers of the two sides agree on the number of the next line only because nothing else is counted.

For each direction the invariant says what is in the pipe: the lines that were written and not read
yet, under the numbers that follow those of the lines that were read.

Main definitions:

* `LineChat.frames` — some lines of a direction as bytes;
* `LineChat.Pipe` — **the invariant of one direction**;
* `LineChat.Tunnel`, `LineChat.Tunnel.step` — two sides with what they wrote and read, and what can
  happen to them.

Main results:

* `LineChat.Pipe.write`, `LineChat.Pipe.decode` — writing and reading keep the invariant;
* `LineChat.Tunnel.inv_step`, `LineChat.Tunnel.inv_run` — so does every step and every run;
* `LineChat.Tunnel.transparent_run` — **every run is transparent**.
-/

import LineChat.Channel.Endpoint
import LineChat.Proofs.Channel.LineCodec
import LineChat.Proofs.Channel.SessionLine
import Mathlib.Logic.Function.Basic

set_option autoImplicit false

namespace LineChat

open SessionCipher (counted peerOf)

/-! ### One direction -/

/-- **Some lines of a direction as bytes**, the first of them with the number `n`. -/
def frames (session : SessionKey) (mode : KeystreamMode) (sender : Role) : Nat → List String → Bytes
  | _, [] => []
  | n, text :: texts =>
      frameLine (sealLine session mode sender n text) ++ frames session mode sender (n + 1) texts

theorem frames_append (session : SessionKey) (mode : KeystreamMode) (sender : Role) (n : Nat)
    (texts : List String) (text : String) :
    frames session mode sender n (texts ++ [text]) =
      frames session mode sender n texts ++
        frameLine (sealLine session mode sender (n + texts.length) text) := by
  induction texts generalizing n with
  | nil => simp [frames]
  | cons first texts ih =>
      rw [List.cons_append, frames, frames, ih, List.length_cons, List.append_assoc]
      congr 4
      omega

/-- **The invariant of one direction**, over the lines that were written, those that were read and
the bytes on the way. -/
structure Pipe (session : SessionKey) (mode : KeystreamMode) (maxLines : UInt64) (sender : Role)
    (sent received : List String) (bytes : Bytes) : Prop where
  /-- What was written and not read yet is on the way, under the numbers that follow. -/
  on_the_way : ∃ pending, sent = received ++ pending ∧
    bytes = frames session mode sender received.length pending
  /-- No more was written than the key may protect. -/
  length_le : sent.length ≤ maxLines.toNat
  /-- No line is too long on the wire. -/
  short : ∀ text ∈ sent, Base64.encodedLength (Text.utf8 text).length ≤ maxLineLength

namespace Pipe

variable {session : SessionKey} {mode : KeystreamMode} {maxLines : UInt64} {sender : Role}
  {sent received : List String} {bytes : Bytes}

theorem start : Pipe session mode maxLines sender [] [] [] :=
  ⟨⟨[], rfl, rfl⟩, Nat.zero_le _, by simp⟩

/-- **Writing a line** puts it on the way behind the others. -/
theorem write (h : Pipe session mode maxLines sender sent received bytes) {text : String}
    (hlt : sent.length < maxLines.toNat)
    (hshort : Base64.encodedLength (Text.utf8 text).length ≤ maxLineLength) :
    Pipe session mode maxLines sender (sent ++ [text]) received
      (bytes ++ frameLine (sealLine session mode sender sent.length text)) := by
  obtain ⟨⟨pending, rfl, rfl⟩, -, hall⟩ := h
  refine ⟨⟨pending ++ [text], List.append_assoc .., ?_⟩, ?_, ?_⟩
  · rw [frames_append, List.length_append]
  · rw [List.length_append]
    exact hlt
  · intro t ht
    rcases List.mem_append.1 ht with ht | ht
    · exact hall t ht
    · rw [List.mem_singleton.1 ht]
      exact hshort

/-- **Reading** finds the next line that was written, or nothing while it is on the way; what has
not arrived yet makes no difference. -/
theorem decode {b u : Bytes} (h : Pipe session mode maxLines sender sent received (b ++ u))
    {c : LineCodec SessionCipher} {m : Nat} (hf : c.framing = ⟨false⟩)
    (hc : c.cipher = counted session (peerOf sender) mode maxLines m received.length) :
    (c.decode false b = (.ok none, c, b) ∧ (u = [] → received = sent)) ∨
      ∃ text b', sent[received.length]? = some text ∧
        c.decode false b = (.ok (some text),
          { c with
            cipher := counted session (peerOf sender) mode maxLines m (received.length + 1) },
          b') ∧
        Pipe session mode maxLines sender sent (received ++ [text]) (b' ++ u) := by
  obtain ⟨⟨pending, rfl, hbytes⟩, hle, hall⟩ := h
  cases pending with
  | nil =>
      obtain ⟨rfl, rfl⟩ := List.append_eq_nil_iff.1 hbytes
      refine Or.inl ⟨?_, fun _ => (List.append_nil _).symm⟩
      exact LineCodec.decode_of_notMem hf List.not_mem_nil (Nat.zero_le _)
  | cons text pending =>
      have hfeed := lineFeed_notMem_sealLine session mode sender received.length text
      have hshort : (Text.utf8 (sealLine session mode sender received.length text)).length ≤
          maxLineLength := by
        rw [length_sealLine]
        exact hall text (List.mem_append_right _ (List.mem_cons_self ..))
      have hlt : received.length < maxLines.toNat := by
        simp only [List.length_append, List.length_cons] at hle
        omega
      rw [frames, frameLine, List.append_assoc, List.singleton_append] at hbytes
      -- the oldest line on the way has arrived with its line feed, or only a part of it has
      rcases Framing.append_eq_line hbytes with ⟨b', rfl, hrest⟩ | ⟨tail, hline, htail⟩
      · have ha := LineCodec.accept_sealLine hc hlt text
        refine Or.inr ⟨text, b', by simp, ?_, ⟨⟨pending, by simp, ?_⟩, hle, hall⟩⟩
        · exact LineCodec.decode_line (r := .ok text) hf hfeed hshort ha b'
        · rw [List.length_append]
          exact hrest
      · refine Or.inl ⟨LineCodec.decode_of_notMem hf ?_ ?_, ?_⟩
        · intro hb
          rw [hline] at hfeed
          exact hfeed (List.mem_append_left _ hb)
        · rw [hline, List.length_append] at hshort
          omega
        · intro hu
          rw [htail] at hu
          simp at hu

end Pipe

/-! ### Both directions -/

theorem peerOf_ne (role : Role) : peerOf role ≠ role := by cases role <;> decide

theorem eq_peerOf_of_ne {a b : Role} (h : a ≠ b) : a = peerOf b := by
  cases a <;> cases b <;> first | rfl | exact absurd rfl h

/-- **The two sides of a session**, with what they wrote and read so far. -/
structure Tunnel where
  ends : Role → Endpoint (LineCodec SessionCipher)
  /-- The lines that a side wrote. -/
  sent : Role → List String := fun _ => []
  /-- The lines that a side read. -/
  received : Role → List String := fun _ => []
  /-- The errors that a side was told when it read. -/
  errors : Role → List LineError := fun _ => []

namespace Tunnel

/-- What can happen to the two sides. -/
inductive Event where
  /-- A side writes a line. -/
  | write (role : Role) (line : String)
  /-- The next bytes that a side wrote arrive at the other one. -/
  | carry (sender : Role) (count : Nat)
  /-- A side reads a line, if one has arrived. -/
  | read (role : Role)

/-- The two sides of a fresh session. -/
def start (session : SessionKey) (mode : KeystreamMode) (maxLines : UInt64)
    (policy : Role → BrokenPolicy) : Tunnel where
  ends role :=
    { format :=
        { cipher := SessionCipher.start session role mode maxLines, policy := policy role } }

/-- **What an event does.** -/
def step (t : Tunnel) : Event → Tunnel
  | .write role line =>
      match (t.ends role).write line with
      | (.ok _, e) =>
          { t with
            ends := Function.update t.ends role e
            sent := Function.update t.sent role (t.sent role ++ [line]) }
      | (.error _, e) => { t with ends := Function.update t.ends role e }
  | .carry sender count =>
      let (bytes, e) := (t.ends sender).drain count
      let peer := peerOf sender
      { t with
        ends := Function.update (Function.update t.ends sender e) peer ((t.ends peer).feed bytes) }
  | .read role =>
      match (t.ends role).read false with
      | (.ok none, e) => { t with ends := Function.update t.ends role e }
      | (.ok (some line), e) =>
          { t with
            ends := Function.update t.ends role e
            received := Function.update t.received role (t.received role ++ [line]) }
      | (.error err, e) =>
          { t with
            ends := Function.update t.ends role e
            errors := Function.update t.errors role (t.errors role ++ [err]) }

/-- A run of events. -/
def run (t : Tunnel) (events : List Event) : Tunnel := events.foldl step t

/-- The codec of a side that wrote and read some lines and nothing else. -/
def codec (session : SessionKey) (mode : KeystreamMode) (maxLines : UInt64)
    (policy : Role → BrokenPolicy) (role : Role) (sent received : Nat) : LineCodec SessionCipher :=
  { cipher := counted session role mode maxLines sent received, policy := policy role }

/-- **The invariant of both directions**: each side's codec has counted the lines that it wrote and
read and nothing else, and each direction has its lines on the way. -/
structure Inv (t : Tunnel) (session : SessionKey) (mode : KeystreamMode) (maxLines : UInt64)
    (policy : Role → BrokenPolicy) : Prop where
  format_eq : ∀ role, (t.ends role).format =
    codec session mode maxLines policy role (t.sent role).length (t.received role).length
  pipe : ∀ sender, Pipe session mode maxLines sender (t.sent sender) (t.received (peerOf sender))
    ((t.ends (peerOf sender)).input ++ (t.ends sender).output)
  no_errors : ∀ role, t.errors role = []

variable {session : SessionKey} {mode : KeystreamMode} {maxLines : UInt64}
  {policy : Role → BrokenPolicy} {t : Tunnel}

theorem inv_start : (start session mode maxLines policy).Inv session mode maxLines policy :=
  ⟨fun _ => rfl, fun _ => Pipe.start, fun _ => rfl⟩

/-- What writing does to a side: nothing, or one line more behind its output. -/
theorem Inv.write_eq (h : t.Inv session mode maxLines policy) (role : Role) (line : String) :
    (∃ e, (t.ends role).write line = (.error e, t.ends role)) ∨
      ((t.sent role).length < maxLines.toNat ∧
        Base64.encodedLength (Text.utf8 line).length ≤ maxLineLength ∧
        ∃ bytes, bytes = frameLine (sealLine session mode role (t.sent role).length line) ∧
          (t.ends role).write line = (.ok bytes,
            { t.ends role with
              format := codec session mode maxLines policy role ((t.sent role).length + 1)
                (t.received role).length
              output := (t.ends role).output ++ bytes })) := by
  have hcipher := congrArg LineCodec.cipher (h.format_eq role)
  rcases LineCodec.encode_counted hcipher line with ⟨e, hencode⟩ | ⟨hlt, hshort, hencode⟩
  · exact Or.inl ⟨e, by simp only [Endpoint.write, LineFormat.encode, hencode]⟩
  · refine Or.inr ⟨hlt, hshort, _, rfl, ?_⟩
    simp only [Endpoint.write, LineFormat.encode, hencode]
    rw [h.format_eq role]
    rfl

/-- What reading does to a side: it takes the next line from the input, or nothing while none has
arrived. -/
theorem Inv.read_eq (h : t.Inv session mode maxLines policy) (sender : Role) :
    ((t.ends (peerOf sender)).read false = (.ok none, t.ends (peerOf sender)) ∧
        ((t.ends sender).output = [] → t.received (peerOf sender) = t.sent sender)) ∨
      ∃ line input, (t.sent sender)[(t.received (peerOf sender)).length]? = some line ∧
        (t.ends (peerOf sender)).read false = (.ok (some line),
          { t.ends (peerOf sender) with
            format := codec session mode maxLines policy (peerOf sender)
              (t.sent (peerOf sender)).length ((t.received (peerOf sender)).length + 1)
            input := input }) ∧
        Pipe session mode maxLines sender (t.sent sender) (t.received (peerOf sender) ++ [line])
          (input ++ (t.ends sender).output) := by
  have hformat := h.format_eq (peerOf sender)
  rcases (h.pipe sender).decode (congrArg LineCodec.framing hformat)
    (congrArg LineCodec.cipher hformat) with ⟨hdecode, hall⟩ | ⟨line, input, hline, hdecode, hpipe⟩
  · exact Or.inl ⟨by simp only [Endpoint.read, LineFormat.decode, hdecode], hall⟩
  · refine Or.inr ⟨line, input, hline, ?_, hpipe⟩
    simp only [Endpoint.read, LineFormat.decode, hdecode]
    rw [hformat]
    rfl

theorem inv_write (h : t.Inv session mode maxLines policy) (role : Role) (line : String) :
    (t.step (.write role line)).Inv session mode maxLines policy := by
  rcases h.write_eq role line with ⟨e, hwrite⟩ | ⟨hlt, hshort, bytes, hbytes, hwrite⟩
  · have hstep : t.step (.write role line) = t := by
      simp only [step, hwrite, Function.update_eq_self]
    rw [hstep]
    exact h
  · simp only [step, hwrite]
    refine ⟨fun r => ?_, fun sender => ?_, h.no_errors⟩
    · by_cases hr : r = role
      · subst hr
        simp [Function.update_self]
      · simp [Function.update_of_ne hr, h.format_eq r]
    · have hpipe := h.pipe sender
      -- the new bytes are output of the writer, and input of nobody yet
      by_cases hs : sender = role
      · subst hs
        have hpeer := peerOf_ne sender
        have hwritten := hpipe.write hlt hshort
        rw [← hbytes, List.append_assoc] at hwritten
        simpa [Function.update_of_ne hpeer] using hwritten
      · obtain rfl := eq_peerOf_of_ne hs
        simpa [Function.update_of_ne hs] using hpipe

theorem inv_carry (h : t.Inv session mode maxLines policy) (sender : Role) (count : Nat) :
    (t.step (.carry sender count)).Inv session mode maxLines policy := by
  have hpeer := peerOf_ne sender
  simp only [step, Endpoint.drain, Endpoint.feed]
  refine ⟨fun r => ?_, fun s => ?_, h.no_errors⟩
  · have hformat := h.format_eq r
    by_cases hr : r = sender
    · subst hr
      simpa [Function.update_of_ne hpeer.symm] using hformat
    · obtain rfl := eq_peerOf_of_ne hr
      simpa using hformat
  · have hpipe := h.pipe s
    -- the bytes go from an output to the input behind it, so their order is the same
    by_cases hs : s = sender
    · subst hs
      simpa [Function.update_of_ne hpeer.symm] using hpipe
    · obtain rfl := eq_peerOf_of_ne hs
      simpa [Function.update_of_ne hpeer.symm] using hpipe

theorem inv_read (h : t.Inv session mode maxLines policy) (role : Role) :
    (t.step (.read role)).Inv session mode maxLines policy := by
  obtain ⟨sender, rfl⟩ : ∃ sender, role = peerOf sender := ⟨peerOf role, by simp⟩
  have hpeer := peerOf_ne sender
  rcases h.read_eq sender with ⟨hread, -⟩ | ⟨line, input, -, hread, hpipe⟩
  · have hstep : t.step (.read (peerOf sender)) = t := by
      simp only [step, hread, Function.update_eq_self]
    rw [hstep]
    exact h
  · simp only [step, hread]
    refine ⟨fun r => ?_, fun s => ?_, h.no_errors⟩
    · by_cases hr : r = peerOf sender
      · subst hr
        simp [Function.update_self]
      · simp [Function.update_of_ne hr, h.format_eq r]
    · by_cases hs : s = sender
      · subst hs
        simpa [Function.update_of_ne hpeer.symm] using hpipe
      · obtain rfl := eq_peerOf_of_ne hs
        simpa [Function.update_of_ne hpeer.symm] using h.pipe (peerOf sender)

/-- **Every event keeps the invariant.** -/
theorem inv_step (h : t.Inv session mode maxLines policy) (event : Event) :
    (t.step event).Inv session mode maxLines policy := by
  cases event with
  | write role line => exact inv_write h role line
  | carry sender count => exact inv_carry h sender count
  | read role => exact inv_read h role

/-- **Every run keeps the invariant.** -/
theorem inv_run (h : t.Inv session mode maxLines policy) (events : List Event) :
    (t.run events).Inv session mode maxLines policy := by
  induction events generalizing t with
  | nil => exact h
  | cons event events ih => exact ih (inv_step h event)

/-! ### Transparency -/

/-- **One direction is transparent.** -/
structure Transparent (t : Tunnel) (sender : Role) : Prop where
  /-- What was read is the beginning of what was written. -/
  in_order : t.received (peerOf sender) <+: t.sent sender
  /-- No read has told an error. -/
  no_errors : t.errors (peerOf sender) = []
  /-- No line was skipped. -/
  none_dropped : (t.ends (peerOf sender)).format.dropped = 0
  /-- When all bytes have arrived, a read finds the next line that was written, if there is one. -/
  next_read : (t.ends sender).output = [] →
    ((t.ends (peerOf sender)).read false).1 =
      .ok (t.sent sender)[(t.received (peerOf sender)).length]?
  /-- When all bytes have arrived and a read finds nothing, everything was read. -/
  complete : (t.ends sender).output = [] →
    ((t.ends (peerOf sender)).read false).1 = .ok none → t.received (peerOf sender) = t.sent sender

theorem Inv.transparent (h : t.Inv session mode maxLines policy) (sender : Role) :
    t.Transparent sender := by
  obtain ⟨pending, hsent, -⟩ := (h.pipe sender).on_the_way
  refine ⟨⟨pending, hsent.symm⟩, h.no_errors _, ?_, ?_, ?_⟩
  · rw [h.format_eq]
    rfl
  · intro hout
    rcases h.read_eq sender with ⟨hread, hall⟩ | ⟨line, input, hline, hread, -⟩
    · rw [hread, hall hout, List.getElem?_eq_none (Nat.le_refl _)]
    · rw [hread, hline]
  · intro hout hnone
    rcases h.read_eq sender with ⟨-, hall⟩ | ⟨line, input, -, hread, -⟩
    · exact hall hout
    · rw [hread] at hnone
      cases hnone

/-- **Every run is transparent** in both directions, whatever the two sides write, whenever they
read, and however the bytes are cut on the way. -/
theorem transparent_run (session : SessionKey) (mode : KeystreamMode) (maxLines : UInt64)
    (policy : Role → BrokenPolicy) (events : List Event) (sender : Role) :
    ((start session mode maxLines policy).run events).Transparent sender :=
  (inv_run inv_start events).transparent sender

end Tunnel

end LineChat
