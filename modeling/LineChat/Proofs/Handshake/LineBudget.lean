/-
**How many lines a handshake leaves.**

A key protects a limited number of lines in each direction.  The last message of a handshake is a
line of the session, so when the handshake has succeeded the client has written one line already
and the server has written none.  From then on each line that could be written counts, until the
limit is reached: neither what is read meanwhile, nor lines that are refused for other reasons, make
a difference, and a line that gets lost since writing fails has been counted as well.

Main definitions:

* `LineChat.Party.Use`, `LineChat.Party.useAll` — what the owner of a channel does with it;
* `LineChat.Party.Spent` — how many lines of its key a party has spent;
* `LineChat.Party.Spends` — **what becomes of the lines** that the owner sends;
* `LineChat.Side.budget` — how many lines a side can still send after its handshake.

Main results:

* `LineChat.Party.Spent.use`, `LineChat.Party.Spent.foldl_use` — what one use spends, and any uses;
* `LineChat.Party.spent_run` — what a handshake has spent when it has succeeded;
* `LineChat.Party.counts_and_budget` — **the counts of a cipher, and what a handshake leaves**.
-/

import LineChat.Proofs.Channel.LineCounts
import LineChat.Proofs.Handshake.Agreement

set_option autoImplicit false

namespace LineChat

open SessionCipher (counted)

/-! ### Lines that fit -/

/-- **A line that a session can carry**: it is a single line and not too long. -/
def LineCodec.fits (line : String) : Bool :=
  !hasLineEnd line && decide (Base64.encodedLength (Text.utf8 line).length ≤ maxLineLength)

theorem LineCodec.fits_iff {line : String} : LineCodec.fits line = true ↔
    hasLineEnd line = false ∧
      Base64.encodedLength (Text.utf8 line).length ≤ maxLineLength := by
  simp [LineCodec.fits]

namespace Link

variable {l : SecureLink} {c : Connection} {session : SessionKey} {role : Role}
  {mode : KeystreamMode} {maxLines : UInt64} {sent : Nat} {line : String}

theorem ofIo_ne_keystreamExhausted (failure : IoError) (limit : Nat) :
    LineError.ofIo failure ≠ .keystreamExhausted limit := by
  unfold LineError.ofIo
  split <;> simp

/-- A line that does not fit is refused, and changes nothing. -/
theorem send_of_not_fits (h : LineCodec.fits line = false) :
    ∃ e, l.send line c = (.error e, l, c) ∧ ∀ limit, e ≠ .keystreamExhausted limit := by
  cases hend : LineCodec.hasLineEnd line with
  | true =>
      refine ⟨.invalidArgument "line contains a line terminator", ?_, by simp⟩
      simp only [send, LineFormat.encode, LineCodec.encode_of_hasLineEnd hend]
  | false =>
      have hlong : LineCodec.isTooLong l.format.cipher line = true := by
        rw [← Bool.not_eq_false, LineCodec.isTooLong_eq_false_iff]
        simpa [LineCodec.fits, hend] using h
      refine ⟨.lineTooLong maxLineLength, ?_, by simp⟩
      simp only [send, LineFormat.encode, LineCodec.encode_of_isTooLong hend hlong]

/-- At the limit a line that fits is refused, and changes nothing. -/
theorem send_of_le (hfits : LineCodec.fits line = true)
    (h : l.format.cipher.writing = counted session role mode maxLines sent 0)
    (hle : maxLines.toNat ≤ sent) :
    l.send line c = (.error (.keystreamExhausted maxLines.toNat), l, c) := by
  have hcipher := SessionCipher.eq_counted_of_writing h
  obtain ⟨hend, hshort⟩ := LineCodec.fits_iff.1 hfits
  have hencode := LineCodec.encode_of_le (c := l.format) hend hshort (by rw [hcipher]; exact hle)
  rw [hcipher] at hencode
  simp only [send, LineFormat.encode, hencode]
  rfl

/-- **Below the limit a line that fits is counted**, and sent unless writing fails. -/
theorem send_of_lt (hfits : LineCodec.fits line = true)
    (h : l.format.cipher.writing = counted session role mode maxLines sent 0)
    (hlt : sent < maxLines.toNat) :
    ∃ result l' bytes,
      l.send line c = (result, l', { c with outgoing := c.outgoing ++ bytes }) ∧
        l'.format.cipher.writing = counted session role mode maxLines (sent + 1) 0 ∧
        (c.breach = none → result = .ok ()) ∧
        ∀ limit, result ≠ .error (.keystreamExhausted limit) := by
  have hcipher := SessionCipher.eq_counted_of_writing h
  obtain ⟨hend, hshort⟩ := LineCodec.fits_iff.1 hfits
  have hencode := LineCodec.encode_counted_of_fits hcipher hend hshort hlt
  have hsome : frameLine (sealLine session mode role sent line) ≠ [] := by simp [frameLine]
  cases hbreach : c.breach with
  | none =>
      refine ⟨.ok (), { l with format := (l.format.encode line).2 },
        frameLine (sealLine session mode role sent line), ?_, ?_, fun _ => rfl, by simp⟩
      · simp only [send, LineFormat.encode, hencode, Connection.write, if_neg hsome, hbreach]
      · rw [hencode]
        rfl
  | some b =>
      refine ⟨.error (.ofIo b.failure), { l with format := (l.format.encode line).2 },
        (frameLine (sealLine session mode role sent line)).take b.through, ?_, ?_,
        fun hopen => ?_, ?_⟩
      · simp only [send, LineFormat.encode, hencode, Connection.write, if_neg hsome, hbreach]
      · rw [hencode]
        rfl
      · cases hopen
      · intro limit heq
        exact ofIo_ne_keystreamExhausted b.failure limit (Except.error.inj heq)

end Link

namespace Party

/-! ### Using a channel -/

/-- **What the owner of a channel does with it**, and what happens to it meanwhile. -/
inductive Use where
  | move (m : Move)
  /-- The owner asks for the next line. -/
  | next
  /-- The owner sends a line. -/
  | send (line : String)

/-- Whether a use takes one of the lines that the key protects, if there is one left. -/
def Use.spends : Use → Bool
  | send line => LineCodec.fits line
  | _ => false

/-- A party after a use, and what became of the lines that its owner has sent. -/
def use (s : Party × List (Except LineError Unit)) : Use → Party × List (Except LineError Unit)
  | .move m => (s.1.move m, s.2)
  | .next =>
      match s.1.next with
      | none => s
      | some (_, p) => (p, s.2)
  | .send line =>
      match s.1.send line with
      | none => s
      | some (result, p) => (p, s.2 ++ [result])

/-- **A channel in use**, with what becomes of the lines. -/
def useAll (p : Party) (uses : List Use) : Party × List (Except LineError Unit) :=
  uses.foldl use (p, [])

/-- The number of lines that were sent. -/
def sentCount (log : List (Except LineError Unit)) : Nat := log.countP (·.isOk)

/-- **A party that has spent some lines** of its key. -/
def Spent (p : Party) (maxLines : UInt64) (sent : Nat) : Prop :=
  ∃ result session role mode, p.outcome? = some (.ok result) ∧
    result.channel.format.cipher.writing = counted session role mode maxLines sent 0

variable {p : Party} {maxLines : UInt64} {sent : Nat} {log : List (Except LineError Unit)}

theorem outcome?_setEstablished (side : Side) (result : Established) :
    (side.setEstablished result).outcome? = some (.ok result) := by
  cases side <;> rfl

/-- What happens to a party does not spend lines. -/
theorem Spent.move (h : p.Spent maxLines sent) (m : Move) : (p.move m).Spent maxLines sent := by
  obtain ⟨result, session, role, mode, houtcome, hwriting⟩ := h
  have hsame : (p.move m).outcome? = p.outcome? := by
    cases m with
    | arrive bytes =>
        rw [Party.move]
        split <;> rfl
    | finish | fail => rfl
    | work => exact congrArg outcome? (work_of_outcome houtcome)
  exact ⟨result, session, role, mode, hsame.trans houtcome, hwriting⟩

theorem breach_move (hwork : p.work = p) {m : Move} (hm : ∀ breach, m ≠ .fail breach) :
    (p.move m).wire.breach = p.wire.breach := by
  cases m with
  | arrive bytes =>
      rw [Party.move]
      split <;> rfl
  | finish => rfl
  | fail breach => exact absurd rfl (hm breach)
  | work => exact congrArg (·.wire.breach) hwork

/-- Nor does asking for lines. -/
theorem Spent.next (h : p.Spent maxLines sent) :
    ∃ polled q, p.next = some (polled, q) ∧ q.Spent maxLines sent ∧
      q.wire.breach = p.wire.breach := by
  obtain ⟨result, session, role, mode, houtcome, hwriting⟩ := h
  have hbreach := (Link.poll_keeps (P := fun _ => True) (fun _ _ _ _ => trivial)
    (l := result.channel) trivial p.wire).2
  have hpolled := result.channel.writing_poll p.wire
  rcases hpoll : result.channel.poll p.wire with ⟨polled, l', c'⟩
  rw [hpoll] at hbreach hpolled
  refine ⟨polled,
    { p with side := p.side.setEstablished { result with channel := l' }, wire := c' }, ?_,
    ⟨_, session, role, mode, outcome?_setEstablished p.side _, hpolled.trans hwriting⟩, hbreach⟩
  simp only [Party.next, houtcome, Option.map_some, hpoll]

theorem send_of_outcome {result : Established} {line : String} {r : Except LineError Unit}
    {l' : SecureLink} {c' : Connection} (houtcome : p.outcome? = some (.ok result))
    (h : result.channel.send line p.wire = (r, l', c')) :
    p.send line = some (r,
      { p with side := p.side.setEstablished { result with channel := l' }, wire := c' }) := by
  simp only [Party.send, houtcome, Option.map_some, h]

/-- **What becomes of a line.**  It spends one of those that are left, if it fits and there is one,
whether writing succeeds or fails. -/
theorem Spent.send (h : p.Spent maxLines sent) (line : String) :
    ∃ result q, p.send line = some (result, q) ∧ q.wire.breach = p.wire.breach ∧
      if LineCodec.fits line = true ∧ sent < maxLines.toNat then
        q.Spent maxLines (sent + 1) ∧ (p.wire.breach = none → result = .ok ()) ∧
          ∀ limit, result ≠ .error (.keystreamExhausted limit)
      else
        q.Spent maxLines sent ∧ result.isOk = false ∧
          ((∃ limit, result = .error (.keystreamExhausted limit)) ↔
            LineCodec.fits line = true) := by
  obtain ⟨result, session, role, mode, houtcome, hwriting⟩ := h
  have hspent : ∀ {l' : SecureLink} {c' : Connection} {sent' : Nat},
      l'.format.cipher.writing = counted session role mode maxLines sent' 0 →
        Spent { p with side := p.side.setEstablished { result with channel := l' }, wire := c' }
          maxLines sent' :=
    fun hl => ⟨_, session, role, mode, outcome?_setEstablished p.side _, hl⟩
  cases hfits : LineCodec.fits line with
  | false =>
      obtain ⟨e, hsend, hne⟩ := result.channel.send_of_not_fits (c := p.wire) hfits
      refine ⟨_, _, send_of_outcome houtcome hsend, rfl, ?_⟩
      rw [if_neg (by simp)]
      refine ⟨hspent hwriting, rfl, ?_⟩
      constructor
      · rintro ⟨limit, heq⟩
        exact absurd (Except.error.inj heq) (hne limit)
      · intro h
        cases h
  | true =>
      rcases Nat.lt_or_ge sent maxLines.toNat with hlt | hle
      · obtain ⟨r, l', bytes, hsend, hl, hok, hne⟩ :=
          Link.send_of_lt (c := p.wire) hfits hwriting hlt
        refine ⟨_, _, send_of_outcome houtcome hsend, rfl, ?_⟩
        rw [if_pos ⟨rfl, hlt⟩]
        exact ⟨hspent hl, hok, hne⟩
      · refine ⟨_, _, send_of_outcome houtcome (Link.send_of_le hfits hwriting hle), rfl, ?_⟩
        rw [if_neg (by omega)]
        exact ⟨hspent hwriting, rfl, fun _ => rfl, fun _ => ⟨_, rfl⟩⟩

theorem sentCount_snoc (log : List (Except LineError Unit)) (r : Except LineError Unit) :
    sentCount (log ++ [r]) = sentCount log + if r.isOk then 1 else 0 := by
  rw [sentCount, List.countP_append, List.countP_singleton, sentCount]

/-- **One use of a channel.** -/
theorem Spent.use (h : p.Spent maxLines sent) (u : Use) (log : List (Except LineError Unit)) :
    ∃ sent', sent' = (if u.spends = true ∧ sent < maxLines.toNat then sent + 1 else sent) ∧
      (use (p, log) u).1.Spent maxLines sent' ∧
      sentCount (use (p, log) u).2 ≤ sentCount log + (sent' - sent) ∧
      (p.wire.breach = none → (∀ breach, u ≠ .move (.fail breach)) →
        (use (p, log) u).1.wire.breach = none ∧
          sentCount (use (p, log) u).2 = sentCount log + (sent' - sent)) := by
  cases u with
  | move m =>
      obtain ⟨result, _, _, _, houtcome, _⟩ := id h
      refine ⟨sent, rfl, h.move m, by simp [Party.use], fun hopen hm => ⟨?_, by simp [Party.use]⟩⟩
      have hm' : ∀ breach, m ≠ .fail breach := by
        rintro breach rfl
        exact hm breach rfl
      exact (breach_move (work_of_outcome houtcome) hm').trans hopen
  | next =>
      obtain ⟨polled, q, hnext, hq, hbreach⟩ := h.next
      have huse : Party.use (p, log) .next = (q, log) := by rw [Party.use, hnext]
      rw [huse]
      exact ⟨sent, rfl, hq, by simp, fun hopen _ => ⟨hbreach.trans hopen, by simp⟩⟩
  | send line =>
      obtain ⟨result, q, hsend, hbreach, hcases⟩ := h.send line
      have huse : Party.use (p, log) (.send line) = (q, log ++ [result]) := by
        rw [Party.use, hsend]
      rw [huse, sentCount_snoc]
      refine ⟨_, rfl, ?_⟩
      rw [Use.spends]
      split at hcases
      next hspends =>
        obtain ⟨hq, hok, -⟩ := hcases
        rw [if_pos hspends]
        refine ⟨hq, by split <;> omega, fun hopen _ => ⟨hbreach.trans hopen, ?_⟩⟩
        rw [hok hopen]
        simp [Except.isOk, Except.toBool]
      next hspends =>
        obtain ⟨hq, hfailed, -⟩ := hcases
        rw [if_neg hspends, hfailed]
        exact ⟨hq, by simp, fun hopen _ => ⟨hbreach.trans hopen, by simp⟩⟩

/-- **Any uses of a channel.** -/
theorem Spent.foldl_use (h : p.Spent maxLines sent) (uses : List Use)
    (log : List (Except LineError Unit)) :
    ∃ sent', sent' = max sent (min maxLines.toNat (sent + uses.countP Use.spends)) ∧
      (uses.foldl Party.use (p, log)).1.Spent maxLines sent' ∧
      sentCount (uses.foldl Party.use (p, log)).2 ≤ sentCount log + (sent' - sent) ∧
      (p.wire.breach = none → (∀ breach, Use.move (.fail breach) ∉ uses) →
        sentCount (uses.foldl Party.use (p, log)).2 = sentCount log + (sent' - sent)) := by
  induction uses generalizing p sent log with
  | nil =>
      refine ⟨sent, ?_, h, Nat.le_add_right _ _, fun _ _ => by simp⟩
      rw [List.countP_nil]
      omega
  | cons u uses ih =>
      obtain ⟨next, hnext, hspent, hle, heq⟩ := h.use u log
      obtain ⟨last, hlast, hlater, hle', heq'⟩ := ih hspent (Party.use (p, log) u).2
      have hcount : (u :: uses).countP Use.spends =
          uses.countP Use.spends + if u.spends = true then 1 else 0 := List.countP_cons
      -- what one use spends is the difference between the counts before and after it
      have hsum : last = max sent (min maxLines.toNat (sent + (u :: uses).countP Use.spends)) ∧
          sent ≤ next ∧ next ≤ last := by
        rw [hlast, hnext, hcount]
        cases u.spends with
        | true =>
            simp only [true_and, if_true]
            split <;> omega
        | false =>
            simp only [Bool.false_eq_true, false_and, if_false]
            omega
      obtain ⟨hlast, hmore, hmost⟩ := hsum
      refine ⟨last, hlast, hlater, ?_, ?_⟩
      · calc sentCount ((u :: uses).foldl Party.use (p, log)).2
            ≤ sentCount (Party.use (p, log) u).2 + (last - next) := hle'
          _ ≤ sentCount log + (last - sent) := by omega
      · intro hopen hfail
        obtain ⟨hopen', hcounted⟩ := heq hopen fun breach hu => hfail breach (by simp [hu])
        have hrest := heq' hopen' fun breach hmem => hfail breach (List.mem_cons_of_mem u hmem)
        calc sentCount ((u :: uses).foldl Party.use (p, log)).2
            = sentCount (Party.use (p, log) u).2 + (last - next) := hrest
          _ = sentCount log + (last - sent) := by omega

/-- **What becomes of the lines** that the owner of a channel sends, if the key can protect some
more of them. -/
structure Spends (p : Party) (budget : Nat) (uses : List Use) : Prop where
  /-- No more are sent. -/
  sent_le : sentCount (p.useAll uses).2 ≤ budget
  /-- As many are, if writing does not fail and so many fit. -/
  sent_eq : p.wire.breach = none → (∀ breach, Use.move (.fail breach) ∉ uses) →
    sentCount (p.useAll uses).2 = min budget (uses.countP Use.spends)
  /-- One more line is answered.  If it fits, it is refused for the limit if and only if no line was
  left. -/
  answered : ∀ line, ∃ result q, (p.useAll uses).1.send line = some (result, q) ∧
    (LineCodec.fits line = true →
      ((∃ limit, result = .error (.keystreamExhausted limit)) ↔
        budget ≤ uses.countP Use.spends))

theorem Spent.spends (h : p.Spent maxLines sent) (uses : List Use) :
    p.Spends (maxLines.toNat - sent) uses := by
  obtain ⟨last, hlast, hspent, hle, heq⟩ := h.foldl_use uses []
  have hnone : sentCount [] = 0 := rfl
  have hdiff : last - sent = min (maxLines.toNat - sent) (uses.countP Use.spends) := by omega
  rw [hnone, Nat.zero_add, hdiff] at hle
  refine { sent_le := ?_, sent_eq := fun hopen hfail => ?_, answered := fun line => ?_ }
  · exact hle.trans (Nat.min_le_left _ _)
  · have hcount := heq hopen hfail
    rw [hnone, Nat.zero_add, hdiff] at hcount
    exact hcount
  · obtain ⟨result, q, hsend, -, hcases⟩ := hspent.send line
    refine ⟨result, q, hsend, fun hfits => ?_⟩
    split at hcases
    next hspends =>
      obtain ⟨-, -, hne⟩ := hcases
      constructor
      · rintro ⟨limit, hresult⟩
        exact absurd hresult (hne limit)
      · intro hbudget
        omega
    next hspends =>
      obtain ⟨-, -, hexhausted⟩ := hcases
      rw [hexhausted]
      simp only [hfits, true_and, Nat.not_lt, true_iff] at hspends ⊢
      omega

end Party

/-! ### After a handshake -/

namespace Side

/-- How many lines the session key of a side protects in each direction. -/
def maxLines : Side → UInt64
  | server h _ => h.options.maxLines
  | client h _ => h.options.maxLines

/-- How many lines of the session a side writes in its handshake. -/
def written : Side → Nat
  | server _ _ => 0
  | client _ _ => 1

/-- **How many lines a side can still send** when its handshake has succeeded. -/
def budget (side : Side) : Nat := side.maxLines.toNat - side.written

end Side

namespace Party

/-- **What a handshake has spent** when it has succeeded, whatever happened meanwhile. -/
theorem spent_run {side : Side} {raw : PlainLink} (hstart : side.Starts raw) {moves : List Move}
    {result : Established} (hresult : (run { side } moves).outcome? = some (.ok result)) :
    (run { side } moves).Spent side.maxLines side.written := by
  have hfollows : Follows (fun _ => True) _ { side } raw.buffer := follows_start hstart trivial
  obtain ⟨hrun, -, -⟩ := hfollows.run moves fun _ _ => trivial
  obtain ⟨first, second, -, -, hcourse⟩ :=
    hrun.outlook_eq (run { side } moves).wire.finished [] (fun hf => ⟨hf, rfl⟩) none none trivial
      trivial
  rw [outlook_of_ok hresult] at hcourse
  have hleaves := side.leaves_course first second (run { side } moves).wire.finished raw.format
    (raw.buffer ++ heard { side } moves ++ [])
  rw [← hcourse] at hleaves
  obtain ⟨hsecures, -⟩ := hleaves
  have hwriting : ∀ codec f, side.Secures f codec → ∃ session role mode,
      codec.cipher.writing = counted session role mode side.maxLines side.written 0 := by
    intro codec f hsecures
    cases hsecures with
    | server h s f => exact ⟨_, _, _, rfl⟩
    | client h s session f => exact ⟨_, _, _, rfl⟩
  obtain ⟨session, role, mode, hcipher⟩ := hwriting _ _ hsecures
  exact ⟨result, session, role, mode, hresult, hcipher⟩

/-- **The counts of a cipher, and what a handshake leaves.**  Both counts stop at the limit, and at
the limit a line is refused; and when a handshake has succeeded, the server can send as many lines
as the key protects, and the client one less. -/
theorem counts_and_budget :
    (∀ (session : SessionKey) (role : Role) (mode : KeystreamMode) (maxLines : UInt64)
        (calls : List CipherCall),
      (SessionCipher.start session role mode maxLines).CountsLines calls) ∧
    ∀ (side : Side) (raw : PlainLink), side.Starts raw → ∀ (moves : List Move)
        (result : Established), (run { side } moves).outcome? = some (.ok result) →
      ∀ uses, (run { side } moves).Spends side.budget uses :=
  ⟨SessionCipher.countsLines, fun _ _ hstart _ _ hresult uses =>
    (spent_run hstart hresult).spends uses⟩

end Party

namespace Duplex

theorem exists_moves_step (d : Duplex) (e : Event) (role : Role) :
    ∃ moves, (d.step e).party role = (d.party role).run moves := by
  cases e with
  | work worker =>
      rcases eq_or_eq_peerOf worker role with rfl | rfl
      · exact ⟨[.work], party_move d role .work⟩
      · exact ⟨[], party_move_peerOf d worker .work⟩
  | carry writer count =>
      rcases eq_or_eq_peerOf writer role with rfl | rfl
      · exact ⟨[], party_carry d role count⟩
      · exact ⟨[.arrive ((d.pending writer).take count)], party_carry_peerOf d writer count⟩
  | close closer =>
      rw [step]
      split
      · rcases eq_or_eq_peerOf closer role with rfl | rfl
        · exact ⟨[], party_move_of_peerOf d role .finish⟩
        · exact ⟨[.finish], party_move d (SessionCipher.peerOf closer) .finish⟩
      · exact ⟨[], rfl⟩

/-- Whatever happens to two parties, each of them goes through some moves. -/
theorem exists_moves (d : Duplex) (events : List Event) (role : Role) :
    ∃ moves, (d.run events).party role = (d.party role).run moves := by
  induction events generalizing d with
  | nil => exact ⟨[], rfl⟩
  | cons e events ih =>
      obtain ⟨first, hfirst⟩ := d.exists_moves_step e role
      obtain ⟨rest, hrest⟩ := ih (d.step e)
      refine ⟨first ++ rest, ?_⟩
      calc ((d.step e).run events).party role
          = ((d.step e).party role).run rest := hrest
        _ = ((d.party role).run first).run rest := by rw [hfirst]
        _ = (d.party role).run (first ++ rest) := List.foldl_append.symm

end Duplex

namespace Party

open Honest (visitor host honest_visitor)

/-- The key of a visitor and its host protects 4294967296 lines.  The visitor, who has confirmed the
key with one, can send the others. -/
theorem counts_and_budget_visitor :
    (∃ (moves : List Move) (result : Established),
      (run (client (visitor .longer)) moves).outcome? = some (.ok result) ∧
        ∀ uses, (run (client (visitor .longer)) moves).Spends 4294967295 uses) ∧
    ∃ (moves : List Move) (result : Established),
      (run (server (host PrivateKey.longer.toPublic)) moves).outcome? = some (.ok result) ∧
        ∀ uses, (run (server (host PrivateKey.longer.toPublic)) moves).Spends 4294967296 uses := by
  have hhonest : Honest (visitor .longer) (host PrivateKey.longer.toPublic) :=
    honest_visitor (by decide +kernel) PrivateKey.opens_longer
  have hfits : Fits (visitor .longer) (host PrivateKey.longer.toPublic) :=
    ⟨by decide +kernel, by decide +kernel⟩
  obtain ⟨N, hagreed⟩ := hhonest.exists_agreed hfits Duplex.fair_roundRobin
  obtain ⟨initiator, responder, hinitiator, hresponder, -⟩ := hagreed N (Nat.le_refl N)
  have hmoves := Duplex.exists_moves
    (Duplex.start (visitor .longer) (host PrivateKey.longer.toPublic))
    ((List.range N).map Duplex.roundRobin)
  obtain ⟨moves, hrun⟩ := hmoves .initiator
  obtain ⟨moves', hrun'⟩ := hmoves .responder
  rw [Duplex.after, hrun] at hinitiator
  rw [Duplex.after, hrun'] at hresponder
  exact ⟨⟨moves, initiator, hinitiator,
      counts_and_budget.2 _ _ (.client _ _) moves initiator hinitiator⟩,
    moves', responder, hresponder,
      counts_and_budget.2 _ _ (.server _ _) moves' responder hresponder⟩

end Party

end LineChat
