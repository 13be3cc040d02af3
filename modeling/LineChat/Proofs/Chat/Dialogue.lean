/-
**What is said in a session.**

What a session takes from its channel is what the lines behind the handshake say, decrypted one
after the other, in whatever pieces they arrived; and a session that sees the end of them has missed
none.  What it sends goes over the wire as the next line of the session, behind what the handshake
wrote.

Main definitions:

* `LineChat.taken`, `LineChat.answers` — what a session has taken and sent;
* `LineChat.ServerHandshake.secured`, `LineChat.ServerHandshake.wired` — the lines of a session as a
  server reads and as it writes them;
* `LineChat.Dialogue` — **what was said in a session**;
* `LineChat.Live`, `LineChat.Left`, `LineChat.Talks` — the invariant.

Main results:

* `LineChat.Talks.does` — every step of a session keeps the invariant;
* `LineChat.Chronicle.Reachable.dialogue` — **every session talks so**.
-/

import LineChat.Proofs.Channel.TwoWay
import LineChat.Proofs.Chat.Lives
import LineChat.Proofs.Handshake.Handover

set_option autoImplicit false

namespace LineChat

open SessionCipher (counted)

/-! ### What is taken and sent -/

/-- What is taken from the channel by a deed. -/
def Deed.line? : Deed → Option (Except LineError String)
  | took line => some line
  | _ => none

/-- What is sent by a deed. -/
def Deed.answer? : Deed → Option String
  | sent answer => some answer
  | _ => none

/-- **What a session has taken from its channel.** -/
def taken (deeds : List Deed) : List (Except LineError String) := deeds.filterMap Deed.line?

/-- **What a session has sent.** -/
def answers (deeds : List Deed) : List String := deeds.filterMap Deed.answer?

theorem taken_snoc (deeds : List Deed) (d : Deed) :
    taken (deeds ++ [d]) = taken deeds ++ d.line?.toList := by
  cases hd : d.line? <;> simp [taken, hd]

theorem answers_snoc (deeds : List Deed) (d : Deed) :
    answers (deeds ++ [d]) = answers deeds ++ d.answer?.toList := by
  cases hd : d.answer? <;> simp [answers, hd]

theorem taken_snoc_of_none {deeds : List Deed} {d : Deed} (hd : d.line? = none) :
    taken (deeds ++ [d]) = taken deeds := by
  rw [taken_snoc, hd]
  exact List.append_nil _

theorem answers_snoc_of_none {deeds : List Deed} {d : Deed} (hd : d.answer? = none) :
    answers (deeds ++ [d]) = answers deeds := by
  rw [answers_snoc, hd]
  exact List.append_nil _

namespace ServerHandshake

/-- **The lines of a session as the server reads them** behind the handshake. -/
def secured (h : ServerHandshake) (framing : Framing) : LineCodec SessionCipher where
  framing := framing
  cipher := counted h.session .responder h.options.mode h.options.maxLines 0 1
  policy := h.options.policy

/-- **Lines as the server writes them** behind the handshake, one after the other. -/
def wired (h : ServerHandshake) (lines : List String) : Bytes :=
  lines.zipIdx.flatMap fun (line, n) =>
    frameLine (sealLine h.session h.options.mode .responder n line)

theorem wired_snoc (h : ServerHandshake) (lines : List String) (line : String) :
    h.wired (lines ++ [line]) = h.wired lines ++
      frameLine (sealLine h.session h.options.mode .responder lines.length line) := by
  simp [wired, List.zipIdx_append]

end ServerHandshake

/-- **What was said in a session**: the handshake came to its end on what had arrived and wrote
`hello`; reading on and on behind it gives what was taken, and gives no more if the session saw the
end; and what was written is `hello` and the answers, and more only if an answer was not sent. -/
def Dialogue (h : ServerHandshake) (username : String) (c : Connection) (deeds : List Deed)
    (stream : Bytes) : Prop :=
  ∃ breach framing rest hello codec left,
    h.course breach c.finished {} stream =
        ⟨.established username (h.secured framing) rest, hello⟩ ∧
      (framing, rest) = Framing.after c.finished 2 ({}, stream) ∧
      Gives c.finished (h.secured framing) rest (taken deeds) codec left ∧
      (.closed ∈ deeds → c.finished = true ∧ (codec.decode true left).1 = .ok none) ∧
      hello ++ h.wired (answers deeds) <+: c.outgoing ∧
      ((∀ answer e, .unsent answer e ∉ deeds) → c.outgoing = hello ++ h.wired (answers deeds))

/-! ### The invariant -/

section

variable {h : ServerHandshake} {username : String} {hello stream : Bytes} {l l' : SecureLink}
  {c c' : Connection} {deeds : List Deed} {d : Deed}

/-- Where a handshake that wrote `hello` leaves the channel, if `more` is still to arrive. -/
def ServerHandshake.Reaches (h : ServerHandshake) (username : String) (hello stream : Bytes)
    (ended : Bool) (more : Bytes) (codec : LineCodec SessionCipher) (rest : Bytes) : Prop :=
  ∃ breach, h.course breach ended {} (stream ++ more) = ⟨.established username codec rest, hello⟩

/-- The channel is left with the lines of the session, behind the two of the handshake. -/
theorem eq_secured_of_reaches {ended : Bool} {more rest : Bytes} {codec : LineCodec SessionCipher}
    (hreaches : h.Reaches username hello stream ended more codec rest) :
    codec = h.secured codec.framing ∧
      (codec.framing, rest) = Framing.after ended 2 ({}, stream ++ more) := by
  obtain ⟨breach, hcourse⟩ := hreaches
  have hleaves := Side.leaves_server h (.start { format := {} }) breach ended {} (stream ++ more)
  rw [hcourse] at hleaves
  obtain ⟨hsecures, hafter⟩ := hleaves
  refine ⟨?_, hafter⟩
  generalize hframing : codec.framing = framing at hsecures
  cases hsecures
  rfl

/-- **A session that goes on**: its channel is on the way through the lines of the stream, looks for
the next one, and has counted what it has written. -/
structure Live (h : ServerHandshake) (username : String) (hello : Bytes) (l : SecureLink)
    (c : Connection) (deeds : List Deed) (stream : Bytes) : Prop where
  held : (l.modify LineCodec.reading).Held c (taken deeds) (h.Reaches username hello stream)
  alert : (l.modify LineCodec.reading).Alert
  writing : l.format.cipher.writing =
    counted h.session .responder h.options.mode h.options.maxLines (answers deeds).length 0
  outgoing : c.outgoing = hello ++ h.wired (answers deeds)
  unclosed : .closed ∉ deeds
  user : ∀ user, .admitted user ∈ deeds → user = username

/-- **A session that has left its channel.** -/
structure Left (h : ServerHandshake) (username : String) (hello : Bytes) (c : Connection)
    (deeds : List Deed) (stream : Bytes) : Prop where
  delivered : ∀ ended more, (c.finished = true → ended = true ∧ more = []) →
    ∃ f b, h.Reaches username hello stream ended more f b ∧ ∃ f' b',
      Gives ended f b (taken deeds) f' b' ∧
        (.closed ∈ deeds → ended = true ∧ (f'.decode true b').1 = .ok none)
  front : hello ++ h.wired (answers deeds) <+: c.outgoing
  outgoing : (∀ answer e, .unsent answer e ∉ deeds) → c.outgoing = hello ++ h.wired (answers deeds)
  user : ∀ user, .admitted user ∈ deeds → user = username

/-- A deed that says nothing. -/
def Deed.IsSilent (d : Deed) : Prop :=
  d.line? = none ∧ d.answer? = none ∧ d ≠ .closed ∧ ∀ user, d ≠ .admitted user

theorem mem_of_mem_snoc {e : Deed} (he : e ∈ deeds ++ [d]) (hne : d ≠ e) : e ∈ deeds := by
  rcases List.mem_append.1 he with he | he
  · exact he
  · exact absurd (List.mem_singleton.1 he).symm hne

theorem Live.silent (hlive : Live h username hello l c deeds stream) (hd : d.IsSilent) :
    Live h username hello l c (deeds ++ [d]) stream := by
  refine ⟨?_, hlive.alert, ?_, ?_, ?_, ?_⟩
  · rw [taken_snoc_of_none hd.1]
    exact hlive.held
  · rw [answers_snoc_of_none hd.2.1]
    exact hlive.writing
  · rw [answers_snoc_of_none hd.2.1]
    exact hlive.outgoing
  · exact fun hmem => hlive.unclosed (mem_of_mem_snoc hmem hd.2.2.1)
  · exact fun user hmem => hlive.user user (mem_of_mem_snoc hmem (hd.2.2.2 user))

theorem Left.silent (hleft : Left h username hello c deeds stream) (hd : d.IsSilent) :
    Left h username hello c (deeds ++ [d]) stream := by
  refine ⟨?_, ?_, ?_, ?_⟩
  · intro ended more hmore
    obtain ⟨f, b, hreaches, f', b', hgives, hclosed⟩ := hleft.delivered ended more hmore
    rw [taken_snoc_of_none hd.1]
    exact ⟨f, b, hreaches, f', b', hgives,
      fun hmem => hclosed (mem_of_mem_snoc hmem hd.2.2.1)⟩
  · rw [answers_snoc_of_none hd.2.1]
    exact hleft.front
  · rw [answers_snoc_of_none hd.2.1]
    refine fun hsent => hleft.outgoing fun answer e hmem => ?_
    exact hsent answer e (List.mem_append_left _ hmem)
  · exact fun user hmem => hleft.user user (mem_of_mem_snoc hmem (hd.2.2.2 user))

theorem Live.left (hlive : Live h username hello l c deeds stream) :
    Left h username hello c deeds stream := by
  refine ⟨?_, ?_, fun _ => hlive.outgoing, hlive.user⟩
  · intro ended more hmore
    obtain ⟨f, b, hreaches, f', b', hgives, -⟩ := hlive.held.delivered ended more hmore
    exact ⟨f, b, hreaches, f', b', hgives, fun hmem => absurd hmem hlive.unclosed⟩
  · exact ⟨[], (List.append_nil _).trans hlive.outgoing.symm⟩

/-- Leaving the channel with a deed that sends nothing. -/
theorem Live.leave (hlive : Live h username hello l c deeds stream) (hd : d.answer? = none)
    (huser : ∀ user, d ≠ .admitted user) (hfront : c.outgoing <+: c'.outgoing)
    (hsame : (∀ answer e, d ≠ .unsent answer e) → c'.outgoing = c.outgoing)
    (hdelivered : ∀ ended more, (c'.finished = true → ended = true ∧ more = []) →
      ∃ f b, h.Reaches username hello stream ended more f b ∧ ∃ f' b',
        Gives ended f b (taken (deeds ++ [d])) f' b' ∧
          (d = .closed → ended = true ∧ (f'.decode true b').1 = .ok none)) :
    Left h username hello c' (deeds ++ [d]) stream := by
  have hanswers : answers (deeds ++ [d]) = answers deeds := answers_snoc_of_none hd
  refine ⟨?_, ?_, ?_, fun user hmem => hlive.user user (mem_of_mem_snoc hmem (huser user))⟩
  · intro ended more hmore
    obtain ⟨f, b, hreaches, f', b', hgives, hclosed⟩ := hdelivered ended more hmore
    refine ⟨f, b, hreaches, f', b', hgives, fun hmem => hclosed ?_⟩
    rcases List.mem_append.1 hmem with hmem | hmem
    · exact absurd hmem hlive.unclosed
    · exact (List.mem_singleton.1 hmem).symm
  · rw [hanswers, ← hlive.outgoing]
    exact hfront
  · intro hsent
    rw [hanswers, ← hlive.outgoing]
    refine hsame fun answer e he => ?_
    exact hsent answer e (he ▸ List.mem_append_right _ (List.mem_singleton.2 rfl))

theorem Left.dialogue (hleft : Left h username hello c deeds stream) :
    Dialogue h username c deeds stream := by
  obtain ⟨f, b, hreaches, f', b', hgives, hclosed⟩ :=
    hleft.delivered c.finished [] fun hf => ⟨hf, rfl⟩
  obtain ⟨hsecured, hafter⟩ := eq_secured_of_reaches hreaches
  obtain ⟨breach, hcourse⟩ := hreaches
  rw [List.append_nil] at hcourse hafter
  rw [hsecured] at hcourse hgives
  exact ⟨breach, f.framing, b, hello, f', b', hcourse, hafter, hgives, hclosed, hleft.front,
    hleft.outgoing⟩

/-! ### What happens to the connection -/

theorem Live.arrive {bytes : Bytes} (hlive : Live h username hello l c deeds stream)
    (hopen : c.finished = false) :
    Live h username hello l (c.arrive bytes) deeds (stream ++ bytes) := by
  refine ⟨?_, hlive.alert, hlive.writing, hlive.outgoing, hlive.unclosed, hlive.user⟩
  have harrive := @Link.Held.arrive _ _ _ _ _ _ bytes hlive.held hopen
  refine ⟨harrive.sound, ?_⟩
  intro ended more hmore
  obtain ⟨f, b, ⟨breach, hcourse⟩, hrest⟩ := harrive.delivered ended more hmore
  rw [← List.append_assoc] at hcourse
  exact ⟨f, b, ⟨breach, hcourse⟩, hrest⟩

theorem Live.finish (hlive : Live h username hello l c deeds stream) :
    Live h username hello l c.finish deeds stream :=
  ⟨hlive.held.finish, hlive.alert, hlive.writing, hlive.outgoing, hlive.unclosed, hlive.user⟩

theorem Live.fail (hlive : Live h username hello l c deeds stream) (breach : Option Breach) :
    Live h username hello l { c with breach } deeds stream :=
  ⟨⟨hlive.held.sound, hlive.held.delivered⟩, hlive.alert, hlive.writing, hlive.outgoing,
    hlive.unclosed, hlive.user⟩

theorem Left.arrive {bytes : Bytes} (hleft : Left h username hello c deeds stream)
    (hopen : c.finished = false) :
    Left h username hello (c.arrive bytes) deeds (stream ++ bytes) := by
  refine ⟨?_, hleft.front, hleft.outgoing, hleft.user⟩
  intro ended more _
  obtain ⟨f, b, ⟨breach, hcourse⟩, hrest⟩ := hleft.delivered ended (bytes ++ more) (by simp [hopen])
  rw [← List.append_assoc] at hcourse
  exact ⟨f, b, ⟨breach, hcourse⟩, hrest⟩

theorem Left.finish (hleft : Left h username hello c deeds stream) :
    Left h username hello c.finish deeds stream :=
  ⟨fun ended more hmore => hleft.delivered ended more fun _ => hmore rfl, hleft.front,
    hleft.outgoing, hleft.user⟩

theorem Left.fail (hleft : Left h username hello c deeds stream) (breach : Option Breach) :
    Left h username hello { c with breach } deeds stream :=
  ⟨hleft.delivered, hleft.front, hleft.outgoing, hleft.user⟩

/-! ### What happens on the channel -/

/-- **Asking for a line** goes on through the stream. -/
theorem Live.poll {polled : Polled} (hlive : Live h username hello l c deeds stream)
    (hpoll : l.poll c = (polled, l', c')) :
    (l'.modify LineCodec.reading).Held c' (taken deeds ++ polled.said)
        (h.Reaches username hello stream) ∧
      l'.format.cipher.writing = l.format.cipher.writing ∧ c'.finished = c.finished ∧
      c'.outgoing = c.outgoing := by
  have hreading : (l.modify LineCodec.reading).poll c =
      (polled, l'.modify LineCodec.reading, c') := by
    rw [Link.poll_modify Link.invisible_reading, hpoll]
  obtain ⟨hheld, hfinished, hout, -⟩ := hlive.held.poll hreading
  have hwriting := l.writing_poll c
  rw [hpoll] at hwriting
  exact ⟨hheld, hwriting, hfinished, hout⟩

theorem Live.wait (hlive : Live h username hello l c deeds stream)
    (hpoll : l.poll c = (.waiting, l', c')) : Live h username hello l' c' deeds stream := by
  obtain ⟨hheld, hwriting, hfinished, hout⟩ := hlive.poll hpoll
  have hreading := Link.poll_modify Link.invisible_reading l c
  rw [hpoll] at hreading
  obtain ⟨hanswer, halert⟩ := hlive.alert.poll_nothing hlive.held.sound hreading (Or.inl rfl)
  have hopen : c.finished = false := by
    cases hf : c.finished with
    | false => rfl
    | true =>
        rw [hf] at hanswer
        cases hanswer
  refine ⟨?_, halert hopen, hwriting.trans hlive.writing, hout.trans hlive.outgoing,
    hlive.unclosed, hlive.user⟩
  simpa [Polled.said] using hheld

theorem Live.line {line : String} (hlive : Live h username hello l c deeds stream)
    (hpoll : l.poll c = (.line line, l', c')) :
    Live h username hello l' c' (deeds ++ [.took (.ok line)]) stream := by
  obtain ⟨hheld, hwriting, hfinished, hout⟩ := hlive.poll hpoll
  obtain ⟨hfailed, hreadable⟩ := Link.flags_of_line hpoll
  refine ⟨?_, ⟨hfailed, Or.inl hreadable⟩, ?_, ?_, ?_, ?_⟩
  · rw [taken_snoc]
    exact hheld
  · rw [answers_snoc, hwriting]
    simpa [Deed.answer?] using hlive.writing
  · rw [answers_snoc, hout]
    simpa [Deed.answer?] using hlive.outgoing
  · exact fun hmem => hlive.unclosed (mem_of_mem_snoc hmem nofun)
  · exact fun user hmem => hlive.user user (mem_of_mem_snoc hmem nofun)

theorem Live.failed {e : LineError} (hlive : Live h username hello l c deeds stream)
    (hpoll : l.poll c = (.failed e, l', c')) :
    Left h username hello c' (deeds ++ [.took (.error e)]) stream := by
  obtain ⟨hheld, -, hfinished, hout⟩ := hlive.poll hpoll
  refine hlive.leave rfl nofun (hout ▸ List.prefix_rfl) (fun _ => hout) ?_
  intro ended more hmore
  obtain ⟨f, b, hreaches, f', b', hgives, -⟩ := hheld.delivered ended more hmore
  rw [taken_snoc]
  exact ⟨f, b, hreaches, f', b', hgives, nofun⟩

/-- **A session that sees the end** has missed nothing. -/
theorem Live.closed (hlive : Live h username hello l c deeds stream)
    (hpoll : l.poll c = (.ended, l', c')) :
    Left h username hello c' (deeds ++ [.closed]) stream := by
  obtain ⟨-, -, hfinished, hout⟩ := hlive.poll hpoll
  have hreading := Link.poll_modify Link.invisible_reading l c
  rw [hpoll] at hreading
  obtain ⟨hanswer, -⟩ := hlive.alert.poll_nothing hlive.held.sound hreading (Or.inr rfl)
  -- a channel that looks sees the end only if there is one
  have hclosed : c.finished = true := by
    cases hf : c.finished with
    | true => rfl
    | false =>
        rw [hf] at hanswer
        cases hanswer
  have htaken : taken (deeds ++ [.closed]) = taken deeds := taken_snoc_of_none rfl
  refine hlive.leave rfl nofun (hout ▸ List.prefix_rfl) (fun _ => hout) ?_
  intro ended more hmore
  obtain ⟨rfl, rfl⟩ := hmore (hfinished.trans hclosed)
  obtain ⟨f, b, hreaches, f', b', hgives, hnothing⟩ := hlive.held.handsOn
  rw [hclosed] at hreaches hgives hnothing
  rw [htaken]
  refine ⟨f, b, hreaches, f', b', hgives, fun _ => ⟨rfl, ?_⟩⟩
  exact hnothing (hlive.alert.looks c) (Or.inr (congrArg Prod.fst hreading))

/-- **An answer that is sent** is the next line on the wire. -/
theorem Live.sent {answer : String} (hlive : Live h username hello l c deeds stream)
    (hsend : l.send answer c = (.ok (), l', c')) :
    Live h username hello l' c' (deeds ++ [.sent answer]) stream := by
  rcases Link.send_cases hlive.writing answer c with
    ⟨l₁, hsent, hreading, hwriting⟩ | ⟨e, l₁, part, hfailed⟩
  · cases hsend.symm.trans hsent
    refine ⟨?_, ?_, ?_, ?_, ?_, ?_⟩
    · -- sending does not show in what is read
      rw [hreading, taken_snoc_of_none rfl]
      exact ⟨hlive.held.sound, hlive.held.delivered⟩
    · rw [hreading]
      exact hlive.alert
    · rw [answers_snoc]
      simpa [Deed.answer?] using hwriting
    · rw [answers_snoc]
      simp only [Deed.answer?, Option.toList_some, ServerHandshake.wired_snoc, hlive.outgoing,
        List.append_assoc]
    · exact fun hmem => hlive.unclosed (mem_of_mem_snoc hmem nofun)
    · exact fun user hmem => hlive.user user (mem_of_mem_snoc hmem nofun)
  · cases hsend.symm.trans hfailed

theorem Live.unsent {answer : String} {e : LineError}
    (hlive : Live h username hello l c deeds stream)
    (hsend : l.send answer c = (.error e, l', c')) :
    Left h username hello c' (deeds ++ [.unsent answer e]) stream := by
  rcases Link.send_cases hlive.writing answer c with
    ⟨l₁, hsent, -, -⟩ | ⟨e', l₁, part, hfailed⟩
  · cases hsend.symm.trans hsent
  · cases hsend.symm.trans hfailed
    refine hlive.leave rfl nofun (List.prefix_append _ _)
      (fun hne => absurd rfl (hne answer e)) ?_
    intro ended more hmore
    obtain ⟨f, b, hreaches, f', b', hgives, -⟩ := hlive.held.delivered ended more hmore
    refine ⟨f, b, hreaches, f', b', ?_, nofun⟩
    rw [taken_snoc]
    exact (List.append_nil (taken deeds)).symm ▸ hgives

/-! ### Where the channel comes from -/

/-- A handshake ends well with the line that is its third message. -/
theorem exists_poll_of_established {s : ServerHandshake.State} {e : Established}
    (hs : h.step s c = (.established e, c')) (ho : s.outcome? = none) :
    ∃ (channel channel' : SecureLink) (line : String),
      channel.poll c = (.line line, channel', c') ∧
        e.channel = channel'.withPolicy h.options.policy := by
  cases s with
  | start raw => cases hs
  | awaitingAuth channel =>
      rcases hpoll : channel.poll c with ⟨polled, channel', c₁⟩
      rcases hawaited : awaited "message 1" polled with _ | f | line
      · simp only [ServerHandshake.step, hpoll, hawaited] at hs
        cases hs
      · simp only [ServerHandshake.step, hpoll, hawaited] at hs
        cases hs
      · rcases hidentify : h.identify line with f | ⟨auth, key⟩
        · simp only [ServerHandshake.step, hpoll, hawaited, hidentify] at hs
          cases hs
        · simp only [ServerHandshake.step, hpoll, hawaited, hidentify, ServerHandshake.answer] at hs
          split at hs <;> cases hs
  | awaitingEcho channel username =>
      rcases hpoll : channel.poll c with ⟨polled, channel', c₁⟩
      cases polled with
      | line line =>
          simp only [ServerHandshake.step, hpoll, awaited, h.judge_eq] at hs
          split at hs
          · cases hs
          · cases hs
            exact ⟨channel, channel', line, hpoll, rfl⟩
      | failed e =>
          simp only [ServerHandshake.step, hpoll, awaited] at hs
          cases hs
      | ended =>
          simp only [ServerHandshake.step, hpoll, awaited] at hs
          cases hs
      | waiting =>
          simp only [ServerHandshake.step, hpoll, awaited] at hs
          cases hs
  | established e => cases ho
  | rejected r => cases ho

/-- A handshake that is under way, or has just ended. -/
def ServerHandshake.Follows (h : ServerHandshake) (s : ServerHandshake.State) (c : Connection)
    (stream : Bytes) : Prop :=
  Party.Follows (fun _ => True) (fun breach _ ended stream => h.course breach ended {} stream)
    { side := .server h s, wire := c } stream

theorem ServerHandshake.follows_start (h : ServerHandshake) :
    h.Follows (.start { format := {} }) {} [] :=
  Party.follows_start (.server h { format := {} }) trivial

theorem ServerHandshake.Follows.work {s s' : ServerHandshake.State} (hs : h.step s c = (s', c'))
    (hfollows : h.Follows s c stream) : h.Follows s' c' stream := by
  have hwork := Party.Follows.work hfollows
  have hstep : (⟨.server h s, c, false⟩ : Party).work = ⟨.server h s', c', false⟩ := by
    simp only [Party.work, Side.step, hs]
    rfl
  rw [hstep] at hwork
  exact hwork

/-- **A handshake that has ended well** leaves the lines of the session on its channel. -/
theorem ServerHandshake.Follows.live {e : Established}
    (hfollows : h.Follows (.established e) c stream)
    (halert : e.channel.failed = false ∧ e.channel.readable = true) :
    Live h e.username c.outgoing e.channel c [.admitted e.username] stream := by
  have hreaches : ∀ ended more, (c.finished = true → ended = true ∧ more = []) →
      h.Reaches e.username c.outgoing stream ended more e.channel.format
        (e.channel.buffer ++ (c.incoming ++ more)) := by
    intro ended more hmore
    obtain ⟨breach, _, -, -, houtlook⟩ :=
      Party.Follows.outlook_eq hfollows ended more hmore none none trivial trivial
    exact ⟨breach, houtlook.symm⟩
  have hsecured := (eq_secured_of_reaches (hreaches c.finished [] fun hf => ⟨hf, rfl⟩)).1
  have hformat : e.channel.format.reading = e.channel.format := by
    rw [hsecured]
    rfl
  have hreading : e.channel.modify LineCodec.reading = e.channel := by
    rw [Link.modify, hformat]
  refine ⟨?_, ⟨halert.1, Or.inl halert.2⟩, ?_, ?_, ?_, ?_⟩
  · refine ⟨hfollows.sane, ?_⟩
    intro ended more hmore
    refine ⟨_, _, hreaches ended more hmore, _, _, .nil _ _, ?_⟩
    rw [hreading]
  · rw [hsecured]
    rfl
  · exact (List.append_nil _).symm
  · simp
  · simp

/-! ### Every session talks so -/

/-- The channel of a session that goes on, and whose session it is. -/
def SessionPhase.live? : SessionPhase → Option (String × SecureLink)
  | .binding e => some (e.username, e.channel)
  | .greeting context channel => some (context.username, channel)
  | .serving context channel => some (context.username, channel)
  | .answering context channel _ => some (context.username, channel)
  | .replying context channel _ => some (context.username, channel)
  | _ => none

/-- **The invariant**: the handshake follows its course, a session that goes on has its channel, and
one that was admitted and has left it knows what was said. -/
structure Talks (h : ServerHandshake) (c : ServerSession) (deeds : List Deed) (stream : Bytes) :
    Prop where
  follows : ∀ s, c.phase = .handshaking s →
    s.outcome? = none ∧ h.Follows s c.wire stream ∧ deeds = []
  live : ∀ username channel, c.phase.live? = some (username, channel) →
    ∃ hello, Live h username hello channel c.wire deeds stream
  left : c.phase.live? = none → ∀ username, .admitted username ∈ deeds →
    ∃ hello, Left h username hello c.wire deeds stream

variable {session session' : ServerSession}

theorem Talks.of_live {channel : SecureLink}
    (hphase : session.phase.live? = some (username, channel))
    (hlive : Live h username hello channel session.wire deeds stream) :
    Talks h session deeds stream := by
  refine ⟨?_, ?_, ?_⟩
  · intro s hs
    rw [hs] at hphase
    cases hphase
  · intro username' channel' hphase'
    cases hphase.symm.trans hphase'
    exact ⟨hello, hlive⟩
  · intro hnone
    cases hphase.symm.trans hnone

theorem Talks.of_left (hphase : session.phase.live? = none)
    (hshakes : session.isHandshaking = false)
    (hleft : ∀ username, .admitted username ∈ deeds →
      ∃ hello, Left h username hello session.wire deeds stream) : Talks h session deeds stream := by
  refine ⟨?_, ?_, fun _ => hleft⟩
  · intro s hs
    rw [ServerSession.isHandshaking, hs] at hshakes
    cases hshakes
  · intro username channel hsome
    cases hphase.symm.trans hsome

/-- A session that was never admitted has nothing to say. -/
theorem Talks.of_refused (hphase : session.phase.live? = none)
    (hshakes : session.isHandshaking = false) (hnil : deeds = [])
    (hd : ∀ user, d ≠ .admitted user) : Talks h session (deeds ++ [d]) stream := by
  refine .of_left hphase hshakes fun username hmem => ?_
  have hold := mem_of_mem_snoc hmem (hd username)
  rw [hnil] at hold
  cases hold

/-- What happens to the connection alone. -/
theorem Talks.rewire {wire : Connection} {stream' : Bytes} (htalks : Talks h session deeds stream)
    (hfollows : ∀ s, h.Follows s session.wire stream → h.Follows s wire stream')
    (hlive : ∀ username hello channel, Live h username hello channel session.wire deeds stream →
      Live h username hello channel wire deeds stream')
    (hleft : ∀ username hello, Left h username hello session.wire deeds stream →
      Left h username hello wire deeds stream') :
    Talks h { session with wire } deeds stream' := by
  refine ⟨?_, ?_, ?_⟩
  · intro s hs
    obtain ⟨ho, hold, hnil⟩ := htalks.follows s hs
    exact ⟨ho, hfollows s hold, hnil⟩
  · intro username channel hphase
    obtain ⟨hello, hold⟩ := htalks.live username channel hphase
    exact ⟨hello, hlive username hello channel hold⟩
  · intro hphase username hmem
    obtain ⟨hello, hold⟩ := htalks.left hphase username hmem
    exact ⟨hello, hleft username hello hold⟩

theorem Talks.arrive {bytes : Bytes} (htalks : Talks h session deeds stream)
    (hopen : session.wire.finished = false) :
    Talks h { session with wire := session.wire.arrive bytes } deeds (stream ++ bytes) :=
  htalks.rewire (fun _ hfollows => Party.Follows.arrive hfollows hopen)
    (fun _ _ _ hlive => hlive.arrive hopen) fun _ _ hleft => hleft.arrive hopen

theorem Talks.finish (htalks : Talks h session deeds stream) :
    Talks h { session with wire := session.wire.finish } deeds stream :=
  htalks.rewire (fun _ hfollows => Party.Follows.finish hfollows)
    (fun _ _ _ hlive => hlive.finish) fun _ _ hleft => hleft.finish

theorem Talks.fail (htalks : Talks h session deeds stream) (breach : Breach) :
    Talks h { session with wire := { session.wire with breach := some breach } } deeds stream :=
  htalks.rewire (fun _ hfollows => Party.Follows.fail hfollows trivial)
    (fun _ _ _ hlive => hlive.fail (some breach)) fun _ _ hleft => hleft.fail (some breach)

/-- A session that goes on. -/
theorem Talks.keep {user : String} {channel channel' : SecureLink} {done : List Deed}
    (htalks : Talks h session deeds stream)
    (hphase : session.phase.live? = some (user, channel))
    (hphase' : session'.phase.live? = some (user, channel'))
    (hlive : ∀ hello, Live h user hello channel session.wire deeds stream →
      Live h user hello channel' session'.wire (deeds ++ done) stream) :
    Talks h session' (deeds ++ done) stream := by
  obtain ⟨hello, hold⟩ := htalks.live user channel hphase
  exact .of_live hphase' (hlive hello hold)

/-- A session that leaves its channel. -/
theorem Talks.leave {user : String} {channel : SecureLink}
    (htalks : Talks h session deeds stream)
    (hphase : session.phase.live? = some (user, channel))
    (hphase' : session'.phase.live? = none) (hshakes : session'.isHandshaking = false)
    (hd : ∀ user, d ≠ .admitted user)
    (hleft : ∀ hello, Live h user hello channel session.wire deeds stream →
      Left h user hello session'.wire (deeds ++ [d]) stream) :
    Talks h session' (deeds ++ [d]) stream := by
  obtain ⟨hello, hold⟩ := htalks.live user channel hphase
  refine .of_left hphase' hshakes fun username hmem => ?_
  obtain rfl := hold.user username (mem_of_mem_snoc hmem (hd username))
  exact ⟨hello, hleft hello hold⟩

/-- A session that has left its channel, and does something silent. -/
theorem Talks.silent (htalks : Talks h session deeds stream)
    (hphase : session.phase.live? = none) (hphase' : session'.phase.live? = none)
    (hshakes : session'.isHandshaking = false) (hwire : session'.wire = session.wire)
    (hd : d.IsSilent) : Talks h session' (deeds ++ [d]) stream := by
  refine .of_left hphase' hshakes fun username hmem => ?_
  obtain ⟨hello, hleft⟩ := htalks.left hphase username (mem_of_mem_snoc hmem (hd.2.2.2 username))
  rw [hwire]
  exact ⟨hello, hleft.silent hd⟩

end

/-! ### Every session talks so -/

open ChatServer (Does)

variable {σ : Type} {v : ChatServer σ} {c c' : ServerSession} {deeds done : List Deed}
  {stream : Bytes}

/-- **Every step of a session keeps the invariant.** -/
theorem Talks.does (htalks : Talks (v.handshake c.material) c deeds stream)
    (hdoes : Does v c done c') : Talks (v.handshake c'.material) c' (deeds ++ done) stream := by
  obtain ⟨peer, material, phase, wire⟩ := c
  cases hdoes with
  | finished =>
      rw [List.append_nil]
      exact htalks.finish
  | hungUp =>
      rw [List.append_nil]
      exact htalks.finish.fail _
  | shook hp hs ho =>
      obtain ⟨-, hfollows, hnil⟩ := htalks.follows _ hp
      rw [List.append_nil]
      refine ⟨?_, nofun, ?_⟩
      · rintro s' ⟨⟩
        exact ⟨ho, hfollows.work hs, hnil⟩
      · rw [hnil]
        nofun
  | admitted hp hs =>
      obtain ⟨ho, hfollows, hnil⟩ := htalks.follows _ hp
      obtain ⟨channel, channel', line, hpoll, hchannel⟩ := exists_poll_of_established hs ho
      have hflags := Link.flags_of_line hpoll
      rw [hnil]
      refine .of_live rfl ((hfollows.work hs).live ?_)
      rw [hchannel]
      exact hflags
  | refused hp hs => exact .of_refused rfl rfl (htalks.follows _ hp).2.2 nofun
  | expired hp => exact .of_refused rfl rfl (htalks.follows _ hp).2.2 nofun
  | dismissed hp => exact .of_refused rfl rfl (htalks.follows _ hp).2.2 nofun
  | bound hp hb =>
      obtain rfl : phase = _ := hp
      exact htalks.keep rfl rfl fun _ hlive => hlive.silent ⟨rfl, rfl, nofun, nofun⟩
  | vanished hp hb =>
      obtain rfl : phase = _ := hp
      exact htalks.leave rfl rfl rfl nofun fun _ hlive =>
        hlive.left.silent ⟨rfl, rfl, nofun, nofun⟩
  | greeted hp =>
      obtain rfl : phase = _ := hp
      exact htalks.keep rfl rfl fun _ hlive => hlive.silent ⟨rfl, rfl, nofun, nofun⟩
  | waited hp hpoll =>
      obtain rfl : phase = _ := hp
      refine htalks.keep rfl rfl fun _ hlive => ?_
      rw [List.append_nil]
      exact hlive.wait hpoll
  | took hp hpoll =>
      obtain rfl : phase = _ := hp
      exact htalks.keep rfl rfl fun _ hlive => hlive.line hpoll
  | failed hp hpoll =>
      obtain rfl : phase = _ := hp
      exact htalks.leave rfl rfl rfl nofun fun _ hlive => hlive.failed hpoll
  | closed hp hpoll =>
      obtain rfl : phase = _ := hp
      exact htalks.leave rfl rfl rfl nofun fun _ hlive => hlive.closed hpoll
  | interrupted hp =>
      obtain rfl : phase = _ := hp
      exact htalks.leave rfl rfl rfl nofun fun _ hlive =>
        hlive.left.silent ⟨rfl, rfl, nofun, nofun⟩
  | ignored hp ha =>
      obtain rfl : phase = _ := hp
      exact htalks.keep rfl rfl fun _ hlive => hlive.silent ⟨rfl, rfl, nofun, nofun⟩
  | answered hp ha =>
      obtain rfl : phase = _ := hp
      exact htalks.keep rfl rfl fun _ hlive => hlive.silent ⟨rfl, rfl, nofun, nofun⟩
  | sent hp hsend =>
      obtain rfl : phase = _ := hp
      exact htalks.keep rfl rfl fun _ hlive => hlive.sent hsend
  | unsent hp hsend =>
      obtain rfl : phase = _ := hp
      exact htalks.leave rfl rfl rfl nofun fun _ hlive => hlive.unsent hsend
  | released hp =>
      obtain rfl : phase = _ := hp
      exact htalks.silent rfl rfl rfl rfl ⟨rfl, rfl, nofun, nofun⟩
  | departed hp =>
      obtain rfl : phase = _ := hp
      exact htalks.silent rfl rfl rfl rfl ⟨rfl, rfl, nofun, nofun⟩

theorem Talks.dialogue {h : ServerHandshake} {username : String} (htalks : Talks h c deeds stream)
    (hmem : .admitted username ∈ deeds) : Dialogue h username c.wire deeds stream := by
  cases hphase : c.phase.live? with
  | none =>
      obtain ⟨hello, hleft⟩ := htalks.left hphase username hmem
      exact hleft.dialogue
  | some owner =>
      obtain ⟨hello, hlive⟩ := htalks.live owner.1 owner.2 hphase
      rw [hlive.user username hmem]
      exact hlive.left.dialogue

/-- **Every session talks so**, whatever the others do. -/
theorem Chronicle.Reachable.dialogue {start : ChatServer σ} {k : Chronicle σ} {i : Nat}
    {username : String} (h : Reachable start k) (hstart : start.sessions = [])
    (hc : k.now.sessions[i]? = some c) (hmem : .admitted username ∈ k.deedsOf i) :
    Dialogue (start.handshake c.material) username c.wire (k.deedsOf i) (k.streamOf i) := by
  refine Talks.dialogue ?_ hmem
  refine @Reachable.each_session σ k start
    (fun c deeds stream => Talks (start.handshake c.material) c deeds stream) hstart ?_ ?_ ?_ h i
    c hc
  · intro peer material
    refine ⟨?_, nofun, nofun⟩
    rintro s ⟨⟩
    exact ⟨rfl, ServerHandshake.follows_start _, rfl⟩
  · exact fun c deeds stream bytes htalks hopen => htalks.arrive hopen
  · intro v c deeds stream done c' hkin htalks hdoes
    rw [← hkin.handshake_eq] at htalks ⊢
    exact htalks.does hdoes

end LineChat
