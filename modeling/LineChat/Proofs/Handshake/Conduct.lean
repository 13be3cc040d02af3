/-
**How a handshake conducts itself.**

Whatever a peer sends, and wherever writing fails, a handshake writes its messages in order and each
of them only when it is called for: the server answers nobody who is not registered, and the client
sends the challenge of a server back only when its own has come back.  What is written is always the
front of these lines, and how many of them are there in full can be told from the phase.

A handshake that fails says what went wrong.  The cause that it names is the error that came up,
and not a failure of the handshake again.

Main definitions:

* `LineChat.Side.Speaks` — **what a side may have written** for a stream;
* `LineChat.Side.Fails` — **what a failure says** about a stream;
* `LineChat.Side.Tidy` — the invariant: whole lines, one after the other.

Main results:

* `LineChat.Side.conducts_course` — what a course writes, and how it fails;
* `LineChat.Side.tidy_step` — every stage keeps the lines whole;
* `LineChat.Party.conducts_itself` — **outputs, phases and errors** of every run.
-/

import LineChat.Proofs.Handshake.ClientAcceptance
import LineChat.Proofs.Handshake.Handover
import LineChat.Proofs.Handshake.Run
import LineChat.Proofs.Handshake.ServerAcceptance

set_option autoImplicit false

namespace LineChat

/-! ### Lines one after the other -/

/-- The front of some lines begins with the first of them. -/
theorem front_of_frameLine {x y : String} {r s : Bytes} (hx : lineFeed ∉ Text.utf8 x)
    (hy : lineFeed ∉ Text.utf8 y) (h : frameLine x ++ r <+: frameLine y ++ s) :
    x = y ∧ r <+: s := by
  obtain ⟨t, ht⟩ := h
  have hlines : Text.utf8 x ++ lineFeed :: (r ++ t) = Text.utf8 y ++ lineFeed :: s := by
    simpa [frameLine] using ht
  have hfirst := congrArg Framing.untilFeed hlines
  have hrest := congrArg Framing.afterFeed? hlines
  rw [Framing.untilFeed_line hx, Framing.untilFeed_line hy] at hfirst
  rw [Framing.afterFeed?_line hx, Framing.afterFeed?_line hy] at hrest
  exact ⟨Text.utf8_injective hfirst, t, Option.some.inj hrest⟩

/-- **Whole lines at the front of others** are the first of them. -/
theorem prefix_of_flatMap_frameLine {xs ys : List String}
    (hxs : ∀ line ∈ xs, lineFeed ∉ Text.utf8 line) (hys : ∀ line ∈ ys, lineFeed ∉ Text.utf8 line)
    (h : xs.flatMap frameLine <+: ys.flatMap frameLine) : xs <+: ys := by
  induction xs generalizing ys with
  | nil => exact List.nil_prefix
  | cons x xs ih =>
      cases ys with
      | nil =>
          have hnil := List.prefix_nil.1 h
          simp [frameLine] at hnil
      | cons y ys =>
          rw [List.flatMap_cons, List.flatMap_cons] at h
          have hx : lineFeed ∉ Text.utf8 x := hxs x (List.mem_cons_self ..)
          have hy : lineFeed ∉ Text.utf8 y := hys y (List.mem_cons_self ..)
          obtain ⟨rfl, hrest⟩ := front_of_frameLine hx hy h
          have hxs' : ∀ line ∈ xs, lineFeed ∉ Text.utf8 line :=
            fun line hmem => hxs line (List.mem_cons_of_mem _ hmem)
          have hys' : ∀ line ∈ ys, lineFeed ∉ Text.utf8 line :=
            fun line hmem => hys line (List.mem_cons_of_mem _ hmem)
          exact (List.prefix_cons_inj x).2 (ih hxs' hys' hrest)

/-! ### What goes wrong with a line -/

/-- **An error that comes up when the parts of a message are read.** -/
inductive Misread (line : String) : LineError → Prop
  | username {name : String} {e : LineError} (hpart : name ∈ Text.words line)
      (h : checkUsername name = .error e) : Misread line e
  | challenge {encoded : String} {e : LineError}
      (hpart : encoded = line ∨ encoded ∈ Text.words line)
      (h : Challenge.ofBase64 encoded = .error e) : Misread line e
  | session {key iv : String} {e : LineError} (hkey : key ∈ Text.words line)
      (hiv : iv ∈ Text.words line) (h : SessionKey.ofBase64 key iv = .error e) : Misread line e

namespace LineCodec

variable {σ α : Type} [LineCipher σ] {codec : LineCodec σ} {what line reason : String}
  {read : String → Except HandshakeFailure α} {ended : Bool} {bytes written : Bytes}
  {breach : Option Breach} {go : α → LineCodec σ → Bytes → Course}
  {go' : LineCodec σ → Bytes → Course} {course : Course}

/-- **Why a line that is waited for is not taken.** -/
inductive Lacks (codec : LineCodec σ) (what : String) (read : String → Except HandshakeFailure α)
    (ended : Bool) (bytes : Bytes) : HandshakeFailure → Prop
  /-- It cannot be read, and the cause is the error of reading it. -/
  | unreadable {e : LineError} (hdecode : (codec.decode ended bytes).1 = .error e) :
      Lacks codec what read ended bytes ⟨s!"{what} unreadable", some e⟩
  /-- The stream has ended. -/
  | closed (hdecode : (codec.decode ended bytes).1 = .ok none) (hclosed : ended = true) :
      Lacks codec what read ended bytes ⟨s!"connection closed before {what}", none⟩
  /-- It is not what it should be, and a cause is the error of reading a part of it. -/
  | refused {line : String} {failure : HandshakeFailure}
      (hdecode : (codec.decode ended bytes).1 = .ok (some line))
      (hread : read line = .error failure)
      (hsource : ∀ e, failure.source = some e → Misread line e) :
      Lacks codec what read ended bytes failure

/-- **Why a line is not written**, if writing fails in one of some ways. -/
inductive Refuses (codec : LineCodec σ) (line reason : String) (breaches : Breach → Prop) :
    HandshakeFailure → Prop
  /-- There is no such line, and the cause is the error of writing it. -/
  | unwritable {e : LineError} (hencode : (codec.encode line).1 = .error e) :
      Refuses codec line reason breaches ⟨reason, some e⟩
  /-- Writing fails, and the cause is how it fails. -/
  | broken {b : Breach} (hbreach : breaches b) :
      Refuses codec line reason breaches ⟨reason, some (.ofIo b.failure)⟩

theorem Awaits.written_front (h : codec.Awaits what read ended bytes written go course)
    (hgo : ∀ a codec rest, written <+: (go a codec rest).written) : written <+: course.written := by
  cases h with
  | told hdecode hread => exact hgo _ _ _
  | silent hdecode hopen => exact List.prefix_refl _
  | refused hdecode hread => exact List.prefix_refl _
  | unreadable hdecode => exact List.prefix_refl _
  | closed hdecode hclosed => exact List.prefix_refl _

theorem Sends.written_front (h : codec.Sends line reason breach bytes written go' course)
    (hgo : ∀ codec written', written' <+: (go' codec written').written) :
    written <+: course.written := by
  cases h with
  | sent hencode => exact (List.prefix_append _ _).trans (hgo _ _)
  | refused hencode => exact List.prefix_refl _
  | broken hbreach hencode => exact List.prefix_append _ _

/-- A line that is waited for is there, or it is not yet, or there is something wrong. -/
theorem Awaits.told_or_lacks (h : codec.Awaits what read ended bytes written go course)
    (hread : ∀ line failure, read line = .error failure →
      ∀ e, failure.source = some e → Misread line e) :
    (∃ line a codec' rest, codec.decode ended bytes = (.ok (some line), codec', rest) ∧
        read line = .ok a ∧ course = go a codec' rest) ∨
      course = ⟨.waiting, written⟩ ∨
      ∃ failure framing rest, course = ⟨.rejected failure framing rest, written⟩ ∧
        codec.Lacks what read ended bytes failure := by
  cases h with
  | told hdecode htold => exact Or.inl ⟨_, _, _, _, hdecode, htold, rfl⟩
  | silent hdecode hopen => exact Or.inr (Or.inl rfl)
  | refused hdecode hrefused =>
      exact Or.inr (Or.inr ⟨_, _, _, rfl,
        .refused (congrArg Prod.fst hdecode) hrefused (hread _ _ hrefused)⟩)
  | unreadable hdecode =>
      exact Or.inr (Or.inr ⟨_, _, _, rfl, .unreadable (congrArg Prod.fst hdecode)⟩)
  | closed hdecode hclosed =>
      exact Or.inr (Or.inr ⟨_, _, _, rfl, .closed (congrArg Prod.fst hdecode) hclosed⟩)

/-- A line is written, or there is something wrong, and then it may be written in part. -/
theorem Sends.sent_or_refuses {breaches : Breach → Prop}
    (h : codec.Sends line reason breach bytes written go' course)
    (hbreaches : ∀ b, breach = some b → breaches b) :
    (∃ line' codec', codec.encode line = (.ok line', codec') ∧
        course = go' codec' (written ++ line')) ∨
      ∃ failure framing written', course = ⟨.rejected failure framing bytes, written'⟩ ∧
        codec.Refuses line reason breaches failure ∧
        (written' = written ∨ ∃ line' codec', codec.encode line = (.ok line', codec') ∧
          written' <+: written ++ line') := by
  cases h with
  | sent hencode => exact Or.inl ⟨_, _, hencode, rfl⟩
  | refused hencode =>
      exact Or.inr ⟨_, _, _, rfl, .unwritable (congrArg Prod.fst hencode), Or.inl rfl⟩
  | broken hbreach hencode =>
      refine Or.inr ⟨_, _, _, rfl, .broken (hbreaches _ hbreach), Or.inr ⟨_, _, hencode, ?_⟩⟩
      exact (List.prefix_append_right_inj _).2 (List.take_prefix _ _)

/-- What was written in an envelope is a line. -/
theorem envelope_of_encode {c c' : LineCodec EnvelopeCipher} {key : PublicKey} {own : PrivateKey}
    {seeds : Nat → Oaep.Seed} {line : String} {line' : Bytes}
    (h : c.encode line = (.ok line', c')) (hcipher : c.cipher = .between key own seeds)
    (hpolicy : c.policy = .fail) :
    ∃ envelope, key.seal? (seeds 0) (Text.utf8 line) = some envelope ∧
      line' = frameLine (Base64.encode envelope) ∧
      c' = { c with cipher := .between key own fun i => seeds (i + 1) } := by
  by_cases hline : hasLineEnd line = true
  · rw [encode_of_hasLineEnd hline] at h
    cases h
  · rcases encode_envelope hcipher hpolicy (by simpa using hline) with
      ⟨envelope, hseal, hencode⟩ | ⟨-, e, c₁, hencode⟩
    · rw [hencode] at h
      obtain ⟨hwritten, rfl⟩ := Prod.mk.inj h
      exact ⟨envelope, hseal, (Except.ok.inj hwritten).symm, rfl⟩
    · rw [hencode] at h
      cases h

/-- What was written under a session key is a line. -/
theorem sealLine_of_encode {c c' : LineCodec SessionCipher} {session : SessionKey} {role : Role}
    {mode : KeystreamMode} {maxLines : UInt64} {sent received : Nat} {line : String}
    {line' : Bytes} (h : c.encode line = (.ok line', c'))
    (hcipher : c.cipher = SessionCipher.counted session role mode maxLines sent received) :
    line' = frameLine (sealLine session mode role sent line) := by
  rcases encode_counted hcipher line with ⟨e, hencode⟩ | ⟨-, -, hencode⟩
  · rw [hencode] at h
    cases h
  · rw [hencode] at h
    exact (Except.ok.inj (congrArg Prod.fst h)).symm

theorem dispatch_eq_ok {codec' : LineCodec σ} {written' : Bytes}
    (h : codec.dispatch line breach written = (.ok (), codec', written')) :
    ∃ line', codec.encode line = (.ok line', codec') ∧ written' = written ++ line' := by
  rcases hencode : codec.encode line with ⟨e | line', codec₁⟩
  · simp only [dispatch, hencode] at h
    cases h
  · simp only [dispatch, hencode, Connection.write] at h
    by_cases hnothing : line' = []
    · rw [if_pos hnothing] at h
      obtain ⟨-, hleft⟩ := Prod.mk.inj h
      obtain ⟨rfl, rfl⟩ := Prod.mk.inj hleft
      exact ⟨line', rfl, by rw [hnothing, List.append_nil]⟩
    · rw [if_neg hnothing] at h
      cases breach with
      | none =>
          obtain ⟨-, hleft⟩ := Prod.mk.inj h
          obtain ⟨rfl, rfl⟩ := Prod.mk.inj hleft
          exact ⟨line', rfl, rfl⟩
      | some b => cases h

end LineCodec

/-! ### What is wrong with a message -/

theorem getD_mem_of_tokens {count i : Nat} {command line : String} {parts : List String}
    (h : tokens count command line = .ok parts) (hi : i < count) :
    parts.getD i "" ∈ Text.words line := by
  obtain ⟨rfl, hlen, -⟩ := tokens_eq_ok_iff.1 h
  have hlt : i < (Text.words line).length := by omega
  rw [List.getD_eq_getElem?_getD, List.getElem?_eq_getElem hlt, Option.getD_some]
  exact List.getElem_mem hlt

theorem source_of_orFail {α : Type} {reason : String} {r : Except LineError α}
    {failure : HandshakeFailure} (h : orFail reason r = .error failure) {e : LineError}
    (he : failure.source = some e) : r = .error e := by
  obtain ⟨e', hr, rfl⟩ := orFail_eq_error_iff.1 h
  rw [hr, Option.some.inj he]

theorem source_of_tokens {count : Nat} {command line : String} {failure : HandshakeFailure}
    (h : tokens count command line = .error failure) : failure.source = none := by
  rcases tokens_eq_error_iff.1 h with ⟨-, rfl⟩ | ⟨-, -, rfl⟩ <;> rfl

theorem Authenticate.misread_of_parse {line : String} {failure : HandshakeFailure}
    (h : Authenticate.parse line = .error failure) {e : LineError}
    (he : failure.source = some e) : Misread line e := by
  rcases bind_eq_error_iff.1 h with htokens | ⟨parts, htokens, h⟩
  · rw [source_of_tokens htokens] at he
    cases he
  · rcases bind_eq_error_iff.1 h with hname | ⟨_, hname, h⟩
    · exact .username (getD_mem_of_tokens htokens (by omega)) (source_of_orFail hname he)
    · rcases bind_eq_error_iff.1 h with hchallenge | ⟨challenge, hchallenge, h⟩
      · exact .challenge (Or.inr (getD_mem_of_tokens htokens (by omega)))
          (source_of_orFail hchallenge he)
      · cases h

theorem ServerOk.misread_of_parse {line : String} {failure : HandshakeFailure}
    (h : ServerOk.parse line = .error failure) {e : LineError}
    (he : failure.source = some e) : Misread line e := by
  rcases bind_eq_error_iff.1 h with htokens | ⟨parts, htokens, h⟩
  · rw [source_of_tokens htokens] at he
    cases he
  · have hpart : ∀ i, i < 5 → parts.getD i "" ∈ Text.words line :=
      fun i hi => getD_mem_of_tokens htokens hi
    rcases bind_eq_error_iff.1 h with hclient | ⟨client, -, h⟩
    · exact .challenge (Or.inr (hpart 1 (by omega))) (source_of_orFail hclient he)
    · rcases bind_eq_error_iff.1 h with hserver | ⟨server, -, h⟩
      · exact .challenge (Or.inr (hpart 2 (by omega))) (source_of_orFail hserver he)
      · rcases bind_eq_error_iff.1 h with hsession | ⟨session, -, h⟩
        · exact .session (hpart 3 (by omega)) (hpart 4 (by omega)) (source_of_orFail hsession he)
        · cases h

theorem ServerHandshake.misread_of_identify {h : ServerHandshake} {line : String}
    {failure : HandshakeFailure} (hidentify : h.identify line = .error failure) {e : LineError}
    (he : failure.source = some e) : Misread line e := by
  rcases bind_eq_error_iff.1 hidentify with hparse | ⟨auth, hparse, hkey⟩
  · exact Authenticate.misread_of_parse hparse he
  · cases hdir : h.directory auth.username with
    | none =>
        rw [hdir] at hkey
        cases hkey
        cases he
    | some key =>
        rw [hdir] at hkey
        cases hkey

theorem ServerHandshake.misread_of_recognise {h : ServerHandshake} {line : String}
    {failure : HandshakeFailure} (hrecognise : h.recognise line = .error failure) {e : LineError}
    (he : failure.source = some e) : Misread line e := by
  rcases bind_eq_error_iff.1 hrecognise with hread | ⟨echoed, -, hother⟩
  · exact .challenge (Or.inl rfl) (source_of_orFail hread he)
  · split at hother
    · cases hother
      cases he
    · cases hother

theorem ClientHandshake.misread_of_accept {h : ClientHandshake} {line : String}
    {failure : HandshakeFailure} (haccept : h.accept line = .error failure) {e : LineError}
    (he : failure.source = some e) : Misread line e := by
  rcases bind_eq_error_iff.1 haccept with hparse | ⟨reply, -, hother⟩
  · exact ServerOk.misread_of_parse hparse he
  · split at hother
    · cases hother
      cases he
    · cases hother

/-! ### What a side says -/

namespace Side

/-- **What a side may have written** for a stream: the server the answer to a first message, and the
client its first message, and the challenge of the server if it was answered. -/
inductive Speaks (ended : Bool) (f : Framing) (stream : Bytes) : Side → List String → Prop
  | silence (side : Side) : Speaks ended f stream side []
  | answer {h : ServerHandshake} {s : ServerHandshake.State} {auth : Authenticate} {f₁ : Framing}
      {rest envelope : Bytes} (hasks : h.Asks ended f stream auth f₁ rest)
      (hreplies : h.Replies auth envelope) :
      Speaks ended f stream (server h s) [Base64.encode envelope]
  | introduction {h : ClientHandshake} {s : ClientHandshake.State} {envelope : Bytes}
      (hseal : h.serverKey.seal? (h.seeds 0) (Text.utf8 h.introduction.render) = some envelope) :
      Speaks ended f stream (client h s) [Base64.encode envelope]
  | confirmation {h : ClientHandshake} {s : ClientHandshake.State} {envelope : Bytes}
      {challenge : Challenge} {session : SessionKey} {f₁ : Framing} {rest : Bytes}
      (hseal : h.serverKey.seal? (h.seeds 0) (Text.utf8 h.introduction.render) = some envelope)
      (hanswered : h.Answered ended f stream challenge session f₁ rest) :
      Speaks ended f stream (client h s) [Base64.encode envelope,
        sealLine session h.options.mode .initiator 0 challenge.toBase64]

/-- **What a failure says about a stream**: which message was missing or wrong, or could not be
written.  Its cause is an error of this message, if there is one. -/
inductive Fails (breaches : Breach → Prop) (ended : Bool) (f : Framing) (stream : Bytes) :
    Side → HandshakeFailure → Prop
  | unasked {h : ServerHandshake} {s : ServerHandshake.State} {failure : HandshakeFailure}
      (hlacks : (LineCodec.strict f (EnvelopeCipher.openOnly h.key h.seeds)).Lacks "message 1"
        h.identify ended stream failure) :
      Fails breaches ended f stream (server h s) failure
  | unanswered {h : ServerHandshake} {s : ServerHandshake.State} {failure : HandshakeFailure}
      {auth : Authenticate} {f₁ : Framing} {rest : Bytes} {key : PublicKey}
      (hasks : h.Asks ended f stream auth f₁ rest) (hkey : h.directory auth.username = some key)
      (hrefuses : (LineCodec.strict f₁ (EnvelopeCipher.between key h.key h.seeds)).Refuses
        (h.reply auth).render "server handshake aborted" breaches failure) :
      Fails breaches ended f stream (server h s) failure
  | unechoed {h : ServerHandshake} {s : ServerHandshake.State} {failure : HandshakeFailure}
      {auth : Authenticate} {f₁ : Framing} {rest envelope : Bytes}
      (hasks : h.Asks ended f stream auth f₁ rest) (hreplies : h.Replies auth envelope)
      (hlacks : (LineCodec.strict f₁ (h.options.cipher h.session .responder)).Lacks "message 3"
        h.recognise ended rest failure) :
      Fails breaches ended f stream (server h s) failure
  | unsent {h : ClientHandshake} {s : ClientHandshake.State} {failure : HandshakeFailure}
      (hrefuses : (LineCodec.strict f (EnvelopeCipher.between h.serverKey h.key h.seeds)).Refuses
        h.introduction.render "client handshake aborted" breaches failure) :
      Fails breaches ended f stream (client h s) failure
  | unheard {h : ClientHandshake} {s : ClientHandshake.State} {failure : HandshakeFailure}
      (hlacks : (LineCodec.strict f
        (EnvelopeCipher.between h.serverKey h.key fun i => h.seeds (i + 1))).Lacks "message 2"
        h.accept ended stream failure) :
      Fails breaches ended f stream (client h s) failure
  | unconfirmed {h : ClientHandshake} {s : ClientHandshake.State} {failure : HandshakeFailure}
      {challenge : Challenge} {session : SessionKey} {f₁ : Framing} {rest : Bytes}
      (hanswered : h.Answered ended f stream challenge session f₁ rest)
      (hrefuses : (LineCodec.strict f₁ (h.options.cipher session .initiator)).Refuses
        challenge.toBase64 "client handshake aborted" breaches failure) :
      Fails breaches ended f stream (client h s) failure

variable {breaches : Breach → Prop} {ended : Bool} {f : Framing} {stream : Bytes} {side : Side}
  {lines lines' : List String}

theorem Speaks.lineFeed_notMem (h : side.Speaks ended f stream lines) :
    ∀ line ∈ lines, lineFeed ∉ Text.utf8 line := by
  cases h with
  | silence => simp
  | answer hasks hreplies => simp [lineFeed_notMem_encodeBytes]
  | introduction hseal => simp [lineFeed_notMem_encodeBytes]
  | confirmation hseal hanswered => simp [lineFeed_notMem_encodeBytes, lineFeed_notMem_sealLine]

/-- The messages are written in order. -/
theorem Speaks.of_front (h : side.Speaks ended f stream lines) (hfront : lines' <+: lines) :
    side.Speaks ended f stream lines' := by
  cases h with
  | silence =>
      obtain rfl := List.prefix_nil.1 hfront
      exact .silence _
  | answer hasks hreplies =>
      rcases List.prefix_cons_iff.1 hfront with rfl | ⟨l, rfl, hl⟩
      · exact .silence _
      · obtain rfl := List.prefix_nil.1 hl
        exact .answer hasks hreplies
  | introduction hseal =>
      rcases List.prefix_cons_iff.1 hfront with rfl | ⟨l, rfl, hl⟩
      · exact .silence _
      · obtain rfl := List.prefix_nil.1 hl
        exact .introduction hseal
  | confirmation hseal hanswered =>
      rcases List.prefix_cons_iff.1 hfront with rfl | ⟨l, rfl, hl⟩
      · exact .silence _
      · rcases List.prefix_cons_iff.1 hl with rfl | ⟨l', rfl, hl'⟩
        · exact .introduction hseal
        · obtain rfl := List.prefix_nil.1 hl'
          exact .confirmation hseal hanswered

/-- **What a course writes, and how it fails.** -/
structure Conducts (breaches : Breach → Prop) (ended : Bool) (f : Framing) (stream : Bytes)
    (side : Side) (course : Course) : Prop where
  speaks : ∃ lines, side.Speaks ended f stream lines ∧ course.written <+: lines.flatMap frameLine
  fails : ∀ failure framing rest, course.ending = .rejected failure framing rest →
    side.Fails breaches ended f stream failure

theorem conducts_waiting (h : side.Speaks ended f stream lines) :
    side.Conducts breaches ended f stream ⟨.waiting, lines.flatMap frameLine⟩ := by
  refine ⟨⟨lines, h, List.prefix_refl _⟩, ?_⟩
  intro failure framing rest he
  cases he

theorem conducts_established {username : String} {codec : LineCodec SessionCipher} {rest : Bytes}
    (h : side.Speaks ended f stream lines) :
    side.Conducts breaches ended f stream
      ⟨.established username codec rest, lines.flatMap frameLine⟩ := by
  refine ⟨⟨lines, h, List.prefix_refl _⟩, ?_⟩
  intro failure framing rest he
  cases he

theorem conducts_rejected {failure : HandshakeFailure} {framing : Framing} {rest written : Bytes}
    (h : side.Speaks ended f stream lines) (hwritten : written <+: lines.flatMap frameLine)
    (hfails : side.Fails breaches ended f stream failure) :
    side.Conducts breaches ended f stream ⟨.rejected failure framing rest, written⟩ := by
  refine ⟨⟨lines, h, hwritten⟩, ?_⟩
  intro failure' framing' rest' he
  cases he
  exact hfails

@[simp] theorem flatMap_one (line : String) : [line].flatMap frameLine = frameLine line := by
  rw [List.flatMap_cons, List.flatMap_nil, List.append_nil]

section

variable {h : ServerHandshake} {s : ServerHandshake.State} {auth : Authenticate} {f₁ : Framing}
  {rest envelope : Bytes} {first : Option Breach}

theorem conducts_conclude (hasks : h.Asks ended f stream auth f₁ rest)
    (hreplies : h.Replies auth envelope) (username : String) :
    (server h s).Conducts breaches ended f stream
      (h.conclude ended username (.strict f₁ (h.options.cipher h.session .responder)) rest
        (frameLine (Base64.encode envelope))) := by
  have hanswer : (server h s).Speaks ended f stream [Base64.encode envelope] :=
    .answer hasks hreplies
  have hawaits := h.conclude_awaits ended username
    (.strict f₁ (h.options.cipher h.session .responder)) rest (frameLine (Base64.encode envelope))
  rw [← flatMap_one] at hawaits ⊢
  rcases hawaits.told_or_lacks fun _ _ hread _ he =>
      ServerHandshake.misread_of_recognise hread he with
    ⟨line, _, codec, rest, hdecode, hread, hcourse⟩ | hwaiting |
    ⟨failure, framing, rest, hrejected, hlacks⟩
  · rw [hcourse]
    exact conducts_established hanswer
  · rw [hwaiting]
    exact conducts_waiting hanswer
  · rw [hrejected]
    exact conducts_rejected hanswer (List.prefix_refl _) (.unechoed hasks hreplies hlacks)

theorem conducts_respond (hfirst : ∀ b, first = some b → breaches b)
    (hasks : h.Asks ended f stream auth f₁ rest) {key : PublicKey}
    (hkey : h.directory auth.username = some key) (cipher : EnvelopeCipher) :
    (server h s).Conducts breaches ended f stream
      (h.respond first ended (.strict f₁ cipher) auth key rest []) := by
  have hsilence : (server h s).Speaks ended f stream [] := .silence _
  have hsends := h.respond_sends first ended (.strict f₁ cipher) auth key rest []
  rcases hsends.sent_or_refuses hfirst with
    ⟨line, codec, hencode, hcourse⟩ | ⟨failure, framing, written, hcourse, hrefuses, hwritten⟩
  · obtain ⟨envelope, hseal, rfl, rfl⟩ := LineCodec.envelope_of_encode hencode rfl rfl
    rw [hcourse]
    exact conducts_conclude hasks (.of_seal? hkey hseal) auth.username
  · have hfails : (server h s).Fails breaches ended f stream failure :=
      .unanswered hasks hkey hrefuses
    rw [hcourse]
    rcases hwritten with rfl | ⟨line, codec, hencode, hfront⟩
    · exact conducts_rejected hsilence List.nil_prefix hfails
    · obtain ⟨envelope, hseal, rfl, -⟩ := LineCodec.envelope_of_encode hencode rfl rfl
      have hanswer : (server h s).Speaks ended f stream [Base64.encode envelope] :=
        .answer hasks (.of_seal? hkey hseal)
      refine conducts_rejected hanswer ?_ hfails
      rw [flatMap_one]
      exact hfront

theorem conducts_server (h : ServerHandshake) (s : ServerHandshake.State)
    (hfirst : ∀ b, first = some b → breaches b) (ended : Bool) (f : Framing) (stream : Bytes) :
    (server h s).Conducts breaches ended f stream (h.course first ended f stream) := by
  have hsilence : (server h s).Speaks ended f stream [] := .silence _
  have hawaits := h.identifying_awaits first ended (.strict f (.openOnly h.key h.seeds)) stream []
  rw [ServerHandshake.course]
  rcases hawaits.told_or_lacks fun _ _ hread _ he =>
      ServerHandshake.misread_of_identify hread he with
    ⟨line, ⟨auth, key⟩, codec, rest, hdecode, hidentify, hcourse⟩ | hwaiting |
    ⟨failure, framing, rest, hrejected, hlacks⟩
  · obtain ⟨text, f₁, cipher, hplain, hdecrypt, rfl⟩ := (LineCodec.decode_eq_line_iff rfl).1 hdecode
    obtain ⟨hparse, hkey⟩ := ServerHandshake.identify_eq_ok_iff.1 hidentify
    have hasks : h.Asks ended f stream auth f₁ rest :=
      (ServerHandshake.asks_iff hplain hdecrypt).2 ⟨hparse, rfl, rfl⟩
    rw [hcourse]
    exact conducts_respond hfirst hasks hkey cipher
  · rw [hwaiting]
    exact conducts_waiting hsilence
  · rw [hrejected]
    exact conducts_rejected hsilence List.nil_prefix (.unasked hlacks)

end

section

variable {h : ClientHandshake} {s : ClientHandshake.State} {challenge : Challenge}
  {session : SessionKey} {f₁ : Framing} {rest envelope : Bytes} {first second : Option Breach}

theorem conducts_confirm (hsecond : ∀ b, second = some b → breaches b)
    (hseal : h.serverKey.seal? (h.seeds 0) (Text.utf8 h.introduction.render) = some envelope)
    (hanswered : h.Answered ended f stream challenge session f₁ rest) (cipher : EnvelopeCipher) :
    (client h s).Conducts breaches ended f stream
      (h.conclude second (.strict f₁ cipher) ⟨h.challenge, challenge, session⟩ rest
        (frameLine (Base64.encode envelope))) := by
  have hintroduction : (client h s).Speaks ended f stream [Base64.encode envelope] :=
    .introduction hseal
  have hconfirmation : (client h s).Speaks ended f stream [Base64.encode envelope,
      sealLine session h.options.mode .initiator 0 challenge.toBase64] :=
    .confirmation hseal hanswered
  have hboth : [Base64.encode envelope,
      sealLine session h.options.mode .initiator 0 challenge.toBase64].flatMap frameLine =
        frameLine (Base64.encode envelope) ++
          frameLine (sealLine session h.options.mode .initiator 0 challenge.toBase64) := by
    rw [List.flatMap_cons, flatMap_one]
  have hcipher :
      ((LineCodec.strict f₁ cipher).withCipher (h.options.cipher session .initiator)).cipher =
        SessionCipher.counted session .initiator h.options.mode h.options.maxLines 0 0 := rfl
  have hsends := h.conclude_sends second (.strict f₁ cipher) ⟨h.challenge, challenge, session⟩ rest
    (frameLine (Base64.encode envelope))
  rcases hsends.sent_or_refuses hsecond with
    ⟨line, codec, hencode, hcourse⟩ | ⟨failure, framing, written, hcourse, hrefuses, hwritten⟩
  · have hline := LineCodec.sealLine_of_encode hencode hcipher
    rw [hcourse, hline, ← hboth]
    exact conducts_established hconfirmation
  · have hfails : (client h s).Fails breaches ended f stream failure :=
      .unconfirmed hanswered hrefuses
    rw [hcourse]
    rcases hwritten with rfl | ⟨line, codec, hencode, hfront⟩
    · rw [← flatMap_one]
      exact conducts_rejected hintroduction (List.prefix_refl _) hfails
    · have hline := LineCodec.sealLine_of_encode hencode hcipher
      rw [hline, ← hboth] at hfront
      exact conducts_rejected hconfirmation hfront hfails

theorem conducts_accepting (hsecond : ∀ b, second = some b → breaches b)
    (hseal : h.serverKey.seal? (h.seeds 0) (Text.utf8 h.introduction.render) = some envelope) :
    (client h s).Conducts breaches ended f stream
      (h.accepting second ended
        (.strict f (.between h.serverKey h.key fun i => h.seeds (i + 1))) stream
        (frameLine (Base64.encode envelope))) := by
  have hintroduction : (client h s).Speaks ended f stream [Base64.encode envelope] :=
    .introduction hseal
  have hawaits := h.accepting_awaits second ended
    (.strict f (.between h.serverKey h.key fun i => h.seeds (i + 1))) stream
    (frameLine (Base64.encode envelope))
  rcases hawaits.told_or_lacks fun _ _ hread _ he =>
      ClientHandshake.misread_of_accept hread he with
    ⟨line, ⟨client, challenge, session⟩, codec, rest, hdecode, haccept, hcourse⟩ | hwaiting |
    ⟨failure, framing, rest, hrejected, hlacks⟩
  · obtain ⟨text, f₁, cipher, -, hdecrypt, rfl⟩ := (LineCodec.decode_eq_line_iff rfl).1 hdecode
    have hcipher := ((EnvelopeCipher.decrypt_eq_ok_iff rfl).1 hdecrypt).1
    subst hcipher
    obtain rfl : client = h.challenge := (ClientHandshake.accept_eq_ok_iff.1 haccept).2
    have hanswered : h.Answered ended f stream challenge session f₁ rest :=
      (ClientHandshake.answered_iff rfl rfl).2 ⟨line, hdecode, haccept⟩
    rw [hcourse]
    exact conducts_confirm hsecond hseal hanswered _
  · rw [hwaiting, ← flatMap_one]
    exact conducts_waiting hintroduction
  · rw [hrejected, ← flatMap_one]
    exact conducts_rejected hintroduction (List.prefix_refl _) (.unheard hlacks)

theorem conducts_client (h : ClientHandshake) (s : ClientHandshake.State)
    (hfirst : ∀ b, first = some b → breaches b) (hsecond : ∀ b, second = some b → breaches b)
    (ended : Bool) (f : Framing) (stream : Bytes) :
    (client h s).Conducts breaches ended f stream (h.course first second ended f stream) := by
  have hsilence : (client h s).Speaks ended f stream [] := .silence _
  have hsends := h.introducing_sends first second ended f stream []
  rw [ClientHandshake.course]
  rcases hsends.sent_or_refuses hfirst with
    ⟨line, codec, hencode, hcourse⟩ | ⟨failure, framing, written, hcourse, hrefuses, hwritten⟩
  · obtain ⟨envelope, hseal, rfl, rfl⟩ := LineCodec.envelope_of_encode hencode rfl rfl
    rw [hcourse]
    exact conducts_accepting hsecond hseal
  · have hfails : (client h s).Fails breaches ended f stream failure := .unsent hrefuses
    rw [hcourse]
    rcases hwritten with rfl | ⟨line, codec, hencode, hfront⟩
    · exact conducts_rejected hsilence List.nil_prefix hfails
    · obtain ⟨envelope, hseal, rfl, -⟩ := LineCodec.envelope_of_encode hencode rfl rfl
      refine conducts_rejected (.introduction hseal) ?_ hfails
      rw [flatMap_one]
      exact hfront

end

/-- **What a course writes, and how it fails.** -/
theorem conducts_course (side : Side) {first second : Option Breach}
    (hfirst : ∀ b, first = some b → breaches b) (hsecond : ∀ b, second = some b → breaches b)
    (ended : Bool) (f : Framing) (stream : Bytes) :
    side.Conducts breaches ended f stream (side.course first second ended f stream) := by
  cases side with
  | server h s => exact conducts_server h s hfirst ended f stream
  | client h s => exact conducts_client h s hfirst hsecond ended f stream

/-- What has been written stays written. -/
theorem outgoing_prefix_outlook (side : Side) (c : Connection) (first second : Option Breach)
    (ended : Bool) (more : Bytes) :
    c.outgoing <+: (side.outlook first second ended c more).written := by
  have hserver : ∀ (h : ServerHandshake) username codec bytes written,
      written <+: (h.conclude ended username codec bytes written).written :=
    fun h _ _ _ _ => (h.conclude_awaits ..).written_front fun _ _ _ => List.prefix_refl _
  have hrespond : ∀ (h : ServerHandshake) codec auth key bytes written,
      written <+: (h.respond first ended codec auth key bytes written).written :=
    fun h _ _ _ _ _ => (h.respond_sends ..).written_front fun _ _ => hserver _ _ _ _ _
  have hidentifying : ∀ (h : ServerHandshake) codec bytes written,
      written <+: (h.identifying first ended codec bytes written).written :=
    fun h _ _ _ => (h.identifying_awaits ..).written_front fun _ _ _ => hrespond _ _ _ _ _ _
  have hconclude : ∀ (h : ClientHandshake) codec reply bytes written,
      written <+: (h.conclude second codec reply bytes written).written :=
    fun h _ _ _ _ => (h.conclude_sends ..).written_front fun _ _ => List.prefix_refl _
  have haccepting : ∀ (h : ClientHandshake) codec bytes written,
      written <+: (h.accepting second ended codec bytes written).written :=
    fun h _ _ _ => (h.accepting_awaits ..).written_front fun _ _ _ => hconclude _ _ _ _ _
  have hintroducing : ∀ (h : ClientHandshake) f bytes written,
      written <+: (h.introducing first second ended f bytes written).written :=
    fun h _ _ _ => (h.introducing_sends ..).written_front fun _ _ => haccepting _ _ _ _
  cases side with
  | server h s =>
      cases s with
      | start raw => exact hidentifying h _ _ _
      | awaitingAuth l => exact hidentifying h _ _ _
      | awaitingEcho l username => exact hserver h _ _ _ _
      | established e => exact List.prefix_refl _
      | rejected r => exact List.prefix_refl _
  | client h s =>
      cases s with
      | start raw => exact hintroducing h _ _ _
      | sentAuth l => exact haccepting h _ _ _
      | awaitingOk l => exact haccepting h _ _ _
      | established e => exact List.prefix_refl _
      | rejected r => exact List.prefix_refl _

/-! ### Whole lines -/

/-- Some lines that were written one after the other. -/
def Wrote (count : Nat) (bytes : Bytes) : Prop :=
  ∃ lines : List String, lines.length = count ∧ (∀ line ∈ lines, lineFeed ∉ Text.utf8 line) ∧
    bytes = lines.flatMap frameLine

theorem wrote_nothing : Wrote 0 [] := ⟨[], rfl, nofun, rfl⟩

theorem Wrote.snoc {count : Nat} {bytes : Bytes} {line : String} (h : Wrote count bytes)
    (hline : lineFeed ∉ Text.utf8 line) : Wrote (count + 1) (bytes ++ frameLine line) := by
  obtain ⟨lines, hlength, hlines, rfl⟩ := h
  refine ⟨lines ++ [line], by simp [hlength], ?_, ?_⟩
  · intro line' hmem
    rcases List.mem_append.1 hmem with hmem | hmem
    · exact hlines line' hmem
    · rw [List.mem_singleton.1 hmem]
      exact hline
  · rw [List.flatMap_append, flatMap_one]

/-- How many lines a side has written in the phase it is in, if it has not failed. -/
def told : Side → Nat
  | server _ (.awaitingEcho _ _) | server _ (.established _) => 1
  | client _ (.sentAuth _) | client _ (.awaitingOk _) => 1
  | client _ (.established _) => 2
  | _ => 0

/-- A server that waits for the first message skips nothing. -/
def Strict : Side → Prop
  | server _ (.awaitingAuth l) => l.format.policy = .fail
  | _ => True

/-- **The invariant**: a side has written whole lines, as many as its phase says, unless it has
failed. -/
structure Tidy (side : Side) (c : Connection) : Prop where
  wrote : side.phase ≠ .failed → Wrote side.told c.outgoing
  strict : side.Strict

variable {c : Connection}

theorem Tidy.wrote_told (h : side.Tidy c) (phase : HandshakePhase) (hphase : side.phase = phase)
    (hne : phase ≠ .failed) : Wrote side.told c.outgoing := by
  rw [← hphase] at hne
  exact h.wrote hne

theorem tidy_rejected_server (h : ServerHandshake) (r : Rejected) (c : Connection) :
    (server h (.rejected r)).Tidy c :=
  ⟨fun hphase => absurd rfl hphase, trivial⟩

theorem tidy_rejected_client (h : ClientHandshake) (r : Rejected) (c : Connection) :
    (client h (.rejected r)).Tidy c :=
  ⟨fun hphase => absurd rfl hphase, trivial⟩

theorem tidy_answer (h : ServerHandshake) {l : EnvelopeLink} (auth : Authenticate)
    (key : PublicKey) (hpolicy : l.format.policy = .fail) (hwrote : Wrote 0 c.outgoing) :
    (server h (h.answer l auth key c).1).Tidy (h.answer l auth key c).2 := by
  obtain ⟨result, codec, written, hdispatch, hsend⟩ :=
    Link.exists_send (l.withCipher (EnvelopeCipher.between key h.key h.seeds))
      (h.reply auth).render c
  rw [ServerHandshake.answer, hsend]
  cases result with
  | error e => exact tidy_rejected_server h _ _
  | ok _ =>
      obtain ⟨line, hencode, rfl⟩ := LineCodec.dispatch_eq_ok hdispatch
      obtain ⟨envelope, -, rfl, -⟩ := LineCodec.envelope_of_encode hencode rfl hpolicy
      refine ⟨fun _ => hwrote.snoc ?_, trivial⟩
      simp [lineFeed_notMem_encodeBytes]

theorem tidy_introduce (h : ClientHandshake) (raw : PlainLink) (hwrote : Wrote 0 c.outgoing) :
    (client h (h.introduce raw c).1).Tidy (h.introduce raw c).2 := by
  obtain ⟨result, codec, written, hdispatch, hsend⟩ := Link.exists_send
    (raw.upgrade (EnvelopeCipher.between h.serverKey h.key h.seeds)) h.introduction.render c
  rw [ClientHandshake.introduce, hsend]
  cases result with
  | error e => exact tidy_rejected_client h _ _
  | ok _ =>
      obtain ⟨line, hencode, rfl⟩ := LineCodec.dispatch_eq_ok hdispatch
      obtain ⟨envelope, -, rfl, -⟩ := LineCodec.envelope_of_encode hencode rfl rfl
      refine ⟨fun _ => hwrote.snoc ?_, trivial⟩
      simp [lineFeed_notMem_encodeBytes]

theorem tidy_confirm (h : ClientHandshake) (l : EnvelopeLink) (reply : ServerOk)
    (hwrote : Wrote 1 c.outgoing) :
    (client h (h.confirm l reply c).1).Tidy (h.confirm l reply c).2 := by
  obtain ⟨result, codec, written, hdispatch, hsend⟩ := Link.exists_send
    (l.withCipher (h.options.cipher reply.session .initiator)) reply.serverChallenge.toBase64 c
  have hcipher : (l.withCipher (h.options.cipher reply.session .initiator)).format.cipher =
      SessionCipher.counted reply.session .initiator h.options.mode h.options.maxLines 0 0 := rfl
  rw [ClientHandshake.confirm, hsend]
  cases result with
  | error e => exact tidy_rejected_client h _ _
  | ok _ =>
      obtain ⟨line, hencode, rfl⟩ := LineCodec.dispatch_eq_ok hdispatch
      have hline := LineCodec.sealLine_of_encode hencode hcipher
      rw [hline]
      refine ⟨fun _ => hwrote.snoc ?_, trivial⟩
      exact lineFeed_notMem_sealLine _ _ _ _ _

theorem tidy_awaitingAuth (h : ServerHandshake) {l : EnvelopeLink} (hready : l.Ready)
    (hpolicy : l.format.policy = .fail) (hwrote : Wrote 0 c.outgoing) :
    (server h (h.step (.awaitingAuth l) c).1).Tidy (h.step (.awaitingAuth l) c).2 := by
  have hnext : l.Next c c.finished [] (l.poll c) :=
    Link.next_poll hready hpolicy fun hf => ⟨hf, rfl⟩
  rw [ServerHandshake.step]
  generalize l.poll c = polled at hnext ⊢
  cases hnext with
  | waiting hfinished hready' hpolicy' hcipher hrest hnone =>
      exact ⟨fun _ => hwrote, hpolicy'⟩
  | @line l' incoming text plaintext hpolicy' hplain hdecrypt =>
      simp only [awaited]
      rcases h.identify plaintext with failure | ⟨auth, key⟩
      · exact tidy_rejected_server h _ _
      · exact tidy_answer h auth key hpolicy' hwrote
  | refused hpolled hplain =>
      rcases hpolled with rfl | ⟨e, rfl⟩
      · exact tidy_rejected_server h _ _
      · exact tidy_rejected_server h _ _

/-- Asking for a line writes nothing. -/
theorem outgoing_poll {σ : Type} [LineCipher σ] {l : Link (LineCodec σ)} (hready : l.Ready) :
    (l.poll c).2.2.outgoing = c.outgoing := by
  have hhears : l.Hears c c.finished [] (l.poll c) := Link.hears hready fun hf => ⟨hf, rfl⟩
  generalize l.poll c = polled at hhears ⊢
  cases hhears with
  | waits hfinished hready' hd hnone => rfl
  | told hsound hne hd => rfl

theorem tidy_awaitingEcho (h : ServerHandshake) {l : SecureLink} (username : String)
    (hready : l.Ready) (hwrote : Wrote 1 c.outgoing) :
    (server h (h.step (.awaitingEcho l username) c).1).Tidy
      (h.step (.awaitingEcho l username) c).2 := by
  rw [← outgoing_poll hready] at hwrote
  rw [ServerHandshake.step]
  generalize l.poll c = polled at hwrote ⊢
  obtain ⟨polled, l', c'⟩ := polled
  simp only [h.judge_eq]
  rcases awaited "message 3" polled with _ | failure | line
  · exact ⟨fun _ => hwrote, trivial⟩
  · exact tidy_rejected_server h _ _
  · simp only
    rcases h.recognise line with failure | _
    · exact tidy_rejected_server h _ _
    · exact ⟨fun _ => hwrote, trivial⟩

theorem tidy_awaitingOk (h : ClientHandshake) {l : EnvelopeLink} (hready : l.Ready)
    (hwrote : Wrote 1 c.outgoing) :
    (client h (h.step (.awaitingOk l) c).1).Tidy (h.step (.awaitingOk l) c).2 := by
  rw [← outgoing_poll hready] at hwrote
  rw [ClientHandshake.step]
  generalize l.poll c = polled at hwrote ⊢
  obtain ⟨polled, l', c'⟩ := polled
  simp only
  rcases awaited "message 2" polled with _ | failure | line
  · exact ⟨fun _ => hwrote, trivial⟩
  · exact tidy_rejected_client h _ _
  · simp only
    rcases h.accept line with failure | reply
    · exact tidy_rejected_client h _ _
    · exact tidy_confirm h l' reply hwrote

/-- **Every stage keeps the lines whole.** -/
theorem tidy_step (hsane : side.Sane c) (htidy : side.Tidy c) :
    (side.step c).1.Tidy (side.step c).2 := by
  cases side with
  | server h s =>
      cases s with
      | start raw => exact ⟨fun _ => htidy.wrote_told .start rfl (by decide), rfl⟩
      | awaitingAuth l =>
          have hwrote : Wrote 0 c.outgoing := htidy.wrote_told .awaitingClientAuth rfl (by decide)
          exact tidy_awaitingAuth h hsane htidy.strict hwrote
      | awaitingEcho l username =>
          have hwrote : Wrote 1 c.outgoing := htidy.wrote_told .sentServerOk rfl (by decide)
          exact tidy_awaitingEcho h username hsane hwrote
      | established e => exact htidy
      | rejected r => exact htidy
  | client h s =>
      cases s with
      | start raw =>
          have hwrote : Wrote 0 c.outgoing := htidy.wrote_told .start rfl (by decide)
          simp only [step, ClientHandshake.step, Prod.map_fst, Prod.map_snd, id]
          exact tidy_introduce h raw hwrote
      | sentAuth l => exact ⟨fun _ => htidy.wrote_told .sentClientAuth rfl (by decide), trivial⟩
      | awaitingOk l =>
          have hwrote : Wrote 1 c.outgoing := htidy.wrote_told .awaitingServerOk rfl (by decide)
          exact tidy_awaitingOk h hsane hwrote
      | established e => exact htidy
      | rejected r => exact htidy

end Side

/-! ### Runs -/

namespace Side

variable {side : Side} {c : Connection}

theorem phase_eq_established_iff :
    side.phase = .established ↔ ∃ result, side.outcome? = some (.ok result) := by
  constructor
  · intro h
    cases side with
    | server h' s => cases s <;> first | exact ⟨_, rfl⟩ | cases h
    | client h' s => cases s <;> first | exact ⟨_, rfl⟩ | cases h
  · rintro ⟨result, h⟩
    cases side with
    | server h' s => cases s <;> first | rfl | cases h
    | client h' s => cases s <;> first | rfl | cases h

theorem phase_eq_failed_iff :
    side.phase = .failed ↔ ∃ result, side.outcome? = some (.error result) := by
  constructor
  · intro h
    cases side with
    | server h' s => cases s <;> first | exact ⟨_, rfl⟩ | cases h
    | client h' s => cases s <;> first | exact ⟨_, rfl⟩ | cases h
  · rintro ⟨result, h⟩
    cases side with
    | server h' s => cases s <;> first | rfl | cases h
    | client h' s => cases s <;> first | rfl | cases h

end Side

namespace Party

variable {allowed : Option Breach → Prop}
  {course : Option Breach → Option Breach → Bool → Bytes → Course} {p : Party} {stream : Bytes}

theorem tidy_start {side : Side} {raw : PlainLink} (h : side.Starts raw) : side.Tidy {} := by
  cases h with
  | server h raw => exact ⟨fun _ => Side.wrote_nothing, trivial⟩
  | client h raw => exact ⟨fun _ => Side.wrote_nothing, trivial⟩

theorem tidy_move (m : Move) (h : p.Follows allowed course stream) (htidy : p.side.Tidy p.wire) :
    (p.move m).side.Tidy (p.move m).wire := by
  cases m with
  | arrive bytes =>
      rw [Party.move]
      split
      · exact htidy
      · exact ⟨htidy.wrote, htidy.strict⟩
  | finish => exact ⟨htidy.wrote, htidy.strict⟩
  | fail breach => exact ⟨htidy.wrote, htidy.strict⟩
  | work => exact Side.tidy_step h.sane htidy

theorem tidy_run (moves : List Move) (h : p.Follows allowed course stream)
    (hmoves : ∀ breach, Move.fail breach ∈ moves → allowed (some breach))
    (htidy : p.side.Tidy p.wire) : (p.run moves).side.Tidy (p.run moves).wire := by
  induction moves generalizing p stream with
  | nil => exact htidy
  | cons m moves ih =>
      have hm : ∀ breach, m = .fail breach → allowed (some breach) := by
        rintro breach rfl
        exact hmoves breach (List.mem_cons_self ..)
      exact ih (h.move m hm).1 (fun breach hmem => hmoves breach (List.mem_cons_of_mem _ hmem))
        (tidy_move m h htidy)

/-- **Outputs, phases and errors of a handshake**, for every run.  What has been written is the
front of the lines that the side may write for the stream; as long as it has not failed, these are
whole lines, as many as its phase says.  The phase tells how it has ended, and a failure says what
was wrong with the stream or the connection. -/
theorem conducts_itself {side : Side} {raw : PlainLink} (h : side.Starts raw) (moves : List Move) :
    let p := Party.run { side } moves
    let ended := closed moves
    let stream := raw.buffer ++ arrived moves
    (∃ lines, side.Speaks ended raw.format stream lines ∧
        p.wire.outgoing <+: lines.flatMap frameLine) ∧
      (p.side.phase ≠ .failed → ∃ lines, side.Speaks ended raw.format stream lines ∧
        lines.length = p.side.told ∧ p.wire.outgoing = lines.flatMap frameLine) ∧
      (p.side.phase = .established ↔ ∃ result, p.outcome? = some (.ok result)) ∧
      (p.side.phase = .failed ↔ ∃ result, p.outcome? = some (.error result)) ∧
      ∀ result, p.outcome? = some (.error result) →
        side.Fails (fun breach => .fail breach ∈ moves) ended raw.format stream
          result.failure := by
  intro p ended stream
  have hstart : Follows (fun breach => ∀ b, breach = some b → Move.fail b ∈ moves) _ { side }
      raw.buffer := follows_start h nofun
  have hallowed : ∀ breach, Move.fail breach ∈ moves →
      ∀ b, some breach = some b → Move.fail b ∈ moves := by
    rintro breach hmem b ⟨⟩
    exact hmem
  obtain ⟨hfollows, hfinished, -⟩ := hstart.run moves hallowed
  have htidy : p.side.Tidy p.wire := tidy_run moves hstart hallowed (tidy_start h)
  have hended : p.wire.finished = ended := hfinished.trans (Bool.false_or _)
  -- the outlook of the side is a course of the stream that has arrived
  obtain ⟨first, second, hfirst, hsecond, houtlook⟩ :=
    hfollows.outlook_eq p.wire.finished [] (fun hf => ⟨hf, rfl⟩) none none nofun nofun
  rw [List.append_nil, hended] at houtlook
  replace houtlook : p.side.outlook none none ended p.wire [] =
      side.course first second ended raw.format stream := houtlook
  have hconducts := side.conducts_course hfirst hsecond ended raw.format stream
  have hfront := p.side.outgoing_prefix_outlook p.wire none none ended []
  rw [houtlook] at hfront
  obtain ⟨lines, hspeaks, hlines⟩ := hconducts.speaks
  have hfront : p.wire.outgoing <+: lines.flatMap frameLine := hfront.trans hlines
  refine ⟨⟨lines, hspeaks, hfront⟩, ?_, Side.phase_eq_established_iff, Side.phase_eq_failed_iff, ?_⟩
  · -- whole lines at the front are the first of the lines
    intro hphase
    obtain ⟨whole, hlength, hwhole, hout⟩ := htidy.wrote hphase
    rw [hout] at hfront
    have hfirst := prefix_of_flatMap_frameLine hwhole hspeaks.lineFeed_notMem hfront
    exact ⟨whole, hspeaks.of_front hfirst, hlength, hout⟩
  · intro result hresult
    rw [outlook_of_error hresult] at houtlook
    exact hconducts.fails _ _ _ (congrArg Course.ending houtlook.symm)

/-- A line that is no first message. -/
def mumble : List Move := [.arrive (Text.utf8 "no\n"), .work, .work]

/-- A server that is told something else than a first message writes nothing. -/
theorem conducts_itself_mumble :
    doorman.Starts { format := {} } ∧
      (Party.run { side := doorman } mumble).side.phase = .failed ∧
      (Party.run { side := doorman } mumble).wire.outgoing = [] ∧
      ∀ result, (Party.run { side := doorman } mumble).outcome? = some (.error result) →
        doorman.Fails (fun breach => .fail breach ∈ mumble) false {} (Text.utf8 "no\n")
          result.failure := by
  have hstarts : doorman.Starts { format := {} } := .server _ _
  have hconducts := conducts_itself hstarts mumble
  exact ⟨hstarts, by decide +kernel, by decide +kernel, hconducts.2.2.2.2⟩

end Party

end LineChat
