/-
**What a server accepts.**

A server lets a user in exactly if the stream of the peer has two lines: an envelope for the server
in which the user is named, and the challenge of the server, encrypted under the session key that
was put in an envelope for the user.  Neither line can be written in another way, and which bytes
the server was shown at a time makes no difference.

The proof follows the handshake through its stages.  At every stage the lines that the server is
still going to read are the lines of the whole stream that come after those it has judged; this is
the invariant, and it holds whatever is still to arrive.

Main definitions:

* `LineChat.ServerHandshake.Asks`, `LineChat.ServerHandshake.Replies`,
  `LineChat.ServerHandshake.Echoes` — the three messages;
* `LineChat.ServerHandshake.Accepts` — **what a stream must have in it**;
* `LineChat.ServerHandshake.serve` — a run of the handshake;
* `LineChat.ServerHandshake.Stage` — **the invariant**.

Main results:

* `LineChat.ServerHandshake.stage_step`, `LineChat.ServerHandshake.stage_advance` — every stage
  keeps the invariant;
* `LineChat.ServerHandshake.established_iff_accepts` — **the server lets a user in exactly if the
  stream has the two lines**, and writes the session key for nobody else.
-/

import LineChat.Handshake.Server
import LineChat.Proofs.Channel.EnvelopeCipher
import LineChat.Proofs.Channel.Link
import LineChat.Proofs.Handshake.Message

set_option autoImplicit false

namespace LineChat.ServerHandshake

open SessionCipher (counted)

/-! ### The three messages -/

/-- **The first message of a stream**: its first line is an envelope, in which the server finds the
message of a client, character for character. -/
structure Asks (h : ServerHandshake) (ended : Bool) (f : Framing) (stream : Bytes)
    (auth : Authenticate) (f₁ : Framing) (rest : Bytes) : Prop where
  line : ∃ envelope, f.decode ended stream = (.ok (some (Base64.encode envelope)), f₁, rest) ∧
    h.key.unseal envelope = .ok (Text.utf8
      ("!authenticate " ++ auth.username ++ " " ++ auth.challenge.toBase64))
  username : checkUsername auth.username = .ok ()

/-- **The answer to a first message**: the user has a key, and the second message fits an envelope
for it that can be written as a line. -/
structure Replies (h : ServerHandshake) (auth : Authenticate) (envelope : Bytes) : Prop where
  sealed : ∃ key, h.directory auth.username = some key ∧
    key.seal? (h.seeds 0) (Text.utf8 (h.reply auth).render) = some envelope
  length_le : (Base64.encodeBytes envelope).length ≤ maxLineLength

/-- **The third message of a stream**: its first line is what the other side of the session makes of
the challenge as its first line. -/
structure Echoes (h : ServerHandshake) (ended : Bool) (f : Framing) (stream : Bytes) : Prop where
  one_le : 1 ≤ h.options.maxLines.toNat
  line : ∃ line f₁ rest, f.decode ended stream = (.ok (some line), f₁, rest) ∧
    ((h.options.cipher h.session .initiator).encrypt h.challenge.toBase64).1 = .ok line

/-- **What a stream must have in it** for a user to be let in. -/
def Accepts (h : ServerHandshake) (ended : Bool) (f : Framing) (stream : Bytes)
    (username : String) : Prop :=
  ∃ auth f₁ rest envelope, auth.username = username ∧ h.Asks ended f stream auth f₁ rest ∧
    h.Replies auth envelope ∧ h.Echoes ended f₁ rest

variable {h : ServerHandshake} {ended : Bool} {f f₁ f₂ : Framing} {stream rest rest₂ : Bytes}
  {auth auth₂ : Authenticate} {envelope : Bytes}

/-- A second message that fits the key of the user can be written. -/
theorem Replies.of_seal? {key : PublicKey} (hkey : h.directory auth.username = some key)
    (hseal : key.seal? (h.seeds 0) (Text.utf8 (h.reply auth).render) = some envelope) :
    h.Replies auth envelope :=
  ⟨⟨key, hkey, hseal⟩, PublicKey.length_encodeBytes_le hseal⟩

/-- A stream has at most one first message. -/
theorem Asks.unique (h₁ : h.Asks ended f stream auth f₁ rest)
    (h₂ : h.Asks ended f stream auth₂ f₂ rest₂) : auth = auth₂ ∧ f₁ = f₂ ∧ rest = rest₂ := by
  obtain ⟨⟨envelope, hline, hopen⟩, hname⟩ := h₁
  obtain ⟨⟨envelope₂, hline₂, hopen₂⟩, hname₂⟩ := h₂
  rw [hline] at hline₂
  obtain ⟨htext, hleft⟩ := Prod.mk.inj hline₂
  obtain ⟨rfl, rfl⟩ := Prod.mk.inj hleft
  -- one line spells one envelope, and one plaintext is one message
  have henvelope : envelope = envelope₂ :=
    Base64.encode_injective (Option.some.inj (Except.ok.inj htext))
  rw [henvelope, hopen₂, ← Authenticate.render_eq, ← Authenticate.render_eq] at hopen
  have hrender := Text.utf8_injective (Except.ok.inj hopen)
  have hparse := Authenticate.parse_eq_ok_iff.2 ⟨rfl, hname⟩
  rw [← hrender, Authenticate.parse_eq_ok_iff.2 ⟨rfl, hname₂⟩] at hparse
  exact ⟨(Except.ok.inj hparse).symm, rfl, rfl⟩

theorem Accepts.unique {u v : String} (hu : h.Accepts ended f stream u)
    (hv : h.Accepts ended f stream v) : u = v := by
  obtain ⟨auth, f₁, rest, envelope, rfl, hasks, -, -⟩ := hu
  obtain ⟨auth₂, f₂, rest₂, envelope₂, rfl, hasks₂, -, -⟩ := hv
  rw [(hasks.unique hasks₂).1]

/-! ### What the server reads -/

/-- A first message is what the server takes out of the envelope. -/
theorem asks_iff {text plaintext : String} {cipher : EnvelopeCipher}
    (hstream : f.decode ended stream = (.ok (some text), f₁, rest))
    (hdecrypt : (EnvelopeCipher.openOnly h.key h.seeds).decrypt text = (.ok plaintext, cipher)) :
    h.Asks ended f stream auth f₂ rest₂ ↔
      Authenticate.parse plaintext = .ok auth ∧ f₁ = f₂ ∧ rest = rest₂ := by
  obtain ⟨-, envelope, rfl, hopen⟩ := EnvelopeCipher.decrypt_openOnly_eq_ok_iff.1 hdecrypt
  rw [Authenticate.parse_eq_ok_iff, Authenticate.render_eq]
  constructor
  · rintro ⟨⟨envelope₂, hline, hopen₂⟩, hname⟩
    rw [hstream] at hline
    obtain ⟨htext, hleft⟩ := Prod.mk.inj hline
    obtain ⟨rfl, rfl⟩ := Prod.mk.inj hleft
    have henvelope := Base64.encode_injective (Option.some.inj (Except.ok.inj htext))
    rw [← henvelope, hopen] at hopen₂
    exact ⟨⟨Text.utf8_injective (Except.ok.inj hopen₂), hname⟩, rfl, rfl⟩
  · rintro ⟨⟨rfl, hname⟩, rfl, rfl⟩
    exact ⟨⟨envelope, hstream, hopen⟩, hname⟩

/-- A stream whose first line cannot be opened has no first message. -/
theorem not_asks_of_refused
    (hrefused : ∀ text plaintext f' rest' cipher,
      f.decode ended stream = (.ok (some text), f', rest') →
      (EnvelopeCipher.openOnly h.key h.seeds).decrypt text ≠ (.ok plaintext, cipher)) :
    ¬ h.Asks ended f stream auth f₁ rest := by
  rintro ⟨⟨envelope, hline, hopen⟩, -⟩
  exact hrefused _ _ _ _ _ hline
    (EnvelopeCipher.decrypt_openOnly_eq_ok_iff.2 ⟨rfl, envelope, rfl, hopen⟩)

theorem encrypt_challenge (hone : 1 ≤ h.options.maxLines.toNat) :
    ((h.options.cipher h.session .initiator).encrypt h.challenge.toBase64).1 =
      .ok (sealLine h.session h.options.mode .initiator 0 h.challenge.toBase64) :=
  congrArg Prod.fst (SessionCipher.encrypt_counted hone h.challenge.toBase64)

/-- A third line can be decrypted if it is what the other side makes of a text as its first line. -/
theorem decrypt_first_eq_ok_iff {line text : String} {cipher : SessionCipher} :
    (h.options.cipher h.session .responder).decrypt line = (.ok text, cipher) ↔
      1 ≤ h.options.maxLines.toNat ∧ line = sealLine h.session h.options.mode .initiator 0 text ∧
        cipher = counted h.session .responder h.options.mode h.options.maxLines 0 1 :=
  @SessionCipher.decrypt_counted_eq_ok_iff h.session .initiator h.options.mode h.options.maxLines
    0 0 line text cipher

/-- A third message is what the server reads as its challenge. -/
theorem echoes_iff {text plaintext : String} {cipher : SessionCipher}
    (hstream : f.decode ended stream = (.ok (some text), f₁, rest))
    (hdecrypt : (h.options.cipher h.session .responder).decrypt text = (.ok plaintext, cipher)) :
    h.Echoes ended f stream ↔ Challenge.ofBase64 plaintext = .ok h.challenge := by
  obtain ⟨hone, rfl, -⟩ := decrypt_first_eq_ok_iff.1 hdecrypt
  rw [Challenge.ofBase64_eq_ok_iff]
  constructor
  · rintro ⟨-, line, f', rest', hline, hencrypt⟩
    rw [encrypt_challenge hone] at hencrypt
    rw [hstream, ← Except.ok.inj hencrypt] at hline
    exact sealLine_injective (Option.some.inj (Except.ok.inj (congrArg Prod.fst hline)))
  · rintro rfl
    exact ⟨hone, _, f₁, rest, hstream, encrypt_challenge hone⟩

theorem not_echoes_of_refused
    (hrefused : ∀ text plaintext f' rest' cipher,
      f.decode ended stream = (.ok (some text), f', rest') →
      (h.options.cipher h.session .responder).decrypt text ≠ (.ok plaintext, cipher)) :
    ¬ h.Echoes ended f stream := by
  rintro ⟨hone, line, f', rest', hline, hencrypt⟩
  rw [encrypt_challenge hone] at hencrypt
  obtain rfl := Except.ok.inj hencrypt
  exact hrefused _ _ _ _ _ hline (decrypt_first_eq_ok_iff.2 ⟨hone, rfl, rfl⟩)

theorem identify_eq_ok_iff {line : String} {key : PublicKey} :
    h.identify line = .ok (auth, key) ↔
      Authenticate.parse line = .ok auth ∧ h.directory auth.username = some key := by
  unfold identify
  rw [bind_eq_ok_iff]
  constructor
  · rintro ⟨auth', hparse, hkey⟩
    cases hdir : h.directory auth'.username with
    | none =>
        rw [hdir] at hkey
        cases hkey
    | some key' =>
        rw [hdir] at hkey
        cases hkey
        exact ⟨hparse, hdir⟩
  · rintro ⟨hparse, hkey⟩
    refine ⟨auth, hparse, ?_⟩
    rw [hkey]
    rfl

/-- A third message that is the challenge lets the user in, and any other is refused. -/
theorem judge_cases (h : ServerHandshake) (channel : SecureLink) (username line : String) :
    (Challenge.ofBase64 line = .ok h.challenge ∧
        h.judge channel username line =
          .established ⟨channel.withPolicy h.options.policy, username⟩) ∨
      (Challenge.ofBase64 line ≠ .ok h.challenge ∧
        ∃ result, h.judge channel username line = .rejected result) := by
  unfold judge
  cases hline : Challenge.ofBase64 line with
  | error e => exact Or.inr ⟨by simp, _, rfl⟩
  | ok echoed =>
      by_cases hsame : echoed = h.challenge
      · exact Or.inl ⟨by rw [hsame], by simp [hsame]⟩
      · exact Or.inr ⟨by simpa using hsame, _, if_pos hsame⟩

/-- Once the first message is there, it all depends on the third one. -/
theorem Asks.not_accepts (hasks : h.Asks ended f stream auth f₁ rest)
    (hnot : ¬ h.Echoes ended f₁ rest) (username : String) :
    ¬ h.Accepts ended f stream username := by
  rintro ⟨auth₂, f₂, rest₂, envelope₂, -, hasks₂, -, hechoes⟩
  obtain ⟨rfl, rfl, rfl⟩ := hasks.unique hasks₂
  exact hnot hechoes

/-! ### The stages -/

/-- **What was written for a stream**: nothing, or the answer to its first message. -/
def Written (h : ServerHandshake) (ended : Bool) (f : Framing) (stream : Bytes) (outgoing : Bytes) :
    Prop :=
  outgoing = [] ∨ ∃ auth f₁ rest envelope, h.Asks ended f stream auth f₁ rest ∧
    h.Replies auth envelope ∧ outgoing = frameLine (Base64.encode envelope)

/-- **The invariant**: what a stage of the handshake has to do with the whole stream, `more` of
which has not arrived yet. -/
inductive Stage (h : ServerHandshake) (ended : Bool) (f : Framing) (stream : Bytes) :
    State → Connection → Bytes → Prop
  | start {raw : PlainLink} {c : Connection} {more : Bytes} (hformat : raw.format = f)
      (hstream : raw.buffer ++ (c.incoming ++ more) = stream) (hout : c.outgoing = []) :
      Stage h ended f stream (.start raw) c more
  /-- The lines to come are those of the whole stream. -/
  | awaitingAuth {channel : EnvelopeLink} {c : Connection} {more : Bytes} (hready : channel.Ready)
      (hpolicy : channel.format.policy = .fail)
      (hcipher : channel.format.cipher = .openOnly h.key h.seeds)
      (hstream : channel.format.framing.decode ended (channel.buffer ++ (c.incoming ++ more)) =
        f.decode ended stream)
      (hout : c.outgoing = []) :
      Stage h ended f stream (.awaitingAuth channel) c more
  /-- The lines to come are those behind the first message. -/
  | awaitingEcho {channel : SecureLink} {c : Connection} {more : Bytes} {auth : Authenticate}
      {f₁ : Framing} {rest envelope : Bytes} (hasks : h.Asks ended f stream auth f₁ rest)
      (hreplies : h.Replies auth envelope) (hready : channel.Ready)
      (hpolicy : channel.format.policy = .fail)
      (hcipher : channel.format.cipher = h.options.cipher h.session .responder)
      (hstream : channel.format.framing.decode ended (channel.buffer ++ (c.incoming ++ more)) =
        f₁.decode ended rest)
      (hout : c.outgoing = frameLine (Base64.encode envelope)) :
      Stage h ended f stream (.awaitingEcho channel auth.username) c more
  | established {channel : SecureLink} {c : Connection} {more : Bytes} {auth : Authenticate}
      {f₁ : Framing} {rest envelope : Bytes} (hasks : h.Asks ended f stream auth f₁ rest)
      (hreplies : h.Replies auth envelope) (hechoes : h.Echoes ended f₁ rest)
      (hout : c.outgoing = frameLine (Base64.encode envelope)) :
      Stage h ended f stream (.established ⟨channel, auth.username⟩) c more
  | rejected {result : Rejected} {c : Connection} {more : Bytes}
      (hnot : ∀ username, ¬ h.Accepts ended f stream username)
      (hout : h.Written ended f stream c.outgoing) :
      Stage h ended f stream (.rejected result) c more

/-- How many stages a handshake can still go through. -/
def State.rank : State → Nat
  | .start _ => 3
  | .awaitingAuth _ => 2
  | .awaitingEcho _ _ => 1
  | .established _ => 0
  | .rejected _ => 0

/-- A handshake that waits for a line waits because there is none. -/
def State.Quiet (s : State) (c : Connection) : Prop :=
  match s with
  | .start _ => False
  | .awaitingAuth channel =>
      (channel.format.framing.decode c.finished (channel.buffer ++ c.incoming)).1 = .ok none
  | .awaitingEcho channel _ =>
      (channel.format.framing.decode c.finished (channel.buffer ++ c.incoming)).1 = .ok none
  | .established _ => True
  | .rejected _ => True

/-- **What a step comes to**: the next stage with the invariant, on a connection that is otherwise
the same, and the handshake has come further unless it has to wait. -/
structure StepsTo (h : ServerHandshake) (ended : Bool) (f : Framing) (stream : Bytes) (s : State)
    (c : Connection) (more : Bytes) (next : State × Connection) : Prop where
  stage : h.Stage ended f stream next.1 next.2 more
  finished_eq : next.2.finished = c.finished
  broken_eq : next.2.broken = c.broken
  further : next.1.Quiet next.2 ∨ next.1.rank < s.rank

variable {s : State} {c : Connection} {more : Bytes}

/-- **Judging a first message.** -/
theorem stepsTo_answer {channel : EnvelopeLink} {incoming : Bytes} {key : PublicKey} {s : State}
    (hs : s.rank = 2) (hbroken : c.broken = false) (hout : c.outgoing = [])
    (hpolicy : channel.format.policy = .fail)
    (hasks : h.Asks ended f stream auth channel.format.framing
      (channel.buffer ++ (incoming ++ more)))
    (hkey : h.directory auth.username = some key) :
    h.StepsTo ended f stream s c more (h.answer channel auth key { c with incoming }) := by
  have hline := ServerOk.hasLineEnd_render (h.reply auth)
  rcases Link.send_envelope (l := channel.withCipher (EnvelopeCipher.between key h.key h.seeds))
    (c := { c with incoming }) rfl hpolicy hline hbroken with
    ⟨envelope, hseal, hsend⟩ | ⟨hnone, e, l', hsend⟩
  · rw [answer, hsend]
    refine ⟨?_, rfl, rfl, Or.inr (by rw [hs]; exact Nat.lt_succ_self 1)⟩
    have hreplies : h.Replies auth envelope := .of_seal? hkey hseal
    refine .awaitingEcho hasks hreplies (Link.ready_change _ _) hpolicy rfl rfl ?_
    simp [hout]
  · -- an answer that cannot be written is none, whatever else the stream has in it
    rw [answer, hsend]
    refine ⟨.rejected ?_ (Or.inl hout), rfl, rfl, Or.inl trivial⟩
    rintro username ⟨auth₂, f₂, rest₂, envelope, -, hasks₂, ⟨⟨key₂, hkey₂, hseal₂⟩, -⟩, -⟩
    obtain ⟨rfl, -, -⟩ := hasks.unique hasks₂
    rw [hkey] at hkey₂
    cases hkey₂
    cases hnone.symm.trans hseal₂

theorem stepsTo_awaitingAuth {channel : EnvelopeLink} (hready : channel.Ready)
    (hpolicy : channel.format.policy = .fail)
    (hcipher : channel.format.cipher = .openOnly h.key h.seeds)
    (hstream : channel.format.framing.decode ended (channel.buffer ++ (c.incoming ++ more)) =
      f.decode ended stream)
    (hout : c.outgoing = []) (hbroken : c.broken = false)
    (hmore : c.finished = true → ended = true ∧ more = []) :
    h.StepsTo ended f stream (.awaitingAuth channel) c more (h.step (.awaitingAuth channel) c) := by
  have hnext := Link.next_poll hready hpolicy hmore
  rw [step]
  generalize channel.poll c = polled at hnext
  cases hnext with
  | @waiting l' incoming hfinished hready' hpolicy' hcipher' hrest hnone =>
      refine ⟨.awaitingAuth hready' hpolicy' (hcipher'.trans hcipher) (hrest.trans hstream) hout,
        rfl, rfl, Or.inl ?_⟩
      simp only [awaited, State.Quiet, hfinished]
      exact hnone
  | @refused answer l' incoming hpolled hplain =>
      have hnot : ∀ username, ¬ h.Accepts ended f stream username := by
        rintro username ⟨auth, f₁, rest, envelope, -, hasks, -, -⟩
        rw [hstream, hcipher] at hplain
        exact not_asks_of_refused hplain hasks
      rcases hpolled with rfl | ⟨e, rfl⟩
      · exact ⟨.rejected hnot (Or.inl hout), rfl, rfl, Or.inl trivial⟩
      · exact ⟨.rejected hnot (Or.inl hout), rfl, rfl, Or.inl trivial⟩
  | @line l' incoming text plaintext hpolicy' hplain hdecrypt =>
      rw [hstream] at hplain
      rw [hcipher] at hdecrypt
      simp only [awaited]
      cases hidentify : h.identify plaintext with
      | error failure =>
          refine ⟨.rejected ?_ (Or.inl hout), rfl, rfl, Or.inl trivial⟩
          rintro username ⟨auth, f₁, rest, envelope, -, hasks, ⟨⟨key, hkey, -⟩, -⟩, -⟩
          have hparse := ((asks_iff hplain hdecrypt).1 hasks).1
          rw [identify_eq_ok_iff.2 ⟨hparse, hkey⟩] at hidentify
          cases hidentify
      | ok found =>
          obtain ⟨auth, key⟩ := found
          obtain ⟨hparse, hkey⟩ := identify_eq_ok_iff.1 hidentify
          have hasks := (asks_iff hplain hdecrypt).2 ⟨hparse, rfl, rfl⟩
          exact stepsTo_answer rfl hbroken hout hpolicy' hasks hkey

theorem stepsTo_awaitingEcho {channel : SecureLink} (hasks : h.Asks ended f stream auth f₁ rest)
    (hreplies : h.Replies auth envelope) (hready : channel.Ready)
    (hpolicy : channel.format.policy = .fail)
    (hcipher : channel.format.cipher = h.options.cipher h.session .responder)
    (hstream : channel.format.framing.decode ended (channel.buffer ++ (c.incoming ++ more)) =
      f₁.decode ended rest)
    (hout : c.outgoing = frameLine (Base64.encode envelope))
    (hmore : c.finished = true → ended = true ∧ more = []) :
    h.StepsTo ended f stream (.awaitingEcho channel auth.username) c more
      (h.step (.awaitingEcho channel auth.username) c) := by
  have hwritten : h.Written ended f stream c.outgoing :=
    Or.inr ⟨auth, f₁, rest, envelope, hasks, hreplies, hout⟩
  have hnext := Link.next_poll hready hpolicy hmore
  rw [step]
  generalize channel.poll c = polled at hnext
  cases hnext with
  | @waiting l' incoming hfinished hready' hpolicy' hcipher' hrest hnone =>
      refine ⟨.awaitingEcho hasks hreplies hready' hpolicy' (hcipher'.trans hcipher)
        (hrest.trans hstream) hout, rfl, rfl, Or.inl ?_⟩
      simp only [awaited, State.Quiet, hfinished]
      exact hnone
  | @refused answer l' incoming hpolled hplain =>
      rw [hstream, hcipher] at hplain
      have hnot := hasks.not_accepts (not_echoes_of_refused hplain)
      rcases hpolled with rfl | ⟨e, rfl⟩
      · exact ⟨.rejected hnot hwritten, rfl, rfl, Or.inl trivial⟩
      · exact ⟨.rejected hnot hwritten, rfl, rfl, Or.inl trivial⟩
  | @line l' incoming text plaintext hpolicy' hplain hdecrypt =>
      rw [hstream] at hplain
      rw [hcipher] at hdecrypt
      have hechoes := echoes_iff hplain hdecrypt
      simp only [awaited]
      rcases h.judge_cases l' auth.username plaintext with
        ⟨hsame, hjudge⟩ | ⟨hother, result, hjudge⟩ <;> rw [hjudge]
      · exact ⟨.established hasks hreplies (hechoes.2 hsame) hout, rfl, rfl, Or.inl trivial⟩
      · have hnot := hasks.not_accepts fun he => hother (hechoes.1 he)
        exact ⟨.rejected hnot hwritten, rfl, rfl, Or.inl trivial⟩

/-- **Every step keeps the invariant.** -/
theorem stage_step (hs : h.Stage ended f stream s c more) (hbroken : c.broken = false)
    (hmore : c.finished = true → ended = true ∧ more = []) :
    h.StepsTo ended f stream s c more (h.step s c) := by
  cases hs with
  | start hformat hstream hout =>
      refine ⟨.awaitingAuth (Link.ready_change _ _) rfl rfl ?_ hout, rfl, rfl,
        Or.inr (Nat.lt_succ_self 2)⟩
      rw [← hstream, ← hformat]
      rfl
  | awaitingAuth hready hpolicy hcipher hstream hout =>
      exact stepsTo_awaitingAuth hready hpolicy hcipher hstream hout hbroken hmore
  | awaitingEcho hasks hreplies hready hpolicy hcipher hstream hout =>
      exact stepsTo_awaitingEcho hasks hreplies hready hpolicy hcipher hstream hout hmore
  | established hasks hreplies hechoes hout =>
      exact ⟨.established hasks hreplies hechoes hout, rfl, rfl, Or.inl trivial⟩
  | rejected hnot hout => exact ⟨.rejected hnot hout, rfl, rfl, Or.inl trivial⟩

/-! ### Waiting -/

/-- A handshake that waits for good reason goes on waiting, or ends. -/
theorem quiet_step (hs : h.Stage ended f stream s c more) (hquiet : s.Quiet c) :
    (h.step s c).1.Quiet (h.step s c).2 := by
  cases hs with
  | start hformat hstream hout => exact hquiet.elim
  | awaitingAuth hready hpolicy hcipher hstream hout =>
      rw [step]
      rcases Link.poll_of_none hready hpolicy hquiet with
        ⟨l', incoming, hpoll, hnone⟩ | ⟨polled, l', incoming, hpoll, rfl | ⟨e, rfl⟩⟩ <;> rw [hpoll]
      · exact hnone
      · trivial
      · trivial
  | awaitingEcho hasks hreplies hready hpolicy hcipher hstream hout =>
      rw [step]
      rcases Link.poll_of_none hready hpolicy hquiet with
        ⟨l', incoming, hpoll, hnone⟩ | ⟨polled, l', incoming, hpoll, rfl | ⟨e, rfl⟩⟩ <;> rw [hpoll]
      · exact hnone
      · trivial
      · trivial
  | established hasks hreplies hechoes hout => trivial
  | rejected hnot hout => trivial

theorem quiet_of_rank (hs : s.rank = 0) : s.Quiet c := by
  cases s with
  | start raw => cases hs
  | awaitingAuth channel => cases hs
  | awaitingEcho channel username => cases hs
  | established result => trivial
  | rejected result => trivial

/-- A step brings the handshake closer to where it has to wait. -/
theorem quiet_or_rank_step {n : Nat} (hs : h.Stage ended f stream s c more)
    (hstep : h.StepsTo ended f stream s c more (h.step s c))
    (hquiet : s.Quiet c ∨ s.rank ≤ n + 1) :
    (h.step s c).1.Quiet (h.step s c).2 ∨ (h.step s c).1.rank ≤ n := by
  rcases hquiet with hquiet | hrank
  · exact Or.inl (quiet_step hs hquiet)
  · rcases hstep.further with hfurther | hlt
    · exact Or.inl hfurther
    · exact Or.inr (by omega)

/-- **Advancing keeps the invariant**, and goes as far as what has arrived allows. -/
theorem stage_advance (hs : h.Stage ended f stream s c more) (hbroken : c.broken = false)
    (hmore : c.finished = true → ended = true ∧ more = []) :
    h.Stage ended f stream (h.advance s c).1 (h.advance s c).2 more ∧
      (h.advance s c).2.finished = c.finished ∧ (h.advance s c).2.broken = false ∧
      (h.advance s c).1.Quiet (h.advance s c).2 := by
  have hrank : s.Quiet c ∨ s.rank ≤ 2 + 1 := by
    refine Or.inr ?_
    cases s <;> simp [State.rank]
  -- every step that need not wait takes one stage of at most three
  have hstep := stage_step hs hbroken hmore
  have hrank₁ := quiet_or_rank_step hs hstep hrank
  obtain ⟨hs₁, hfinished₁, hbroken₁, -⟩ := hstep
  have hstep₁ := stage_step hs₁ (hbroken₁.trans hbroken) (by rw [hfinished₁]; exact hmore)
  have hrank₂ := quiet_or_rank_step hs₁ hstep₁ hrank₁
  obtain ⟨hs₂, hfinished₂, hbroken₂, -⟩ := hstep₁
  have hstep₂ := stage_step hs₂ (hbroken₂.trans (hbroken₁.trans hbroken))
    (by rw [hfinished₂, hfinished₁]; exact hmore)
  have hrank₃ := quiet_or_rank_step hs₂ hstep₂ hrank₂
  obtain ⟨hs₃, hfinished₃, hbroken₃, -⟩ := hstep₂
  refine ⟨hs₃, hfinished₃.trans (hfinished₂.trans hfinished₁),
    hbroken₃.trans (hbroken₂.trans (hbroken₁.trans hbroken)), ?_⟩
  exact hrank₃.elim id fun hzero => quiet_of_rank (Nat.le_zero.1 hzero)

/-! ### Runs -/

theorem Stage.arrive {bytes : Bytes} (hs : h.Stage ended f stream s c (bytes ++ more)) :
    h.Stage ended f stream s (c.arrive bytes) more := by
  have hassoc : (c.arrive bytes).incoming ++ more = c.incoming ++ (bytes ++ more) :=
    List.append_assoc ..
  cases hs with
  | start hformat hstream hout => exact .start hformat (by rw [hassoc, hstream]) hout
  | awaitingAuth hready hpolicy hcipher hstream hout =>
      exact .awaitingAuth hready hpolicy hcipher (by rw [hassoc, hstream]) hout
  | awaitingEcho hasks hreplies hready hpolicy hcipher hstream hout =>
      exact .awaitingEcho hasks hreplies hready hpolicy hcipher (by rw [hassoc, hstream]) hout
  | established hasks hreplies hechoes hout => exact .established hasks hreplies hechoes hout
  | rejected hnot hout => exact .rejected hnot hout

theorem Stage.finish (hs : h.Stage ended f stream s c more) :
    h.Stage ended f stream s c.finish more := by
  cases hs with
  | start hformat hstream hout => exact .start hformat hstream hout
  | awaitingAuth hready hpolicy hcipher hstream hout =>
      exact .awaitingAuth hready hpolicy hcipher hstream hout
  | awaitingEcho hasks hreplies hready hpolicy hcipher hstream hout =>
      exact .awaitingEcho hasks hreplies hready hpolicy hcipher hstream hout
  | established hasks hreplies hechoes hout => exact .established hasks hreplies hechoes hout
  | rejected hnot hout => exact .rejected hnot hout

/-- The handshake goes on with some bytes that have arrived. -/
def receive (h : ServerHandshake) (p : State × Connection) (bytes : Bytes) : State × Connection :=
  h.advance p.1 (p.2.arrive bytes)

/-- **A run of the handshake**: the bytes of the peer arrive in any number of segments, and the
connection may end with the last of them. -/
def serve (h : ServerHandshake) (raw : PlainLink) (segments : List Bytes) (last : Bytes)
    (ended : Bool) : State × Connection :=
  let p := segments.foldl h.receive (.start raw, {})
  if ended then h.advance p.1 (p.2.arrive last).finish else h.receive p last

theorem stage_receive (segments : List Bytes) {p : State × Connection}
    (hs : h.Stage ended f stream p.1 p.2 (segments.flatten ++ more)) (hbroken : p.2.broken = false)
    (hfinished : p.2.finished = false) :
    h.Stage ended f stream (segments.foldl h.receive p).1 (segments.foldl h.receive p).2 more ∧
      (segments.foldl h.receive p).2.broken = false ∧
      (segments.foldl h.receive p).2.finished = false := by
  induction segments generalizing p with
  | nil => exact ⟨hs, hbroken, hfinished⟩
  | cons bytes segments ih =>
      rw [List.flatten_cons, List.append_assoc] at hs
      have hopen : (p.2.arrive bytes).finished = false := hfinished
      obtain ⟨hs', hfinished', hbroken', -⟩ := stage_advance hs.arrive hbroken
        fun hf => by rw [hopen] at hf; cases hf
      exact ih hs' hbroken' (hfinished'.trans hfinished)

/-- **Every run keeps the invariant**, and ends where the handshake has to wait, if it waits. -/
theorem stage_serve (h : ServerHandshake) (raw : PlainLink) (segments : List Bytes) (last : Bytes)
    (ended : Bool) :
    h.Stage ended raw.format (raw.buffer ++ (segments.flatten ++ last))
        (h.serve raw segments last ended).1 (h.serve raw segments last ended).2 [] ∧
      (h.serve raw segments last ended).2.finished = ended ∧
      (h.serve raw segments last ended).1.Quiet (h.serve raw segments last ended).2 := by
  have hstart : h.Stage ended raw.format (raw.buffer ++ (segments.flatten ++ last))
      (.start raw) {} (segments.flatten ++ (last ++ [])) :=
    .start rfl (by simp) rfl
  obtain ⟨hs, hbroken, hfinished⟩ := stage_receive segments (p := (.start raw, {})) hstart rfl rfl
  cases ended with
  | false =>
      obtain ⟨hs', hfinished', -, hquiet⟩ := stage_advance hs.arrive hbroken
        fun hf => by
          have hopen := hfinished.symm.trans hf
          cases hopen
      exact ⟨hs', hfinished'.trans hfinished, hquiet⟩
  | true =>
      obtain ⟨hs', hfinished', -, hquiet⟩ := stage_advance hs.arrive.finish hbroken
        fun _ => ⟨rfl, rfl⟩
      exact ⟨hs', hfinished', hquiet⟩

/-- A handshake that waits at the end of the stream lets nobody in. -/
theorem Stage.not_accepts_of_quiet (hs : h.Stage ended f stream s c [])
    (hfinished : c.finished = ended) (hquiet : s.Quiet c)
    (hnot : ∀ result, s ≠ .established result) (username : String) :
    ¬ h.Accepts ended f stream username := by
  rintro ⟨auth, f₁, rest, envelope, rfl, hasks, hreplies, hechoes⟩
  -- the message that is missing would be the next line of the stream
  cases hs with
  | start hformat hstream hout => exact hquiet
  | awaitingAuth hready hpolicy hcipher hstream hout =>
      obtain ⟨envelope, hline, -⟩ := hasks.line
      rw [List.append_nil, hline] at hstream
      rw [State.Quiet, hfinished, hstream] at hquiet
      cases hquiet
  | awaitingEcho hasks' hreplies' hready hpolicy hcipher hstream hout =>
      obtain ⟨rfl, rfl, rfl⟩ := hasks.unique hasks'
      obtain ⟨line, f₂, rest₂, hline, -⟩ := hechoes.line
      rw [List.append_nil, hline] at hstream
      rw [State.Quiet, hfinished, hstream] at hquiet
      cases hquiet
  | established hasks' hreplies' hechoes' hout => exact hnot _ rfl
  | rejected hnot' hout => exact hnot' _ ⟨auth, f₁, rest, envelope, rfl, hasks, hreplies, hechoes⟩

theorem Stage.accepts {result : Established}
    (hs : h.Stage ended f stream (.established result) c more) :
    h.Accepts ended f stream result.username := by
  cases hs with
  | @established _ _ _ auth f₁ rest envelope hasks hreplies hechoes hout =>
      exact ⟨auth, f₁, rest, envelope, rfl, hasks, hreplies, hechoes⟩

/-- What was written is the answer to the message of the user that was let in.  Where nothing was
written, nobody was. -/
theorem Stage.written (hs : h.Stage ended f stream s c more) :
    (c.outgoing = [] ∧ ∀ result, s ≠ .established result) ∨
      ∃ auth f₁ rest envelope, h.Asks ended f stream auth f₁ rest ∧
        h.Replies auth envelope ∧ c.outgoing = frameLine (Base64.encode envelope) ∧
        ∀ result, s = .established result → result.username = auth.username := by
  cases hs with
  | start hformat hstream hout => exact Or.inl ⟨hout, nofun⟩
  | awaitingAuth hready hpolicy hcipher hstream hout => exact Or.inl ⟨hout, nofun⟩
  | awaitingEcho hasks hreplies hready hpolicy hcipher hstream hout =>
      exact Or.inr ⟨_, _, _, _, hasks, hreplies, hout, fun result he => by cases he⟩
  | established hasks hreplies hechoes hout =>
      exact Or.inr ⟨_, _, _, _, hasks, hreplies, hout, fun result he => by cases he; rfl⟩
  | rejected hnot hout =>
      rcases hout with hout | ⟨auth, f₁, rest, envelope, hasks, hreplies, hout⟩
      · exact Or.inl ⟨hout, nofun⟩
      · exact Or.inr ⟨auth, f₁, rest, envelope, hasks, hreplies, hout, fun result he => by cases he⟩

/-- **The server lets a user in exactly if the stream of the peer has the two lines** that only this
user can have written, however the bytes arrive; and the session key is written for nobody but the
user that the first message names, who is the one let in, and is written wherever somebody is. -/
theorem established_iff_accepts (h : ServerHandshake) (raw : PlainLink) (segments : List Bytes)
    (last : Bytes) (ended : Bool) :
    let stream := raw.buffer ++ (segments.flatten ++ last)
    let final := h.serve raw segments last ended
    (∀ username, (∃ channel, final.1 = .established ⟨channel, username⟩) ↔
        h.Accepts ended raw.format stream username) ∧
      ((final.2.outgoing = [] ∧ ∀ result, final.1 ≠ .established result) ∨
        ∃ auth f₁ rest envelope,
          h.Asks ended raw.format stream auth f₁ rest ∧ h.Replies auth envelope ∧
            final.2.outgoing = frameLine (Base64.encode envelope) ∧
            ∀ result, final.1 = .established result → result.username = auth.username) := by
  intro stream final
  obtain ⟨hs, hfinished, hquiet⟩ := stage_serve h raw segments last ended
  refine ⟨fun username => ⟨?_, fun haccepts => ?_⟩, hs.written⟩
  · rintro ⟨channel, hfinal⟩
    rw [hfinal] at hs
    exact hs.accepts
  · -- whoever is let in is the only user that the stream can let in
    by_cases hdone : ∃ result, final.1 = .established result
    · obtain ⟨⟨channel, username'⟩, hresult⟩ := hdone
      rw [hresult] at hs
      obtain rfl := hs.accepts.unique haccepts
      exact ⟨channel, hresult⟩
    · exact absurd haccepts (hs.not_accepts_of_quiet hfinished hquiet
        (fun result hresult => hdone ⟨result, hresult⟩) username)

end LineChat.ServerHandshake
