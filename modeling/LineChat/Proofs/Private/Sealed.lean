/-
**Sealed lines are judged exactly.**

A tag has one spelling, without a space, and is never empty.  So a line is authentic only if it is
the sealed line of some body, character for character, and the body of such a line is the one that
was sealed.  Replies are lines of the same kind, and of their bodies two forms are known; a sender
believes that a message was delivered on one reply line only.

Somebody in between may rewrite the line, and the reply, in any way.

Main definitions:

* `LineChat.sealedText` — **the sealed line of a body**;
* `LineChat.Meddling`, `LineChat.exchange` — an exchange with somebody in between;
* `LineChat.JudgesExactly` — what the two sides make of lines and replies.

Main results:

* `LineChat.verify_eq_true_iff` — a body has one tag;
* `LineChat.isAuthentic_parse_iff` — **a line is authentic only as the sealed line of its body**;
* `LineChat.Reply.parse?_eq_tampered_iff`, `LineChat.Reply.parse?_eq_none_iff` — what is a reply;
* `LineChat.evaluateReply_eq_acknowledged_iff` — what a sender takes for an acknowledgement;
* `LineChat.judges_exactly` — **lines and replies are judged exactly**.
-/

import LineChat.Private.Sealed
import LineChat.Proofs.Handshake.Message
import LineChat.Proofs.Text.Base64
import LineChat.Proofs.Text.Words

set_option autoImplicit false

namespace LineChat

variable {secret : SharedSecret}

/-! ### Tags -/

/-- **A body has one tag**, in one spelling. -/
theorem verify_eq_true_iff {body claimed : String} :
    verify body claimed secret = true ↔ claimed = sign body secret := by
  rw [verify, sign, ← Base64.decodeText_eq_ok_iff]
  cases Base64.decodeText claimed with
  | error fault => simp
  | ok tag => simp

/-- A tag is a single word, and not empty, since it has 32 bytes. -/
theorem isToken_sign (body : String) : IsToken (sign body secret) :=
  isToken_encode_vector (by decide) _

/-! ### Sealed lines -/

/-- **The sealed line of a body.** -/
def sealedText (body : String) (secret : SharedSecret) : String := sign body secret ++ " " ++ body

@[simp] theorem render_ofBody (body : String) (secret : SharedSecret) :
    (SealedLine.ofBody body secret).render = sealedText body secret := rfl

@[simp] theorem parse_sealedText (body : String) (secret : SharedSecret) :
    SealedLine.parse (sealedText body secret) = SealedLine.ofBody body secret := by
  rw [SealedLine.parse, sealedText, Text.cutAtSpace_append (isToken_sign body).space_notMem]
  rfl

/-- A sealed line is the line of one body. -/
theorem sealedText_inj {body body' : String} :
    sealedText body secret = sealedText body' secret ↔ body = body' := by
  refine ⟨fun h => ?_, fun h => by rw [h]⟩
  have hparse := congrArg (fun line => (SealedLine.parse line).body) h
  simpa only [parse_sealedText, SealedLine.ofBody] using hparse

/-- The body of a line that is cut at a space. -/
theorem body_parse_append {front : String} (h : ' ' ∉ front.toList) (body : String) :
    (SealedLine.parse (front ++ " " ++ body)).body = body := by
  rw [SealedLine.parse, Text.cutAtSpace_append h]

/-- A line without a space is all body. -/
theorem body_parse_of_space_notMem {line : String} (h : ' ' ∉ line.toList) :
    (SealedLine.parse line).body = line := by
  rw [SealedLine.parse, Text.cutAtSpace_eq_none_iff.2 h]

/-- **A line is authentic only as the sealed line of its body.** -/
theorem isAuthentic_parse_iff {line : String} :
    (SealedLine.parse line).isAuthentic secret = true ↔
      line = sealedText (SealedLine.parse line).body secret := by
  constructor
  · intro h
    rw [SealedLine.isAuthentic, verify_eq_true_iff] at h
    rw [SealedLine.parse] at h ⊢
    cases hcut : Text.cutAtSpace line with
    | none =>
        -- a line without a space would need the empty tag
        rw [hcut] at h
        exact absurd h.symm (isToken_sign _).1
    | some parts =>
        obtain ⟨mac, body⟩ := parts
        simp only [hcut] at h ⊢
        rw [(Text.cutAtSpace_eq_some_iff.1 hcut).1, h]
        rfl
  · intro h
    rw [h, parse_sealedText, SealedLine.isAuthentic, verify_eq_true_iff]
    rfl

theorem isAuthentic_parse_iff_exists {line : String} :
    (SealedLine.parse line).isAuthentic secret = true ↔
      ∃ body, line = sealedText body secret := by
  constructor
  · intro h
    exact ⟨_, isAuthentic_parse_iff.1 h⟩
  · rintro ⟨body, rfl⟩
    rw [isAuthentic_parse_iff, parse_sealedText]
    rfl

/-! ### Replies -/

namespace Reply

/-- The body that reports a message as tampered with. -/
def tamperedText (message : String) : String := "!tampered " ++ message

@[simp] theorem render_ack : ack.render = "!ack" := rfl

@[simp] theorem render_tampered (message : String) :
    (tampered message).render = tamperedText message := by
  rw [← String.toList_inj]
  simp [render, tamperedText, tamperedToken]

theorem toList_opening : (tamperedToken ++ " ").toList = "!tampered ".toList := by decide

theorem tamperedText_ne_ack (message : String) : tamperedText message ≠ ackText := by
  intro h
  have hchars := congrArg (fun s => s.toList.take 2) h
  simp [tamperedText, ackText] at hchars

theorem opening_isPrefixOf_iff {body : String} :
    (tamperedToken ++ " ").toList.isPrefixOf body.toList = true ↔
      ∃ message, body = tamperedText message := by
  rw [toList_opening, List.isPrefixOf_iff_prefix]
  constructor
  · rintro ⟨rest, hrest⟩
    refine ⟨String.ofList rest, ?_⟩
    rw [← String.toList_inj, ← hrest]
    simp [tamperedText]
  · rintro ⟨message, rfl⟩
    exact ⟨message.toList, by simp [tamperedText]⟩

/-- **What is read as an acknowledgement.** -/
theorem parse?_eq_ack_iff {body : String} : parse? body = some ack ↔ body = "!ack" := by
  simp only [parse?]
  split
  · rename_i h
    exact iff_of_true rfl h
  · rename_i h
    refine iff_of_false ?_ h
    split <;> simp

@[simp] theorem parse?_tamperedText (message : String) :
    parse? (tamperedText message) = some (tampered message) := by
  have hopening := opening_isPrefixOf_iff.2 ⟨message, rfl⟩
  simp only [parse?, if_neg (tamperedText_ne_ack message), if_pos hopening]
  rw [toList_opening, tamperedText, String.toList_append, List.drop_left, String.ofList_toList]

/-- **What is read as a report of tampering.** -/
theorem parse?_eq_tampered_iff {body message : String} :
    parse? body = some (tampered message) ↔ body = tamperedText message := by
  constructor
  · intro h
    have hbody : ∃ other, body = tamperedText other := by
      rw [← opening_isPrefixOf_iff]
      by_contra hopening
      rw [parse?] at h
      split at h
      · cases h
      · simp only [if_neg hopening] at h
        cases h
    obtain ⟨other, rfl⟩ := hbody
    rw [parse?_tamperedText] at h
    cases h
    rfl
  · rintro rfl
    exact parse?_tamperedText message

/-- **What is no reply.** -/
theorem parse?_eq_none_iff {body : String} :
    parse? body = none ↔ body ≠ "!ack" ∧ ∀ message, body ≠ tamperedText message := by
  constructor
  · intro h
    refine ⟨?_, ?_⟩
    · rintro rfl
      rw [parse?_eq_ack_iff.2 rfl] at h
      cases h
    · rintro message rfl
      rw [parse?_tamperedText] at h
      cases h
  · rintro ⟨hack, htampered⟩
    cases hreply : parse? body with
    | none => rfl
    | some reply =>
        cases reply with
        | ack => exact absurd (parse?_eq_ack_iff.1 hreply) hack
        | tampered message => exact absurd (parse?_eq_tampered_iff.1 hreply) (htampered message)

end Reply

/-! ### What the receiver makes of a line -/

@[simp] theorem receive_message (line : String) :
    (receive line secret).message = (SealedLine.parse line).body := rfl

theorem receive_reply_of_authentic {line : String} (h : (receive line secret).authentic = true) :
    (receive line secret).reply.render = sealedText "!ack" secret := by
  change (SealedLine.parse line).isAuthentic secret = true at h
  rw [receive, render_ofBody, if_pos h, Reply.render_ack]

theorem receive_reply_of_not_authentic {line : String}
    (h : (receive line secret).authentic = false) :
    (receive line secret).reply.render =
      sealedText (Reply.tamperedText (receive line secret).message) secret := by
  change (SealedLine.parse line).isAuthentic secret = false at h
  rw [receive_message, receive, render_ofBody, if_neg (by simp [h]), Reply.render_tampered]

theorem receive_sealedText (body : String) :
    receive (sealedText body secret) secret = ⟨body, true, SealedLine.ofBody "!ack" secret⟩ := by
  have h : (SealedLine.ofBody body secret).isAuthentic secret = true := by
    rw [← parse_sealedText]
    exact isAuthentic_parse_iff_exists.2 ⟨body, rfl⟩
  simp only [receive, parse_sealedText, h, if_true, Reply.render_ack]
  rfl

/-! ### What the sender makes of a reply -/

theorem evaluateReply_sealedText (body : String) :
    evaluateReply (sealedText body secret) secret =
      match Reply.parse? body with
      | some .ack => .acknowledged
      | some (.tampered _) => .rejectedAsTampered
      | none => .unexpected body := by
  have h : (SealedLine.ofBody body secret).isAuthentic secret = true := by
    rw [← parse_sealedText]
    exact isAuthentic_parse_iff_exists.2 ⟨body, rfl⟩
  simp only [evaluateReply, parse_sealedText, h, Bool.not_true, Bool.false_eq_true, if_false]
  rfl

/-- **A reply that is the sealed line of no body** does not verify. -/
theorem evaluateReply_eq_replyTampered_iff {line : String} :
    evaluateReply line secret = .replyTampered ↔ ¬ ∃ body, line = sealedText body secret := by
  constructor
  · rintro h ⟨body, rfl⟩
    rw [evaluateReply_sealedText] at h
    split at h <;> cases h
  · intro h
    have hnot : ¬ (SealedLine.parse line).isAuthentic secret = true :=
      fun ha => h (isAuthentic_parse_iff_exists.1 ha)
    simp only [evaluateReply, if_pos (show (!(SealedLine.parse line).isAuthentic secret) = true by
      simpa using hnot)]

/-- An outcome other than a reply that does not verify comes from a sealed line. -/
theorem exists_sealedText_of_evaluateReply {line : String} {outcome : DeliveryOutcome}
    (h : evaluateReply line secret = outcome) (hne : outcome ≠ .replyTampered) :
    ∃ body, line = sealedText body secret := by
  by_contra hnot
  exact hne (h.symm.trans (evaluateReply_eq_replyTampered_iff.2 hnot))

/-- **What a sender takes for an acknowledgement** is one line only. -/
theorem evaluateReply_eq_acknowledged_iff {line : String} :
    evaluateReply line secret = .acknowledged ↔ line = sealedText "!ack" secret := by
  constructor
  · intro h
    obtain ⟨body, rfl⟩ := exists_sealedText_of_evaluateReply h (by simp)
    rw [evaluateReply_sealedText] at h
    split at h
    · rename_i hreply
      rw [Reply.parse?_eq_ack_iff.1 hreply]
    · cases h
    · cases h
  · rintro rfl
    rw [evaluateReply_sealedText, Reply.parse?_eq_ack_iff.2 rfl]

theorem evaluateReply_eq_rejectedAsTampered_iff {line : String} :
    evaluateReply line secret = .rejectedAsTampered ↔
      ∃ message, line = sealedText (Reply.tamperedText message) secret := by
  constructor
  · intro h
    obtain ⟨body, rfl⟩ := exists_sealedText_of_evaluateReply h (by simp)
    rw [evaluateReply_sealedText] at h
    split at h
    · cases h
    · rename_i message hreply
      exact ⟨message, by rw [Reply.parse?_eq_tampered_iff.1 hreply]⟩
    · cases h
  · rintro ⟨message, rfl⟩
    rw [evaluateReply_sealedText, Reply.parse?_tamperedText]

theorem evaluateReply_eq_unexpected_iff {line body : String} :
    evaluateReply line secret = .unexpected body ↔
      line = sealedText body secret ∧ body ≠ "!ack" ∧
        ∀ message, body ≠ Reply.tamperedText message := by
  rw [← Reply.parse?_eq_none_iff]
  constructor
  · intro h
    obtain ⟨other, rfl⟩ := exists_sealedText_of_evaluateReply h (by simp)
    rw [evaluateReply_sealedText] at h
    split at h
    · cases h
    · cases h
    · rename_i hreply
      cases h
      exact ⟨rfl, hreply⟩
  · rintro ⟨rfl, hreply⟩
    rw [evaluateReply_sealedText, hreply]

theorem isDelivered_iff {outcome : DeliveryOutcome} :
    outcome.isDelivered = true ↔ outcome = .acknowledged := by
  cases outcome <;> simp [DeliveryOutcome.isDelivered]

/-! ### Exchanges -/

/-- **What somebody in between does** to the line and to the reply. -/
structure Meddling where
  line : String → String := id
  reply : String → String := id

/-- **An exchange with somebody in between**: what the receiver makes of the line that it gets, and
the reply line that the sender gets. -/
def exchange (sender receiver : SharedSecret) (t : Meddling) (body : String) :
    Received × String :=
  let received := receive (t.line (sealedText body sender)) receiver
  (received, t.reply received.reply.render)

/-- **Lines and replies are judged exactly** by the holders of a secret. -/
structure JudgesExactly (secret : SharedSecret) : Prop where
  /-- A tag fits a body only if it is the one that is written in front of it. -/
  verifies : ∀ body claimed, verify body claimed secret = true ↔ claimed = sign body secret
  /-- A line is authentic if it is the sealed line of some body, and not otherwise. -/
  authentic : ∀ line, (receive line secret).authentic = true ↔ ∃ body, line = sealedText body secret
  /-- What is delivered is the text behind the first space, authentic or not. -/
  delivers_rest : ∀ front body, ' ' ∉ front.toList →
    (receive (front ++ " " ++ body) secret).message = body
  /-- What is delivered of a line without a space is the line. -/
  delivers_all : ∀ line, ' ' ∉ line.toList → (receive line secret).message = line
  /-- The reply to a line that is authentic. -/
  acks : ∀ line, (receive line secret).authentic = true →
    (receive line secret).reply.render = sealedText "!ack" secret
  /-- The reply to a line that is not. -/
  reports : ∀ line, (receive line secret).authentic = false →
    (receive line secret).reply.render =
      sealedText ("!tampered " ++ (receive line secret).message) secret
  acknowledged : ∀ line, evaluateReply line secret = .acknowledged ↔ line = sealedText "!ack" secret
  rejected : ∀ line, evaluateReply line secret = .rejectedAsTampered ↔
    ∃ message, line = sealedText ("!tampered " ++ message) secret
  unexpected : ∀ line body, evaluateReply line secret = .unexpected body ↔
    line = sealedText body secret ∧ body ≠ "!ack" ∧ ∀ message, body ≠ "!tampered " ++ message
  /-- Every other reply line does not verify. -/
  reply_tampered : ∀ line, evaluateReply line secret = .replyTampered ↔
    ¬ ∃ body, line = sealedText body secret
  /-- Whatever was done to the line and to the reply, and whoever made the reply, the sender counts
  the message as delivered if the reply is the sealed acknowledgement, and not otherwise. -/
  counts : ∀ receiver t body,
    (evaluateReply (exchange secret receiver t body).2 secret).isDelivered = true ↔
      (exchange secret receiver t body).2 = sealedText "!ack" secret
  /-- An exchange that is left alone delivers the body, and the sender knows. -/
  untouched : ∀ body, (exchange secret secret {} body).1.message = body ∧
    (exchange secret secret {} body).1.authentic = true ∧
    evaluateReply (exchange secret secret {} body).2 secret = .acknowledged

/-- **Lines and replies are judged exactly**, under every secret. -/
theorem judges_exactly (secret : SharedSecret) : JudgesExactly secret where
  verifies _ _ := verify_eq_true_iff
  authentic _ := isAuthentic_parse_iff_exists
  delivers_rest _ body h := body_parse_append h body
  delivers_all _ h := body_parse_of_space_notMem h
  acks _ h := receive_reply_of_authentic h
  reports _ h := receive_reply_of_not_authentic h
  acknowledged _ := evaluateReply_eq_acknowledged_iff
  rejected _ := evaluateReply_eq_rejectedAsTampered_iff
  unexpected _ _ := evaluateReply_eq_unexpected_iff
  reply_tampered _ := evaluateReply_eq_replyTampered_iff
  counts _ _ _ := isDelivered_iff.trans evaluateReply_eq_acknowledged_iff
  untouched body := by
    have hexchange : exchange secret secret {} body =
        (⟨body, true, SealedLine.ofBody "!ack" secret⟩, sealedText "!ack" secret) := by
      simp only [exchange, id_eq, receive_sealedText, render_ofBody]
    rw [hexchange]
    exact ⟨rfl, rfl, evaluateReply_eq_acknowledged_iff.2 rfl⟩

end LineChat
