/-
**A message that comes back to its sender.**

Messages and replies are sealed with one secret and look alike on the wire, so somebody in between
can answer a message with the message itself.  Its tag fits.  What tells a message from a reply is
its body only: the body of a message has a colon behind the sender's name, an acknowledgement has no
colon at all, and what a report of tampering opens with has none either.  So the body of a message
is an acknowledgement never, and a report only if the sender's name opens like one, which no name
does that can log in.

Main definitions:

* `LineChat.messageLine` — the line that carries a message;
* `LineChat.Reflects` — **what a sender makes of its own line**.

Main results:

* `LineChat.messageBody_ne_ack` — a message is no acknowledgement;
* `LineChat.exists_messageBody_eq_tamperedText_iff` — which messages are reports;
* `LineChat.reflected_message_not_acknowledged` — **a message that comes back is not taken for an
  acknowledgement**.
-/

import LineChat.Private.Exchange
import LineChat.Proofs.Private.Sealed

set_option autoImplicit false

namespace LineChat

variable {sender text : String} {secret : SharedSecret}

/-- **A message is no acknowledgement**: it has a colon. -/
theorem messageBody_ne_ack : messageBody sender text ≠ "!ack" := by
  intro h
  have hcolon : ':' ∈ (messageBody sender text).toList := by simp [messageBody]
  rw [h] at hcolon
  exact absurd hcolon (by decide)

/-- **Which messages are reports of tampering**: the colon behind the sender's name cannot be a part
of what a report opens with, so the name opens like one. -/
theorem exists_messageBody_eq_tamperedText_iff :
    (∃ message, messageBody sender text = Reply.tamperedText message) ↔
      ∃ rest, sender = Reply.tamperedText rest := by
  constructor
  · rintro ⟨message, h⟩
    have hchars : sender.toList ++ (':' :: ' ' :: text.toList) =
        "!tampered ".toList ++ message.toList := by
      simpa [messageBody, Reply.tamperedText] using congrArg String.toList h
    rcases List.append_eq_append_iff.1 hchars with ⟨behind, hopening, hrest⟩ | ⟨rest, hsender, -⟩
    · -- the name is a part of the opening: then the colon behind it would be one as well
      cases behind with
      | nil =>
          refine ⟨"", String.toList_inj.1 ?_⟩
          rw [List.append_nil] at hopening
          simp [Reply.tamperedText, hopening]
      | cons c behind =>
          have hcolon : ':' ∈ "!tampered ".toList := by
            rw [hopening, (List.cons.inj hrest).1]
            simp
          exact absurd hcolon (by decide)
    · -- the opening is a part of the name
      refine ⟨String.ofList rest, String.toList_inj.1 ?_⟩
      simp [Reply.tamperedText, hsender]
  · rintro ⟨rest, rfl⟩
    refine ⟨messageBody rest text, String.toList_inj.1 ?_⟩
    simp [messageBody, Reply.tamperedText]

/-- No name that can stand in a login opens like a report of tampering, since that has a space. -/
theorem ne_tamperedText_of_checkUsername (h : checkUsername sender = .ok ()) (rest : String) :
    sender ≠ Reply.tamperedText rest := by
  rintro rfl
  exact (checkUsername_eq_ok_iff_isToken.1 h).space_notMem (by simp [Reply.tamperedText])

/-- **The line that carries a message.** -/
def messageLine (sender text : String) (secret : SharedSecret) : String :=
  (SealedLine.ofBody (messageBody sender text) secret).render

/-- **What a sender makes of its own line**, if that is the answer it gets. -/
structure Reflects (sender text : String) (secret : SharedSecret) : Prop where
  /-- Nothing but this line is sent. -/
  sent : ∀ line, outgoingLine sender text secret = .ok line → line = messageLine sender text secret
  never_acknowledged : evaluateReply (messageLine sender text secret) secret ≠ .acknowledged
  rejected_iff : evaluateReply (messageLine sender text secret) secret = .rejectedAsTampered ↔
    ∃ rest, sender = "!tampered " ++ rest
  unexpected_iff : evaluateReply (messageLine sender text secret) secret =
      .unexpected (messageBody sender text) ↔ ¬∃ rest, sender = "!tampered " ++ rest
  /-- The sender has a name that can log in. -/
  unexpected : checkUsername sender = .ok () →
    evaluateReply (messageLine sender text secret) secret = .unexpected (messageBody sender text)
  /-- Bodies of messages and of replies do not collide. -/
  collides_iff : (∃ reply : Reply, messageBody sender text = reply.render) ↔
    ∃ rest, sender = "!tampered " ++ rest

/-- **A message that comes back is not taken for an acknowledgement**, whoever sent it and whatever
it says. -/
theorem reflected_message_not_acknowledged (sender text : String) (secret : SharedSecret) :
    Reflects sender text secret := by
  have hreport : (∃ message, messageBody sender text = Reply.tamperedText message) ↔
      ∃ rest, sender = Reply.tamperedText rest := exists_messageBody_eq_tamperedText_iff
  have hunexpected : evaluateReply (messageLine sender text secret) secret =
      .unexpected (messageBody sender text) ↔ ¬∃ rest, sender = Reply.tamperedText rest := by
    rw [messageLine, render_ofBody, evaluateReply_eq_unexpected_iff, ← hreport, not_exists]
    exact ⟨fun h => h.2.2, fun h => ⟨rfl, messageBody_ne_ack, h⟩⟩
  constructor
  case sent =>
    intro line h
    rw [outgoingLine] at h
    split at h <;> cases h
    rfl
  case never_acknowledged =>
    rw [messageLine, render_ofBody, Ne, evaluateReply_eq_acknowledged_iff, sealedText_inj]
    exact messageBody_ne_ack
  case rejected_iff =>
    simp only [messageLine, render_ofBody, evaluateReply_eq_rejectedAsTampered_iff, sealedText_inj]
    exact hreport
  case unexpected_iff => exact hunexpected
  case unexpected =>
    intro hname
    rw [hunexpected, not_exists]
    exact ne_tamperedText_of_checkUsername hname
  case collides_iff =>
    refine Iff.trans ⟨?_, ?_⟩ hreport
    · rintro ⟨reply, hreply⟩
      cases reply with
      | ack => exact absurd hreply messageBody_ne_ack
      | tampered message => exact ⟨message, hreply.trans (Reply.render_tampered message)⟩
    · rintro ⟨message, h⟩
      exact ⟨.tampered message, h.trans (Reply.render_tampered message).symm⟩

end LineChat
