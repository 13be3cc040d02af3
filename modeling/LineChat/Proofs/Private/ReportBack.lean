/-
**How a report of tampering gets back.**

A receiver answers a line that is not authentic with a report that carries its body, written as a
plain line and not looked at again.  The report is longer than what it answers, and its body ends
where the line ended.  So it can be too long for the sender, who then learns of no tampering; and if
the body ends with a carriage return, the sender takes that for a part of the line's end, and finds
that the report's own tag does not fit.  On all other lines the sender learns of the tampering.

Main results:

* `LineChat.length_report` — a report is 55 bytes longer than the body it carries;
* `LineChat.evaluateReply_withoutReturn` — what a sender makes of a report that lost its last
  character;
* `LineChat.judgeReply_report` — **what a sender is told**;
* `LineChat.not_every_report_arrives` — a report that does not arrive.
-/

import LineChat.Private.Exchange
import LineChat.Proofs.Channel.PlainLine
import LineChat.Proofs.Private.Sealed

set_option autoImplicit false

namespace LineChat

variable {secret : SharedSecret} {line message : String}

/-! ### Reports -/

/-- A line without a space has no tag. -/
theorem not_authentic_of_space_notMem (h : ' ' ∉ line.toList) :
    (receive line secret).authentic = false := by
  refine Bool.eq_false_iff.2 fun hauthentic => h ?_
  obtain ⟨body, rfl⟩ := isAuthentic_parse_iff_exists.1 hauthentic
  simp [sealedText]

/-- The body of a line is what is left of it. -/
theorem exists_append_message (line : String) (secret : SharedSecret) :
    ∃ front, line = front ++ (receive line secret).message := by
  rw [receive_message, SealedLine.parse]
  cases hcut : Text.cutAtSpace line with
  | none => exact ⟨"", String.empty_append.symm⟩
  | some parts => exact ⟨parts.1 ++ " ", (Text.cutAtSpace_eq_some_iff.1 hcut).1⟩

theorem length_sign (body : String) : (Text.utf8 (sign body secret)).length = 44 := by
  rw [sign, Base64.utf8_encode, Base64.length_encodeBytes, Vector.length_toList]
  rfl

/-- **A report is longer than the body it carries.** -/
theorem length_report (message : String) :
    (Text.utf8 (sealedText (Reply.tamperedText message) secret)).length =
      (Text.utf8 message).length + 55 := by
  have hopening : (Text.utf8 "!tampered ").length = 10 := by decide
  have hspace : (Text.utf8 " ").length = 1 := by decide
  simp only [sealedText, Reply.tamperedText, Text.utf8_append, List.length_append, length_sign,
    hopening, hspace]
  omega

/-- A report is a single line if its body is. -/
theorem lineFeed_notMem_report (h : lineFeed ∉ Text.utf8 message) :
    lineFeed ∉ Text.utf8 (sealedText (Reply.tamperedText message) secret) := by
  have hopening : lineFeed ∉ Text.utf8 "!tampered " := by decide
  have hspace : lineFeed ∉ Text.utf8 " " := by decide
  simp only [sealedText, Reply.tamperedText, Text.utf8_append, List.mem_append, not_or]
  refine ⟨⟨?_, hspace⟩, hopening, h⟩
  rw [sign, Base64.utf8_encode]
  exact lineFeed_notMem_encodeBytes _

/-- **What a sender makes of a report** whose last character is gone if it was a carriage return:
the tag is still that of the whole report. -/
theorem evaluateReply_withoutReturn (message : String) (secret : SharedSecret) :
    evaluateReply (Text.withoutReturn (sealedText (Reply.tamperedText message) secret)) secret =
      if sign (Reply.tamperedText message) secret =
          sign (Reply.tamperedText (Text.withoutReturn message)) secret
      then .rejectedAsTampered else .replyTampered := by
  have hread : Text.withoutReturn (sealedText (Reply.tamperedText message) secret) =
      sign (Reply.tamperedText message) secret ++ " " ++
        Reply.tamperedText (Text.withoutReturn message) := by
    rw [sealedText, Reply.tamperedText, ← String.append_assoc, Text.withoutReturn_append (by simp),
      String.append_assoc]
    rfl
  rw [hread]
  split
  next htag =>
    rw [htag]
    exact evaluateReply_eq_rejectedAsTampered_iff.2 ⟨_, rfl⟩
  next htag =>
    rw [evaluateReply_eq_replyTampered_iff]
    rintro ⟨body, hbody⟩
    -- a tag has no space, so there is one way only to read a line as a tag and a body
    have hcut := congrArg Text.cutAtSpace hbody
    rw [sealedText, Text.cutAtSpace_append (isToken_sign _).space_notMem,
      Text.cutAtSpace_append (isToken_sign _).space_notMem] at hcut
    obtain ⟨hmac, hrest⟩ := Prod.mk.inj (Option.some.inj hcut)
    rw [hrest] at htag
    exact htag hmac

/-! ### What a sender is told -/

/-- What a sender that waits for a reply is told when the reply is a report. -/
theorem judgeReply_firstAnswer {pieces : List Bytes} {more : Bytes}
    (hmessage : lineFeed ∉ Text.utf8 message)
    (hpieces : pieces.flatten =
      frameLine (sealedText (Reply.tamperedText message) secret) ++ more) :
    judgeReply secret (({ format := {} } : Link Framing).firstAnswer {} pieces) =
      if maxLineLength < (Text.utf8 message).length + 55
      then .error (.line (.lineTooLong maxLineLength))
      else .ok (if sign (Reply.tamperedText message) secret =
          sign (Reply.tamperedText (Text.withoutReturn message)) secret
        then .rejectedAsTampered else .replyTampered) := by
  rw [Link.firstAnswer_frameLine (lineFeed_notMem_report hmessage) hpieces, readBack,
    length_report]
  split
  · rfl
  · rw [← evaluateReply_withoutReturn]
    rfl

/-- **What a sender learns of a line that was tampered with.**  The receiver takes the line off its
channel and writes its reply, and the sender waits until that has arrived, in whatever pieces: if
the body of the line has more than 65481 bytes, the sender is told that the reply is too long;
otherwise it learns of the tampering if the tag of the report is also that of the report without a
carriage return at its end, and takes the reply for a forged one if it is not. -/
theorem report_reaches_sender {f f' : Framing} {ended : Bool} {b rest more : Bytes}
    {pieces : List Bytes} (hline : f.decode ended b = (.ok (some line), f', rest))
    (htampered : (receive line secret).authentic = false)
    (hpieces : pieces.flatten = frameLine (receive line secret).reply.render ++ more) :
    judgeReply secret (({ format := {} } : Link Framing).firstAnswer {} pieces) =
      let message := (receive line secret).message
      if maxLineLength < (Text.utf8 message).length + 55
      then .error (.line (.lineTooLong maxLineLength))
      else .ok (if sign (Reply.tamperedText message) secret =
          sign (Reply.tamperedText (Text.withoutReturn message)) secret
        then .rejectedAsTampered else .replyTampered) := by
  have hmessage : lineFeed ∉ Text.utf8 (receive line secret).message := by
    obtain ⟨front, hfront⟩ := exists_append_message line secret
    have hfeed := Framing.lineFeed_notMem_of_decode hline
    rw [hfront, Text.utf8_append] at hfeed
    exact fun hmem => hfeed (List.mem_append_right _ hmem)
  rw [receive_reply_of_not_authentic htampered] at hpieces
  exact judgeReply_firstAnswer hmessage hpieces

/-- A secret of a single byte. -/
def shortSecret : SharedSecret := ⟨[107], by decide⟩

/-- A line that is short and does not end with a carriage return is reported. -/
theorem report_of_short_line_arrives :
    Framing.decode {} false (Text.utf8 "abc\r\n") = (.ok (some "abc"), {}, []) ∧
      (receive "abc" shortSecret).authentic = false ∧
      judgeReply shortSecret (({ format := {} } : Link Framing).firstAnswer {}
        [frameLine (receive "abc" shortSecret).reply.render]) = .ok .rejectedAsTampered := by
  have hline : Framing.decode {} false (Text.utf8 "abc\r\n") = (.ok (some "abc"), {}, []) := by
    decide +kernel
  have hspace : ' ' ∉ "abc".toList := by decide
  have htampered : (receive "abc" shortSecret).authentic = false :=
    not_authentic_of_space_notMem hspace
  have hpieces : [frameLine (receive "abc" shortSecret).reply.render].flatten =
      frameLine (receive "abc" shortSecret).reply.render ++ [] := by simp
  refine ⟨hline, htampered, (report_reaches_sender hline htampered hpieces).trans ?_⟩
  have hshort : ¬maxLineLength < (Text.utf8 "abc").length + 55 := by decide
  have hreturn : Text.withoutReturn "abc" = "abc" := by decide
  rw [receive_message, body_parse_of_space_notMem hspace]
  dsimp only
  rw [if_neg hshort, hreturn, if_pos rfl]

/-- A text of as many bytes as a line may have. -/
def longText : String := String.ofList (List.replicate maxLineLength 'a')

theorem eq_of_mem_longText {c : Char} (h : c ∈ longText.toList) : c = 'a' := by
  rw [longText, String.toList_ofList] at h
  exact List.eq_of_mem_replicate h

theorem utf8_longText : Text.utf8 longText = List.replicate maxLineLength 97 := by
  have ha : String.utf8EncodeChar 'a' = [97] := by decide
  rw [longText, Text.utf8_ofList, List.flatMap_replicate, ha, List.flatten_replicate_singleton]

theorem length_longText : (Text.utf8 longText).length = maxLineLength := by
  rw [utf8_longText, List.length_replicate]

theorem lineFeed_notMem_longText : lineFeed ∉ Text.utf8 longText := by
  rw [utf8_longText]
  exact fun hmem => absurd (List.eq_of_mem_replicate hmem) (by decide)

/-- The longest line there is can be read. -/
theorem decode_longText :
    Framing.decode {} false (frameLine longText) = (.ok (some longText), {}, []) := by
  have hreturn : Text.withoutReturn longText = longText :=
    Text.withoutReturn_of_ne fun hlast =>
      absurd (eq_of_mem_longText (List.mem_of_getLast? hlast)) (by decide)
  have hline := Framing.decode_frameLine_of_le lineFeed_notMem_longText
    (Nat.le_of_eq length_longText) []
  rwa [hreturn, List.append_nil] at hline

/-- **Not every report arrives**: one that answers the longest line there is does not. -/
theorem not_every_report_arrives :
    ¬∀ (f f' : Framing) (ended : Bool) (b rest more : Bytes) (line : String)
      (secret : SharedSecret) (pieces : List Bytes),
      f.decode ended b = (.ok (some line), f', rest) → (receive line secret).authentic = false →
      pieces.flatten = frameLine (receive line secret).reply.render ++ more →
      judgeReply secret (({ format := {} } : Link Framing).firstAnswer {} pieces) =
        .ok .rejectedAsTampered := by
  intro h
  have hspace : ' ' ∉ longText.toList := fun hmem => absurd (eq_of_mem_longText hmem) (by decide)
  have htampered : (receive longText shortSecret).authentic = false :=
    not_authentic_of_space_notMem hspace
  have hreply : [frameLine (receive longText shortSecret).reply.render].flatten =
      frameLine (sealedText (Reply.tamperedText longText) shortSecret) ++ [] := by
    rw [receive_reply_of_not_authentic htampered, receive_message,
      body_parse_of_space_notMem hspace, List.flatten_singleton, List.append_nil]
  -- the claim and the general result disagree on this line
  have hrejected := h {} {} false _ [] [] longText shortSecret
    [frameLine (receive longText shortSecret).reply.render] decode_longText htampered (by simp)
  have hrefused := judgeReply_firstAnswer lineFeed_notMem_longText hreply
  rw [length_longText, if_pos (Nat.lt_add_of_pos_right (by decide))] at hrefused
  cases hrejected.symm.trans hrefused

end LineChat
