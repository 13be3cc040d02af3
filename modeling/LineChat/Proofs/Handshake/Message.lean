/-
**A message is read from one line only.**

Every layer of reading a message is strict: the tokens are counted, the base64 has one spelling, and
its length is fixed.  So a line that is read as a message is the line that the message would be
written as, character for character.

Main definitions:

* `LineChat.IsToken` — texts that can stand in a message;
* `LineChat.Authenticate.words`, `LineChat.ServerOk.words` — the words of a message.

Main results:

* `LineChat.decodeFixed_eq_ok_iff`, `LineChat.Challenge.ofBase64_eq_ok_iff` — reading bytes of a
  fixed number;
* `LineChat.tokens_eq_ok_iff`, `LineChat.tokens_eq_error_iff` — reading tokens;
* `LineChat.Authenticate.isToken`, `LineChat.ServerOk.isToken` — no word of a message is empty or
  has blanks;
* `LineChat.Authenticate.parse_eq_ok_iff`, `LineChat.ServerOk.parse_eq_ok_iff` — **reading the first
  message, and the second**;
* `LineChat.Authenticate.hasLineEnd_render`, `LineChat.ServerOk.hasLineEnd_render` — every message
  is a single line;
* `LineChat.Authenticate.length_render`, `LineChat.ServerOk.length_render` — **how long the first
  message is, and the second**.
-/

import LineChat.Channel.LineCodec
import LineChat.Handshake.Message
import LineChat.Proofs.Result
import LineChat.Proofs.Text.Base64
import LineChat.Proofs.Text.Utf8
import LineChat.Proofs.Text.Words

set_option autoImplicit false

namespace LineChat

/-! ### Results -/

@[simp] theorem orFail_eq_ok_iff {α : Type} {reason : String} {r : Except LineError α} {a : α} :
    orFail reason r = .ok a ↔ r = .ok a := by
  cases r <;> simp [orFail, Except.mapError]

theorem orFail_eq_error_iff {α : Type} {reason : String} {r : Except LineError α}
    {failure : HandshakeFailure} :
    orFail reason r = .error failure ↔ ∃ e, r = .error e ∧ failure = ⟨reason, some e⟩ := by
  cases r <;> simp [orFail, Except.mapError, eq_comm]

/-! ### Bytes of a fixed number -/

theorem Bytes.toVector?_eq_some_iff {n : Nat} {bs : Bytes} {v : Vector UInt8 n} :
    Bytes.toVector? n bs = some v ↔ bs = v.toList := by
  constructor
  · intro h
    unfold Bytes.toVector? at h
    split at h
    · cases h
      simp
    · cases h
  · rintro rfl
    exact Bytes.toVector?_toList v

/-- **Bytes of a fixed number are read from one text only.** -/
theorem decodeFixed_eq_ok_iff {n : Nat} {what encoded : String} {v : Vector UInt8 n} :
    decodeFixed n what encoded = .ok v ↔ encoded = Base64.encode v.toList := by
  constructor
  · intro h
    unfold decodeFixed at h
    cases hd : Base64.decodeText encoded with
    | error fault => simp [hd] at h
    | ok bytes =>
        rw [hd] at h
        cases hv : Bytes.toVector? n bytes with
        | none => simp [hv] at h
        | some w =>
            simp only [hv] at h
            cases h
            rw [Base64.decodeText_eq_ok_iff.1 hd, Bytes.toVector?_eq_some_iff.1 hv]
  · rintro rfl
    rw [decodeFixed, Base64.decodeText_eq_ok_iff.2 rfl]
    simp only [Bytes.toVector?_toList]

/-- **A challenge is read from one text only.** -/
theorem Challenge.ofBase64_eq_ok_iff {encoded : String} {c : Challenge} :
    Challenge.ofBase64 encoded = .ok c ↔ encoded = c.toBase64 := by
  have hfixed := @decodeFixed_eq_ok_iff 32 "challenge" encoded c.bytes
  rw [toBase64, ← hfixed, ofBase64]
  cases hd : decodeFixed 32 "challenge" encoded with
  | error e => simp [Except.map]
  | ok v => cases c; simp [Except.map]

theorem SessionKey.ofBase64_eq_ok_iff {key iv : String} {session : SessionKey} :
    SessionKey.ofBase64 key iv = .ok session ↔
      key = Base64.encode session.key.toList ∧ iv = Base64.encode session.iv.toList := by
  unfold ofBase64
  constructor
  · intro h
    obtain ⟨key', hkey, h⟩ := bind_eq_ok_iff.1 h
    obtain ⟨iv', hiv, h⟩ := bind_eq_ok_iff.1 h
    cases h
    exact ⟨decodeFixed_eq_ok_iff.1 hkey, decodeFixed_eq_ok_iff.1 hiv⟩
  · rintro ⟨hkey, hiv⟩
    exact bind_eq_ok_iff.2 ⟨session.key, decodeFixed_eq_ok_iff.2 hkey,
      bind_eq_ok_iff.2 ⟨session.iv, decodeFixed_eq_ok_iff.2 hiv, rfl⟩⟩

/-! ### Tokens -/

/-- **A text that can stand in a message**: it is not empty and has no blanks. -/
def IsToken (word : String) : Prop := word ≠ "" ∧ ∀ c ∈ word.toList, Text.isBlank c = false

theorem checkUsername_eq_ok_iff_isToken {name : String} :
    checkUsername name = .ok () ↔ IsToken name := by
  rw [checkUsername_eq_ok_iff, isUsername, Bool.and_eq_true, decide_eq_true_eq,
    Bool.not_eq_true', List.any_eq_false]
  simp only [IsToken, Bool.not_eq_true]

theorem isToken_encode {bs : Bytes} (h : bs ≠ []) : IsToken (Base64.encode bs) := by
  refine ⟨fun hempty => h (Base64.encode_injective hempty), fun c hc => ?_⟩
  obtain ⟨hlow, hhigh⟩ := Base64.printed_of_mem_encode hc
  simp only [Text.isBlank, Bool.or_eq_false_iff, Bool.and_eq_false_iff, decide_eq_false_iff_not,
    beq_eq_false_iff_ne]
  omega

theorem isToken_encode_vector {n : Nat} (hn : n ≠ 0) (v : Vector UInt8 n) :
    IsToken (Base64.encode v.toList) := by
  refine isToken_encode fun hnil => hn ?_
  rw [← v.length_toList, hnil, List.length_nil]

theorem IsToken.space_notMem {word : String} (h : IsToken word) : ' ' ∉ word.toList :=
  fun hspace => absurd (h.2 ' ' hspace) (by decide)

/-- **A text has the tokens as words** that it is joined from. -/
theorem words_unwords_of_isToken {ws : List String} (h : ∀ w ∈ ws, IsToken w) (hne : ws ≠ []) :
    Text.words (Text.unwords ws) = ws :=
  Text.words_unwords (fun w hw => (h w hw).space_notMem) hne

theorem hasLineEnd_unwords {ws : List String} (h : ∀ w ∈ ws, IsToken w) :
    LineCodec.hasLineEnd (Text.unwords ws) = false := by
  rw [LineCodec.hasLineEnd, List.any_eq_false]
  intro c hc
  rw [decide_eq_true_eq]
  rcases Text.mem_unwords hc with rfl | ⟨w, hw, hmem⟩
  · decide
  · rintro (rfl | rfl) <;> exact absurd ((h w hw).2 _ hmem) (by decide)

/-- **Tokens are read from a line** that has them as words. -/
theorem tokens_eq_ok_iff {count : Nat} {command line : String} {parts : List String} :
    tokens count command line = .ok parts ↔
      Text.words line = parts ∧ parts.length = count ∧ parts.head? = some command := by
  simp only [tokens, if_error_eq_ok_iff, ne_eq, Decidable.not_not, Except.ok.injEq]
  constructor
  · rintro ⟨hlen, hhead, rfl⟩
    exact ⟨rfl, hlen, hhead⟩
  · rintro ⟨rfl, hlen, hhead⟩
    exact ⟨hlen, hhead, rfl⟩

theorem tokens_eq_error_iff {count : Nat} {command line : String} {failure : HandshakeFailure} :
    tokens count command line = .error failure ↔
      (Text.words line).length ≠ count ∧
          failure = ⟨s!"{command} expects {count} tokens, got {(Text.words line).length}", none⟩ ∨
        (Text.words line).length = count ∧ (Text.words line).head? ≠ some command ∧
          failure = ⟨s!"expected {command}, got another command", none⟩ := by
  by_cases hlen : (Text.words line).length = count
  · by_cases hhead : (Text.words line).head? = some command <;>
      simp [tokens, hlen, hhead, eq_comm]
  · simp [tokens, hlen, eq_comm]

/-! ### The first message -/

namespace Authenticate

/-- The words of the message. -/
def words (m : Authenticate) : List String := [command, m.username, m.challenge.toBase64]

theorem isToken {m : Authenticate} (h : checkUsername m.username = .ok ()) :
    ∀ w ∈ m.words, IsToken w := by
  simp only [words, List.forall_mem_cons]
  refine ⟨?_, checkUsername_eq_ok_iff_isToken.1 h, isToken_encode_vector (by decide) _, by simp⟩
  exact checkUsername_eq_ok_iff_isToken.1 (by decide)

theorem words_render {m : Authenticate} (h : checkUsername m.username = .ok ()) :
    Text.words m.render = m.words :=
  words_unwords_of_isToken (isToken h) (List.cons_ne_nil _ _)

theorem render_eq (m : Authenticate) :
    m.render = "!authenticate " ++ m.username ++ " " ++ m.challenge.toBase64 := by
  rw [← String.toList_inj]
  simp [render, Text.unwords, command]

/-- **The first message is read from one line only**, and only with a name that can stand in it. -/
theorem parse_eq_ok_iff {line : String} {m : Authenticate} :
    parse line = .ok m ↔ line = m.render ∧ checkUsername m.username = .ok () := by
  constructor
  · intro h
    obtain ⟨parts, htokens, h⟩ := bind_eq_ok_iff.1 h
    obtain ⟨_, hname, h⟩ := bind_eq_ok_iff.1 h
    obtain ⟨challenge, hchallenge, h⟩ := bind_eq_ok_iff.1 h
    cases h
    obtain ⟨hwords, hlen, hhead⟩ := tokens_eq_ok_iff.1 htokens
    match parts, hlen with
    | [first, name, encoded], _ =>
        obtain rfl : first = command := Option.some.inj hhead
        obtain rfl : encoded = challenge.toBase64 :=
          Challenge.ofBase64_eq_ok_iff.1 (orFail_eq_ok_iff.1 hchallenge)
        -- a line is its words joined, and every word is known by now
        refine ⟨?_, orFail_eq_ok_iff.1 hname⟩
        rw [render, ← Text.unwords_words line, hwords]
        rfl
  · rintro ⟨rfl, hname⟩
    have htokens : tokens 3 command m.render = .ok m.words :=
      tokens_eq_ok_iff.2 ⟨words_render hname, rfl, rfl⟩
    rw [parse, htokens]
    refine bind_eq_ok_iff.2 ⟨_, rfl, bind_eq_ok_iff.2 ⟨(), orFail_eq_ok_iff.2 hname, ?_⟩⟩
    exact bind_eq_ok_iff.2 ⟨m.challenge,
      orFail_eq_ok_iff.2 (Challenge.ofBase64_eq_ok_iff.2 rfl), rfl⟩

/-- **The first message is a single line**, if its name can stand in it. -/
theorem hasLineEnd_render {m : Authenticate} (h : checkUsername m.username = .ok ()) :
    LineCodec.hasLineEnd m.render = false :=
  hasLineEnd_unwords (isToken h)

end Authenticate

/-! ### The second message -/

namespace ServerOk

/-- The words of the message. -/
def words (m : ServerOk) : List String :=
  [command, m.clientChallenge.toBase64, m.serverChallenge.toBase64, m.session.toBase64.1,
    m.session.toBase64.2]

theorem isToken (m : ServerOk) : ∀ w ∈ m.words, IsToken w := by
  simp only [words, List.forall_mem_cons]
  refine ⟨checkUsername_eq_ok_iff_isToken.1 (by decide), ?_, ?_, ?_, ?_, by simp⟩
  all_goals exact isToken_encode_vector (by decide) _

theorem words_render (m : ServerOk) : Text.words m.render = m.words :=
  words_unwords_of_isToken m.isToken (List.cons_ne_nil _ _)

theorem render_eq (m : ServerOk) :
    m.render = "!ok " ++ m.clientChallenge.toBase64 ++ " " ++ m.serverChallenge.toBase64 ++ " " ++
      Base64.encode m.session.key.toList ++ " " ++ Base64.encode m.session.iv.toList := by
  rw [← String.toList_inj]
  simp [render, Text.unwords, command, SessionKey.toBase64]

/-- **The second message is read from one line only.** -/
theorem parse_eq_ok_iff {line : String} {m : ServerOk} :
    parse line = .ok m ↔ line = m.render := by
  constructor
  · intro h
    obtain ⟨parts, htokens, h⟩ := bind_eq_ok_iff.1 h
    obtain ⟨client, hclient, h⟩ := bind_eq_ok_iff.1 h
    obtain ⟨server, hserver, h⟩ := bind_eq_ok_iff.1 h
    obtain ⟨session, hsession, h⟩ := bind_eq_ok_iff.1 h
    cases h
    obtain ⟨hwords, hlen, hhead⟩ := tokens_eq_ok_iff.1 htokens
    match parts, hlen with
    | [first, echoed, fresh, key, iv], _ =>
        obtain rfl : first = command := Option.some.inj hhead
        obtain rfl : echoed = client.toBase64 :=
          Challenge.ofBase64_eq_ok_iff.1 (orFail_eq_ok_iff.1 hclient)
        obtain rfl : fresh = server.toBase64 :=
          Challenge.ofBase64_eq_ok_iff.1 (orFail_eq_ok_iff.1 hserver)
        obtain ⟨hkey, hiv⟩ := SessionKey.ofBase64_eq_ok_iff.1 (orFail_eq_ok_iff.1 hsession)
        obtain rfl : key = Base64.encode session.key.toList := hkey
        obtain rfl : iv = Base64.encode session.iv.toList := hiv
        rw [render, ← Text.unwords_words line, hwords]
        rfl
  · rintro rfl
    have htokens : tokens 5 command m.render = .ok m.words :=
      tokens_eq_ok_iff.2 ⟨m.words_render, rfl, rfl⟩
    have hclient := Challenge.ofBase64_eq_ok_iff.2 (rfl : m.clientChallenge.toBase64 = _)
    have hserver := Challenge.ofBase64_eq_ok_iff.2 (rfl : m.serverChallenge.toBase64 = _)
    have hsession := (@SessionKey.ofBase64_eq_ok_iff _ _ m.session).2 ⟨rfl, rfl⟩
    rw [parse, htokens]
    refine bind_eq_ok_iff.2 ⟨_, rfl, bind_eq_ok_iff.2 ⟨_, orFail_eq_ok_iff.2 hclient, ?_⟩⟩
    refine bind_eq_ok_iff.2 ⟨_, orFail_eq_ok_iff.2 hserver, ?_⟩
    exact bind_eq_ok_iff.2 ⟨_, orFail_eq_ok_iff.2 hsession, rfl⟩

/-- **The second message is a single line.** -/
theorem hasLineEnd_render (m : ServerOk) : LineCodec.hasLineEnd m.render = false :=
  hasLineEnd_unwords m.isToken

end ServerOk

/-! ### How long the messages are -/

theorem length_toBase64 (c : Challenge) : (Text.utf8 c.toBase64).length = 44 := by
  rw [Challenge.toBase64, Base64.utf8_encode, Base64.length_encodeBytes, Vector.length_toList]
  rfl

theorem Authenticate.length_render (m : Authenticate) :
    (Text.utf8 m.render).length = (Text.utf8 m.username).length + 59 := by
  have hcommand : (Text.utf8 "!authenticate ").length = 14 := by decide +kernel
  have hspace : (Text.utf8 " ").length = 1 := by decide +kernel
  rw [Authenticate.render_eq]
  simp only [Text.utf8_append, List.length_append, hcommand, hspace, length_toBase64]
  omega

theorem ServerOk.length_render (m : ServerOk) : (Text.utf8 m.render).length = 163 := by
  have hcommand : (Text.utf8 "!ok ").length = 4 := by decide +kernel
  have hspace : (Text.utf8 " ").length = 1 := by decide +kernel
  have hkey : (Text.utf8 (Base64.encode m.session.key.toList)).length = 44 := by
    rw [Base64.utf8_encode, Base64.length_encodeBytes, Vector.length_toList]
    rfl
  have hiv : (Text.utf8 (Base64.encode m.session.iv.toList)).length = 24 := by
    rw [Base64.utf8_encode, Base64.length_encodeBytes, Vector.length_toList]
    rfl
  rw [ServerOk.render_eq]
  simp only [Text.utf8_append, List.length_append, hcommand, hspace, length_toBase64, hkey, hiv]

end LineChat
