/-
**A message has one spelling.**

A line is read as a message if and only if it is the line that the message is written as.  So there
is no second way to write a message: no doubled or trailing separator, no other kind of blank, no
text behind the last word, and no base64 but the one with its padding and without spare bits.

Any other line is refused, for the first thing that is wrong with it: the number of its words, the
word that it starts with, or the first word that cannot be read.  Both messages are read in this
way, and differ only in the parts they have.

Main definitions:

* `LineChat.Part` — what a word of a message is read as;
* `LineChat.checkWords`, `LineChat.checkLine` — checking the words of a line one after the other;
* `LineChat.Misspelt` — **what is wrong with a line**;
* `LineChat.OneSpelling` — **a message is read from what it is written as, and from nothing else**.

Main results:

* `LineChat.checkLine_eq_error_iff` — a line is refused for what is wrong with it;
* `LineChat.Authenticate.map_parse`, `LineChat.ServerOk.map_parse` — both messages are checked in
  the same way;
* `LineChat.Authenticate.eq_empty_of_render_append`, `LineChat.ServerOk.eq_empty_of_render_append` —
  no message is the beginning of another;
* `LineChat.messages_have_one_spelling` — **both messages have one spelling**.
-/

import LineChat.Proofs.Handshake.Message

set_option autoImplicit false

namespace LineChat

/-! ### Checking one word after the other -/

/-- **What a word of a message is read as**, and what the message fails with if it cannot be. -/
structure Part where
  reason : String
  check : String → Except LineError Unit

/-- A part whose words are read by a given reader. -/
def Part.readBy {α : Type} (reason : String) (read : String → Except LineError α) : Part where
  reason := reason
  check word := (read word).map fun _ => ()

/-- **Checks the words of a line**, as far as there are parts for them. -/
def checkWords : List Part → List String → Except HandshakeFailure Unit
  | part :: parts, word :: words => do
      orFail part.reason (part.check word)
      checkWords parts words
  | _, _ => .ok ()

/-- Checks a line that should start with `command` and have a word for each part behind it. -/
def checkLine (command : String) (parts : List Part) (line : String) :
    Except HandshakeFailure Unit := do
  let words ← tokens (parts.length + 1) command line
  checkWords parts words.tail

/-- **The first word that cannot be read**, and the failure it leads to. -/
inductive Unreadable : List Part → List String → HandshakeFailure → Prop
  | here {part : Part} {parts : List Part} {word : String} {words : List String} {e : LineError}
      (hcheck : part.check word = .error e) :
      Unreadable (part :: parts) (word :: words) ⟨part.reason, some e⟩
  | later {part : Part} {parts : List Part} {word : String} {words : List String}
      {failure : HandshakeFailure} (hcheck : part.check word = .ok ())
      (hrest : Unreadable parts words failure) :
      Unreadable (part :: parts) (word :: words) failure

/-- **What is wrong with a line**, the first thing that is. -/
inductive Misspelt (command : String) (parts : List Part) (line : String) :
    HandshakeFailure → Prop
  /-- It has more or fewer words than the message. -/
  | count (hcount : (Text.words line).length ≠ parts.length + 1) :
      Misspelt command parts line
        ⟨s!"{command} expects {parts.length + 1} tokens, got {(Text.words line).length}", none⟩
  /-- It starts with another word. -/
  | command (hcount : (Text.words line).length = parts.length + 1)
      (hcommand : (Text.words line).head? ≠ some command) :
      Misspelt command parts line ⟨s!"expected {command}, got another command", none⟩
  /-- One of its words cannot be read. -/
  | word {words : List String} {failure : HandshakeFailure}
      (hwords : Text.words line = command :: words) (hcount : words.length = parts.length)
      (hword : Unreadable parts words failure) : Misspelt command parts line failure

theorem checkWords_eq_error_iff {parts : List Part} {words : List String}
    {failure : HandshakeFailure} :
    checkWords parts words = .error failure ↔ Unreadable parts words failure := by
  induction parts generalizing words with
  | nil => exact iff_of_false (by simp [checkWords]) (by rintro ⟨⟩)
  | cons part parts ih =>
      cases words with
      | nil => exact iff_of_false (by simp [checkWords]) (by rintro ⟨⟩)
      | cons word words =>
          rw [checkWords, bind_eq_error_iff]
          constructor
          · rintro (hword | ⟨_, hword, hrest⟩)
            · obtain ⟨e, hcheck, rfl⟩ := orFail_eq_error_iff.1 hword
              exact .here hcheck
            · exact .later (orFail_eq_ok_iff.1 hword) (ih.1 hrest)
          · rintro (hcheck | ⟨hcheck, hrest⟩)
            · exact Or.inl (orFail_eq_error_iff.2 ⟨_, hcheck, rfl⟩)
            · exact Or.inr ⟨(), orFail_eq_ok_iff.2 hcheck, ih.2 hrest⟩

/-- **A line is refused for what is wrong with it.** -/
theorem checkLine_eq_error_iff {command line : String} {parts : List Part}
    {failure : HandshakeFailure} :
    checkLine command parts line = .error failure ↔ Misspelt command parts line failure := by
  rw [checkLine, bind_eq_error_iff, tokens_eq_error_iff]
  constructor
  · rintro ((⟨hcount, rfl⟩ | ⟨hcount, hcommand, rfl⟩) | ⟨words, htokens, hword⟩)
    · exact .count hcount
    · exact .command hcount hcommand
    · obtain ⟨hwords, hcount, hcommand⟩ := tokens_eq_ok_iff.1 htokens
      obtain ⟨words, rfl⟩ := List.head?_eq_some_iff.1 hcommand
      exact .word hwords (Nat.succ.inj hcount) (checkWords_eq_error_iff.1 hword)
  · rintro (hcount | ⟨hcount, hcommand⟩ | ⟨hwords, hcount, hword⟩)
    · exact Or.inl (Or.inl ⟨hcount, rfl⟩)
    · exact Or.inl (Or.inr ⟨hcount, hcommand, rfl⟩)
    · refine Or.inr ⟨_, tokens_eq_ok_iff.2 ⟨hwords, ?_, rfl⟩, checkWords_eq_error_iff.2 hword⟩
      rw [List.length_cons, hcount]

/-! ### One spelling -/

/-- **A message is read from what it is written as, and from nothing else.**  A message that is not
`valid` can be written, but is not read. -/
structure OneSpelling {α : Type} (command : String) (parts : List Part) (valid : α → Prop)
    (render : α → String) (parse : String → Except HandshakeFailure α) : Prop where
  parse_iff : ∀ line m, parse line = .ok m ↔ valid m ∧ line = render m
  parse_render : ∀ m, valid m → parse (render m) = .ok m
  render_of_parse : ∀ line m, parse line = .ok m → render m = line
  /-- No word is missing or empty, and none has another blank in it. -/
  words_of_parse : ∀ line m, parse line = .ok m →
    (Text.words line).length = parts.length + 1 ∧ ∀ word ∈ Text.words line, IsToken word
  /-- Nothing stands behind the last word. -/
  end_of_parse : ∀ line rest m m', parse line = .ok m → parse (line ++ rest) = .ok m' → rest = ""
  refused_iff : ∀ line failure, parse line = .error failure ↔ Misspelt command parts line failure

theorem map_eq_error_iff {ε α β : Type} {r : Except ε α} {f : α → β} {e : ε} :
    r.map f = .error e ↔ r = .error e := by
  cases r <;> simp [Except.map]

theorem eq_empty_of_length_utf8 {text : String} (h : (Text.utf8 text).length = 0) : text = "" :=
  Text.utf8_injective (List.eq_nil_of_length_eq_zero h)

/-- **A message has one spelling** if every line is checked part by part, and is read as a message
only if it is the line of it, of which no other is the beginning. -/
theorem OneSpelling.of_parse_iff {α : Type} {command : String} {parts : List Part}
    {valid : α → Prop} {render : α → String} {words : α → List String}
    {parse : String → Except HandshakeFailure α}
    (hparse : ∀ line m, parse line = .ok m ↔ line = render m ∧ valid m)
    (hwords : ∀ m, valid m → Text.words (render m) = words m)
    (hcount : ∀ m, (words m).length = parts.length + 1)
    (htoken : ∀ m, valid m → ∀ word ∈ words m, IsToken word)
    (hend : ∀ m m' rest, valid m → valid m' → render m ++ rest = render m' → rest = "")
    (hcheck : ∀ line, (parse line).map (fun _ => ()) = checkLine command parts line) :
    OneSpelling command parts valid render parse where
  parse_iff line m := (hparse line m).trans and_comm
  parse_render m hm := (hparse _ m).2 ⟨rfl, hm⟩
  render_of_parse line m h := ((hparse line m).1 h).1.symm
  words_of_parse line m h := by
    obtain ⟨rfl, hm⟩ := (hparse line m).1 h
    rw [hwords m hm]
    exact ⟨hcount m, htoken m hm⟩
  end_of_parse line rest m m' h h' := by
    obtain ⟨rfl, hm⟩ := (hparse line m).1 h
    obtain ⟨happend, hm'⟩ := (hparse _ m').1 h'
    exact hend m m' rest hm hm' happend
  refused_iff line failure := by
    rw [← map_eq_error_iff, hcheck, checkLine_eq_error_iff]

/-! ### The two messages -/

/-- The parts of the first message. -/
def Authenticate.parts : List Part :=
  [.readBy "invalid username" checkUsername,
   .readBy "unreadable client challenge" Challenge.ofBase64]

/-- The parts of the second message. -/
def ServerOk.parts : List Part :=
  [.readBy "unreadable echoed challenge" Challenge.ofBase64,
   .readBy "unreadable server challenge" Challenge.ofBase64,
   .readBy "unreadable session key" (decodeFixed 32 "session key"),
   .readBy "unreadable session key" (decodeFixed 16 "session iv")]

/-- Reading one word and then others is checking the one and then the others. -/
theorem map_orFail_bind {α β : Type} {reason : String} {r : Except LineError α}
    {f : α → Except HandshakeFailure β} {rest : Except HandshakeFailure Unit}
    (h : ∀ a, (f a).map (fun _ => ()) = rest) :
    (orFail reason r >>= f).map (fun _ => ()) =
      (orFail reason (r.map fun _ => ()) >>= fun _ => rest) := by
  cases r with
  | error e => rfl
  | ok a => exact h a

theorem orFail_bind {α β : Type} {reason : String} {r : Except LineError α}
    {f : α → Except LineError β} :
    orFail reason (r >>= f) = orFail reason r >>= fun a => orFail reason (f a) := by
  cases r <;> rfl

theorem Authenticate.map_parse (line : String) :
    (parse line).map (fun _ => ()) = checkLine command parts line := by
  rw [parse, checkLine]
  change (tokens 3 command line >>= _).map _ = tokens 3 command line >>= _
  cases htokens : tokens 3 command line with
  | error failure => rfl
  | ok words =>
      obtain ⟨-, hlen, -⟩ := tokens_eq_ok_iff.1 htokens
      rcases words with _ | ⟨first, _ | ⟨name, _ | ⟨encoded, _ | ⟨extra, more⟩⟩⟩⟩
      case cons.cons.cons.nil => exact map_orFail_bind fun _ => map_orFail_bind fun _ => rfl
      all_goals cases hlen

theorem ServerOk.map_parse (line : String) :
    (parse line).map (fun _ => ()) = checkLine command parts line := by
  rw [parse, checkLine]
  -- the two words of a session key are read one after the other, and fail alike
  simp only [SessionKey.ofBase64, orFail_bind, bind_assoc]
  change (tokens 5 command line >>= _).map _ = tokens 5 command line >>= _
  cases htokens : tokens 5 command line with
  | error failure => rfl
  | ok words =>
      obtain ⟨-, hlen, -⟩ := tokens_eq_ok_iff.1 htokens
      rcases words with
        _ | ⟨first, _ | ⟨echoed, _ | ⟨fresh, _ | ⟨key, _ | ⟨iv, _ | ⟨extra, more⟩⟩⟩⟩⟩⟩
      case cons.cons.cons.cons.cons.nil =>
        exact map_orFail_bind fun _ => map_orFail_bind fun _ =>
          map_orFail_bind fun _ => map_orFail_bind fun _ => rfl
      all_goals cases hlen

/-- No first message is the beginning of another: both names end at the second space, and both
challenges have the same length. -/
theorem Authenticate.eq_empty_of_render_append {m m' : Authenticate} {rest : String}
    (h : checkUsername m.username = .ok ()) (h' : checkUsername m'.username = .ok ())
    (happend : m.render ++ rest = m'.render) : rest = "" := by
  have hnames : m.username ++ " " ++ (m.challenge.toBase64 ++ rest) =
      m'.username ++ " " ++ m'.challenge.toBase64 := by
    simpa [render_eq, String.append_assoc] using happend
  have hcut := congrArg Text.cutAtSpace hnames
  rw [Text.cutAtSpace_append (checkUsername_eq_ok_iff_isToken.1 h).space_notMem,
    Text.cutAtSpace_append (checkUsername_eq_ok_iff_isToken.1 h').space_notMem] at hcut
  obtain ⟨-, hchallenge⟩ := Prod.mk.inj (Option.some.inj hcut)
  have hlen := congrArg (fun text => (Text.utf8 text).length) hchallenge
  simp only [Text.utf8_append, List.length_append, length_toBase64] at hlen
  exact eq_empty_of_length_utf8 (by omega)

/-- All second messages have the same length. -/
theorem ServerOk.eq_empty_of_render_append {m m' : ServerOk} {rest : String}
    (happend : m.render ++ rest = m'.render) : rest = "" := by
  have hlen := congrArg (fun text => (Text.utf8 text).length) happend
  simp only [Text.utf8_append, List.length_append, ServerOk.length_render] at hlen
  exact eq_empty_of_length_utf8 (by omega)

/-- **Both messages have one spelling.**  The first one has to name a user that can be named, and
the second one is never refused for what it says. -/
theorem messages_have_one_spelling :
    OneSpelling Authenticate.command Authenticate.parts
        (fun m => checkUsername m.username = .ok ()) Authenticate.render Authenticate.parse ∧
      OneSpelling ServerOk.command ServerOk.parts (fun _ => True) ServerOk.render
        ServerOk.parse := by
  constructor
  · exact .of_parse_iff (fun _ _ => Authenticate.parse_eq_ok_iff)
      (fun _ hname => Authenticate.words_render hname) (fun _ => rfl)
      (fun _ hname => Authenticate.isToken hname)
      (fun _ _ _ hname hname' => Authenticate.eq_empty_of_render_append hname hname')
      Authenticate.map_parse
  · exact .of_parse_iff (fun _ _ => by rw [ServerOk.parse_eq_ok_iff, and_true])
      (fun m _ => m.words_render) (fun _ => rfl) (fun m _ => m.isToken)
      (fun _ _ _ _ _ => ServerOk.eq_empty_of_render_append)
      ServerOk.map_parse

end LineChat
