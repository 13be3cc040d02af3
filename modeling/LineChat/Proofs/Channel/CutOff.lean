/-
**A connection that is cut off.**

One side of a session writes lines, and the connection breaks somewhere in the bytes that they
became.  The other side reads what has arrived: first the lines that are there with their ends, and
then, since the stream has ended, what is left as a last line.

The cut may fall inside a line.  Nothing tells the rest of a ciphertext that something is missing:
four symbols of base64 spell three bytes, wherever they stand, and counter mode decrypts the bytes
at the beginning of a line as the bytes at the beginning of its text.  So what is obtained is not
always made of whole lines.  It is the lines that arrived with their ends, and at most one more, the
beginning of the line that was cut.

The two sides may allow a different number of lines for a key.

Main definitions:

* `LineChat.LineCodec.writeAll` — the lines that a codec writes, and the bytes they become;
* `LineChat.LineCodec.Obtains` — **what is obtained from a stream that ends**;
* `LineChat.lastLine?` — what the beginning of a ciphertext comes to;
* `LineChat.Remains` — **what remains of some lines** behind a cut.

Main results:

* `LineChat.LineCodec.writeAll_counted` — the bytes that lines become;
* `LineChat.LineCodec.Obtains.unique` — only one thing is obtained from a stream;
* `LineChat.LineCodec.exists_obtains` — what is obtained of the lines of a session;
* `LineChat.Remains.obtained` — **the lines that are obtained when a connection is cut**.
-/

import LineChat.Proofs.Channel.HostileWire
import LineChat.Proofs.Channel.Keystream
import LineChat.Proofs.Channel.Transparency

set_option autoImplicit false

namespace LineChat

open SessionCipher (counted peerOf)

/-- The lines among some results. -/
def okLines (results : List (Except LineError String)) : List String :=
  results.filterMap Except.toOption

@[simp] theorem okLines_append (results more : List (Except LineError String)) :
    okLines (results ++ more) = okLines results ++ okLines more :=
  List.filterMap_append

/-! ### Streams that end -/

namespace LineCodec

section

variable {σ : Type} [LineCipher σ]

/-- **The lines that a codec writes**, of those that it is told to, and the bytes they become. -/
def writeAll (c : LineCodec σ) : List String → List String × Bytes
  | [] => ([], [])
  | line :: lines =>
      match c.encode line with
      | (.ok bytes, c) =>
          let (sent, wire) := c.writeAll lines
          (line :: sent, bytes ++ wire)
      | (.error _, c) => c.writeAll lines

theorem writeAll_of_ok {c c' : LineCodec σ} {line : String} {bytes : Bytes}
    (h : c.encode line = (.ok bytes, c')) (lines : List String) :
    c.writeAll (line :: lines) =
      (line :: (c'.writeAll lines).1, bytes ++ (c'.writeAll lines).2) := by
  rw [writeAll, h]

theorem writeAll_of_error {c c' : LineCodec σ} {line : String} {e : LineError}
    (h : c.encode line = (.error e, c')) (lines : List String) :
    c.writeAll (line :: lines) = c'.writeAll lines := by
  rw [writeAll, h]

/-- **What reading on and on gives at the end of a stream**: the results that a codec returns for
what is left of the bytes, until it has none left. -/
inductive ReadsLast : LineCodec σ → Bytes → List (Except LineError String) → Prop
  | done {c c' : LineCodec σ} {b b' : Bytes} (h : c.decode true b = (.ok none, c', b')) :
      ReadsLast c b []
  | more {c c₁ : LineCodec σ} {b b₁ : Bytes} {r : Except LineError String}
      {results : List (Except LineError String)} (h : c.decode true b = (r.map some, c₁, b₁))
      (hrest : ReadsLast c₁ b₁ results) : ReadsLast c b (r :: results)

/-- **What is obtained from a stream that ends**: the results of reading until nothing is left that
has its end, and of reading on from there, told that no more will arrive. -/
def Obtains (c : LineCodec σ) (b : Bytes) (results : List (Except LineError String)) : Prop :=
  ∃ first last c' b', Reads c b first c' b' ∧ ReadsLast c' b' last ∧ results = first ++ last

variable {c c' : LineCodec σ} {b more : Bytes} {r : Except LineError String}
  {first results results' : List (Except LineError String)}

theorem ReadsLast.unique (h : ReadsLast c b results) (h' : ReadsLast c b results') :
    results' = results := by
  induction h generalizing results' with
  | done h =>
      cases h' with
      | done _ => rfl
      | @more _ _ _ _ r _ h' _ =>
          rw [h] at h'
          exact absurd (congrArg Prod.fst h').symm (Reads.map_some_ne r)
  | @more _ _ _ _ r _ h _ ih =>
      cases h' with
      | done h' =>
          rw [h] at h'
          exact absurd (congrArg Prod.fst h') (Reads.map_some_ne r)
      | @more _ _ _ _ r' _ h' hrest =>
          rw [h] at h'
          obtain ⟨hr, hnext⟩ := Prod.mk.inj h'
          obtain ⟨rfl, rfl⟩ := Prod.mk.inj hnext
          have hr' : r' = r := by cases r <;> cases r' <;> simp_all [Except.map]
          rw [hr', ih hrest]

/-- **Only one thing is obtained** from a stream. -/
theorem Obtains.unique (h : Obtains c b results) (h' : Obtains c b results') :
    results' = results := by
  obtain ⟨first, last, c₁, b₁, hfirst, hlast, rfl⟩ := h
  obtain ⟨first', last', c₂, b₂, hfirst', hlast', rfl⟩ := h'
  obtain ⟨rfl, rfl, rfl⟩ := hfirst.unique hfirst'
  rw [hlast.unique hlast']

/-- What was read before the stream went on comes first. -/
theorem Obtains.of_reads (h : Obtains c' more results) (hfirst : Reads c b first c' []) :
    Obtains c (b ++ more) (first ++ results) := by
  obtain ⟨next, last, c₁, b₁, hnext, hlast, rfl⟩ := h
  exact ⟨first ++ next, last, c₁, b₁, hfirst.append hnext, hlast, (List.append_assoc ..).symm⟩

/-- **No line comes of a frame**: it is skipped or reported, as the policy says. -/
def Loses (c : LineCodec σ) (frame : Frame) : Prop :=
  (∃ c', c.accept frame = (none, c')) ∨ ∃ e c', c.accept frame = (some (.error e), c')

/-! ### The last line -/

theorem decode_true_nil (hf : c.framing = ⟨false⟩) : c.decode true [] = (.ok none, c, []) := by
  have hs : c.framing.step true [] = (.incomplete, c.framing, []) := by
    rw [hf]
    exact Framing.step_true_nil
  exact decode_of_accept_some hs rfl

theorem obtains_nil (hf : c.framing = ⟨false⟩) : Obtains c [] [] :=
  ⟨[], [], c, [], .done (decode_of_notMem hf List.not_mem_nil (Nat.zero_le _)),
    .done (decode_true_nil hf), rfl⟩

section

variable (hf : c.framing = ⟨false⟩) (hfeed : lineFeed ∉ b) (hlen : b.length ≤ maxLineLength)
  (hne : b ≠ []) (hreturn : b ≠ [carriageReturn])

include hf hfeed hlen hne hreturn

/-- **A line without its end** is obtained as what its frame comes to. -/
theorem obtains_unfinished (ha : c.accept (Frame.ofLine b) = (some (r.map some), c')) :
    Obtains c b [r] := by
  have hs : c.framing.step true b = (Frame.ofLine b, c.framing, []) := by
    rw [hf]
    exact Framing.step_true_of_notMem hfeed hlen hne hreturn
  have hf' : c'.framing = ⟨false⟩ := by rw [← hf, ← framing_accept c (Frame.ofLine b), ha]
  exact ⟨[], [r], c, b, .done (decode_of_notMem hf hfeed hlen),
    .more (decode_of_accept_some hs ha) (.done (decode_true_nil hf')), rfl⟩

theorem obtains_unfinished_skipped (ha : c.accept (Frame.ofLine b) = (none, c')) :
    Obtains c b [] := by
  have hs : c.framing.step true b = (Frame.ofLine b, c.framing, []) := by
    rw [hf]
    exact Framing.step_true_of_notMem hfeed hlen hne hreturn
  have hf' : c'.framing = ⟨false⟩ := by rw [← hf, ← framing_accept c (Frame.ofLine b), ha]
  have hd : c.decode true b = (.ok none, c', []) := by
    rw [decode_of_accept_none hs ha, decode_true_nil hf']
  exact ⟨[], [], c, b, .done (decode_of_notMem hf hfeed hlen), .done hd, rfl⟩

theorem exists_obtains_of_loses (ha : c.Loses (Frame.ofLine b)) :
    ∃ results, Obtains c b results ∧ okLines results = [] := by
  rcases ha with ⟨c', ha⟩ | ⟨e, c', ha⟩
  · exact ⟨[], obtains_unfinished_skipped hf hfeed hlen hne hreturn ha, rfl⟩
  · exact ⟨[.error e], obtains_unfinished (r := .error e) hf hfeed hlen hne hreturn ha, rfl⟩

end

theorem loses_of_opened {frame : Frame} {e : LineError} (h : (opened c.cipher frame).1 = .error e) :
    c.Loses frame := by
  by_cases hskip : c.policy = .drop ∧ isBroken (opened c.cipher frame).1 = true
  · exact Or.inl ⟨_, accept_of_broken hskip.1 hskip.2⟩
  · exact Or.inr ⟨e, _, by rw [accept_of_kept hskip, h]⟩

theorem loses_of_error {text : String} {cipher : σ} {e : LineError}
    (h : LineCipher.decrypt c.cipher text = (.error e, cipher)) : c.Loses (.line text) :=
  loses_of_opened (congrArg Prod.fst (opened_line h))

theorem loses_notText : c.Loses .notText := loses_of_opened rfl

end

end LineCodec

/-! ### What remains of the lines of a session -/

/-- **What the beginning of a ciphertext comes to**: whole groups of four symbols are as many groups
of three bytes of the text, which are a line if they are text. -/
def lastLine? (text : String) (count : Nat) : Option String :=
  if count % 4 = 0 ∧ count ≠ 0 then (Text.ofUtf8 ((Text.utf8 text).take (count / 4 * 3))).toOption
  else none

section

variable (session : SessionKey) (mode : KeystreamMode) (sender : Role)

/-- **What remains of some lines** of a direction, the first of them with the number `n`, if of the
bytes that they become only `cut` arrives. -/
inductive Remains (n : Nat) (sent : List String) (cut : Bytes) : List String → Prop
  /-- The cut is between two lines. -/
  | between (whole : List String) (hwhole : whole <+: sent)
      (hcut : cut = frames session mode sender n whole) : Remains n sent cut whole
  /-- The cut is in a line, or in front of its end. -/
  | inside (whole : List String) (line : String) (part : Bytes) (hline : whole ++ [line] <+: sent)
      (hcut : cut = frames session mode sender n whole ++ part)
      (hpart : part <+: Text.utf8 (sealLine session mode sender (n + whole.length) line)) :
      Remains n sent cut (whole ++ (lastLine? line part.length).toList)

end

variable {session : SessionKey} {mode : KeystreamMode} {sender : Role} {maxLines limit : UInt64}
  {n m : Nat} {text : String}

/-- **A line that has arrived** is one line more behind the cut. -/
theorem Remains.cons {sent lines : List String} {cut : Bytes} (text : String)
    (h : Remains session mode sender (n + 1) sent cut lines) :
    Remains session mode sender n (text :: sent)
      (frameLine (sealLine session mode sender n text) ++ cut) (text :: lines) := by
  cases h with
  | between _ hwhole hcut =>
      exact .between (text :: lines) (List.cons_prefix_cons.2 ⟨rfl, hwhole⟩) (by rw [hcut, frames])
  | inside whole line part hline hcut hpart =>
      refine .inside (text :: whole) line part (List.cons_prefix_cons.2 ⟨rfl, hline⟩) ?_ ?_
      · rw [hcut, frames, List.append_assoc]
      · rwa [List.length_cons, Nat.add_comm whole.length 1, ← Nat.add_assoc]

/-- The beginning of a line's ciphertext is base64 if it is made of whole groups, and then it spells
the ciphertext of the beginning of the line. -/
theorem take_sealLine (groups : Nat) :
    (Text.utf8 (sealLine session mode sender n text)).take (4 * groups) =
      Base64.encodeBytes (CounterMode.apply (Aes.encryptBlock (Aes.roundKeys session.key))
        (lineCounter mode (baseCounter mode session.iv sender) n)
        ((Text.utf8 text).take (3 * groups))) := by
  rw [sealLine, Base64.utf8_encode, Base64.take_encodeBytes, CounterMode.apply_take]

namespace LineCodec

variable {c : LineCodec SessionCipher}

/-- A whole line is read, as long as the limit allows for it. -/
theorem exists_reads_sealLine (hf : c.framing = ⟨false⟩)
    (hc : c.cipher = counted session (peerOf sender) mode limit m (min n limit.toNat))
    (hshort : Base64.encodedLength (Text.utf8 text).length ≤ maxLineLength) :
    ∃ results c', Reads c (frameLine (sealLine session mode sender n text)) results c' [] ∧
      c'.framing = ⟨false⟩ ∧
      c'.cipher = counted session (peerOf sender) mode limit m (min (n + 1) limit.toNat) ∧
      okLines results = if n < limit.toNat then [text] else [] := by
  rcases Nat.lt_or_ge n limit.toNat with hlt | hle
  · rw [Nat.min_eq_left (Nat.le_of_lt hlt)] at hc
    refine ⟨_, _, reads_sealLine hf hc hlt hshort, hf, ?_, ?_⟩
    · rw [Nat.min_eq_left hlt]
    · rw [if_pos hlt]
      rfl
  · rw [Nat.min_eq_right hle] at hc
    have hbytes : decodeBase64 (sealLine session mode sender n text) = .ok _ :=
      decodeBase64_encode _
    have hdecrypt : LineCipher.decrypt c.cipher (sealLine session mode sender n text) =
        (.error (.keystreamExhausted limit.toNat), c.cipher) := by
      rw [hc]
      exact SessionCipher.decrypt_of_le (s := counted session (peerOf sender) mode limit m _)
        hbytes (Nat.le_refl _)
    have ha : c.accept (Frame.ofLine (Text.utf8 (sealLine session mode sender n text))) =
        (some (.error (.keystreamExhausted limit.toNat)), c) := by
      rw [ofLine_sealLine]
      simp [accept, hdecrypt, absorb, LineError.isBrokenMessage]
    have hlen := hshort
    rw [← length_sealLine session mode sender n] at hlen
    refine ⟨_, c, reads_line (r := .error _) hf
      (lineFeed_notMem_sealLine session mode sender n text) hlen ha, hf, ?_, ?_⟩
    · rw [hc, Nat.min_eq_right (Nat.le_succ_of_le hle)]
    · rw [if_neg (Nat.not_lt.2 hle)]
      rfl

theorem loses_of_not_base64 {line : Bytes} (h : ¬ IsBase64Line line) :
    c.Loses (Frame.ofLine line) := by
  rw [Frame.ofLine]
  cases htext : Text.ofUtf8 (dropReturn line) with
  | error fault => exact loses_notText
  | ok text =>
      cases hbytes : decodeBase64 text with
      | ok bs =>
          refine absurd (isBase64Line_iff.2 ⟨text, bs, htext, ?_⟩) h
          exact Base64.decodeText_eq_ok_iff.2 (eq_encode_of_decodeBase64 hbytes)
      | error e => exact loses_of_error (SessionCipher.decrypt_of_error hbytes)

/-- Below the limit, the first groups of a line are read as the beginning of its text, if that is
text. -/
theorem accept_take_sealLine (text : String)
    (hc : c.cipher = counted session (peerOf sender) mode limit m n) (hlt : n < limit.toNat)
    (groups : Nat) :
    (∃ front c', Text.ofUtf8 ((Text.utf8 text).take (3 * groups)) = .ok front ∧
        c.accept (Frame.ofLine
          ((Text.utf8 (sealLine session mode sender n text)).take (4 * groups))) =
            (some (.ok (some front)), c')) ∨
      ∃ fault, Text.ofUtf8 ((Text.utf8 text).take (3 * groups)) = .error fault ∧
        c.Loses (Frame.ofLine
          ((Text.utf8 (sealLine session mode sender n text)).take (4 * groups))) := by
  have hdecrypt := @SessionCipher.decrypt_counted_encode session sender mode limit m n hlt
    (CounterMode.apply (Aes.encryptBlock (Aes.roundKeys session.key))
      (lineCounter mode (baseCounter mode session.iv sender) n)
      ((Text.utf8 text).take (3 * groups)))
  rw [CounterMode.apply_apply, decodeUtf8, ← hc] at hdecrypt
  rw [take_sealLine, Frame.ofLine_encodeBytes]
  cases hfront : Text.ofUtf8 ((Text.utf8 text).take (3 * groups)) with
  | ok front =>
      rw [hfront] at hdecrypt
      exact Or.inl ⟨front, _, rfl, accept_line_of_ok hdecrypt⟩
  | error fault =>
      rw [hfront] at hdecrypt
      exact Or.inr ⟨fault, rfl, loses_of_error hdecrypt⟩

/-- At the limit, they are refused. -/
theorem loses_take_sealLine (n : Nat) (text : String)
    (hc : c.cipher = counted session (peerOf sender) mode limit m limit.toNat) (groups : Nat) :
    c.Loses (Frame.ofLine
      ((Text.utf8 (sealLine session mode sender n text)).take (4 * groups))) := by
  rw [take_sealLine, Frame.ofLine_encodeBytes]
  have hdecrypt := SessionCipher.decrypt_of_le
    (s := counted session (peerOf sender) mode limit m limit.toNat)
    (decodeBase64_encode (CounterMode.apply (Aes.encryptBlock (Aes.roundKeys session.key))
      (lineCounter mode (baseCounter mode session.iv sender) n)
      ((Text.utf8 text).take (3 * groups)))) (Nat.le_refl _)
  rw [← hc] at hdecrypt
  exact loses_of_error hdecrypt

/-- **The beginning of a line** comes to the beginning of its text, or to nothing. -/
theorem exists_obtains_part (hf : c.framing = ⟨false⟩)
    (hc : c.cipher = counted session (peerOf sender) mode limit m (min n limit.toNat))
    (hshort : Base64.encodedLength (Text.utf8 text).length ≤ maxLineLength) {part : Bytes}
    (hpart : part <+: Text.utf8 (sealLine session mode sender n text)) :
    ∃ results, Obtains c part results ∧
      okLines results = (lastLine? text part.length).toList.take (limit.toNat - n) := by
  by_cases hne : part = []
  · subst hne
    exact ⟨[], obtains_nil hf, by simp [lastLine?, okLines]⟩
  have hlen : part.length ≤ maxLineLength := by
    have hle := hpart.length_le
    rw [length_sealLine] at hle
    omega
  have hfeed : lineFeed ∉ part := fun hmem =>
    lineFeed_notMem_sealLine session mode sender n text (hpart.subset hmem)
  have hnoreturn : carriageReturn ∉ part := by
    intro hmem
    have hmem' := hpart.subset hmem
    rw [sealLine, Base64.utf8_encode] at hmem'
    exact absurd (Base64.printed_of_mem_encodeBytes hmem').1 (by decide)
  have hreturn : part ≠ [carriageReturn] := by
    rintro rfl
    exact hnoreturn (List.mem_singleton_self _)
  by_cases hmod : part.length % 4 = 0
  · obtain ⟨groups, hgroups⟩ : ∃ groups, part.length = 4 * groups := ⟨part.length / 4, by omega⟩
    have hlast : lastLine? text part.length =
        (Text.ofUtf8 ((Text.utf8 text).take (3 * groups))).toOption := by
      rw [lastLine?, if_pos ⟨hmod, by simpa using hne⟩, hgroups,
        Nat.mul_div_cancel_left _ (by decide), Nat.mul_comm]
    have htake := List.prefix_iff_eq_take.1 hpart
    rw [hgroups] at htake
    rw [hlast]
    rcases Nat.lt_or_ge n limit.toNat with hlt | hle
    · rw [Nat.min_eq_left (Nat.le_of_lt hlt)] at hc
      rcases accept_take_sealLine text hc hlt groups with
        ⟨front, c', hfront, ha⟩ | ⟨fault, hfault, hloses⟩
      · rw [← htake] at ha
        refine ⟨[.ok front], obtains_unfinished (r := .ok front) hf hfeed hlen hne hreturn ha, ?_⟩
        obtain ⟨k, hk⟩ := Nat.exists_eq_add_of_lt hlt
        rw [hfront, (by omega : limit.toNat - n = k + 1)]
        simp [okLines, Except.toOption]
      · rw [← htake] at hloses
        rw [hfault]
        simpa [Except.toOption] using
          exists_obtains_of_loses hf hfeed hlen hne hreturn hloses
    · rw [Nat.min_eq_right hle] at hc
      have hloses := loses_take_sealLine n text hc groups
      rw [← htake] at hloses
      rw [Nat.sub_eq_zero_of_le hle, List.take_zero]
      exact exists_obtains_of_loses hf hfeed hlen hne hreturn hloses
  · -- a spelling is made of whole groups
    have hbase : ¬ IsBase64Line part := by
      rintro ⟨bs, hbs⟩
      rw [dropReturn, if_neg fun h => hnoreturn (List.mem_of_getLast? h)] at hbs
      rw [hbs, Base64.length_encodeBytes, Base64.encodedLength] at hmod
      omega
    obtain ⟨results, hobtains, hlines⟩ :=
      exists_obtains_of_loses hf hfeed hlen hne hreturn (loses_of_not_base64 hbase)
    exact ⟨results, hobtains, by rw [hlines, lastLine?, if_neg fun h => hmod h.1]; simp⟩

/-! ### Cutting the stream -/

/-- **What is obtained of the lines of a session.** -/
theorem exists_obtains (hf : c.framing = ⟨false⟩)
    (hc : c.cipher = counted session (peerOf sender) mode limit m (min n limit.toNat))
    {sent : List String}
    (hshort : ∀ text ∈ sent, Base64.encodedLength (Text.utf8 text).length ≤ maxLineLength)
    {cut : Bytes} (hcut : cut <+: frames session mode sender n sent) :
    ∃ results lines, Obtains c cut results ∧ Remains session mode sender n sent cut lines ∧
      okLines results = lines.take (limit.toNat - n) := by
  -- the line that comes next has arrived with its end, or it is the one that is cut
  induction sent generalizing n c cut with
  | nil =>
      obtain rfl := List.prefix_nil.1 hcut
      exact ⟨[], [], obtains_nil hf, .between [] (List.prefix_refl _) rfl, by simp [okLines]⟩
  | cons text sent ih =>
      obtain ⟨u, hu⟩ := hcut
      rw [frames, frameLine, List.append_assoc, List.singleton_append] at hu
      have hfirst := hshort text (List.mem_cons_self ..)
      rcases Framing.append_eq_line hu with ⟨rest, rfl, hrest⟩ | ⟨tail, htail, -⟩
      · obtain ⟨first, c', hreads, hf', hc', hok⟩ := exists_reads_sealLine hf hc hfirst
        obtain ⟨results, lines, hobtains, hremains, hlines⟩ := ih hf' hc'
          (fun t ht => hshort t (List.mem_cons_of_mem _ ht)) ⟨u, hrest⟩
        rw [← List.singleton_append, ← List.append_assoc]
        refine ⟨first ++ results, text :: lines, hobtains.of_reads hreads, hremains.cons text, ?_⟩
        rw [okLines_append, hok, hlines]
        rcases Nat.lt_or_ge n limit.toNat with hlt | hle
        · rw [if_pos hlt, (by omega : limit.toNat - n = limit.toNat - (n + 1) + 1),
            List.take_succ_cons]
          rfl
        · rw [if_neg (Nat.not_lt.2 hle), (by omega : limit.toNat - n = 0),
            (by omega : limit.toNat - (n + 1) = 0)]
          rfl
      · have hpart : cut <+: Text.utf8 (sealLine session mode sender n text) := ⟨tail, htail.symm⟩
        obtain ⟨results, hobtains, hlines⟩ := exists_obtains_part hf hc hfirst hpart
        refine ⟨results, _, hobtains, .inside [] text cut ?_ rfl hpart, hlines⟩
        exact List.cons_prefix_cons.2 ⟨rfl, List.nil_prefix⟩

/-- **The bytes that lines become**, and that none of those that are written is too long. -/
theorem writeAll_counted {c : LineCodec SessionCipher} {a : Nat}
    (hc : c.cipher = counted session sender mode maxLines n a) (lines : List String) :
    (c.writeAll lines).2 = frames session mode sender n (c.writeAll lines).1 ∧
      ∀ text ∈ (c.writeAll lines).1,
        Base64.encodedLength (Text.utf8 text).length ≤ maxLineLength := by
  induction lines generalizing n c with
  | nil => exact ⟨rfl, by simp [writeAll]⟩
  | cons line lines ih =>
      rcases encode_counted hc line with ⟨e, hencode⟩ | ⟨-, hshort, hencode⟩
      · rw [writeAll_of_error hencode]
        exact ih hc
      · rw [writeAll_of_ok hencode]
        obtain ⟨hbytes, hall⟩ := ih (n := n + 1)
          (c := { c with cipher := counted session sender mode maxLines (n + 1) a }) rfl
        exact ⟨by rw [frames, ← hbytes], List.forall_mem_cons.2 ⟨hshort, hall⟩⟩

end LineCodec

/-- **The lines that are obtained when a connection is cut.**  One side of a session has written `n`
lines and writes some more, as far as it can; the other side has read the first ones, and of the
bytes behind them only some arrive.  Then one thing only is obtained: the lines that arrived with
their ends, and at most one more, up to the limit of the reader. -/
theorem Remains.obtained (session : SessionKey) (mode : KeystreamMode) (sender : Role)
    (maxLines limit : UInt64) (policy policy' : BrokenPolicy) (n a m dropped : Nat)
    (lines : List String) (count : Nat) :
    let writer : LineCodec SessionCipher :=
      { cipher := counted session sender mode maxLines n a, policy := policy }
    let reader : LineCodec SessionCipher :=
      { cipher := counted session (peerOf sender) mode limit m (min n limit.toNat),
        policy := policy', dropped := dropped }
    let cut := (writer.writeAll lines).2.take count
    ∃ results remaining, (∀ other, reader.Obtains cut other ↔ other = results) ∧
      Remains session mode sender n (writer.writeAll lines).1 cut remaining ∧
      okLines results = remaining.take (limit.toNat - n) := by
  intro writer reader cut
  obtain ⟨hbytes, hshort⟩ := LineCodec.writeAll_counted (c := writer) rfl lines
  have hcut : cut <+: frames session mode sender n (writer.writeAll lines).1 := by
    have hfront : cut <+: (writer.writeAll lines).2 := List.take_prefix count _
    rwa [hbytes] at hfront
  obtain ⟨results, remaining, hobtains, hremains, hlines⟩ :=
    LineCodec.exists_obtains (c := reader) rfl rfl hshort hcut
  refine ⟨results, remaining, fun other => ⟨hobtains.unique, ?_⟩, hremains, hlines⟩
  rintro rfl
  exact hobtains

/-- What is obtained need not be a whole line: of `abcdef`, cut behind four symbols, it is `abc`. -/
theorem Remains.obtained_abc :
    let session : SessionKey := ⟨Vector.replicate 32 7, Vector.replicate 16 255⟩
    let writer : LineCodec SessionCipher :=
      { cipher := SessionCipher.start session .initiator .sequenced 8, policy := .fail }
    let reader : LineCodec SessionCipher :=
      { cipher := SessionCipher.start session .responder .sequenced 8, policy := .drop }
    ∃ results, reader.Obtains ((writer.writeAll ["abcdef"]).2.take 4) results ∧
      okLines results = ["abc"] ∧ (writer.writeAll ["abcdef"]).1 = ["abcdef"] ∧
      ¬ okLines results <+: (writer.writeAll ["abcdef"]).1 := by
  intro session writer reader
  have hlength : Base64.encodedLength (Text.utf8 "abcdef").length = 8 := by decide
  have hshort : Base64.encodedLength (Text.utf8 "abcdef").length ≤ maxLineLength := by
    rw [hlength]
    decide
  have hend : LineCodec.hasLineEnd "abcdef" = false := by decide
  have hwrite := LineCodec.writeAll_of_ok
    (LineCodec.encode_counted_of_fits (c := writer) rfl hend hshort (by decide)) []
  have hsealed := length_sealLine session .sequenced .initiator 0 "abcdef"
  rw [hlength] at hsealed
  have htake : (writer.writeAll ["abcdef"]).2.take 4 =
      (Text.utf8 (sealLine session .sequenced .initiator 0 "abcdef")).take 4 := by
    rw [hwrite, frameLine, LineCodec.writeAll, List.append_nil,
      List.take_append_of_le_length (by omega)]
  obtain ⟨results, hobtains, hlines⟩ := @LineCodec.exists_obtains_part session .sequenced .initiator
    8 0 0 "abcdef" reader rfl rfl hshort _ (List.take_prefix 4 _)
  have hlast : lastLine? "abcdef" 4 = some "abc" := by
    have hfront : (Text.utf8 "abcdef").take (4 / 4 * 3) = Text.utf8 "abc" := by decide
    rw [lastLine?, if_pos (by decide), hfront, Text.ofUtf8_utf8]
    rfl
  rw [List.length_take, hsealed, Nat.min_eq_left (by decide), hlast] at hlines
  have habc : okLines results = ["abc"] := hlines
  refine ⟨results, by rwa [htake], habc, by rw [hwrite, LineCodec.writeAll], ?_⟩
  rw [habc, hwrite, LineCodec.writeAll]
  decide

end LineChat
