/-
**Polling a connection.**

A link remembers whether its buffer may hold a line, whether the end was seen and whether the last
answer was an error, so that it does not look twice.  None of this shows from outside: a link
answers with what decoding everything at once gives, the bytes in the buffer and those that have
arrived, at the end of the stream if the connection has ended.  The one exception is a link that
does not look, because it has just reported an error: it answers nothing, and loses nothing by it.

This holds for any rules for lines that do not depend on how the bytes arrive.

Main definitions:

* `LineChat.LawfulFormat` — **rules for lines that do not depend on how the bytes arrive**;
* `LineChat.Polled.ofResult` — a result of decoding as an answer;
* `LineChat.Link.Ready` — a link that has not seen the end, with nothing overlooked;
* `LineChat.Link.Looks` — a link that looks at all that has arrived;
* `LineChat.Link.Polls` — **what polling may come to**.

Main results:

* `LineChat.Link.polls` — **polling is decoding everything at once**, or not looking;
* `LineChat.Link.poll_of_ready` — the answer of a link that looks;
* `LineChat.Link.next_poll`, `LineChat.Link.poll_of_none` — what the next line comes to on a channel
  that skips nothing.
-/

import LineChat.Channel.Link
import LineChat.Proofs.Channel.LineCodec

set_option autoImplicit false

namespace LineChat

/-! ### Formats -/

/-- **Rules for lines that do not depend on how the bytes arrive.**  What was found stays the same
with more bytes behind it, and going on after nothing was found is decoding everything at once. -/
class LawfulFormat (δ : Type) [LineFormat δ] : Prop where
  decode_append {f f' : δ} {b b' : Bytes} {x : Except LineError String}
    (h : LineFormat.decode f false b = (x.map some, f', b')) (ended : Bool) (more : Bytes) :
    LineFormat.decode f ended (b ++ more) = (x.map some, f', b' ++ more)
  decode_append_of_none {f f' : δ} {b b' : Bytes}
    (h : LineFormat.decode f false b = (.ok none, f', b')) (ended : Bool) (more : Bytes) :
    LineFormat.decode f ended (b ++ more) = LineFormat.decode f' ended (b' ++ more)
  decode_idle {f f' : δ} {b b' : Bytes} {ended : Bool}
    (h : LineFormat.decode f ended b = (.ok none, f', b')) :
    LineFormat.decode f' ended b' = (.ok none, f', b')

instance : LawfulFormat Framing where
  decode_append h := Framing.decode_append h (LineCodec.Reads.map_some_ne _)
  decode_append_of_none h := Framing.decode_append_of_none h
  decode_idle h := Framing.decode_idle h

instance {σ : Type} [LineCipher σ] : LawfulFormat (LineCodec σ) where
  decode_append h := LineCodec.decode_append h (LineCodec.Reads.map_some_ne _)
  decode_append_of_none h := LineCodec.decode_append_of_none h
  decode_idle h := LineCodec.decode_idle h

/-- What a result of decoding comes to when the next line is asked for. -/
def Polled.ofResult (ended : Bool) : Except LineError (Option String) → Polled
  | .ok none => if ended then .ended else .waiting
  | .ok (some text) => .line text
  | .error e => .failed e

/-- What was found does not depend on whether the stream has ended. -/
theorem Polled.ofResult_map_some (ended : Bool) (x : Except LineError String) :
    Polled.ofResult ended (x.map some) = Polled.ofResult false (x.map some) := by
  cases x <;> rfl

namespace Link

section

variable {δ ε : Type} [LineFormat δ] {l l₁ : Link δ} {c : Connection} {ended : Bool}
  {more : Bytes} {format : δ} {rest : Bytes}

/-- A link whose buffer has no line. -/
def Idle (l : Link δ) : Prop :=
  LineFormat.decode l.format false l.buffer = (.ok none, l.format, l.buffer)

/-- **A link that has not seen the end**, and whose buffer is looked at or has no line. -/
structure Ready (l : Link δ) : Prop where
  not_failed : l.failed = false
  not_atEnd : l.atEnd = false
  readable_or_idle : l.readable = true ∨ l.Idle

/-- A link that has seen the end only if nothing has arrived and nothing will. -/
def Sound (l : Link δ) (c : Connection) : Prop :=
  l.atEnd = true → c.finished = true ∧ c.incoming = []

/-- **A link that looks** at all that has arrived when it is asked for the next line.  After it has
reported an error it does not, until something arrives or the end is seen. -/
def Looks (l : Link δ) (c : Connection) : Prop :=
  l.failed = false ∧
    (l.readable = true ∨ c.incoming ≠ [] ∨ (l.atEnd = false ∧ (c.finished = true ∨ l.Idle)))

theorem ready_change {ε : Type} (l : Link ε) (f : ε → δ) : (l.change f).Ready :=
  ⟨rfl, rfl, Or.inl rfl⟩

theorem Ready.sound (h : l.Ready) (c : Connection) : l.Sound c := by
  intro hatEnd
  rw [h.not_atEnd] at hatEnd
  cases hatEnd

theorem Ready.looks (h : l.Ready) (c : Connection) : l.Looks c :=
  ⟨h.not_failed, h.readable_or_idle.imp_right fun hidle => Or.inr ⟨h.not_atEnd, Or.inr hidle⟩⟩

/-- **What polling may come to**, when `more` is still to arrive: what is found is what decoding
everything at once finds, and if nothing is found nothing is lost.  A link that looks finds
nothing only if there is nothing. -/
inductive Polls (l : Link δ) (c : Connection) (ended : Bool) (more : Bytes) :
    Polled × Link δ × Connection → Prop
  | found {x : Except LineError String} {l' : Link δ} {incoming : Bytes}
      (hsound : l'.Sound { c with incoming })
      (hd : LineFormat.decode l.format ended (l.buffer ++ (c.incoming ++ more)) =
        (x.map some, l'.format, l'.buffer ++ (incoming ++ more))) :
      Polls l c ended more (Polled.ofResult false (x.map some), l', { c with incoming })
  | nothing {polled : Polled} {l' : Link δ} {incoming : Bytes}
      (hsound : l'.Sound { c with incoming }) (hpolled : polled = .waiting ∨ polled = .ended)
      (hd : LineFormat.decode l'.format ended (l'.buffer ++ (incoming ++ more)) =
        LineFormat.decode l.format ended (l.buffer ++ (c.incoming ++ more)))
      (hlooks : l.Looks c → polled = Polled.ofResult c.finished (.ok none) ∧
        LineFormat.decode l.format c.finished (l.buffer ++ c.incoming) =
          (.ok none, l'.format, l'.buffer ++ incoming) ∧
        (c.finished = false → l'.Ready)) :
      Polls l c ended more (polled, l', { c with incoming })

/-- Going on from a link that has lost nothing. -/
theorem Polls.trans (incoming : Bytes) {polled : Polled × Link δ × Connection}
    (h : l₁.Polls { c with incoming } ended more polled)
    (hd : ∀ ended more, LineFormat.decode l₁.format ended (l₁.buffer ++ (incoming ++ more)) =
      LineFormat.decode l.format ended (l.buffer ++ (c.incoming ++ more)))
    (hlooks : l.Looks c → l₁.Looks { c with incoming }) : l.Polls c ended more polled := by
  cases h with
  | found hsound hfound => exact .found hsound ((hd ended more).symm.trans hfound)
  | nothing hsound hpolled hnothing hlooked =>
      refine .nothing hsound hpolled (hnothing.trans (hd ended more)) ?_
      intro hl
      obtain ⟨hanswer, hleft, hready⟩ := hlooked (hlooks hl)
      have hall := hd c.finished []
      rw [List.append_nil, List.append_nil] at hall
      exact ⟨hanswer, hall.symm.trans hleft, hready⟩

/-! ### Looking into the buffer -/

theorem scan_of_found {x : Except LineError String}
    (h : LineFormat.decode l.format l.atEnd l.buffer = (x.map some, format, rest)) :
    ∃ failed, l.scan = (some (Polled.ofResult false (x.map some)),
      { l with format, buffer := rest, failed }) := by
  cases x with
  | error e =>
      refine ⟨true, ?_⟩
      simp only [scan, h]
      rfl
  | ok text =>
      refine ⟨l.failed, ?_⟩
      simp only [scan, h]
      rfl

theorem scan_of_none (h : LineFormat.decode l.format l.atEnd l.buffer = (.ok none, format, rest)) :
    l.scan = (none, { l with format, buffer := rest, readable := false }) := by
  simp only [scan, h]

variable [LawfulFormat δ]

/-- **Looking into the buffer while more is on the way**: what is found there is what decoding
everything at once finds, and if nothing is found, nothing is lost by going on from there. -/
theorem scan_cases (hatEnd : l.atEnd = false) :
    (∃ (x : Except LineError String) (l' : Link δ),
        l.scan = (some (Polled.ofResult false (x.map some)), l') ∧ l'.atEnd = false ∧
        ∀ ended more, LineFormat.decode l.format ended (l.buffer ++ more) =
          (x.map some, l'.format, l'.buffer ++ more)) ∨
      ∃ l' : Link δ, l.scan = (none, l') ∧ l'.failed = l.failed ∧ l'.readable = false ∧
        l'.atEnd = false ∧ l'.Idle ∧
        ∀ ended more, LineFormat.decode l'.format ended (l'.buffer ++ more) =
          LineFormat.decode l.format ended (l.buffer ++ more) := by
  rcases hb : LineFormat.decode l.format false l.buffer with ⟨result, middle, left⟩
  have hscanned : LineFormat.decode l.format l.atEnd l.buffer = (result, middle, left) := by
    rw [hatEnd, hb]
  by_cases hresult : result = .ok none
  · subst hresult
    refine Or.inr ⟨_, scan_of_none hscanned, rfl, rfl, hatEnd, LawfulFormat.decode_idle hb, ?_⟩
    exact fun ended more => (LawfulFormat.decode_append_of_none hb ended more).symm
  · obtain ⟨x, rfl⟩ := LineCodec.Reads.exists_map_some hresult
    obtain ⟨failed, hscan⟩ := scan_of_found hscanned
    exact Or.inl ⟨x, _, hscan, hatEnd, LawfulFormat.decode_append hb⟩

/-! ### Polling -/

/-- At the end of the stream the buffer holds all that there is. -/
theorem polls_scanEnd (hatEnd : l.atEnd = true) (hsound : l.Sound c)
    (hmore : c.finished = true → ended = true ∧ more = []) :
    l.Polls c ended more (l.scanEnd.1, l.scanEnd.2, c) := by
  obtain ⟨hfinished, hincoming⟩ := hsound hatEnd
  obtain ⟨rfl, rfl⟩ := hmore hfinished
  have hall : l.buffer ++ (c.incoming ++ []) = l.buffer := by simp [hincoming]
  rcases hb : LineFormat.decode l.format l.atEnd l.buffer with ⟨result, format, rest⟩
  have hend : LineFormat.decode l.format true (l.buffer ++ (c.incoming ++ [])) =
      (result, format, rest) := by
    rw [hall, ← hatEnd, hb]
  by_cases hresult : result = .ok none
  · subst hresult
    rw [scanEnd, scan_of_none hb]
    have hidle : LineFormat.decode format true (rest ++ (c.incoming ++ [])) =
        (.ok none, format, rest) := by
      rw [hincoming, List.append_nil, List.append_nil]
      exact LawfulFormat.decode_idle hend
    refine .nothing (fun _ => ⟨hfinished, hincoming⟩) (Or.inr rfl) (hidle.trans hend.symm) ?_
    intro _
    refine ⟨by rw [hfinished]; rfl, ?_, ?_⟩
    · rw [hfinished, ← List.append_nil c.incoming, hend, hincoming]
      simp
    · intro hopen
      rw [hfinished] at hopen
      cases hopen
  · obtain ⟨x, rfl⟩ := LineCodec.Reads.exists_map_some hresult
    obtain ⟨failed, hscan⟩ := scan_of_found hb
    rw [scanEnd, hscan]
    refine .found (fun _ => ⟨hfinished, hincoming⟩) (hend.trans ?_)
    simp [hincoming]

/-- A link that has read what arrived waits, or takes the rest of the stream if that has ended. -/
theorem polls_awaitEnd (hreadable : l.readable = false) (hincoming : c.incoming = [])
    (hsound : l.Sound c) (hmore : c.finished = true → ended = true ∧ more = []) :
    l.Polls c ended more (l.awaitEnd c) := by
  cases hfinished : c.finished with
  | false =>
      have hwait : l.awaitEnd c = (.waiting, l, c) := by simp [awaitEnd, hfinished]
      rw [hwait]
      refine .nothing hsound (Or.inl rfl) rfl ?_
      rintro ⟨hfailed, hread | harrived | ⟨hatEnd, hend | hidle⟩⟩
      · rw [hreadable] at hread
        cases hread
      · exact absurd hincoming harrived
      · rw [hfinished] at hend
        cases hend
      · refine ⟨by rw [hfinished]; rfl, ?_, fun _ => ⟨hfailed, hatEnd, Or.inr hidle⟩⟩
        rw [hfinished, hincoming, List.append_nil]
        exact hidle
  | true =>
      cases hatEnd : l.atEnd with
      | false =>
          -- the buffer is read once more, now up to the end
          have hlast : l.awaitEnd c = ({ l with atEnd := true, readable := true }.scanEnd.1,
              { l with atEnd := true, readable := true }.scanEnd.2, c) := by
            simp [awaitEnd, hfinished, hatEnd]
          rw [hlast]
          have hpolls := polls_scanEnd (l := { l with atEnd := true, readable := true }) rfl
            (fun _ => ⟨hfinished, hincoming⟩) hmore
          exact Polls.trans c.incoming hpolls (fun _ _ => rfl)
            fun hlooks => ⟨hlooks.1, Or.inl rfl⟩
      | true =>
          have hended : l.awaitEnd c = (.ended, l, c) := by simp [awaitEnd, hfinished, hatEnd]
          rw [hended]
          refine .nothing hsound (Or.inr rfl) rfl ?_
          rintro ⟨-, hread | harrived | ⟨hopen, -⟩⟩
          · rw [hreadable] at hread
            cases hread
          · exact absurd hincoming harrived
          · rw [hatEnd] at hopen
            cases hopen

theorem polls_fetch (hreadable : l.readable = false) (hsound : l.Sound c)
    (hmore : c.finished = true → ended = true ∧ more = []) :
    l.Polls c ended more (l.fetch c) := by
  by_cases hincoming : c.incoming = []
  · rw [fetch, if_pos hincoming]
    exact polls_awaitEnd hreadable hincoming hsound hmore
  · rw [fetch, if_neg hincoming]
    dsimp only
    rcases scan_cases
        (l := { l with buffer := l.buffer ++ c.incoming, atEnd := false, readable := true })
        rfl with
      ⟨x, l', hscan, hatEnd, hd⟩ | ⟨l', hscan, hfailed, hread, hatEnd, hidle, hd⟩
    · rw [hscan]
      refine .found ?_ ?_
      · intro hend
        rw [hatEnd] at hend
        cases hend
      · rw [← List.append_assoc, hd ended more]
        rfl
    · rw [hscan]
      have hsound' : l'.Sound { c with incoming := [] } := by
        intro hend
        rw [hatEnd] at hend
        cases hend
      refine Polls.trans [] (polls_awaitEnd hread rfl hsound' hmore) ?_ ?_
      · intro ended more
        rw [List.nil_append, hd ended more, List.append_assoc]
      · exact fun hlooks => ⟨hfailed.trans hlooks.1, Or.inr (Or.inr ⟨hatEnd, Or.inr hidle⟩)⟩

/-- **Polling is decoding everything at once**, what is in the buffer and what has arrived, at the
end of the stream if the connection has ended; or it is not looking. -/
theorem polls (hsound : l.Sound c) (hmore : c.finished = true → ended = true ∧ more = []) :
    l.Polls c ended more (l.poll c) := by
  cases hfailed : l.failed with
  | true =>
      rw [poll, if_pos hfailed]
      refine .nothing hsound (Or.inr rfl) rfl ?_
      rintro ⟨hlooks, -⟩
      rw [hfailed] at hlooks
      cases hlooks
  | false =>
      rw [poll, if_neg (by simp [hfailed])]
      cases hreadable : l.readable with
      | false =>
          rw [if_neg (by simp)]
          exact polls_fetch hreadable hsound hmore
      | true =>
          rw [if_pos rfl]
          cases hatEnd : l.atEnd with
          | true => exact polls_scanEnd hatEnd hsound hmore
          | false =>
              rw [if_neg (by simp)]
              rcases scan_cases hatEnd with
                ⟨x, l', hscan, hatEnd', hd⟩ | ⟨l', hscan, hfailed', hread, hatEnd', hidle, hd⟩
              · rw [hscan]
                refine .found ?_ (hd ended (c.incoming ++ more))
                intro hend
                rw [hatEnd'] at hend
                cases hend
              · rw [hscan]
                have hsound' : l'.Sound c := by
                  intro hend
                  rw [hatEnd'] at hend
                  cases hend
                refine Polls.trans c.incoming (polls_fetch hread hsound' hmore) ?_ ?_
                · exact fun ended more => hd ended (c.incoming ++ more)
                · exact fun hlooks =>
                    ⟨hfailed'.trans hlooks.1, Or.inr (Or.inr ⟨hatEnd', Or.inr hidle⟩)⟩

/-- **What polling must come to**: the answer, the format and the bytes that are left. -/
def Answers (polled : Polled × Link δ × Connection) (c : Connection)
    (result : Except LineError (Option String)) (format : δ) (rest : Bytes) : Prop :=
  ∃ l' incoming, polled = (Polled.ofResult c.finished result, l', { c with incoming }) ∧
    l'.format = format ∧ l'.buffer ++ incoming = rest ∧
    (result = .ok none → c.finished = false → l'.Ready)

/-- **The answer of a link that looks** is the result of decoding all that has arrived. -/
theorem poll_of_ready {result : Except LineError (Option String)} (h : l.Ready)
    (hd : LineFormat.decode l.format c.finished (l.buffer ++ c.incoming) =
      (result, format, rest)) : Answers (l.poll c) c result format rest := by
  have hpolls : l.Polls c c.finished [] (l.poll c) := polls (h.sound c) fun hf => ⟨hf, rfl⟩
  generalize l.poll c = polled at hpolls
  cases hpolls with
  | found hsound hfound =>
      rw [List.append_nil, List.append_nil, hd] at hfound
      obtain ⟨rfl, hrest⟩ := Prod.mk.inj hfound
      obtain ⟨hformat, hleft⟩ := Prod.mk.inj hrest
      refine ⟨_, _, ?_, hformat.symm, hleft.symm, ?_⟩
      · rw [Polled.ofResult_map_some c.finished]
      · exact fun hnone => absurd hnone (LineCodec.Reads.map_some_ne _)
  | nothing hsound hpolled hnothing hlooks =>
      obtain ⟨hanswer, hleft, hready⟩ := hlooks (h.looks c)
      rw [hd] at hleft
      obtain ⟨rfl, hrest⟩ := Prod.mk.inj hleft
      obtain ⟨hformat, hleft⟩ := Prod.mk.inj hrest
      exact ⟨_, _, by rw [hanswer], hformat.symm, hleft.symm, fun _ => hready⟩

end

/-! ### Channels that skip nothing -/

variable {σ : Type} [LineCipher σ]

/-- **What the next line comes to** on a channel that skips nothing, in terms of the plain lines of
the whole stream: what is in the buffer, what has arrived, and the bytes `more` that are still going
to arrive. -/
inductive Next (l : Link (LineCodec σ)) (c : Connection) (ended : Bool) (more : Bytes) :
    Polled × Link (LineCodec σ) × Connection → Prop
  /-- There is no line yet, and going on from here is reading the same stream. -/
  | waiting {l' : Link (LineCodec σ)} {incoming : Bytes} (hfinished : c.finished = false)
      (hready : l'.Ready) (hpolicy : l'.format.policy = .fail)
      (hcipher : l'.format.cipher = l.format.cipher)
      (hrest : l'.format.framing.decode ended (l'.buffer ++ (incoming ++ more)) =
        l.format.framing.decode ended (l.buffer ++ (c.incoming ++ more)))
      (hnone : (l'.format.framing.decode false (l'.buffer ++ incoming)).1 = .ok none) :
      Next l c ended more (.waiting, l', { c with incoming })
  /-- There is a line, and it can be decrypted. -/
  | line {l' : Link (LineCodec σ)} {incoming : Bytes} {text plaintext : String}
      (hpolicy : l'.format.policy = .fail)
      (hplain : l.format.framing.decode ended (l.buffer ++ (c.incoming ++ more)) =
        (.ok (some text), l'.format.framing, l'.buffer ++ (incoming ++ more)))
      (hdecrypt : LineCipher.decrypt l.format.cipher text = (.ok plaintext, l'.format.cipher)) :
      Next l c ended more (.line plaintext, l', { c with incoming })
  /-- The stream has no line, or its first line is none, or cannot be decrypted. -/
  | refused {polled : Polled} {l' : Link (LineCodec σ)} {incoming : Bytes}
      (hpolled : polled = .ended ∨ ∃ e, polled = .failed e)
      (hplain : ∀ text plaintext f rest cipher,
        l.format.framing.decode ended (l.buffer ++ (c.incoming ++ more)) =
          (.ok (some text), f, rest) →
        LineCipher.decrypt l.format.cipher text ≠ (.ok plaintext, cipher)) :
      Next l c ended more (polled, l', { c with incoming })

variable {l : Link (LineCodec σ)} {c : Connection} {ended : Bool} {more rest : Bytes} {f : Framing}
  {format : LineCodec σ}

theorem next_of_error {e : LineError} (h : l.Ready)
    (hd : l.format.decode c.finished (l.buffer ++ c.incoming) = (.error e, format, rest))
    (hplain : ∀ text plaintext f' rest' cipher,
      l.format.framing.decode ended (l.buffer ++ (c.incoming ++ more)) =
        (.ok (some text), f', rest') →
      LineCipher.decrypt l.format.cipher text ≠ (.ok plaintext, cipher)) :
    l.Next c ended more (l.poll c) := by
  obtain ⟨l', incoming, hpoll, -, -, -⟩ := poll_of_ready h hd
  rw [hpoll]
  exact .refused (Or.inr ⟨e, rfl⟩) hplain

/-- A channel without a whole line waits for it, or has seen the end of the stream. -/
theorem next_of_incomplete (h : l.Ready) (hpolicy : l.format.policy = .fail)
    (hs : l.format.framing.step c.finished (l.buffer ++ c.incoming) = (.incomplete, f, rest))
    (hmore : c.finished = true → ended = true ∧ more = []) : l.Next c ended more (l.poll c) := by
  have hd := LineCodec.decode_of_accept_some hs rfl
  obtain ⟨l', incoming, hpoll, hformat, hleft, hready⟩ := poll_of_ready h hd
  cases hfinished : c.finished with
  | false =>
      have hanswer : Polled.ofResult c.finished (.ok none) = .waiting := by rw [hfinished]; rfl
      rw [hpoll, hanswer]
      rw [hfinished] at hs
      have hrest := Framing.step_append_of_incomplete hs
      refine .waiting hfinished (hready rfl hfinished) ?_ ?_ ?_ ?_
      · rw [hformat]
        exact hpolicy
      · rw [hformat]
      · rw [hformat, ← List.append_assoc, ← List.append_assoc, hleft, Framing.decode,
          Framing.decode, hrest ended more]
      · -- the same step again finds no line either
        have hagain := hrest false []
        rw [List.append_nil, List.append_nil, hs] at hagain
        rw [hformat, hleft, Framing.decode, ← hagain]
        rfl
  | true =>
      have hanswer : Polled.ofResult c.finished (.ok none) = .ended := by rw [hfinished]; rfl
      rw [hpoll, hanswer]
      refine .refused (Or.inl rfl) ?_
      intro text plaintext f' rest' cipher hline
      obtain ⟨rfl, rfl⟩ := hmore hfinished
      rw [hfinished] at hs
      rw [List.append_nil, Framing.decode, hs] at hline
      cases hline

/-- A line that has arrived is given if it can be decrypted. -/
theorem next_of_line {text : String} (h : l.Ready) (hpolicy : l.format.policy = .fail)
    (hs : l.format.framing.step c.finished (l.buffer ++ c.incoming) = (.line text, f, rest))
    (hmore : c.finished = true → ended = true ∧ more = []) : l.Next c ended more (l.poll c) := by
  have hline := Framing.decode_append_of_step hs (by simp) hmore
  rw [List.append_assoc] at hline
  rcases hdecrypt : LineCipher.decrypt l.format.cipher text with ⟨e | plaintext, cipher⟩
  · have hd := LineCodec.decode_of_strict hpolicy hs
    rw [LineCodec.opened_line hdecrypt] at hd
    refine next_of_error h hd ?_
    intro text' plaintext f' rest' cipher' hline' hdecrypt'
    rw [hline] at hline'
    cases hline'
    rw [hdecrypt] at hdecrypt'
    cases hdecrypt'
  · have ha := LineCodec.accept_line_of_ok (c := { l.format with framing := f }) hdecrypt
    have hd := LineCodec.decode_of_accept_some hs ha
    obtain ⟨l', incoming, hpoll, hformat, hleft, -⟩ := poll_of_ready h hd
    have hstream : l.format.framing.decode ended (l.buffer ++ (c.incoming ++ more)) =
        (.ok (some text), l'.format.framing, l'.buffer ++ (incoming ++ more)) := by
      rw [hline, hformat, ← List.append_assoc, hleft]
      rfl
    rw [hpoll]
    exact .line (by rw [hformat]; exact hpolicy) hstream (by rw [hdecrypt, hformat])

/-- **Polling a channel that skips nothing** gives the next line of the stream, if it has
arrived. -/
theorem next_poll (h : l.Ready) (hpolicy : l.format.policy = .fail)
    (hmore : c.finished = true → ended = true ∧ more = []) : l.Next c ended more (l.poll c) := by
  rcases hs : l.format.framing.step c.finished (l.buffer ++ c.incoming) with ⟨frame, f, rest⟩
  cases frame with
  | incomplete => exact next_of_incomplete h hpolicy hs hmore
  | tooLong =>
      refine next_of_error h (LineCodec.decode_of_accept_some hs rfl) ?_
      intro text plaintext f' rest' cipher hline
      rw [← List.append_assoc, Framing.decode_append_of_step hs (by simp) hmore] at hline
      cases hline
  | notText =>
      refine next_of_error h (LineCodec.decode_of_strict hpolicy hs) ?_
      intro text plaintext f' rest' cipher hline
      rw [← List.append_assoc, Framing.decode_append_of_step hs (by simp) hmore] at hline
      cases hline
  | line text => exact next_of_line h hpolicy hs hmore

/-- **A channel without a line has to wait**, and then still has none, or it ends. -/
theorem poll_of_none (h : l.Ready) (hpolicy : l.format.policy = .fail)
    (hnone : (l.format.framing.decode c.finished (l.buffer ++ c.incoming)).1 = .ok none) :
    (∃ l' incoming, l.poll c = (.waiting, l', { c with incoming }) ∧
        (l'.format.framing.decode c.finished (l'.buffer ++ incoming)).1 = .ok none) ∨
      ∃ polled l' incoming, l.poll c = (polled, l', { c with incoming }) ∧
        (polled = .ended ∨ ∃ e, polled = .failed e) := by
  have hnext := @next_poll _ _ _ _ c.finished [] h hpolicy fun hf => ⟨hf, rfl⟩
  generalize l.poll c = polled at hnext
  cases hnext with
  | waiting hfinished hready' hpolicy' hcipher' hrest hnone' =>
      rw [← hfinished] at hnone'
      exact Or.inl ⟨_, _, rfl, hnone'⟩
  | line hpolicy' hplain hdecrypt =>
      rw [List.append_nil] at hplain
      rw [hplain] at hnone
      cases hnone
  | refused hpolled hplain => exact Or.inr ⟨_, _, _, rfl, hpolled⟩

end Link

end LineChat
