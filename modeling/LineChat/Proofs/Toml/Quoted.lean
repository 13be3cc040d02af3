/-
**Texts come back from a configuration document.**

A written text is read as the same text, whatever its characters are.  Between quotes every
character that could end or change the text is escaped, and reading undoes the escape; what is
written as it is stands for itself.  Between three marks a text may hold marks of its own, but at
most two in a row, so the first three marks in a row are the closing ones, up to two marks of the
text in front of them.

Main results:

* `LineChat.Toml.takeBasic_escaped`, `LineChat.Toml.takeBasicLines_escaped` — texts between quotes;
* `LineChat.Toml.takeLiteral_append`, `LineChat.Toml.takeLiteralLines_append` — texts between
  apostrophes;
* `LineChat.Toml.run_le_longestRun` — how long a run of marks can be;
* `LineChat.Toml.takeText_renderText` — **every text comes back**.
-/

import LineChat.Proofs.Text.Digits
import LineChat.Toml.Quoted

set_option autoImplicit false

namespace LineChat.Toml

open Text (Stops)

variable {hasLines : Bool} {run : Nat} {done cs rest : List Char} {c : Char}

/-! ### Escapes -/

/-- Four hexadecimal digits of a control character. -/
theorem digits_of_code : ∀ n, n < 128 →
    let digits := (Text.hexDigits n).map Char.toUpper
    let code := List.replicate (4 - digits.length) '0' ++ digits
    code.length = 4 ∧ code.all (Text.isDigit 16) = true ∧ Text.ofDigits 16 code = n := by
  decide +kernel

theorem takeCode_append {code : List Char} (hlength : code.length = 4)
    (hdigits : code.all (Text.isDigit 16) = true) (hvalue : Text.ofDigits 16 code = c.toNat)
    (rest : List Char) : takeCode 4 (code ++ rest) = some (c, rest) := by
  have htaken : Text.exactly 4 (Text.isDigit 16) (code ++ rest) = some (code, rest) := by
    rw [Text.exactly, List.take_left' hlength, List.drop_left' hlength, if_pos ⟨hlength, hdigits⟩]
  have hchar : charOf? c.toNat = some c := by
    have hvalid : c.toNat.isValidChar := c.valid
    rw [charOf?, if_pos hvalid, Char.ofNat_toNat]
  rw [takeCode, htaken]
  simp [hvalue, hchar]

/-- **An escape stands for its character**, and its backslash is not the end of a line. -/
theorem takeEscape_of_escape? {escaped : List Char} (h : escape? hasLines c = some escaped)
    (rest : List Char) :
    ∃ body, escaped = '\\' :: body ∧ takeEscape (body ++ rest) = some (c, rest) ∧
      takeContinuation (body ++ rest) = none := by
  unfold escape? at h
  split_ifs at h
  all_goals obtain rfl := Option.some.inj h
  iterate 6
    subst c
    exact ⟨_, rfl, rfl, rfl⟩
  next hcontrol =>
    have hcode : c.toNat < 128 := by
      simp only [isControl, Bool.or_eq_true, Bool.and_eq_true, decide_eq_true_eq] at hcontrol
      omega
    obtain ⟨hlength, hdigits, hvalue⟩ := digits_of_code c.toNat hcode
    refine ⟨_, rfl, ?_, rfl⟩
    simpa [takeEscape] using takeCode_append hlength hdigits hvalue rest

/-! ### Between quotes -/

/-- **Characters as they are written between quotes**, behind so many quotes in a row. -/
def escaped (hasLines : Bool) (run : Nat) : List Char → List Char
  | [] => []
  | c :: cs =>
      if c = '"' then
        if run < (if hasLines then 2 else 0) then '"' :: escaped hasLines (run + 1) cs
        else '\\' :: '"' :: escaped hasLines 0 cs
      else (escape? hasLines c).getD [c] ++ escaped hasLines 0 cs

theorem escapeOnto_eq (hasLines : Bool) (run : Nat) (done cs : List Char) :
    escapeOnto hasLines run done cs = done.reverse ++ escaped hasLines run cs := by
  induction cs generalizing run done with
  | nil => rw [escapeOnto, escaped, List.append_nil]
  | cons c cs ih =>
      rw [escapeOnto, escaped]
      by_cases hquote : c = '"'
      · rw [if_pos hquote, if_pos hquote]
        by_cases hrun : run < (if hasLines then 2 else 0)
        · rw [if_pos hrun, if_pos hrun, ih]
          simp
        · rw [if_neg hrun, if_neg hrun, ih]
          simp
      · rw [if_neg hquote, if_neg hquote]
        cases escape? hasLines c <;> simp [ih]

/-- A character that has no escape is no control character, other than a break. -/
theorem isControl_of_escape? (h : escape? hasLines c = none) :
    c ≠ '\\' ∧ (isControl c = true → c = '\n' ∧ hasLines = true) := by
  unfold escape? at h
  split_ifs at h with hb ht hn hl hf hr hs hcontrol
  · exact ⟨by rintro rfl; simp at hn, fun _ => ⟨hn, hl⟩⟩
  · exact ⟨hs, fun h => absurd h hcontrol⟩

theorem takeBasic_escape {escape : List Char} {d : Char} (h : takeEscape escape = some (d, rest)) :
    takeBasic done ('\\' :: escape) = takeBasic (d :: done) rest := by
  rw [takeBasic]
  split
  · next c rest' heq =>
    rw [h] at heq
    obtain ⟨rfl, rfl⟩ : d = c ∧ rest = rest' := by simpa using heq
    rfl
  · next heq => simp [h] at heq

/-- **A text in one line between quotes comes back.** -/
theorem takeBasic_escaped (done cs rest : List Char) :
    takeBasic done (escaped false 0 cs ++ '"' :: rest) =
      some (String.ofList (done.reverse ++ cs), rest) := by
  induction cs generalizing done with
  | nil => rw [escaped, List.nil_append, takeBasic, List.append_nil]
  | cons c cs ih =>
      have hnext := ih (c :: done)
      rw [List.reverse_cons, List.append_assoc, List.singleton_append] at hnext
      rw [escaped, ← hnext]
      by_cases hquote : c = '"'
      · subst hquote
        exact takeBasic_escape rfl
      · rw [if_neg hquote]
        cases hescape : escape? false c with
        | some escape =>
            obtain ⟨body, rfl, htaken, -⟩ :=
              takeEscape_of_escape? hescape (escaped false 0 cs ++ '"' :: rest)
            rw [Option.getD_some, List.append_assoc]
            exact takeBasic_escape htaken
        | none =>
            obtain ⟨hslash, hcontrol⟩ := isControl_of_escape? hescape
            -- In one line even a break has an escape.
            have hplain : isControl c = false := by
              rw [← Bool.not_eq_true]
              exact fun h => Bool.false_ne_true (hcontrol h).2
            rw [Option.getD_none, List.singleton_append, List.cons_append, takeBasic, if_neg]
            all_goals first | exact hquote | exact hslash | simp [hplain]

/-! ### Closing marks -/

/-- Behind characters with at most two marks in front, three marks close a text; marks that stand
right in front of them belong to it. -/
theorem takeClosing_append {mark : Char} (hfront : (cs.takeWhile (· = mark)).length ≤ 2)
    (hrest : Stops (· = mark) rest) :
    takeClosing mark (cs ++ (List.replicate 3 mark ++ rest)) =
      if cs.all (· = mark) then some (cs.length, rest) else none := by
  have hmarks : ∀ c ∈ List.replicate 3 mark, decide (c = mark) = true := by
    intro c hc
    exact decide_eq_true (List.eq_of_mem_replicate hc)
  have hclosing := Text.takeWhile_append_of_stops hmarks hrest
  rw [takeClosing, List.takeWhile_append, hclosing]
  by_cases hall : cs.all (· = mark) = true
  · have hwhole : cs.takeWhile (· = mark) = cs :=
      List.takeWhile_eq_self_iff.2 (List.all_eq_true.1 hall)
    rw [hwhole] at hfront ⊢
    have hmin : min (cs.length + 3) 5 = cs.length + 3 := by omega
    have hdrop : (cs ++ (List.replicate 3 mark ++ rest)).drop (cs.length + 3) = rest := by
      rw [← List.append_assoc]
      exact List.drop_left' (by rw [List.length_append, List.length_replicate])
    simp only [if_true, List.length_append, List.length_replicate, hmin, hdrop, if_pos hall]
    rw [if_neg (by omega), Nat.add_sub_cancel]
  · have hpart : (cs.takeWhile (· = mark)).length ≠ cs.length := by
      intro hlength
      have hwhole := (List.takeWhile_prefix (· = mark)).eq_of_length hlength
      exact hall (List.all_eq_true.2 (List.takeWhile_eq_self_iff.1 hwhole))
    simp only [if_neg hpart, if_neg hall]
    rw [if_pos (by omega)]

/-- Three marks close a text that ends right in front of them. -/
theorem takeClosing_marks {mark : Char} (hrest : Stops (· = mark) rest) :
    takeClosing mark (mark :: mark :: mark :: rest) = some (0, rest) := by
  have hnone : (([] : List Char).takeWhile (· = mark)).length ≤ 2 := Nat.zero_le 2
  simpa [List.replicate] using takeClosing_append hnone hrest

/-- A mark in front of what closes a text starts the closing marks if only marks are left of the
text, and else belongs to the text. -/
theorem takeClosing_mark {mark : Char} (hfront : ((mark :: cs).takeWhile (· = mark)).length ≤ 2)
    (hrest : Stops (· = mark) rest) :
    takeClosing mark (mark :: (cs ++ (List.replicate 3 mark ++ rest))) =
      if cs.all (· = mark) then some (cs.length + 1, rest) else none := by
  have hclosing := takeClosing_append hfront hrest
  rw [List.cons_append] at hclosing
  rw [hclosing, List.all_cons, decide_eq_true rfl, Bool.true_and, List.length_cons]

/-- Marks that are left of a text are as good as their number. -/
theorem replicate_mark {mark : Char} (h : cs.all (· = mark) = true) :
    List.replicate (cs.length + 1) mark = mark :: cs := by
  have hmarks : ∀ c ∈ cs, c = mark := fun c hc => of_decide_eq_true (List.all_eq_true.1 h c hc)
  rw [List.replicate_succ, ← List.eq_replicate_iff.2 ⟨rfl, hmarks⟩]

/-! ### Between three quotes -/

/-- Of the quotes that stand in a row, at most two are written without an escape. -/
theorem quotes_escaped_le (hrun : run ≤ 2) :
    ((escaped true run cs).takeWhile (· = '"')).length + run ≤ 2 := by
  induction cs generalizing run with
  | nil => simpa [escaped] using hrun
  | cons c cs ih =>
      rw [escaped]
      by_cases hquote : c = '"'
      · rw [if_pos hquote]
        by_cases hfew : run < 2
        · have hmore := ih (show run + 1 ≤ 2 from hfew)
          simp [hfew]
          omega
        · simpa [hfew] using hrun
      · rw [if_neg hquote]
        cases hescape : escape? true c with
        | some escape =>
            obtain ⟨body, rfl, -⟩ := takeEscape_of_escape? hescape []
            simpa using hrun
        | none => simpa [hquote] using hrun

/-- Where nothing but quotes is written, they are the text. -/
theorem escaped_eq_self (h : (escaped true run cs).all (· = '"') = true) :
    escaped true run cs = cs := by
  induction cs generalizing run with
  | nil => rfl
  | cons c cs ih =>
      have hmarks := List.all_eq_true.1 h
      rw [escaped] at h hmarks ⊢
      by_cases hquote : c = '"'
      · rw [if_pos hquote] at h hmarks ⊢
        by_cases hfew : run < 2
        · simp only [if_true, if_pos hfew, List.all_cons, Bool.and_eq_true] at h ⊢
          rw [ih h.2, hquote]
        · simp only [if_true, if_neg hfew] at hmarks
          exact absurd (hmarks '\\' (List.mem_cons_self ..)) (by decide)
      · rw [if_neg hquote] at hmarks
        cases hescape : escape? true c with
        | some escape =>
            obtain ⟨body, rfl, -⟩ := takeEscape_of_escape? hescape []
            exact absurd (hmarks '\\' (by simp [hescape])) (by decide)
        | none =>
            exact absurd (of_decide_eq_true (hmarks c (by simp [hescape]))) hquote

theorem takeBasicLines_escape {escape : List Char} {d : Char}
    (h : takeEscape escape = some (d, rest)) (hline : takeContinuation escape = none) :
    takeBasicLines done ('\\' :: escape) = takeBasicLines (d :: done) rest := by
  rw [takeBasicLines]
  split
  · next heq => simp [hline] at heq
  · split
    · next c rest' heq =>
      rw [h] at heq
      obtain ⟨rfl, rfl⟩ : d = c ∧ rest = rest' := by simpa using heq
      rfl
    · next heq => simp [h] at heq

/-- **A text between three quotes comes back.** -/
theorem takeBasicLines_escaped (hrun : run ≤ 2) (done cs : List Char)
    (hrest : Stops (· = '"') rest) :
    takeBasicLines done (escaped true run cs ++ (List.replicate 3 '"' ++ rest)) =
      some (String.ofList (done.reverse ++ cs), rest) := by
  induction cs generalizing run done with
  | nil =>
      have hmarks : List.replicate 3 '"' ++ rest = '"' :: '"' :: '"' :: rest := rfl
      rw [escaped, List.nil_append, hmarks, takeBasicLines, takeClosing_marks hrest]
      rfl
  | cons c cs ih =>
      have hfront : ((escaped true run (c :: cs)).takeWhile (· = '"')).length + run ≤ 2 :=
        quotes_escaped_le hrun
      have hnext : ∀ run ≤ 2, takeBasicLines (c :: done)
          (escaped true run cs ++ (List.replicate 3 '"' ++ rest)) =
            some (String.ofList (done.reverse ++ c :: cs), rest) := by
        intro run hrun
        rw [ih hrun, List.reverse_cons, List.append_assoc, List.singleton_append]
      rw [escaped] at hfront ⊢
      by_cases hquote : c = '"'
      · subst hquote
        by_cases hfew : run < 2
        · simp only [if_true, if_pos hfew] at hfront ⊢
          have htwo : (('"' :: escaped true (run + 1) cs).takeWhile (· = '"')).length ≤ 2 := by
            omega
          have hclosing := takeClosing_mark htwo hrest
          rw [List.cons_append, takeBasicLines, hclosing]
          -- Quotes at the very end of the text are read together with the closing ones.
          by_cases hall : (escaped true (run + 1) cs).all (· = '"') = true
          · have hself := escaped_eq_self hall
            rw [hself] at hall ⊢
            simp only [if_pos hall, replicate_mark hall]
          · simp only [if_neg hall]
            exact hnext (run + 1) hfew
        · simp only [if_true, if_neg hfew]
          exact (takeBasicLines_escape rfl rfl).trans (hnext 0 (by omega))
      · rw [if_neg hquote]
        cases hescape : escape? true c with
        | some escape =>
            obtain ⟨body, rfl, htaken, hline⟩ := takeEscape_of_escape? hescape
              (escaped true 0 cs ++ (List.replicate 3 '"' ++ rest))
            rw [Option.getD_some, List.append_assoc]
            exact (takeBasicLines_escape htaken hline).trans (hnext 0 (by omega))
        | none =>
            obtain ⟨hslash, hcontrol⟩ := isControl_of_escape? hescape
            rw [Option.getD_none, List.singleton_append, List.cons_append]
            by_cases hbreak : c = '\n'
            · subst hbreak
              rw [takeBasicLines, hnext 0 (by omega)]
            · have hplain : isControl c = false := by
                rw [← Bool.not_eq_true]
                exact fun h => hbreak (hcontrol h).1
              rw [takeBasicLines, if_neg (by simp [hplain]), hnext 0 (by omega)]
              · exact hquote
              · exact hslash
              · exact hbreak
              · rintro rest' rfl
                exact absurd hplain (by decide)

/-! ### Between apostrophes -/

/-- **A text in one line between apostrophes comes back.** -/
theorem takeLiteral_append (done : List Char)
    (hcs : ∀ c ∈ cs, c ≠ '\'' ∧ isControl c = false) :
    takeLiteral done (cs ++ '\'' :: rest) = some (String.ofList (done.reverse ++ cs), rest) := by
  induction cs generalizing done with
  | nil => rw [List.nil_append, takeLiteral, List.append_nil]
  | cons c cs ih =>
      obtain ⟨hmark, hplain⟩ := hcs c (List.mem_cons_self ..)
      have hnext := ih (c :: done) fun d hd => hcs d (List.mem_cons_of_mem _ hd)
      rw [List.reverse_cons, List.append_assoc, List.singleton_append] at hnext
      rw [List.cons_append, takeLiteral, if_neg (by simp [hplain]), hnext]
      exact hmark

/-- **A text between three apostrophes comes back.** -/
theorem takeLiteralLines_append (done : List Char) (hcs : ∀ c ∈ cs, isControl c = true → c = '\n')
    (hruns : ∀ behind, behind <:+ cs → (behind.takeWhile (· = '\'')).length ≤ 2)
    (hrest : Stops (· = '\'') rest) :
    takeLiteralLines done (cs ++ (List.replicate 3 '\'' ++ rest)) =
      some (String.ofList (done.reverse ++ cs), rest) := by
  induction cs generalizing done with
  | nil =>
      have hmarks : List.replicate 3 '\'' ++ rest = '\'' :: '\'' :: '\'' :: rest := rfl
      rw [List.nil_append, hmarks, takeLiteralLines, takeClosing_marks hrest]
      rfl
  | cons c cs ih =>
      have hnext := ih (c :: done) (fun d hd => hcs d (List.mem_cons_of_mem _ hd))
        fun behind hbehind => hruns behind (hbehind.trans (List.suffix_cons c cs))
      rw [List.reverse_cons, List.append_assoc, List.singleton_append] at hnext
      rw [List.cons_append]
      by_cases hmark : c = '\''
      · subst hmark
        have hclosing := takeClosing_mark (hruns _ (List.suffix_refl _)) hrest
        rw [takeLiteralLines, hclosing]
        -- As between quotes, marks at the very end are read together with the closing ones.
        by_cases hall : cs.all (· = '\'') = true
        · simp only [if_pos hall, replicate_mark hall]
        · simp only [if_neg hall, hnext]
      · by_cases hbreak : c = '\n'
        · subst hbreak
          rw [takeLiteralLines, hnext]
        · have hplain : isControl c = false := by
            rw [← Bool.not_eq_true]
            exact fun h => hbreak (hcs c (List.mem_cons_self ..) h)
          rw [takeLiteralLines, if_neg (by simp [hplain]), hnext]
          · exact hmark
          · exact hbreak
          · rintro rest' rfl
            exact absurd hplain (by decide)

/-! ### Runs of marks -/

/-- The longest run and the one at the end, with one character more. -/
def runStep (mark : Char) (runs : Nat × Nat) (c : Char) : Nat × Nat :=
  if c = mark then (max runs.1 (runs.2 + 1), runs.2 + 1) else (runs.1, 0)

theorem runStep_le (mark : Char) (runs : Nat × Nat) (c : Char) :
    (runStep mark runs c).2 ≤ (runStep mark runs c).1 := by
  unfold runStep
  split
  · exact Nat.le_max_right ..
  · exact Nat.zero_le _

theorem best_le_foldl_runStep (mark : Char) (runs : Nat × Nat) (cs : List Char) :
    runs.1 ≤ (cs.foldl (runStep mark) runs).1 := by
  induction cs generalizing runs with
  | nil => exact Nat.le_refl _
  | cons c cs ih =>
      refine Nat.le_trans ?_ (ih (runStep mark runs c))
      unfold runStep
      split
      · exact Nat.le_max_left ..
      · exact Nat.le_refl _

theorem front_le_foldl_runStep (mark : Char) {runs : Nat × Nat} (h : runs.2 ≤ runs.1)
    (cs : List Char) :
    (cs.takeWhile (· = mark)).length + runs.2 ≤ (cs.foldl (runStep mark) runs).1 := by
  induction cs generalizing runs with
  | nil => simpa using h
  | cons c cs ih =>
      by_cases hmark : c = mark
      · have hmore := ih (runStep_le mark runs c)
        rw [runStep, if_pos hmark] at hmore
        rw [List.takeWhile_cons_of_pos (by simpa using hmark), List.foldl_cons, runStep,
          if_pos hmark, List.length_cons]
        omega
      · -- Nothing stands in front of `c`, so the best run so far is long enough.
        have hbest := best_le_foldl_runStep mark runs (c :: cs)
        rw [List.takeWhile_cons_of_neg (by simpa using hmark), List.length_nil]
        omega

/-- The longest run is at least as long as any that stands somewhere in the text. -/
theorem run_le_longestRun (mark : Char) {behind : List Char} (h : behind <:+ cs) :
    (behind.takeWhile (· = mark)).length ≤ longestRun mark cs := by
  suffices hfold : ∀ runs : Nat × Nat, runs.2 ≤ runs.1 →
      (behind.takeWhile (· = mark)).length ≤ (cs.foldl (runStep mark) runs).1 from
    hfold (0, 0) (Nat.le_refl 0)
  induction cs with
  | nil =>
      intro runs _
      rw [List.suffix_nil.1 h]
      exact Nat.zero_le _
  | cons c cs ih =>
      intro runs hruns
      rcases List.suffix_cons_iff.1 h with rfl | h
      · exact Nat.le_of_add_right_le (front_le_foldl_runStep mark hruns (c :: cs))
      · exact ih h _ (runStep_le mark runs c)

/-! ### Whole texts -/

/-- A character that opens and closes texts. -/
def isMark (c : Char) : Bool := c = '"' || c = '\''

/-- A character that a line break starts with. -/
def startsBreak (c : Char) : Bool := c = '\n' || c = '\r'

theorem skipBreak_of_stops (h : Stops startsBreak cs) : skipBreak cs = cs := by
  unfold skipBreak takeBreak
  split
  · exact absurd (h _ rfl) (by decide)
  · exact absurd (h _ rfl) (by decide)
  · rfl

/-- Where there is no break, only another control character could start one. -/
theorem startsBreak_of_mem (hcs : cs.contains '\n' = false) (hc : c ∈ cs)
    (hcontrol : isControl c = true → c = '\n') : startsBreak c = false := by
  have hbreak : c ≠ '\n' := by
    rintro rfl
    exact absurd (List.contains_iff_mem.2 hc) (Bool.eq_false_iff.1 hcs)
  have hreturn : c ≠ '\r' := by
    rintro rfl
    exact absurd (hcontrol (by decide)) (by decide)
  simp [startsBreak, hbreak, hreturn]

theorem stops_quote (h : Stops isMark rest) : Stops (· = '"') rest :=
  h.mono fun c hc => by simp [isMark, of_decide_eq_true hc]

theorem stops_apostrophe (h : Stops isMark rest) : Stops (· = '\'') rest :=
  h.mono fun c hc => by simp [isMark, of_decide_eq_true hc]

/-- What is written between quotes starts with a backslash or with the first character, which is
then no control character other than a break, and between single quotes none of them. -/
theorem head_escaped (hasLines : Bool) (c : Char) (cs : List Char) :
    ∃ d more, escaped hasLines 0 (c :: cs) = d :: more ∧
      (d = '\\' ∨ d = c ∧ (c = '"' → hasLines = true) ∧ (isControl c = true → c = '\n')) := by
  rw [escaped]
  by_cases hquote : c = '"'
  · subst hquote
    cases hasLines with
    | false => exact ⟨'\\', _, rfl, Or.inl rfl⟩
    | true => exact ⟨'"', _, rfl, Or.inr ⟨rfl, fun _ => rfl, fun h => absurd h (by decide)⟩⟩
  · rw [if_neg hquote]
    cases hescape : escape? hasLines c with
    | some escape =>
        obtain ⟨body, rfl, -⟩ := takeEscape_of_escape? hescape []
        exact ⟨'\\', _, rfl, Or.inl rfl⟩
    | none =>
        have hcontrol := (isControl_of_escape? hescape).2
        exact ⟨c, _, rfl, Or.inr ⟨rfl, fun h => absurd h hquote, fun h => (hcontrol h).1⟩⟩

/-- A text in one line between quotes. -/
theorem takeText_quotes (cs : List Char) (hrest : Stops isMark rest) :
    takeText ('"' :: (escaped false 0 cs ++ '"' :: rest)) = some (String.ofList cs, rest) := by
  have htaken := takeBasic_escaped [] cs rest
  rw [List.reverse_nil, List.nil_append] at htaken
  have hsingle : ∀ more, escaped false 0 cs ++ '"' :: rest ≠ '"' :: '"' :: more := by
    intro more h
    cases cs with
    | nil =>
        rw [escaped, List.nil_append, List.cons.injEq] at h
        exact absurd (hrest '"' (by rw [h.2]; rfl)) (by decide)
    | cons c cs =>
        obtain ⟨d, behind, htext, hd⟩ := head_escaped false c cs
        rw [htext, List.cons_append, List.cons.injEq] at h
        obtain ⟨rfl, -⟩ := h
        rcases hd with hd | ⟨rfl, hfalse, -⟩
        · exact absurd hd (by decide)
        · exact Bool.false_ne_true (hfalse rfl)
  rw [takeText, takeLine, htaken]
  · exact fun more h => hsingle more (List.cons.inj h).2
  · exact fun more h => absurd (List.cons.inj h).1 (by decide)

/-- A text in one line between apostrophes. -/
theorem takeText_apostrophes (hcs : ∀ c ∈ cs, c ≠ '\'' ∧ isControl c = false)
    (hrest : Stops isMark rest) :
    takeText ('\'' :: (cs ++ '\'' :: rest)) = some (String.ofList cs, rest) := by
  have htaken : takeLiteral [] (cs ++ '\'' :: rest) = some (String.ofList cs, rest) :=
    takeLiteral_append [] hcs
  have hsingle : ∀ more, cs ++ '\'' :: rest ≠ '\'' :: '\'' :: more := by
    intro more h
    cases cs with
    | nil =>
        rw [List.nil_append, List.cons.injEq] at h
        exact absurd (hrest '\'' (by rw [h.2]; rfl)) (by decide)
    | cons c cs => exact (hcs c (List.mem_cons_self ..)).1 (List.cons.inj h).1
  rw [takeText, takeLine, htaken]
  · exact fun more h => absurd (List.cons.inj h).1 (by decide)
  · exact fun more h => hsingle more (List.cons.inj h).2

/-- What stands behind three opening marks: a break that counts for nothing, if the text has one of
its own, and what is written for the text. -/
def behindMarks (cs body : List Char) : List Char :=
  if cs.contains '\n' then '\n' :: body else body

theorem behindMarks_append (cs body rest : List Char) :
    behindMarks cs body ++ rest = behindMarks cs (body ++ rest) := by
  unfold behindMarks
  split <;> rfl

theorem skipBreak_behindMarks {body : List Char}
    (hbody : cs.contains '\n' = false → Stops startsBreak body) :
    skipBreak (behindMarks cs body) = body := by
  unfold behindMarks
  cases hbreak : cs.contains '\n' with
  | true => rfl
  | false => exact skipBreak_of_stops (hbody hbreak)

/-- A text between three quotes. -/
theorem takeText_threeQuotes (cs : List Char) (hrest : Stops isMark rest) :
    takeText ('"' :: '"' :: '"' ::
      behindMarks cs (escaped true 0 cs ++ (List.replicate 3 '"' ++ rest))) =
        some (String.ofList cs, rest) := by
  have htaken := takeBasicLines_escaped (Nat.zero_le 2) [] cs (stops_quote hrest)
  rw [List.reverse_nil, List.nil_append] at htaken
  rw [takeText, skipBreak_behindMarks, htaken]
  intro hbreak
  cases cs with
  | nil => exact .cons (by decide)
  | cons c cs =>
      obtain ⟨d, behind, htext, hd⟩ := head_escaped true c cs
      rw [htext]
      refine .cons ?_
      rcases hd with rfl | ⟨rfl, -, hcontrol⟩
      · decide
      · exact startsBreak_of_mem hbreak (List.mem_cons_self ..) hcontrol

/-- A text between three apostrophes. -/
theorem takeText_threeApostrophes (hcs : ∀ c ∈ cs, isControl c = true → c = '\n')
    (hruns : longestRun '\'' cs ≤ 2) (hrest : Stops isMark rest) :
    takeText ('\'' :: '\'' :: '\'' :: behindMarks cs (cs ++ (List.replicate 3 '\'' ++ rest))) =
      some (String.ofList cs, rest) := by
  have htaken := takeLiteralLines_append [] hcs
    (fun behind h => Nat.le_trans (run_le_longestRun '\'' h) hruns) (stops_apostrophe hrest)
  rw [List.reverse_nil, List.nil_append] at htaken
  rw [takeText, skipBreak_behindMarks, htaken]
  intro hbreak
  cases cs with
  | nil => exact .cons (by decide)
  | cons c cs =>
      exact .cons (startsBreak_of_mem hbreak (List.mem_cons_self ..)
        (hcs c (List.mem_cons_self ..)))

/-- The text as it is written in a form. -/
def renderIn (form : Form) (cs : List Char) : List Char :=
  let marks := List.replicate (if form.hasLines then 3 else 1) form.mark
  let body := if form.mark = '"' then escaped form.hasLines 0 cs else cs
  marks ++ (if form.hasLines then behindMarks cs (body ++ marks) else body ++ marks)

theorem toList_renderText (s : String) :
    (renderText s).toList = renderIn (formOf s) s.toList := by
  rw [renderText, renderIn, String.toList_ofList, escapeOnto_eq]
  unfold behindMarks
  cases (formOf s).hasLines <;> cases s.toList.contains '\n' <;> simp

/-- Where the longest run has no length, there is none. -/
theorem ne_of_longestRun_eq_zero {mark : Char} (h : longestRun mark cs = 0) (hc : c ∈ cs) :
    c ≠ mark := by
  rintro rfl
  obtain ⟨front, behind, rfl⟩ := List.append_of_mem hc
  have hrun := run_le_longestRun c (List.suffix_append front (c :: behind))
  rw [h, List.takeWhile_cons_of_pos (by simp)] at hrun
  exact absurd hrun (by simp)

/-- A text is written between quotes, or between apostrophes if that shows it as it is. -/
theorem formOf_cases (s : String) :
    (formOf s).mark = '"' ∨
    (formOf s = ⟨'\'', false⟩ ∧ ∀ c ∈ s.toList, c ≠ '\'' ∧ isControl c = false) ∨
    (formOf s = ⟨'\'', true⟩ ∧ (∀ c ∈ s.toList, isControl c = true → c = '\n') ∧
      longestRun '\'' s.toList ≤ 2) := by
  have hplain : (!s.toList.any needsEscape) = true →
      ∀ c ∈ s.toList, isControl c = true → c = '\n' := by
    intro h c hc hcontrol
    by_contra hbreak
    have hneeds : needsEscape c = true := by simp [needsEscape, hcontrol, hbreak]
    exact absurd (List.any_eq_true.2 ⟨c, hc, hneeds⟩) (by simpa using h)
  unfold formOf
  simp only [Bool.and_eq_true, decide_eq_true_eq]
  split_ifs with h₁ h₂ h₃ h₄
  · exact Or.inl rfl
  · obtain ⟨⟨hescapes, hnone⟩, hbreak⟩ := h₂
    refine Or.inr (Or.inl ⟨rfl, fun c hc => ⟨ne_of_longestRun_eq_zero hnone hc, ?_⟩⟩)
    rw [← Bool.not_eq_true]
    intro hcontrol
    obtain rfl := hplain hescapes c hc hcontrol
    exact absurd (List.contains_iff_mem.2 hc) (by simpa using hbreak)
  · exact Or.inl rfl
  · exact Or.inr (Or.inr ⟨rfl, hplain h₄.1, h₄.2⟩)
  · exact Or.inl rfl

/-- A text is written with a mark in front. -/
theorem exists_renderText_eq_cons (s : String) :
    ∃ c cs, (renderText s).toList = c :: cs ∧ isMark c = true := by
  have hmark : isMark (formOf s).mark = true := by
    rcases formOf_cases s with hquote | ⟨hform, -⟩ | ⟨hform, -⟩
    · rw [hquote]
      decide
    · rw [hform]
      decide
    · rw [hform]
      decide
  rw [toList_renderText, renderIn]
  cases (formOf s).hasLines <;> exact ⟨_, _, rfl, hmark⟩

/-- **Every text comes back**, in front of anything that does not start with another mark. -/
theorem takeText_renderText (s : String) (hrest : Stops isMark rest) :
    takeText ((renderText s).toList ++ rest) = some (s, rest) := by
  rw [toList_renderText]
  rcases formOf_cases s with hquote | ⟨hform, hcs⟩ | ⟨hform, hcs, hruns⟩
  · generalize formOf s = form at hquote
    obtain ⟨mark, hasLines⟩ := form
    obtain rfl : mark = '"' := hquote
    cases hasLines with
    | false => simpa [renderIn] using takeText_quotes s.toList hrest
    | true => simpa [renderIn, behindMarks_append] using takeText_threeQuotes s.toList hrest
  · rw [hform]
    simpa [renderIn] using takeText_apostrophes hcs hrest
  · rw [hform]
    simpa [renderIn, behindMarks_append] using takeText_threeApostrophes hcs hruns hrest

end LineChat.Toml
