/-
**Texts in a configuration document.**

A text stands between quotes or apostrophes, one of them at either end for a text in one line and
three for a text that may have several.  Between quotes a backslash starts an escape; between
apostrophes every character stands for itself.  A line break right behind three opening marks counts
for nothing, and so does a backslash at the end of a line with all blanks and breaks behind it.

A text is written in the first of these forms that shows it without escapes: between quotes, between
apostrophes, between three quotes, between three apostrophes.  If there is none, it is written
between quotes with escapes, three of them if it has a line break.

Main definitions:

* `LineChat.Toml.takeText` — **reading a text**;
* `LineChat.Toml.takeLine` — reading one that must be in one line;
* `LineChat.Toml.Form`, `LineChat.Toml.formOf` — how a text is written;
* `LineChat.Toml.renderText` — **writing a text**.

Main results:

* `LineChat.Toml.dropBlanks_length_le` — skipping blanks leaves no more than there was.
-/

import LineChat.Text.Digits
import LineChat.Text.Scan

set_option autoImplicit false

namespace LineChat.Toml

open Text (Scan)

/-! ### Characters -/

/-- A blank inside a line. -/
def isBlank (c : Char) : Bool := c = ' ' || c = '\t'

/-- What is left behind the blanks at the front. -/
def dropBlanks (cs : List Char) : List Char := cs.dropWhile isBlank

/-- Skipping blanks leaves no more than there was. -/
theorem dropBlanks_length_le (cs : List Char) : (dropBlanks cs).length ≤ cs.length :=
  (List.dropWhile_sublist isBlank).length_le

/-- A character that a document may not contain, except for those that end a line. -/
def isControl (c : Char) : Bool := (c.toNat < 0x20 && c ≠ '\t') || c.toNat = 0x7f

/-- Takes the end of a line. -/
def takeBreak : List Char → Option (List Char)
  | '\n' :: rest => some rest
  | '\r' :: '\n' :: rest => some rest
  | _ => none

/-- The character with a code point, which must be one. -/
def charOf? (n : Nat) : Option Char := if n.isValidChar then some (Char.ofNat n) else none

/-- Takes the hexadecimal digits of a character. -/
def takeCode (count : Nat) : Scan Char := fun cs =>
  match Text.exactly count (Text.isDigit 16) cs with
  | some (ds, rest) => (charOf? (Text.ofDigits 16 ds)).map (·, rest)
  | none => none

theorem takeCode_length_le {count : Nat} {cs rest : List Char} {c : Char}
    (h : takeCode count cs = some (c, rest)) : rest.length ≤ cs.length := by
  unfold takeCode at h
  split at h
  next ds r hr =>
    obtain ⟨d, _, hd⟩ := Option.map_eq_some_iff.1 h
    simp only [Prod.mk.injEq] at hd
    exact hd.2 ▸ Text.exactly_length_le hr
  next => simp at h

/-- Takes what stands behind the backslash of an escape. -/
def takeEscape : Scan Char
  | 'b' :: rest => some ('\x08', rest)
  | 't' :: rest => some ('\t', rest)
  | 'n' :: rest => some ('\n', rest)
  | 'f' :: rest => some ('\x0c', rest)
  | 'r' :: rest => some ('\r', rest)
  | '"' :: rest => some ('"', rest)
  | '\\' :: rest => some ('\\', rest)
  | 'u' :: rest => takeCode 4 rest
  | 'U' :: rest => takeCode 8 rest
  | _ => none

theorem takeEscape_length_lt {cs rest : List Char} {c : Char}
    (h : takeEscape cs = some (c, rest)) : rest.length < cs.length := by
  unfold takeEscape at h
  split at h
  case h_8 r => exact Nat.lt_succ_of_le (takeCode_length_le h)
  case h_9 r => exact Nat.lt_succ_of_le (takeCode_length_le h)
  case h_10 => simp at h
  all_goals
    simp only [Option.some.injEq, Prod.mk.injEq] at h
    simp [← h.2]

/-! ### Reading -/

/-- Takes characters up to the closing quote, which comes off too; those taken so far are in `done`,
last one first. -/
def takeBasic (done : List Char) (cs : List Char) : Option (String × List Char) :=
  match cs with
  | [] => none
  | '"' :: rest => some (String.ofList done.reverse, rest)
  | '\\' :: rest =>
      match _h : takeEscape rest with
      | some (c, rest') => takeBasic (c :: done) rest'
      | none => none
  | c :: rest => if isControl c then none else takeBasic (c :: done) rest
termination_by cs.length
decreasing_by
  · have := takeEscape_length_lt _h
    simp only [List.length_cons]
    omega
  · simp only [List.length_cons]
    omega

/-- Takes characters up to the closing apostrophe, which comes off too. -/
def takeLiteral (done : List Char) : List Char → Option (String × List Char)
  | [] => none
  | '\'' :: rest => some (String.ofList done.reverse, rest)
  | c :: rest => if isControl c then none else takeLiteral (c :: done) rest

/-- Takes the closing marks of a text that may have several lines: three of them, or up to five, of
which the first ones belong to the text.  Fewer than three are no closing marks. -/
def takeClosing (mark : Char) (cs : List Char) : Option (Nat × List Char) :=
  let marks := (cs.takeWhile (· = mark)).length
  if marks < 3 then none else some (min marks 5 - 3, cs.drop (min marks 5))

/-- What is left behind all blanks and line breaks at the front. -/
def dropBlankLines : List Char → List Char
  | '\n' :: rest => dropBlankLines rest
  | '\r' :: '\n' :: rest => dropBlankLines rest
  | c :: rest => if isBlank c then dropBlankLines rest else c :: rest
  | [] => []

theorem dropBlankLines_length_le (cs : List Char) : (dropBlankLines cs).length ≤ cs.length := by
  fun_induction dropBlankLines cs with
  | case1 rest ih => simp only [List.length_cons]; omega
  | case2 rest ih => simp only [List.length_cons]; omega
  | case3 c rest _ _ _ ih => simp only [List.length_cons]; omega
  | case4 => exact Nat.le_refl _
  | case5 => exact Nat.le_refl _

theorem takeBreak_length_lt {cs rest : List Char} (h : takeBreak cs = some rest) :
    rest.length < cs.length := by
  unfold takeBreak at h
  split at h
  · simp only [Option.some.injEq] at h
    subst h
    simp only [List.length_cons]
    omega
  · simp only [Option.some.injEq] at h
    subst h
    simp only [List.length_cons]
    omega
  · simp at h

/-- Takes what stands behind a backslash at the end of a line: blanks, a break, and all blanks and
breaks that follow. -/
def takeContinuation (cs : List Char) : Option (List Char) :=
  (takeBreak (dropBlanks cs)).map dropBlankLines

theorem takeContinuation_length_lt {cs rest : List Char} (h : takeContinuation cs = some rest) :
    rest.length < cs.length := by
  obtain ⟨r, hr, rfl⟩ := Option.map_eq_some_iff.1 h
  have h₁ := takeBreak_length_lt hr
  have h₂ := dropBlanks_length_le cs
  have h₃ := dropBlankLines_length_le r
  omega

/-- Takes characters up to three closing quotes, which come off too. -/
def takeBasicLines (done : List Char) (cs : List Char) : Option (String × List Char) :=
  match cs with
  | [] => none
  | '"' :: rest =>
      match takeClosing '"' ('"' :: rest) with
      | some (extra, rest) =>
          some (String.ofList (done.reverse ++ List.replicate extra '"'), rest)
      | none => takeBasicLines ('"' :: done) rest
  | '\\' :: rest =>
      match _hc : takeContinuation rest with
      | some rest' => takeBasicLines done rest'
      | none =>
          match _h : takeEscape rest with
          | some (c, rest') => takeBasicLines (c :: done) rest'
          | none => none
  | '\n' :: rest => takeBasicLines ('\n' :: done) rest
  | '\r' :: '\n' :: rest => takeBasicLines ('\n' :: done) rest
  | c :: rest => if isControl c then none else takeBasicLines (c :: done) rest
termination_by cs.length
decreasing_by
  · simp only [List.length_cons]; omega
  · have := takeContinuation_length_lt _hc
    simp only [List.length_cons]
    omega
  · have := takeEscape_length_lt _h
    simp only [List.length_cons]
    omega
  · simp only [List.length_cons]; omega
  · simp only [List.length_cons]; omega
  · simp only [List.length_cons]; omega

/-- Takes characters up to three closing apostrophes, which come off too. -/
def takeLiteralLines (done : List Char) : List Char → Option (String × List Char)
  | [] => none
  | '\'' :: rest =>
      match takeClosing '\'' ('\'' :: rest) with
      | some (extra, rest) =>
          some (String.ofList (done.reverse ++ List.replicate extra '\''), rest)
      | none => takeLiteralLines ('\'' :: done) rest
  | '\n' :: rest => takeLiteralLines ('\n' :: done) rest
  | '\r' :: '\n' :: rest => takeLiteralLines ('\n' :: done) rest
  | c :: rest => if isControl c then none else takeLiteralLines (c :: done) rest

/-- What is left behind a line break at the front, if there is one. -/
def skipBreak (cs : List Char) : List Char := (takeBreak cs).getD cs

/-- **Takes a text that must be in one line.** -/
def takeLine : Scan String
  | '"' :: rest => takeBasic [] rest
  | '\'' :: rest => takeLiteral [] rest
  | _ => none

/-- **Takes a text.** -/
def takeText : Scan String
  | '"' :: '"' :: '"' :: rest => takeBasicLines [] (skipBreak rest)
  | '\'' :: '\'' :: '\'' :: rest => takeLiteralLines [] (skipBreak rest)
  | cs => takeLine cs

/-! ### Writing -/

/-- **How a text is written.** -/
structure Form where
  /-- The quote or the apostrophe. -/
  mark : Char
  /-- Whether there are three marks at either end. -/
  hasLines : Bool
  deriving DecidableEq, Repr

/-- The length of the longest run of a character. -/
def longestRun (mark : Char) (cs : List Char) : Nat :=
  (cs.foldl (fun (best, run) c => if c = mark then (max best (run + 1), run + 1) else (best, 0))
    (0, 0)).1

/-- Whether a character can only be written as an escape. -/
def needsEscape (c : Char) : Bool := isControl c && c ≠ '\n'

/-- **The form that a text is written in.** -/
def formOf (s : String) : Form :=
  let cs := s.toList
  let quotes := longestRun '"' cs
  let apostrophes := longestRun '\'' cs
  let hasBreak := cs.contains '\n'
  let hasBackslash := cs.contains '\\'
  let plain := !cs.any needsEscape
  if plain && !hasBackslash && quotes = 0 && !hasBreak then ⟨'"', false⟩
  else if plain && apostrophes = 0 && !hasBreak then ⟨'\'', false⟩
  else if plain && !hasBackslash && quotes ≤ 2 then ⟨'"', true⟩
  else if plain && apostrophes ≤ 2 then ⟨'\'', true⟩
  else ⟨'"', hasBreak⟩

/-- The escape of a character between quotes, if it has one; a line break has none between three. -/
def escape? (hasLines : Bool) (c : Char) : Option (List Char) :=
  if c = '\x08' then some ['\\', 'b']
  else if c = '\t' then some ['\\', 't']
  else if c = '\n' then if hasLines then none else some ['\\', 'n']
  else if c = '\x0c' then some ['\\', 'f']
  else if c = '\r' then some ['\\', 'r']
  else if c = '\\' then some ['\\', '\\']
  else if isControl c then
    let digits := (Text.hexDigits c.toNat).map Char.toUpper
    some (['\\', 'u'] ++ List.replicate (4 - digits.length) '0' ++ digits)
  else none

/-- Writes characters between quotes, of which at most two stand in a row between three; `run` is
the number of those written last.  What is written so far is in `done`, last character first. -/
def escapeOnto (hasLines : Bool) (run : Nat) (done : List Char) : List Char → List Char
  | [] => done.reverse
  | c :: cs =>
      if c = '"' then
        if run < (if hasLines then 2 else 0) then escapeOnto hasLines (run + 1) ('"' :: done) cs
        else escapeOnto hasLines 0 ('"' :: '\\' :: done) cs
      else match escape? hasLines c with
        | some escaped => escapeOnto hasLines 0 (escaped.reverse ++ done) cs
        | none => escapeOnto hasLines 0 (c :: done) cs

/-- **Writes a text.** -/
def renderText (s : String) : String :=
  let form := formOf s
  let marks := List.replicate (if form.hasLines then 3 else 1) form.mark
  let opening := if form.hasLines && s.toList.contains '\n' then marks ++ ['\n'] else marks
  let body := if form.mark = '"' then escapeOnto form.hasLines 0 [] s.toList else s.toList
  String.ofList (opening ++ body ++ marks)

end LineChat.Toml
