/-
**Reading text from the front.**

A reader takes something off the front of a text and hands back what is left, or finds that it is
not there.  Readers of one kind of thing are built from readers of its parts.

Main definitions:

* `LineChat.Text.Scan` — **readers**;
* `LineChat.Text.expect` — takes one given character;
* `LineChat.Text.expectAll` — takes one given text;
* `LineChat.Text.exactly` — takes a number of characters of one class;
* `LineChat.Text.separated` — **takes several things with a mark between them**.

Main results:

* `LineChat.Text.expectAll_append` — what is there is taken, and nothing else.
-/

set_option autoImplicit false

namespace LineChat.Text

/-- **A reader** takes a value off the front of a text, if it is there. -/
abbrev Scan (α : Type) := List Char → Option (α × List Char)

/-- Takes one given character. -/
def expect (c : Char) : List Char → Option (List Char)
  | d :: rest => if d = c then some rest else none
  | [] => none

/-- Takes one given text. -/
def expectAll (cs text : List Char) : Option (List Char) :=
  if cs.isPrefixOf text then some (text.drop cs.length) else none

/-- Takes exactly `count` characters of a class. -/
def exactly (count : Nat) (isOf : Char → Bool) : Scan (List Char) := fun cs =>
  let taken := cs.take count
  if taken.length = count ∧ taken.all isOf then some (taken, cs.drop count) else none

/-- **Takes one or more things with a mark between them**, as many as there are.  What takes nothing
is not taken again. -/
def separated {α : Type} (mark : Char) (item : Scan α) (cs : List Char) :
    Option (List α × List Char) :=
  match item cs with
  | none => none
  | some (a, rest) =>
      match expect mark rest with
      | none => some ([a], rest)
      | some behind =>
          if _h : behind.length < cs.length then
            match separated mark item behind with
            | some (more, rest) => some (a :: more, rest)
            | none => some ([a], rest)
          else some ([a], rest)
termination_by cs.length

/-- Taking characters leaves no more than there was. -/
theorem exactly_length_le {count : Nat} {isOf : Char → Bool} {cs ds rest : List Char}
    (h : exactly count isOf cs = some (ds, rest)) : rest.length ≤ cs.length := by
  simp only [exactly] at h
  split at h
  · simp only [Option.some.injEq, Prod.mk.injEq] at h
    rw [← h.2, List.length_drop]
    exact Nat.sub_le _ _
  · simp at h

/-- What is there is taken, and nothing else. -/
theorem expectAll_append (cs rest : List Char) : expectAll cs (cs ++ rest) = some rest := by
  have h : cs.isPrefixOf (cs ++ rest) = true :=
    List.isPrefixOf_iff_prefix.2 (List.prefix_append cs rest)
  simp [expectAll, h]

end LineChat.Text
