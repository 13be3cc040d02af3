/-
**Cutting text at spaces.**

Messages are tokens with single spaces between them.  Cutting at every space makes a doubled or a
trailing space visible as an empty token, so that a reader that insists on the number of tokens
refuses it.

Main definitions:

* `LineChat.Text.words` — the tokens of a text;
* `LineChat.Text.unwords` — tokens joined by single spaces;
* `LineChat.Text.cutAtSpace` — a text in two parts, at its first space.
-/

set_option autoImplicit false

namespace LineChat.Text

/-- The tokens of a text, cut at every space. -/
def words (s : String) : List String := (s.toList.splitOn ' ').map String.ofList

/-- Tokens joined by single spaces. -/
def unwords (ws : List String) : String := " ".intercalate ws

/-- A text in front of its first space and behind it, if there is one. -/
def cutAtSpace (s : String) : Option (String × String) :=
  match s.toList.dropWhile (· ≠ ' ') with
  | [] => none
  | _ :: rest => some (String.ofList (s.toList.takeWhile (· ≠ ' ')), String.ofList rest)

end LineChat.Text
