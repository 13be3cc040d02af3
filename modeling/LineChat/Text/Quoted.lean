/-
**Quoted text.**

Messages that name a text put it between quotes, with every character that could mislead a reader
written as an escape: the quote and the backslash, the control characters with a letter of their
own, and every character that is not shown as itself by its code point in hexadecimal.  A single
character between apostrophes follows the same rule with the two kinds of quote exchanged, and
there a combining character is escaped as well.

Main definitions:

* `LineChat.Text.escape` — how one character is written between quotes of a given kind;
* `LineChat.Text.quote` — a text between double quotes;
* `LineChat.Text.quoteChar` — a character between apostrophes.
-/

import LineChat.Text.Digits
import LineChat.Text.Printable

set_option autoImplicit false

namespace LineChat.Text

/-- The escape of a character by its code point. -/
def escapeCodePoint (c : Char) : List Char :=
  ['\\', 'u', '\x7b'] ++ hexDigits c.toNat ++ ['\x7d']

/-- **How a character is written between two `delimiter`s.** -/
def escape (delimiter c : Char) : List Char :=
  if c = delimiter ∨ c = '\\' then ['\\', c]
  else if c = '\n' then ['\\', 'n']
  else if c = '\r' then ['\\', 'r']
  else if c = '\t' then ['\\', 't']
  else if c = '\x00' then ['\\', '0']
  else if isUnprintable c || isCombining c then escapeCodePoint c
  else [c]

/-- **A text between double quotes.** -/
def quote (s : String) : String :=
  String.ofList ('"' :: s.toList.flatMap (escape '"') ++ ['"'])

/-- **A character between apostrophes.** -/
def quoteChar (c : Char) : String :=
  String.ofList ('\'' :: escape '\'' c ++ ['\''])

end LineChat.Text
