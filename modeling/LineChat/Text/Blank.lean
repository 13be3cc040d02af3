/-
**Blank characters.**

A name may hold no blank, and blanks around a value read from a file are ignored.  Blank means the
property White_Space of the character set, so the no-break space and the ideographic space count
and the zero width space does not.

Main definitions:

* `LineChat.Text.isBlank` — the property;
* `LineChat.Text.trim` — a text without the blanks at its ends.

Main results:

* `LineChat.Text.isBlank_of_isWhitespace` — every ASCII blank is one.
-/

set_option autoImplicit false

namespace LineChat.Text

/-- **The character is white space**, in the sense of the character set's property of that name. -/
def isBlank (c : Char) : Bool :=
  let n := c.toNat
  (0x9 ≤ n && n ≤ 0xd) || n == 0x20 || n == 0x85 || n == 0xa0 || n == 0x1680 ||
    (0x2000 ≤ n && n ≤ 0x200a) || n == 0x2028 || n == 0x2029 || n == 0x202f || n == 0x205f ||
    n == 0x3000

/-- A text without the blanks at its ends. -/
def trim (s : String) : String :=
  String.ofList ((s.toList.dropWhile isBlank).reverse.dropWhile isBlank).reverse

/-- Every ASCII blank is one. -/
theorem isBlank_of_isWhitespace {c : Char} (h : c.isWhitespace = true) : isBlank c = true := by
  simp only [Char.isWhitespace, Bool.or_eq_true, decide_eq_true_eq] at h
  rcases h with ((rfl | rfl) | rfl) | rfl <;> decide

end LineChat.Text
