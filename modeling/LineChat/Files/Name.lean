/-
**Names of files.**

The operating system names a file by bytes, and they need not be text.  A program that knows a file
by a text finds it only under the bytes of that text; a name that is no text is nothing to it.

Main definitions:

* `LineChat.FileName` — **the name of a file**;
* `LineChat.FileName.ofText`, `LineChat.FileName.text?` — the name that a text is, and back.

Main results:

* `LineChat.FileName.text?_eq_some_iff` — a name that is read as a text is the name of that text.
-/

import LineChat.Text.Utf8

set_option autoImplicit false

namespace LineChat

/-- **The name of a file**, in bytes. -/
structure FileName where
  bytes : Bytes
  deriving DecidableEq, Repr

namespace FileName

/-- The name that a text is. -/
def ofText (text : String) : FileName := ⟨Text.utf8 text⟩

instance : Coe String FileName := ⟨ofText⟩

/-- The text that a name is, if it is one. -/
def text? (name : FileName) : Option String := (Text.ofUtf8 name.bytes).toOption

@[simp] theorem text?_ofText (text : String) : (ofText text).text? = some text := by
  rw [text?, ofText, Text.ofUtf8_utf8]
  rfl

/-- **A name that is read as a text is the name of that text.** -/
theorem text?_eq_some_iff {name : FileName} {text : String} :
    name.text? = some text ↔ name = ofText text := by
  constructor
  · intro h
    cases hread : Text.ofUtf8 name.bytes with
    | error fault =>
        rw [text?, hread] at h
        cases h
    | ok found =>
        rw [text?, hread] at h
        cases h
        rw [ofText, Text.utf8_of_ofUtf8 hread]
  · rintro rfl
    exact text?_ofText text

theorem ofText_injective {text other : String} (h : ofText text = ofText other) : text = other := by
  have hread := congrArg text? h
  rw [text?_ofText, text?_ofText] at hread
  exact Option.some.inj hread

end FileName

end LineChat
