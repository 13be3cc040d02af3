/-
**Values shown field by field.**

Logs and diagnostics show a value by its name and its fields in braces.  A value that keeps
something back says so by two dots after the fields it shows.

Main definitions:

* `LineChat.Text.record` — a value with all of its fields;
* `LineChat.Text.openRecord` — a value that shows only some of them;
* `LineChat.Text.redacted` — what stands for a secret.
-/

import LineChat.Text.Quoted

set_option autoImplicit false

namespace LineChat.Text

/-- Named fields, separated by commas. -/
def fieldList (fields : List (String × String)) : String :=
  ", ".intercalate (fields.map fun f => f.1 ++ ": " ++ f.2)

/-- **A value with all of its fields.** -/
def record (name : String) (fields : List (String × String)) : String :=
  name ++ " \x7b " ++ fieldList fields ++ " \x7d"

/-- **A value that shows only some of its fields.** -/
def openRecord (name : String) (fields : List (String × String)) : String :=
  name ++ " \x7b " ++ fieldList fields ++ ", .. \x7d"

/-- A value made of one other. -/
def wrapped (name inner : String) : String := name ++ "(" ++ inner ++ ")"

/-- **What stands for a secret.** -/
def redacted : String := "[REDACTED]"

/-- A truth value. -/
def ofBool (b : Bool) : String := if b then "true" else "false"

end LineChat.Text
