/-
**Names and values in a configuration document.**

A name consists of letters, digits, dashes and underscores, or stands between marks like a text; a
name with points has several such parts.  A value is a text, a number, a date, a truth value, a list
between brackets, or a table between braces.  Lists may stretch over several lines with comments;
what stands between braces stays in one line.  Neither names nor lists and tables inside each other
may go deeper than a fixed limit.

Main definitions:

* `LineChat.Toml.takeKey`, `LineChat.Toml.takePath` — **names**;
* `LineChat.Toml.takeArray`, `LineChat.Toml.takeInline` — lists and tables, given a reader for their
  values;
* `LineChat.Toml.takeValue` — **values**.
-/

import LineChat.Toml.Quantity
import LineChat.Toml.Table

set_option autoImplicit false

namespace LineChat.Toml

open Text (Scan)

/-- The number of parts that a name may have, and of lists and tables inside each other. -/
def depthLimit : Nat := 79

/-! ### Names -/

/-- A character of a name that stands without marks. -/
def isBare (c : Char) : Bool := c.isAlphanum || c = '-' || c = '_'

/-- Takes one part of a name. -/
def takeName : Scan String := fun cs =>
  match takeLine cs with
  | some found => some found
  | none =>
      let name := cs.takeWhile isBare
      if name = [] then none else some (String.ofList name, cs.dropWhile isBare)

/-- **Takes one part of a name** with the blanks around it. -/
def takeKey : Scan Key := fun cs => do
  let start := dropBlanks cs
  let (name, rest) ← takeName start
  return (⟨name, ⟨start, rest⟩⟩, dropBlanks rest)

/-- **Takes a name** of at most so many parts: those in front of the last point, and the last. -/
def takePath : Nat → Scan (List Key × Key)
  | 0, _ => none
  | count + 1, cs => do
      let (key, rest) ← takeKey cs
      match Text.expect '.' rest with
      | some rest =>
          let ((path, last), rest) ← takePath count rest
          return ((key :: path, last), rest)
      | none => return (([], key), rest)

/-! ### What counts for nothing -/

/-- What is left behind a comment, if there is one. -/
def skipComment : List Char → List Char
  | '#' :: rest => rest.dropWhile (!isControl ·)
  | cs => cs

theorem skipComment_length_le (cs : List Char) : (skipComment cs).length ≤ cs.length := by
  unfold skipComment
  split
  · exact Nat.le_succ_of_le (List.dropWhile_sublist _).length_le
  · exact Nat.le_refl _

/-- What is left behind blanks, line breaks and comments that end with a break. -/
def dropFiller (cs : List Char) : List Char :=
  match _h : takeBreak (skipComment (dropBlanks cs)) with
  | some rest => dropFiller rest
  | none => dropBlanks cs
termination_by cs.length
decreasing_by
  have h₁ := takeBreak_length_lt _h
  have h₂ := skipComment_length_le (dropBlanks cs)
  have h₃ := dropBlanks_length_le cs
  omega

/-! ### Values -/

/-- Takes a truth value. -/
def takeTruth : Scan Bool := fun cs =>
  match Text.expectAll "true".toList cs with
  | some rest => some (true, rest)
  | none => (Text.expectAll "false".toList cs).map (false, ·)

/-- Takes a value that has no parts. -/
def takeScalar : Scan Scalar := fun cs =>
  match takeText cs with
  | some (s, rest) => some (.text s, rest)
  | none =>
      match takeTruth cs with
      | some (b, rest) => some (.boolean b, rest)
      | none => takeQuantity cs

/-- Takes a list, whose values may be followed by a last comma. -/
def takeArray (value : Scan Node) : Scan Node := fun cs => do
  let item : Scan Node := fun cs =>
    (value (dropFiller cs)).map fun (v, rest) => (v, dropFiller rest)
  let body ← Text.expect '[' cs
  let (items, rest) := (Text.separated ',' item body).getD ([], body)
  let rest := if items = [] then rest else (Text.expect ',' rest).getD rest
  let rest ← Text.expect ']' (dropFiller rest)
  return (.array ⟨cs, rest⟩ items, rest)

/-- Takes a name with its value. -/
def takeEntry (value : Scan Node) : Scan (List Key × Key × Node) := fun cs => do
  let ((path, key), rest) ← takePath depthLimit cs
  let (v, rest) ← value (dropBlanks (← Text.expect '=' rest))
  return ((path, key, v), dropBlanks rest)

/-- Takes a table between braces. -/
def takeInline (value : Scan Node) : Scan Node := fun cs => do
  let body ← Text.expect '{' cs
  let (entries, rest) := (Text.separated ',' (takeEntry value) body).getD ([], body)
  let rest ← Text.expect '}' (dropBlanks rest)
  let start : Table := { info := { span := some ⟨cs, rest⟩, isInline := true } }
  let table ← entries.foldlM (fun t (path, key, v) => t.insert path key v) start
  return (table.toNode, rest)

/-- **Takes a value** in which lists and tables go at most so deep. -/
def takeValue : Nat → Scan Node
  | 0, cs => (takeScalar cs).map fun (v, rest) => (.scalar ⟨cs, rest⟩ v, rest)
  | depth + 1, cs =>
      match cs.head? with
      | some '[' => takeArray (takeValue depth) cs
      | some '{' => takeInline (takeValue depth) cs
      | _ => (takeScalar cs).map fun (v, rest) => (.scalar ⟨cs, rest⟩ v, rest)

end LineChat.Toml
