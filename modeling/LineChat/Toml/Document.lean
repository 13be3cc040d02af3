/-
**Configuration documents.**

A document is read line by line.  A line opens a table by a header, gives a name its value, or holds
nothing but a comment.  A header in single brackets opens a table, once; one in double brackets adds
a further table to those of its name.  Values go into the table that was opened last, and into the
document itself in front of the first header.

Main definitions:

* `LineChat.Toml.Statement` — what a line says;
* `LineChat.Toml.takeStatement`, `LineChat.Toml.statements?` — **reading lines**;
* `LineChat.Toml.Draft`, `LineChat.Toml.Draft.add` — a document under construction;
* `LineChat.Toml.parse?` — **the table that a document stands for**.
-/

import LineChat.Toml.Value

set_option autoImplicit false

namespace LineChat.Toml

open Text (Scan)

/-! ### Lines -/

/-- **What a line says.** -/
inductive Statement where
  /-- A header, in double brackets or in single ones. -/
  | header (isDouble : Bool) (path : List Key) (key : Key) (span : Span)
  /-- A name with its value. -/
  | entry (path : List Key) (key : Key) (value : Node)

/-- Takes the rest of a line that says nothing more: blanks, a comment, and the break, unless the
document ends there. -/
def takeLineEnd (cs : List Char) : Option (List Char) :=
  match skipComment (dropBlanks cs) with
  | [] => some []
  | rest => takeBreak rest

/-- Takes a header. -/
def takeHeader : Scan Statement := fun cs => do
  let inner ← Text.expect '[' cs
  let (isDouble, inner) := match Text.expect '[' inner with
    | some inner => (true, inner)
    | none => (false, inner)
  let ((path, key), rest) ← takePath depthLimit inner
  let rest ← Text.expect ']' rest
  let rest ← if isDouble then Text.expect ']' rest else some rest
  return (.header isDouble path key ⟨cs, rest⟩, rest)

/-- **Takes a line**, which may say nothing. -/
def takeStatement : Scan (Option Statement) := fun cs =>
  match takeLineEnd cs with
  | some rest => some (none, rest)
  | none => do
      let cs := dropBlanks cs
      let (statement, rest) ←
        if cs.head? = some '[' then takeHeader cs
        else (takeEntry (takeValue depthLimit) cs).map fun ((path, key, value), rest) =>
          (.entry path key value, rest)
      return (some statement, ← takeLineEnd rest)

/-- **What the lines of a text say.**  Every line takes something, so the text comes to its end. -/
def statements? (cs : List Char) : Option (List Statement) :=
  if cs = [] then some []
  else
    match takeStatement cs with
    | none => none
    | some (statement, rest) =>
        if _h : rest.length < cs.length then
          (statements? rest).map (statement.toList ++ ·)
        else none
termination_by cs.length

/-! ### Tables -/

/-- **A document under construction**: its table, and the path of the table that was opened last. -/
structure Draft where
  root : Table := {}
  path : List Key := []

/-- A document with one statement more. -/
def Draft.add (d : Draft) : Statement → Option Draft
  | .header isDouble path key span => do
      let opening (t : Table) := if isDouble then t.extended key span else t.opened key span
      return { root := ← d.root.change false opening path, path := path ++ [key] }
  | .entry path key value => do
      let put (t : Table) :=
        (match value.span? with
          | some span => t.stretchedTo span.finish
          | none => t).insert path key value
      return { d with root := ← d.root.change false put d.path }

/-- **The table that a document stands for**, if it is well formed.  A mark of the byte order in
front of it counts for nothing. -/
def parse? (text : String) : Option Table := do
  let cs := match text.toList with
    | '\ufeff' :: rest => rest
    | cs => cs
  return (← (← statements? cs).foldlM Draft.add {}).root

end LineChat.Toml
