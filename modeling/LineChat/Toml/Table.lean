/-
**Tables of a configuration document.**

A name with points leads through tables to the place of a value.  Tables on the way that are not
there yet are made; they are implicit, since nothing has opened them.  A value goes into a table
that its own name has led to, so a table cannot be entered by a name with points once a header has
opened it, nor be opened by a header once such a name has made it, and no name is given twice.

Main definitions:

* `LineChat.Toml.Table` — a table, by itself;
* `LineChat.Toml.Table.find?` — the value with a name;
* `LineChat.Toml.Table.change` — **a change at the end of a path**;
* `LineChat.Toml.Table.insert` — **a value put in place**;
* `LineChat.Toml.Table.opened`, `LineChat.Toml.Table.extended` — what a header makes.

Main results:

* `LineChat.Toml.Table.find?_push` — a value added under a new name is found, and the others stay.
-/

import LineChat.Toml.Node

set_option autoImplicit false

namespace LineChat.Toml

/-- **A table**: how it came about, and what it holds, in the order of the document. -/
structure Table where
  info : TableInfo := {}
  entries : List (Key × Node) := []

namespace Table

/-- A table as a value. -/
def toNode (t : Table) : Node := .table t.info t.entries

/-- The value with a name. -/
def find? (t : Table) (name : String) : Option Node :=
  (t.entries.find? (·.1.name == name)).map (·.2)

/-- A value added under a name that is not there yet. -/
def push (t : Table) (key : Key) (value : Node) : Table :=
  { t with entries := t.entries ++ [(key, value)] }

/-- The value with a name replaced. -/
def set (t : Table) (name : String) (value : Node) : Table :=
  { t with entries := t.entries.map fun e => if e.1.name = name then (e.1, value) else e }

/-- A table without the value with a name. -/
def erase (t : Table) (name : String) : Table :=
  { t with entries := t.entries.filter (·.1.name ≠ name) }

/-- A value added under a new name is found, and the others stay. -/
theorem find?_push {t : Table} {key : Key} (value : Node) (h : t.find? key.name = none)
    (name : String) :
    (t.push key value).find? name = if name = key.name then some value else t.find? name := by
  have hnone : t.entries.find? (·.1.name == key.name) = none := by
    simpa [find?] using h
  by_cases hn : name = key.name
  · subst hn
    simp [find?, push, List.find?_append, hnone]
  · have hk : (key.name == name) = false := by
      simpa using fun h => hn h.symm
    simp [find?, push, List.find?_append, hn, hk]

/-! ### Paths -/

/-- **A change at the end of a path.**  Tables that are missing on the way are made; of tables that
share a header, the way leads through the last.  By a name with points (`dotted`) only tables that
no header has opened may be entered, and from between braces only tables between braces. -/
def change (dotted : Bool) (f : Table → Option Table) : List Key → Table → Option Table
  | [], t => f t
  | key :: path, t =>
      match t.find? key.name with
      | none => do
          let fresh : TableInfo := { isInline := t.info.isInline, implicit := true, dotted }
          return t.push key (← change dotted f path { info := fresh }).toNode
      | some (.table info entries) =>
          if info.isInline ≠ t.info.isInline ∨ (dotted ∧ ¬info.implicit) then none
          else do return t.set key.name (← change dotted f path ⟨info, entries⟩).toNode
      | some (.tables items) =>
          match items.getLast? with
          | some (.table info entries) => do
              let last ← change dotted f path ⟨info, entries⟩
              return t.set key.name (.tables (items.dropLast ++ [last.toNode]))
          | _ => none
      | some _ => none

/-- **A value put in place**, under a name that a path leads to.  A table that was made by a name
with points takes values by such names only, and the others by their own names only. -/
def insert (t : Table) (path : List Key) (key : Key) (value : Node) : Option Table :=
  t.change true (fun last =>
    if last.info.dotted = path.isEmpty ∨ (last.find? key.name).isSome then none
    else some (last.push key value)) path

/-! ### Headers -/

/-- **The table of a header opened**: it is new, or was only mentioned on the way to others. -/
def opened (t : Table) (key : Key) (span : Span) : Option Table :=
  match t.find? key.name with
  | none => some (t.push key (.table { span } []))
  | some (.table info entries) =>
      if info.implicit ∧ ¬info.dotted ∧ ¬info.isInline then
        some ((t.erase key.name).push key (.table { span } entries))
      else none
  | some _ => none

/-- **A further table added to those of a header.** -/
def extended (t : Table) (key : Key) (span : Span) : Option Table :=
  match t.find? key.name with
  | none => some (t.push key (.tables [.table { span } []]))
  | some (.tables items) => some (t.set key.name (.tables (items ++ [.table { span } []])))
  | some _ => none

/-- A table that reaches to the end of a value under its header. -/
def stretchedTo (t : Table) (finish : List Char) : Table :=
  { t with info := { t.info with span := t.info.span.map fun s => { s with finish } } }

end Table

end LineChat.Toml
