/-
**What a configuration document holds.**

A document is a table of named values, some of which are tables again.  Every value remembers where
it stands, so that a complaint about it can say so; the tables that the document only mentions on
the way to others stand nowhere.

Main definitions:

* `LineChat.Toml.Span` — a stretch of a document;
* `LineChat.Toml.Key`, `LineChat.Toml.Scalar`, `LineChat.Toml.TableInfo` — names, single values, and
  how a table came about;
* `LineChat.Toml.Node` — **values**;
* `LineChat.Toml.Node.span?` — where a value stands.
-/

import LineChat.Number.Binary64

set_option autoImplicit false

namespace LineChat.Toml

/-- **A stretch of a document**, by what is left to read at its two ends. -/
structure Span where
  start : List Char
  finish : List Char
  deriving DecidableEq, Repr

/-- The number of bytes of a text. -/
def byteLength (cs : List Char) : Nat := cs.foldl (fun n c => n + c.utf8Size) 0

/-- The places of the two ends of a stretch, in bytes from the start of the document. -/
def Span.offsets (document : List Char) (s : Span) : Nat × Nat :=
  let all := byteLength document
  (all - byteLength s.start, all - byteLength s.finish)

/-- A name, with the place where it stands. -/
structure Key where
  name : String
  span : Span
  deriving DecidableEq, Repr

/-- A value that has no parts. -/
inductive Scalar where
  | text (s : String)
  | integer (n : Int)
  | float (x : Binary64)
  | boolean (b : Bool)
  /-- A date, a time, or both. -/
  | moment
  deriving DecidableEq, Repr

/-- **How a table came about.** -/
structure TableInfo where
  /-- Where it stands: between braces, or from its header to the last value under it. -/
  span : Option Span := none
  /-- Whether it stands between braces, or belongs to a table that does. -/
  isInline : Bool := false
  /-- Whether it was only mentioned on the way to another. -/
  implicit : Bool := false
  /-- Whether it was mentioned by a name with points. -/
  dotted : Bool := false
  deriving DecidableEq, Repr

/-- **A value**: a single one, several in brackets, a table, or the tables that share a header. -/
inductive Node where
  | scalar (span : Span) (value : Scalar)
  | array (span : Span) (items : List Node)
  | table (info : TableInfo) (entries : List (Key × Node))
  | tables (items : List Node)
  deriving Repr

namespace Node

/-- Where a value that is not a list of tables stands. -/
def ownSpan? : Node → Option Span
  | scalar span _ | array span _ => some span
  | table info _ => info.span
  | tables _ => none

/-- **Where a value stands**, if it stands anywhere.  Tables that share a header stand from the
first of them to the last. -/
def span? (n : Node) : Option Span :=
  match n with
  | tables items =>
      match items.head?.bind ownSpan?, items.getLast?.bind ownSpan? with
      | some first, some last => some ⟨first.start, last.finish⟩
      | _, _ => none
  | other => other.ownSpan?

/-- What kind of value it is, in the format's own words. -/
def typeName : Node → String
  | scalar _ (.text _) => "string"
  | scalar _ (.integer _) => "integer"
  | scalar _ (.float _) => "float"
  | scalar _ (.boolean _) => "boolean"
  | scalar _ .moment => "datetime"
  | array _ _ => "array"
  | table info _ => if info.isInline then "inline table" else "table"
  | tables _ => "array of tables"

end Node

end LineChat.Toml
