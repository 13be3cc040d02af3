/-
**Single settings in a configuration document.**

A setting is a text, a path, an address, a count, or a choice among words.  Each kind has a reader,
which complains about any other value, and a writer.  A complaint
is about the innermost value that stands somewhere in the document.

Several settings make up a record.  It is read from a table by the names of its settings, other
names being ignored, or from a list by their order; settings that are not there stay what they are.

Main definitions:

* `LineChat.Settings.Complaint` — **what is wrong with a value, and where**;
* `LineChat.Settings.Kind` — a kind of setting, and `text`, `path`, `optional`, `address`, `count`
  and `choice`;
* `LineChat.Settings.Field` — a setting of a record;
* `LineChat.Settings.readRecord` — **a record read from a value**.
-/

import LineChat.Settings.Basic
import LineChat.Toml.Document

set_option autoImplicit false

namespace LineChat.Settings

open Toml (Node Scalar Span Key)

/-! ### Complaints -/

/-- **What is wrong with a value**, and where it stands, once that is known. -/
structure Complaint where
  message : String
  span : Option Span := none
  deriving DecidableEq, Repr

/-- A result whose complaint is about a place, unless it has one already. -/
def located {α : Type} (span : Option Span) : Except Complaint α → Except Complaint α
  | .error c => .error { c with span := c.span.or span }
  | .ok a => .ok a

/-- A value as complaints name it. -/
def describe : Node → String
  | .scalar _ (.text s) => s!"string {Text.quote s}"
  | .scalar _ (.integer n) => s!"integer `{n}`"
  | .scalar _ (.float x) => s!"floating point `{x.render}`"
  | .scalar _ (.boolean b) => s!"boolean `{b}`"
  | .array _ _ | .tables _ => "sequence"
  | .scalar _ .moment | .table _ _ => "map"

/-- The complaint that a value is of another kind. -/
def unexpected {α : Type} (found : Node) (expected : String) : Except Complaint α :=
  .error { message := s!"invalid type: {describe found}, expected {expected}" }

/-! ### Kinds -/

/-- **What is written for a setting.** -/
inductive Written where
  | text (s : String)
  | number (n : Nat)
  /-- The setting is left out. -/
  | omitted
  deriving DecidableEq, Repr

/-- **A kind of setting**: how its values are read and written. -/
structure Kind (α : Type) where
  read : Node → Except Complaint α
  write : α → Written

namespace Kind

/-- Text that something is made of. -/
def readText {α : Type} (expected : String) (make : String → Except Complaint α) :
    Node → Except Complaint α
  | .scalar _ (.text s) => make s
  | other => unexpected other expected

/-- A text. -/
def text : Kind String where
  read := readText "a string" .ok
  write := .text

/-- A path. -/
def path : Kind String where
  read := readText "path string" .ok
  write := .text

/-- A setting that may be left out. -/
def optional {α : Type} (kind : Kind α) : Kind (Option α) where
  read n := some <$> kind.read n
  write
    | some a => kind.write a
    | none => .omitted

/-- An address. -/
def address : Kind Address where
  read := readText "socket address" fun s =>
    match Address.parse? s with
    | some a => .ok a
    | none => .error { message := "invalid socket address syntax" }
  write a := .text a.render

/-- A count, which is not negative. -/
def count : Kind UInt64 where
  read
    | .scalar _ (.integer n) =>
        if n < 0 then .error { message := s!"invalid value: integer `{n}`, expected u64" }
        else .ok (UInt64.ofNat n.toNat)
    | other => unexpected other "u64"
  write n := .number n.toNat

/-- What a word stands for. -/
def readWord {α : Type} (words : List (String × α)) (s : String) : Except Complaint α :=
  match words.find? (·.1 == s) with
  | some (_, a) => .ok a
  | none =>
      let known := " or ".intercalate (words.map fun w => s!"`{w.1}`")
      .error { message := s!"unknown variant `{s}`, expected {known}" }

/-- Refuses what is given to a word in a table, unless it is empty. -/
def readNothing : Node → Except Complaint Unit
  | .table _ [] => .ok ()
  | .table info _ => .error ⟨"expected empty table", info.span⟩
  | .array _ [] => .ok ()
  | .array span _ => .error ⟨"expected empty array", some span⟩
  | other => .error ⟨s!"expected table, found {other.typeName}", other.span?⟩

/-- A word, or a table with a word as its only name. -/
def readChoice {α : Type} (words : List (String × α)) : Node → Except Complaint α
  | .scalar _ (.text s) => readWord words s
  | .table info entries =>
      match entries with
      | [(key, value)] => do
          let a ← located (some key.span) (readWord words key.name)
          readNothing value
          return a
      | _ => .error ⟨if info.isInline then
            if entries.isEmpty then "wanted exactly 1 element, found 0 elements"
            else "wanted exactly 1 element, more than 1 element"
          else if entries.isEmpty then "expected table with exactly 1 entry, found empty table"
            else "expected table with exactly 1 entry, found more than 1 entry", info.span⟩
  | other => .error ⟨"wanted string or table", other.span?⟩

/-- A choice among words. -/
def choice {α : Type} [DecidableEq α] (words : List (String × α)) : Kind α where
  read := readChoice words
  write a :=
    match words.find? (·.2 = a) with
    | some (word, _) => .text word
    | none => .omitted

end Kind

/-! ### Records -/

/-- **A setting of a record.** -/
structure Field (σ : Type) where
  name : String
  read : Node → σ → Except Complaint σ
  write : σ → Written

/-- A setting of a kind at a place in a record. -/
def Field.of {σ α : Type} (name : String) (kind : Kind α) (get : σ → α) (set : α → σ → σ) :
    Field σ where
  name
  read n s := (set · s) <$> kind.read n
  write s := kind.write (get s)

/-- A record with one of its settings read; a name that is no setting's changes nothing. -/
def readEntry {σ : Type} (fields : List (Field σ)) (s : σ) (entry : Key × Node) :
    Except Complaint σ :=
  match fields.find? (·.name == entry.1.name) with
  | some field => located (entry.2.span?.or (some entry.1.span)) (field.read entry.2 s)
  | none => .ok s

/-- **A record read from a value**, with the settings that it does not have taken from `s`. -/
def readRecord {σ : Type} (expected : String) (fields : List (Field σ)) (s : σ) :
    Node → Except Complaint σ
  | .table _ entries => entries.foldlM (readEntry fields) s
  | .array _ items | .tables items =>
      (fields.zip items).foldlM (fun s (field, n) => located n.span? (field.read n s)) s
  | .scalar _ .moment => .ok s
  | other => unexpected other expected

end LineChat.Settings
