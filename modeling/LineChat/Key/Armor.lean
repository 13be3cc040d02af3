/-
**Keys as text.**

A key file is text: a line that opens the block and names what it holds, the content in base64 on
lines of 64 characters, and a line that closes it with the same name.  Whatever stands on the lines
before the block is ignored; after it nothing may follow but the end of its line.  A line ends with
a line feed, a carriage return, or both.

Main definitions:

* `LineChat.Armor.Block` — the label and the content of a block;
* `LineChat.Armor.parse?` — **reading the block of a text**.
-/

import LineChat.Text.Base64

set_option autoImplicit false

namespace LineChat.Armor

/-- **A block of a text**: what it is called, and the bytes it holds. -/
structure Block where
  label : Bytes
  content : Bytes
  deriving DecidableEq, Repr

def lf : UInt8 := 10
def cr : UInt8 := 13
def dash : UInt8 := 45

def dashes : Bytes := List.replicate 5 dash
def opening : Bytes := dashes ++ Text.utf8 "BEGIN "
def closing : Bytes := dashes ++ Text.utf8 "END "

/-! ### Lines -/

/-- What follows the given bytes at the start of a text. -/
def after? (start text : Bytes) : Option Bytes :=
  if start.isPrefixOf text then some (text.drop start.length) else none

/-- What comes before the given bytes at the end of a text. -/
def before? (ending text : Bytes) : Option Bytes :=
  if ending.isSuffixOf text then some (text.take (text.length - ending.length)) else none

/-- What follows one end of line. -/
def afterEol? : Bytes → Option Bytes
  | 13 :: 10 :: rest => some rest
  | 13 :: rest => some rest
  | 10 :: rest => some rest
  | _ => none

/-- What comes before one end of line. -/
def beforeEol? (text : Bytes) : Option Bytes :=
  match before? [cr, lf] text with
  | some rest => some rest
  | none =>
      match before? [lf] text with
      | some rest => some rest
      | none => before? [cr] text

/-! ### The opening line -/

/-- The text from behind the opening of the block on.  The block opens at the start of the text or
of the first line after a line feed that does so; a null character before it is refused. -/
def open? : Bytes → Option Bytes
  | [] => none
  | b :: rest =>
      if b = 0 then none
      else if b = lf then
        match after? opening rest with
        | some inner => some inner
        | none => open? rest
      else open? rest

/-- A character that a label may hold. -/
def isLabelChar (b : UInt8) : Bool := (0x21 ≤ b ∧ b ≤ 0x2c) ∨ (0x2e ≤ b ∧ b ≤ 0x7e)

/-- Whether blanks stand only singly between other characters. -/
def isLabelFrom (blankAllowed : Bool) : Bytes → Bool
  | [] => true
  | b :: rest =>
      if b = 0x20 ∨ b = 0x09 then blankAllowed && isLabelFrom false rest
      else isLabelChar b && isLabelFrom true rest

/-- Whether a byte string may be a label. -/
def isLabel (label : Bytes) : Bool := isLabelFrom false label

/-! ### The content -/

/-- The lines of the content, as characters of base64: all of them 64 long but the last. -/
def unwrap? : Nat → Bytes → Option Bytes
  | 0, _ => none
  | fuel + 1, text =>
      let line := text.take 64
      if line.any (fun b => b = cr ∨ b = lf) then none
      else match text.drop 64 with
        | [] => some line
        | rest =>
            match afterEol? rest with
            | none => none
            | some [] => some line
            | some rest => (unwrap? fuel rest).map (line ++ ·)

/-- The bytes that the content spells. -/
def content? (text : Bytes) : Option Bytes :=
  if text = [] then none
  else match unwrap? (text.length + 1) text with
    | none => none
    | some symbols => (Base64.decode symbols).toOption

/-! ### Blocks -/

/-- **The block of a text.** -/
def parse? (text : Bytes) : Option Block := do
  let inner ← match after? opening text with
    | some inner => some inner
    | none => open? text
  let label := inner.takeWhile (· ≠ dash)
  guard (isLabel label)
  let rest ← after? dashes (inner.dropWhile (· ≠ dash))
  let rest ← afterEol? rest
  let rest := (beforeEol? rest).getD rest
  let rest ← before? (closing ++ label ++ dashes) rest
  let body ← beforeEol? rest
  let content ← content? body
  return ⟨label, content⟩

/-- The content of the block of a text, if it has the given label. -/
def contentOf? (label : String) (text : String) : Option Bytes :=
  match parse? (Text.utf8 text) with
  | some block => if block.label = Text.utf8 label then some block.content else none
  | none => none

end LineChat.Armor
