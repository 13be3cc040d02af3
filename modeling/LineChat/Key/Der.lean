/-
**The distinguished encoding of nested values.**

Key files hold their numbers as elements: a tag, a length and that many bytes of content, which may
again be elements.  Every value has one encoding only: lengths and numbers take as few bytes as
they can, and nothing may follow the last element.

Main definitions:

* `LineChat.Der.Element` — a tag and its content;
* `LineChat.Der.next?`, `LineChat.Der.elements?` — **reading one element, and all of them**;
* `LineChat.Der.unsigned?` — the number an integer element denotes;
* `LineChat.Der.write`, `LineChat.Der.writeUnsigned` — writing them.
-/

import LineChat.Bytes

set_option autoImplicit false

namespace LineChat.Der

/-! ### Tags -/

def integerTag : UInt8 := 0x02
def bitStringTag : UInt8 := 0x03
def octetStringTag : UInt8 := 0x04
def nullTag : UInt8 := 0x05
def identifierTag : UInt8 := 0x06
def sequenceTag : UInt8 := 0x30

/-- **A tag and its content.** -/
structure Element where
  tag : UInt8
  content : Bytes
  deriving DecidableEq, Repr

/-! ### Reading -/

/-- A length and the bytes after it.  A long form must be needed, and as short as it can be. -/
def length? : Bytes → Option (Nat × Bytes)
  | [] => none
  | b :: rest =>
      if b < 0x80 then some (b.toNat, rest)
      else
        let width := b.toNat - 0x80
        let digits := rest.take width
        let n := Bytes.toNat digits
        if 1 ≤ width ∧ width ≤ 4 ∧ digits.length = width ∧ 0x80 ≤ n ∧ Bytes.size n = width then
          some (n, rest.drop width)
        else none

/-- **The first element and what follows it.** -/
def next? : Bytes → Option (Element × Bytes)
  | [] => none
  | tag :: rest =>
      if tag &&& 0x1f = 0x1f then none
      else
        match length? rest with
        | none => none
        | some (n, rest) =>
            if rest.length < n then none else some (⟨tag, rest.take n⟩, rest.drop n)

/-- Reads elements until the bytes are used up, at most `fuel` of them. -/
def elementsFrom : Nat → Bytes → Option (List Element)
  | _, [] => some []
  | 0, _ :: _ => none
  | fuel + 1, b :: bs => do
      let (e, rest) ← next? (b :: bs)
      let others ← elementsFrom fuel rest
      return e :: others

/-- **All elements of a byte string**, which must end with the last one. -/
def elements? (bs : Bytes) : Option (List Element) := elementsFrom bs.length bs

/-- The only element of a byte string, if it has the given tag. -/
def only? (tag : UInt8) (bs : Bytes) : Option Bytes :=
  match next? bs with
  | some (e, []) => if e.tag = tag then some e.content else none
  | _ => none

/-- **The number an integer denotes**, if it is not negative and written as short as it can be. -/
def unsigned? (e : Element) : Option Nat :=
  if e.tag ≠ integerTag then none
  else match e.content with
    | [] => none
    | [b] => if b < 0x80 then some b.toNat else none
    | b :: c :: rest =>
        if b = 0 ∧ c < 0x80 then none
        else if b < 0x80 then some (Bytes.toNat (b :: c :: rest))
        else none

/-- The bytes of a bit string of whole bytes. -/
def wholeBits? (content : Bytes) : Option Bytes :=
  match content with
  | 0 :: bytes => some bytes
  | _ => none

/-! ### Writing -/

/-- The bytes of a length. -/
def writeLength (n : Nat) : Bytes :=
  if n < 0x80 then [UInt8.ofNat n]
  else UInt8.ofNat (0x80 + Bytes.size n) :: Bytes.ofNat (Bytes.size n) n

/-- **The bytes of an element.** -/
def write (tag : UInt8) (content : Bytes) : Bytes := tag :: writeLength content.length ++ content

/-- The bytes of an integer that is not negative. -/
def writeUnsigned (n : Nat) : Bytes :=
  let digits := Bytes.ofNat (Bytes.size n) n
  write integerTag <| match digits with
    | [] => [0]
    | b :: rest => if b < 0x80 then b :: rest else 0 :: b :: rest

end LineChat.Der
