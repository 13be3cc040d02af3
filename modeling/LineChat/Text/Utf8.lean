/-
**Text as bytes.**

A text is carried as UTF-8.  Bytes that are not UTF-8 are refused with the place of the first fault:
the index where the broken sequence starts, and the number of bytes that cannot be the start of
any sequence, or nothing when the bytes merely end too early.

Main definitions:

* `LineChat.Text.utf8` — the bytes of a text;
* `LineChat.Text.Utf8Fault` — where and how bytes fail to be UTF-8, with its wording;
* `LineChat.Text.ofUtf8` — the text that some bytes spell, or the first fault.

Main results:

* `LineChat.Text.ofUtf8_utf8` — **reading a text's bytes gives the text back**;
* `LineChat.Text.utf8_of_ofUtf8` — bytes that are read are the bytes of the text.
-/

import LineChat.Bytes

set_option autoImplicit false

namespace LineChat.Text

/-- The bytes of a text. -/
def utf8 (s : String) : Bytes := s.toByteArray.data.toList

/-- **Where bytes fail to be UTF-8.**  `width` is the number of bytes that start no sequence, and
absent if the bytes end inside one. -/
structure Utf8Fault where
  index : Nat
  width : Option Nat
  deriving DecidableEq, Repr

/-- The wording of a fault. -/
def Utf8Fault.message (f : Utf8Fault) : String :=
  match f.width with
  | some n => s!"invalid utf-8 sequence of {n} bytes from index {f.index}"
  | none => s!"incomplete utf-8 byte sequence from index {f.index}"

/-- The ranges that the bytes after a lead byte must lie in, if it is one. -/
def continuations? (b : UInt8) : Option (List (UInt8 × UInt8)) :=
  if b < 0x80 then some []
  else if b < 0xc2 then none
  else if b < 0xe0 then some [(0x80, 0xbf)]
  else if b = 0xe0 then some [(0xa0, 0xbf), (0x80, 0xbf)]
  else if b = 0xed then some [(0x80, 0x9f), (0x80, 0xbf)]
  else if b < 0xf0 then some [(0x80, 0xbf), (0x80, 0xbf)]
  else if b = 0xf0 then some [(0x90, 0xbf), (0x80, 0xbf), (0x80, 0xbf)]
  else if b < 0xf4 then some [(0x80, 0xbf), (0x80, 0xbf), (0x80, 0xbf)]
  else if b = 0xf4 then some [(0x80, 0x8f), (0x80, 0xbf), (0x80, 0xbf)]
  else none

/-- Looks for the first fault, with the sequence under way starting at `start`, `taken` of its
bytes read and `expected` the ranges of the others. -/
def findFault (start taken : Nat) : List (UInt8 × UInt8) → Bytes → Option Utf8Fault
  | [], [] => none
  | _ :: _, [] => some ⟨start, none⟩
  | [], b :: bs =>
      match continuations? b with
      | none => some ⟨start + taken, some 1⟩
      | some expected => findFault (start + taken) 1 expected bs
  | (lo, hi) :: expected, b :: bs =>
      if lo ≤ b ∧ b ≤ hi then findFault start (taken + 1) expected bs
      else some ⟨start, some taken⟩

/-- The first place where bytes are not UTF-8. -/
def utf8Fault? (bs : Bytes) : Option Utf8Fault := findFault 0 0 [] bs

/-- **The text that some bytes spell**, or the first fault. -/
def ofUtf8 (bs : Bytes) : Except Utf8Fault String :=
  match String.fromUTF8? ⟨bs.toArray⟩ with
  | some s => .ok s
  | none => .error ((utf8Fault? bs).getD ⟨bs.length, none⟩)

/-- **Reading a text's bytes gives the text back.** -/
theorem ofUtf8_utf8 (s : String) : ofUtf8 (utf8 s) = .ok s := by
  have h : (⟨(utf8 s).toArray⟩ : ByteArray) = s.toByteArray := rfl
  rw [ofUtf8, h, String.fromUTF8?]
  simp [String.fromUTF8, s.isValidUTF8]

/-- Bytes that are read are the bytes of the text. -/
theorem utf8_of_ofUtf8 {bs : Bytes} {s : String} (h : ofUtf8 bs = .ok s) : utf8 s = bs := by
  rw [ofUtf8, String.fromUTF8?] at h
  split at h
  · rename_i t ht
    split at ht
    · cases h
      cases ht
      simp [utf8, String.fromUTF8]
    · cases ht
  · cases h

end LineChat.Text
