/-
**Counter mode.**

A block cipher turned into a keystream: the blocks of the stream are the encryptions of
consecutive 128-bit counters, and a text is encrypted and decrypted alike by adding the stream to
it.  Counters wrap around at 2¹²⁸.

Main definitions:

* `LineChat.CounterMode.Counter`, `LineChat.CounterMode.counterBlock` — counters and their blocks;
* `LineChat.CounterMode.counters` — the counters used for a text of a given length;
* `LineChat.CounterMode.keystream` — the encryptions of those counters;
* `LineChat.CounterMode.apply` — **a text with the keystream added**.

Main results:

* `LineChat.CounterMode.length_apply` — a text keeps its length;
* `LineChat.CounterMode.apply_apply` — **adding the keystream twice gives the text back**.
-/

import LineChat.Bytes

set_option autoImplicit false

namespace LineChat.CounterMode

/-- A counter. -/
abbrev Counter := BitVec 128

/-- A block of the cipher. -/
abbrev Block := Vector UInt8 16

/-- A counter as a block, most significant byte first. -/
def counterBlock (c : Counter) : Block :=
  Vector.ofFn fun i => UInt8.ofNat (c >>> (8 * (15 - i.val))).toNat

/-- The counter that a block of bytes denotes. -/
def counterOfBlock (b : Block) : Counter := BitVec.ofNat 128 (Bytes.toNat b.toList)

/-- The number of blocks that cover `length` bytes. -/
def blockCount (length : Nat) : Nat := (length + 15) / 16

/-- **The counters used for a text** of `length` bytes that starts at the counter `c`. -/
def counters (c : Counter) (length : Nat) : List Counter :=
  (List.range (blockCount length)).map fun i => c + BitVec.ofNat 128 i

/-- The keystream for a text of `length` bytes, in whole blocks. -/
def keystream (cipher : Block → Block) (c : Counter) (length : Nat) : Bytes :=
  (counters c length).flatMap fun x => (cipher (counterBlock x)).toList

/-- **A text with the keystream added**, which encrypts and decrypts. -/
def apply (cipher : Block → Block) (c : Counter) (text : Bytes) : Bytes :=
  Bytes.xor text (keystream cipher c text.length)

theorem length_flatMap_blocks (f : Counter → Block) (cs : List Counter) :
    (cs.flatMap fun x => (f x).toList).length = 16 * cs.length := by
  induction cs with
  | nil => rfl
  | cons c cs ih => simp only [List.flatMap_cons, List.length_append, ih, Vector.length_toList,
      List.length_cons]; omega

theorem length_keystream (cipher : Block → Block) (c : Counter) (length : Nat) :
    (keystream cipher c length).length = 16 * blockCount length := by
  rw [keystream, length_flatMap_blocks fun x => cipher (counterBlock x)]
  simp [counters]

/-- A text keeps its length. -/
@[simp] theorem length_apply (cipher : Block → Block) (c : Counter) (text : Bytes) :
    (apply cipher c text).length = text.length := by
  rw [apply, Bytes.length_xor, length_keystream, blockCount]
  omega

theorem xor_xor_of_length_le (a k : Bytes) (h : a.length ≤ k.length) :
    Bytes.xor (Bytes.xor a k) k = a := by
  induction a generalizing k with
  | nil => rfl
  | cons b bs ih =>
      cases k with
      | nil => simp at h
      | cons x xs =>
          have hb : b ^^^ x ^^^ x = b := by rw [UInt8.xor_assoc, UInt8.xor_self, UInt8.xor_zero]
          simp only [Bytes.xor, List.zipWith_cons_cons, hb, List.cons.injEq, true_and]
          exact ih xs (by simpa using h)

/-- **Adding the keystream twice gives the text back.** -/
theorem apply_apply (cipher : Block → Block) (c : Counter) (text : Bytes) :
    apply cipher c (apply cipher c text) = text := by
  have hl : (apply cipher c text).length = text.length := length_apply cipher c text
  rw [apply, hl, apply]
  refine xor_xor_of_length_le _ _ ?_
  rw [length_keystream, blockCount]
  omega

end LineChat.CounterMode
