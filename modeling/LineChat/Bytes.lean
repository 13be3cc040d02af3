/-
**Byte strings.**

What travels on a connection, what a hash reads and what a key file holds are strings of bytes.
They are lists here, so that the rest of a buffer after a line was taken from it is a tail of the
same list.  This module adds what the ciphers and the encodings need of them: numbers in big-endian
order, bytewise exclusive or, and cutting into blocks of one size.

Main definitions:

* `LineChat.Bytes` — byte strings;
* `LineChat.Bytes.toNat`, `LineChat.Bytes.ofNat` — big-endian numbers, with a fixed width;
* `LineChat.Bytes.xor` — bytewise exclusive or, as long as the shorter operand;
* `LineChat.blocks` — the blocks of a list, all of one size except perhaps the last.

Main results:

* `LineChat.blocks_eq_cons` — **the first block is what `take` gives**, and the others are the
  blocks of the rest;
* `LineChat.flatten_blocks` — the blocks concatenate to the list.
-/

set_option autoImplicit false

namespace LineChat

/-- A byte string. -/
abbrev Bytes := List UInt8

namespace Bytes

/-! ### Big-endian numbers -/

/-- The number a byte string denotes, most significant byte first. -/
def toNat (bs : Bytes) : Nat := bs.foldl (fun n b => n * 256 + b.toNat) 0

/-- The `width` low bytes of a number, most significant byte first. -/
def ofNat (width n : Nat) : Bytes :=
  (List.range width).map fun i => UInt8.ofNat (n >>> (8 * (width - 1 - i)))

@[simp] theorem length_ofNat (width n : Nat) : (ofNat width n).length = width := by
  simp [ofNat]

/-- The number of bytes that hold a number, none for zero. -/
def size (n : Nat) : Nat := if n = 0 then 0 else n.log2 / 8 + 1

/-! ### Exclusive or -/

/-- Bytewise exclusive or, as long as the shorter operand. -/
def xor (a b : Bytes) : Bytes := List.zipWith (· ^^^ ·) a b

theorem length_xor (a b : Bytes) : (xor a b).length = min a.length b.length := by
  simp [xor]

end Bytes

/-! ### Blocks of one size -/

variable {α : Type}

/-- Cuts `fuel` times, collecting the blocks in reverse order in front of `done`. -/
def blocksOnto (size : Nat) : Nat → List α → List (List α) → List (List α)
  | 0, _, done => done.reverse
  | _ + 1, [], done => done.reverse
  | fuel + 1, x :: xs, done =>
      blocksOnto size fuel ((x :: xs).drop size) ((x :: xs).take size :: done)

/-- **The blocks of a list**, all of `size` elements except perhaps the last. -/
def blocks (size : Nat) (xs : List α) : List (List α) := blocksOnto size xs.length xs []

theorem blocksOnto_eq_append (size fuel : Nat) (xs : List α) (done : List (List α)) :
    blocksOnto size fuel xs done = done.reverse ++ blocksOnto size fuel xs [] := by
  induction fuel generalizing xs done with
  | zero => simp [blocksOnto]
  | succ fuel ih =>
      cases xs with
      | nil => simp [blocksOnto]
      | cons x xs =>
          rw [blocksOnto, ih, blocksOnto, ih _ [_]]
          simp

/-- More fuel than elements changes nothing. -/
theorem blocksOnto_of_le {size : Nat} (hs : 0 < size) (f g : Nat) (xs : List α)
    (hf : xs.length ≤ f) (hg : xs.length ≤ g) :
    blocksOnto size f xs [] = blocksOnto size g xs [] := by
  induction f generalizing g xs with
  | zero =>
      cases xs with
      | nil => cases g <;> rfl
      | cons x xs => simp at hf
  | succ f ih =>
      cases xs with
      | nil => cases g <;> rfl
      | cons x xs =>
          cases g with
          | zero => simp at hg
          | succ g =>
              simp only [List.length_cons] at hf hg
              rw [blocksOnto, blocksOnto, blocksOnto_eq_append, blocksOnto_eq_append _ g]
              rw [ih g _ (by simp; omega) (by simp; omega)]

@[simp] theorem blocks_nil (size : Nat) : blocks size ([] : List α) = [] := rfl

/-- **The first block is what `take` gives**, and the others are the blocks of the rest. -/
theorem blocks_eq_cons {size : Nat} (hs : 0 < size) {xs : List α} (hx : xs ≠ []) :
    blocks size xs = xs.take size :: blocks size (xs.drop size) := by
  cases xs with
  | nil => exact absurd rfl hx
  | cons x xs =>
      rw [blocks, List.length_cons, blocksOnto, blocksOnto_eq_append, blocks,
        blocksOnto_of_le hs xs.length _ _ (by simp; omega) (Nat.le_refl _)]
      rfl

/-- The blocks concatenate to the list. -/
theorem flatten_blocks {size : Nat} (hs : 0 < size) (xs : List α) :
    (blocks size xs).flatten = xs := by
  induction h : xs.length using Nat.strongRecOn generalizing xs with
  | ind n ih =>
      by_cases hx : xs = []
      · subst hx; rfl
      · have hpos : 0 < xs.length := List.length_pos_iff.2 hx
        rw [blocks_eq_cons hs hx, List.flatten_cons,
          ih (xs.drop size).length (by simp; omega) _ rfl, List.take_append_drop]

end LineChat
