/-
**The bytes of a text, character by character.**

A text is its bytes: two texts with the same bytes are the same, and the bytes of a text are those
of its characters one after the other.  A character below 128 is the byte of its number.

Main results:

* `LineChat.Text.utf8_injective` — **a text is determined by its bytes**;
* `LineChat.Text.utf8_ofList` — the bytes of a text put together;
* `LineChat.Text.utf8_ofAscii` — the bytes of a text of characters below 128;
* `LineChat.Text.getLast?_utf8_eq_some_iff` — the last byte of a text, if it is below 128.
-/

import LineChat.Text.Utf8

set_option autoImplicit false

namespace LineChat.Text

/-- **A text is determined by its bytes.** -/
theorem utf8_injective {s t : String} (h : utf8 s = utf8 t) : s = t := by
  have hok : (Except.ok s : Except Utf8Fault String) = .ok t := by
    rw [← ofUtf8_utf8 s, ← ofUtf8_utf8 t, h]
  exact Except.ok.inj hok

theorem utf8_append (s t : String) : utf8 (s ++ t) = utf8 s ++ utf8 t := by
  simp [utf8]

theorem utf8_ofList (cs : List Char) :
    utf8 (String.ofList cs) = cs.flatMap String.utf8EncodeChar := by
  rw [utf8, String.toByteArray_ofList, List.utf8Encode, List.toList_data_toByteArray]

theorem utf8EncodeChar_ofNat {b : UInt8} (hb : b < 128) :
    String.utf8EncodeChar (Char.ofNat b.toNat) = [b] := by
  have hlt : b.toNat < 128 := UInt8.lt_iff_toNat_lt.1 hb
  have hval : (Char.ofNat b.toNat).val.toNat = b.toNat := by
    rw [Char.ofNat, dif_pos (Or.inl (by omega))]
    rfl
  rw [String.utf8EncodeChar, if_pos (by rw [hval]; omega), hval, UInt8.ofNat_toNat]

/-- **The bytes of a text of characters below 128** are their numbers. -/
theorem utf8_ofAscii {bs : Bytes} (h : ∀ b ∈ bs, b < 128) :
    utf8 (String.ofList (bs.map fun b => Char.ofNat b.toNat)) = bs := by
  rw [utf8_ofList]
  induction bs with
  | nil => rfl
  | cons b bs ih =>
      rw [List.map_cons, List.flatMap_cons, utf8EncodeChar_ofNat (h b (List.mem_cons_self ..)),
        ih fun x hx => h x (List.mem_cons_of_mem _ hx)]
      rfl

/-- **A byte below 128** is the byte of a character, and not a part of another one. -/
theorem eq_ofNat_of_mem_utf8EncodeChar {c : Char} {b : UInt8} (hb : b < 128)
    (h : b ∈ String.utf8EncodeChar c) : c = Char.ofNat b.toNat := by
  have hlt : b.toNat < 128 := UInt8.lt_iff_toNat_lt.1 hb
  have hnum : c.val.toNat = c.toNat := rfl
  -- the bytes of a longer character are 128 or more, whatever their lower bits
  simp only [String.utf8EncodeChar, hnum] at h
  split at h
  · rw [List.mem_singleton] at h
    have hval : b.toNat = c.toNat := by
      rw [h, UInt8.toNat_ofNat']
      omega
    rw [hval, Char.ofNat_toNat]
  · exfalso
    split at h
    · simp only [List.mem_cons, List.not_mem_nil, or_false] at h
      rcases h with rfl | rfl <;> rw [UInt8.toNat_ofNat'] at hlt <;> omega
    · split at h
      · simp only [List.mem_cons, List.not_mem_nil, or_false] at h
        rcases h with rfl | rfl | rfl <;> rw [UInt8.toNat_ofNat'] at hlt <;> omega
      · simp only [List.mem_cons, List.not_mem_nil, or_false] at h
        rcases h with rfl | rfl | rfl | rfl <;> rw [UInt8.toNat_ofNat'] at hlt <;> omega

/-- **A text ends with a byte below 128** if it ends with the character of that number. -/
theorem getLast?_utf8_eq_some_iff {s : String} {b : UInt8} (hb : b < 128) :
    (utf8 s).getLast? = some b ↔ s.toList.getLast? = some (Char.ofNat b.toNat) := by
  rw [← String.ofList_toList (s := s), utf8_ofList, String.toList_ofList]
  rcases List.eq_nil_or_concat s.toList with hnil | ⟨cs, c, hcs⟩
  · simp [hnil]
  · rw [hcs, List.concat_eq_append, List.flatMap_append, List.flatMap_singleton,
      List.getLast?_concat, Option.some.injEq, List.getLast?_append]
    constructor
    · intro h
      rcases hlast : (String.utf8EncodeChar c).getLast? with _ | x
      · exact absurd (List.getLast?_eq_none_iff.1 hlast) String.utf8EncodeChar_ne_nil
      · rw [hlast] at h
        obtain rfl : x = b := by simpa using h
        exact eq_ofNat_of_mem_utf8EncodeChar hb (List.mem_of_getLast? hlast)
    · rintro rfl
      rw [utf8EncodeChar_ofNat hb]
      rfl

end LineChat.Text
