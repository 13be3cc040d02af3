/-
**Base64 has one spelling for every byte string.**

A text of base64 is a sequence of groups of four symbols, and only the last of them may carry
padding.  A group and its bytes determine each other, so that reading and writing undo each other on
the whole: a reader that accepts a text accepts no other text for the same bytes.

Main results:

* `LineChat.Base64.symbol_of_value?` — writing a symbol inverts reading it;
* `LineChat.Base64.decode_encodeBytes`, `LineChat.Base64.eq_encodeBytes_of_decode` — the two halves,
  on bytes;
* `LineChat.Base64.decodeText_eq_ok_iff` — **a text spells some bytes exactly when it is what is
  written for them**;
* `LineChat.Base64.length_encodeBytes`, `LineChat.Base64.printed_of_mem_encode` — the length of a
  spelling, and that it is printed ASCII;
* `LineChat.Base64.take_encodeBytes` — what the beginning of a spelling spells.
-/

import LineChat.Proofs.Result
import LineChat.Proofs.Text.Utf8
import LineChat.Text.Base64
import Mathlib.Tactic.ByContra

set_option autoImplicit false

namespace LineChat

theorem blocks_append {α : Type} {size : Nat} (hs : 0 < size) {b : List α} (hb : b.length = size)
    (rest : List α) : blocks size (b ++ rest) = b :: blocks size rest := by
  have hne : b ++ rest ≠ [] := by
    intro h
    have := congrArg List.length h
    simp only [List.length_append, List.length_nil] at this
    omega
  rw [blocks_eq_cons hs hne, ← hb, List.take_left, List.drop_left]

namespace Base64

/-! ### Symbols -/

/-- Writing a symbol inverts reading it, and six bits are less than 64. -/
theorem symbol_of_value? {b : UInt8} {v : Nat} (h : value? b = some v) : v < 64 ∧ symbol v = b := by
  have hall : ∀ n < 256, value? (UInt8.ofNat n) = none ∨
      ((value? (UInt8.ofNat n)).getD 0 < 64 ∧
        symbol ((value? (UInt8.ofNat n)).getD 0) = UInt8.ofNat n) := by decide +kernel
  have hb := hall b.toNat b.toNat_lt
  rw [UInt8.ofNat_toNat, h] at hb
  simpa using hb

/-- Symbols are printed characters of ASCII, and none of them is the padding. -/
theorem symbol_facts : ∀ v < 64, symbol v ≠ pad ∧ 32 < symbol v ∧ symbol v < 127 := by
  decide

/-- The symbols for a list of numbers. -/
def symbols (vs : List Nat) : Bytes := vs.map symbol

/-- Bytes among which none is stray are symbols. -/
theorem exists_symbols_of_stray? {offset : Nat} {bs : Bytes} (h : stray? offset bs = none) :
    ∃ vs, (∀ v ∈ vs, v < 64) ∧ bs = symbols vs := by
  induction bs generalizing offset with
  | nil => exact ⟨[], by simp, rfl⟩
  | cons b bs ih =>
      rw [stray?] at h
      cases hv : value? b with
      | none => simp [hv] at h
      | some v =>
          simp only [hv, Option.isSome_some, if_true] at h
          obtain ⟨vs, hvs, rfl⟩ := ih h
          obtain ⟨hlt, rfl⟩ := symbol_of_value? hv
          exact ⟨v :: vs, by simpa using ⟨hlt, hvs⟩, rfl⟩

theorem stray?_symbols {vs : List Nat} (h : ∀ v ∈ vs, v < 64) (offset : Nat) :
    stray? offset (symbols vs) = none := by
  induction vs generalizing offset with
  | nil => rfl
  | cons v vs ih =>
      have hv := value?_symbol v (h v (List.mem_cons_self ..))
      rw [symbols, List.map_cons, stray?, hv]
      exact ih (fun x hx => h x (List.mem_cons_of_mem _ hx)) _

theorem number_symbols {vs : List Nat} (h : ∀ v ∈ vs, v < 64) :
    number (symbols vs) = vs.foldl (fun n v => n * 64 + v) 0 := by
  have hfold : ∀ acc, (symbols vs).foldl (fun n b => n * 64 + (value? b).getD 0) acc =
      vs.foldl (fun n v => n * 64 + v) acc := by
    induction vs with
    | nil => intro acc; rfl
    | cons v vs ih =>
        intro acc
        have hv := value?_symbol v (h v (List.mem_cons_self ..))
        rw [symbols, List.map_cons, List.foldl_cons, hv, List.foldl_cons]
        exact ih (fun x hx => h x (List.mem_cons_of_mem _ hx)) _
  exact hfold 0

/-! ### Groups -/

theorem ofNat_one (n : Nat) : Bytes.ofNat 1 n = [UInt8.ofNat n] := rfl

theorem ofNat_two (n : Nat) : Bytes.ofNat 2 n = [UInt8.ofNat (n / 256), UInt8.ofNat n] := by
  simp [Bytes.ofNat, List.range_succ, Nat.shiftRight_eq_div_pow]

theorem ofNat_three (n : Nat) :
    Bytes.ofNat 3 n = [UInt8.ofNat (n / 65536), UInt8.ofNat (n / 256), UInt8.ofNat n] := by
  simp [Bytes.ofNat, List.range_succ, Nat.shiftRight_eq_div_pow]

theorem ofNat_eq {n : Nat} {b : UInt8} (h : n % 256 = b.toNat) : UInt8.ofNat n = b := by
  apply UInt8.toNat_inj.1
  rw [UInt8.toNat_ofNat', h]

/-- **Writing a whole group inverts reading it.** -/
theorem encodeGroup_decodeGroup {vs : List Nat} (hlen : vs.length = 4) (h : ∀ v ∈ vs, v < 64) :
    ∃ a b c, decodeGroup (symbols vs) = [a, b, c] ∧ encodeGroup [a, b, c] = symbols vs := by
  match vs, hlen with
  | [v₁, v₂, v₃, v₄], _ =>
      simp only [List.mem_cons, List.not_mem_nil, or_false, forall_eq_or_imp, forall_eq] at h
      obtain ⟨h₁, h₂, h₃, h₄⟩ := h
      refine ⟨_, _, _, by rw [decodeGroup, ofNat_three], ?_⟩
      rw [number_symbols (by simp [h₁, h₂, h₃, h₄])]
      simp only [List.foldl_cons, List.foldl_nil, encodeGroup, UInt8.toNat_ofNat', symbols,
        List.map_cons, List.map_nil, List.cons.injEq, and_true]
      refine ⟨congrArg symbol ?_, congrArg symbol ?_, congrArg symbol ?_, congrArg symbol ?_⟩ <;>
        omega

/-- **Reading a whole group inverts writing it.** -/
theorem decodeGroup_encodeGroup (a b c : UInt8) :
    ∃ vs, vs.length = 4 ∧ (∀ v ∈ vs, v < 64) ∧ encodeGroup [a, b, c] = symbols vs ∧
      decodeGroup (symbols vs) = [a, b, c] := by
  have ha := a.toNat_lt
  have hb := b.toNat_lt
  have hc := c.toNat_lt
  have hlt : ∀ v ∈ [((a.toNat * 256 + b.toNat) * 256 + c.toNat) / 262144,
      ((a.toNat * 256 + b.toNat) * 256 + c.toNat) / 4096 % 64,
      ((a.toNat * 256 + b.toNat) * 256 + c.toNat) / 64 % 64,
      ((a.toNat * 256 + b.toNat) * 256 + c.toNat) % 64], v < 64 := by
    simp only [List.mem_cons, List.not_mem_nil, or_false, forall_eq_or_imp, forall_eq]
    refine ⟨?_, ?_, ?_, ?_⟩ <;> omega
  -- the four numbers put together are the three bytes put together
  refine ⟨_, rfl, hlt, rfl, ?_⟩
  rw [decodeGroup, number_symbols hlt, ofNat_three]
  simp only [List.foldl_cons, List.foldl_nil]
  rw [ofNat_eq (b := a) (by omega), ofNat_eq (b := b) (by omega), ofNat_eq (b := c) (by omega)]

/-! ### The last group -/

theorem takeWhile_symbols_append {vs : List Nat} (h : ∀ v ∈ vs, v < 64) (k : Nat) :
    (symbols vs ++ List.replicate k pad).takeWhile (· ≠ pad) = symbols vs ∧
      (symbols vs ++ List.replicate k pad).dropWhile (· ≠ pad) = List.replicate k pad := by
  have hne : ∀ b ∈ symbols vs, decide (b ≠ pad) = true := by
    intro b hb
    obtain ⟨v, hv, rfl⟩ := List.mem_map.1 hb
    simpa using (symbol_facts v (h v hv)).1
  rw [List.takeWhile_append_of_pos hne, List.dropWhile_append_of_pos hne]
  cases k <;> simp [List.replicate_succ]

/-- **Reading a last group that is well formed.** -/
theorem decodeLast_of_spare {vs : List Nat} {k : Nat} (h : ∀ v ∈ vs, v < 64)
    (hlen : (vs.length + k) % 4 = 0) (hpad : 2 ≤ vs.length ∨ (vs = [] ∧ k = 0))
    (hspare : spareBitsZero (symbols vs) = true) (offset : Nat) :
    decodeLast offset (symbols vs ++ List.replicate k pad) = .ok (wholeBytes (symbols vs)) := by
  obtain ⟨htake, hdrop⟩ := takeWhile_symbols_append h k
  have hl : (symbols vs).length = vs.length := List.length_map ..
  have hstray : ¬ (List.replicate k pad ≠ [] ∧ ((symbols vs).length < 2 ∨
      (List.replicate k pad).any (· ≠ pad) = true)) := by
    rintro ⟨hk, hlt | hany⟩
    · rcases hpad with h2 | ⟨-, rfl⟩
      · omega
      · exact hk rfl
    · simp at hany
  have hshort : ¬ (symbols vs ++ List.replicate k pad ≠ [] ∧ (symbols vs).length < 2) := by
    rintro ⟨hne, hlt⟩
    rcases hpad with h2 | ⟨rfl, rfl⟩
    · omega
    · exact hne rfl
  simp only [decodeLast, htake, hdrop, stray?_symbols h]
  rw [if_neg hstray, if_neg hshort, if_neg (by simp [hl, hlen]), if_pos hspare]

/-- Bytes from the first padding on are all padding if none of them is anything else. -/
theorem eq_replicate_of_any {padding : Bytes} (h : ¬ padding.any (· ≠ pad) = true) :
    padding = List.replicate padding.length pad := by
  refine List.eq_replicate_iff.2 ⟨rfl, ?_⟩
  intro b hb
  by_contra hne
  exact h (List.any_eq_true.2 ⟨b, hb, by simpa using hne⟩)

/-- A last group that can be read is symbols with the padding they need. -/
theorem exists_symbols_of_decodeLast {offset : Nat} {group bs : Bytes}
    (h : decodeLast offset group = .ok bs) :
    ∃ vs k, (∀ v ∈ vs, v < 64) ∧ group = symbols vs ++ List.replicate k pad ∧
      (vs.length + k) % 4 = 0 ∧ (2 ≤ vs.length ∨ (vs = [] ∧ k = 0)) ∧
      spareBitsZero (symbols vs) = true ∧ bs = wholeBytes (symbols vs) := by
  rw [decodeLast] at h
  cases hs : stray? offset (group.takeWhile (· ≠ pad)) with
  | some fault => simp only [hs, reduceCtorEq] at h
  | none =>
      obtain ⟨vs, hvs, hsym⟩ := exists_symbols_of_stray? hs
      have hsplit := List.takeWhile_append_dropWhile (p := fun b => decide (b ≠ pad)) (l := group)
      have hl : (symbols vs).length = vs.length := List.length_map ..
      simp only [hs, if_error_eq_ok_iff, if_else_error_eq_ok_iff, Except.ok.injEq] at h
      rw [hsym] at h hsplit
      generalize List.dropWhile (fun b => decide (b ≠ pad)) group = padding at h hsplit
      obtain ⟨hpad, hshort, hlen, hspare, rfl⟩ := h
      have hall : padding = List.replicate padding.length pad := by
        by_cases hp : padding = []
        · rw [hp]
          rfl
        · exact eq_replicate_of_any fun hany => hpad ⟨hp, Or.inr hany⟩
      rw [hall] at hsplit
      refine ⟨vs, padding.length, hvs, hsplit.symm, ?_, ?_, hspare, rfl⟩
      · rw [← hsplit, List.length_append, List.length_replicate, hl] at hlen
        omega
      · by_cases hg : group = []
        · rw [hg] at hsplit
          obtain ⟨hnil, hrep⟩ := List.append_eq_nil_iff.1 hsplit
          exact Or.inr ⟨List.map_eq_nil_iff.1 hnil, by simpa using hrep⟩
        · have hge : ¬ (symbols vs).length < 2 := fun hlt => hshort ⟨hg, hlt⟩
          exact Or.inl (by omega)

theorem wholeBytes_symbols {vs : List Nat} (h : ∀ v ∈ vs, v < 64) :
    wholeBytes (symbols vs) = Bytes.ofNat (vs.length * 6 / 8)
      (vs.foldl (fun n v => n * 64 + v) 0 / Nat.pow 2 (vs.length * 6 % 8)) := by
  have hl : (symbols vs).length = vs.length := List.length_map ..
  rw [wholeBytes, number_symbols h, hl, Nat.shiftRight_eq_div_pow]
  rfl

theorem spareBitsZero_symbols {vs : List Nat} (h : ∀ v ∈ vs, v < 64) :
    spareBitsZero (symbols vs) = true ↔
      vs.foldl (fun n v => n * 64 + v) 0 % Nat.pow 2 (vs.length * 6 % 8) = 0 := by
  have hl : (symbols vs).length = vs.length := List.length_map ..
  rw [spareBitsZero, number_symbols h, hl, decide_eq_true_iff]

/-- Four symbols have no spare bits, and their whole bytes are those of a whole group. -/
theorem wholeBytes_four {vs : List Nat} (h : ∀ v ∈ vs, v < 64) (hlen : vs.length = 4) :
    spareBitsZero (symbols vs) = true ∧ wholeBytes (symbols vs) = decodeGroup (symbols vs) := by
  rw [spareBitsZero_symbols h, wholeBytes_symbols h, decodeGroup, number_symbols h, hlen]
  have hone : Nat.pow 2 (4 * 6 % 8) = 1 := rfl
  rw [hone, Nat.mod_one, Nat.div_one]
  exact ⟨rfl, rfl⟩

/-- **A last group and its bytes**, with the numbers that the symbols stand for. -/
structure IsLast (bs : Bytes) (vs : List Nat) (k : Nat) : Prop where
  lt : ∀ v ∈ vs, v < 64
  two_le : 2 ≤ vs.length
  length_add : vs.length + k = 4
  length_bytes : bs.length + 1 = vs.length
  spare : spareBitsZero (symbols vs) = true
  bytes_eq : wholeBytes (symbols vs) = bs
  group_eq : encodeGroup bs = symbols vs ++ List.replicate k pad

theorem isLast_one {v₁ v₂ : Nat} (a : UInt8) (h₁ : v₁ = a.toNat / 4) (h₂ : v₂ = a.toNat % 4 * 16) :
    IsLast [a] [v₁, v₂] 2 := by
  have ha := a.toNat_lt
  have hlt : ∀ v ∈ [v₁, v₂], v < 64 := by
    simp only [List.mem_cons, List.not_mem_nil, or_false, forall_eq_or_imp, forall_eq]
    constructor <;> omega
  -- the two symbols hold the byte and four spare bits, which are zero
  have hnum : v₁ * 64 + v₂ = a.toNat * 16 := by omega
  refine ⟨hlt, Nat.le_refl _, rfl, rfl, ?_, ?_, ?_⟩
  · rw [spareBitsZero_symbols hlt]
    simp [hnum]
  · rw [wholeBytes_symbols hlt]
    simp [hnum, ofNat_one]
  · have hhigh : a.toNat * 16 / 64 = v₁ := by omega
    have hlow : a.toNat * 16 % 64 = v₂ := by omega
    simp [encodeGroup, hhigh, hlow, symbols]

theorem isLast_two {v₁ v₂ v₃ : Nat} (a b : UInt8) (h₁ : v₁ = a.toNat / 4)
    (h₂ : v₂ = a.toNat % 4 * 16 + b.toNat / 16) (h₃ : v₃ = b.toNat % 16 * 4) :
    IsLast [a, b] [v₁, v₂, v₃] 1 := by
  have ha := a.toNat_lt
  have hb := b.toNat_lt
  have hlt : ∀ v ∈ [v₁, v₂, v₃], v < 64 := by
    simp only [List.mem_cons, List.not_mem_nil, or_false, forall_eq_or_imp, forall_eq]
    refine ⟨?_, ?_, ?_⟩ <;> omega
  have hnum : (v₁ * 64 + v₂) * 64 + v₃ = (a.toNat * 256 + b.toNat) * 4 := by omega
  refine ⟨hlt, by simp, rfl, rfl, ?_, ?_, ?_⟩
  · rw [spareBitsZero_symbols hlt]
    simp [hnum]
  · rw [wholeBytes_symbols hlt]
    have hquot : (a.toNat * 256 + b.toNat) * 4 / 4 = a.toNat * 256 + b.toNat := by omega
    simp only [List.length_cons, List.length_nil, List.foldl_cons, List.foldl_nil, Nat.zero_mul,
      Nat.zero_add, hnum, Nat.reduceAdd, Nat.reduceMul, Nat.reduceDiv, Nat.reduceMod, Nat.pow_eq,
      Nat.reducePow, hquot, ofNat_two]
    rw [ofNat_eq (b := a) (by omega), ofNat_eq (b := b) (by omega)]
  · have hhigh : (a.toNat * 256 + b.toNat) * 4 / 4096 = v₁ := by omega
    have hmid : (a.toNat * 256 + b.toNat) * 4 / 64 % 64 = v₂ := by omega
    have hlow : (a.toNat * 256 + b.toNat) * 4 % 64 = v₃ := by omega
    simp [encodeGroup, hhigh, hmid, hlow, symbols]

theorem exists_isLast_three (a b c : UInt8) : ∃ vs, IsLast [a, b, c] vs 0 := by
  obtain ⟨vs, hlen, hlt, hgroup, hbytes⟩ := decodeGroup_encodeGroup a b c
  obtain ⟨hspare, hwhole⟩ := wholeBytes_four hlt hlen
  exact ⟨vs, hlt, by omega, by omega, by rw [hlen]; rfl, hspare, by rw [hwhole, hbytes],
    by simp [hgroup]⟩

/-- **Up to three bytes have a last group.** -/
theorem exists_isLast_of_bytes {bs : Bytes} (hne : bs ≠ []) (hlen : bs.length ≤ 3) :
    ∃ vs k, IsLast bs vs k := by
  match bs, hne, hlen with
  | [a], _, _ => exact ⟨_, _, isLast_one a rfl rfl⟩
  | [a, b], _, _ => exact ⟨_, _, isLast_two a b rfl rfl rfl⟩
  | [a, b, c], _, _ =>
      obtain ⟨vs, hvs⟩ := exists_isLast_three a b c
      exact ⟨vs, 0, hvs⟩
  | _ :: _ :: _ :: _ :: _, _, hlen =>
      simp only [List.length_cons] at hlen
      omega

/-- **Symbols without spare bits are a last group.** -/
theorem exists_isLast_of_symbols {vs : List Nat} {k : Nat} (h : ∀ v ∈ vs, v < 64)
    (htwo : 2 ≤ vs.length) (hlen : vs.length + k = 4)
    (hspare : spareBitsZero (symbols vs) = true) : ∃ bs, IsLast bs vs k := by
  -- without spare bits the symbols are the ones that their whole bytes are written as
  have hrem := (spareBitsZero_symbols h).1 hspare
  match vs, htwo, hlen with
  | [v₁, v₂], _, hlen =>
      obtain rfl : k = 2 := by simp only [List.length_cons, List.length_nil] at hlen; omega
      simp only [List.mem_cons, List.not_mem_nil, or_false, forall_eq_or_imp, forall_eq] at h
      have hmod : (v₁ * 64 + v₂) % 16 = 0 := by simpa using hrem
      have hval : (UInt8.ofNat (v₁ * 4 + v₂ / 16)).toNat = v₁ * 4 + v₂ / 16 := by
        rw [UInt8.toNat_ofNat']; omega
      exact ⟨_, isLast_one (UInt8.ofNat (v₁ * 4 + v₂ / 16)) (by omega) (by omega)⟩
  | [v₁, v₂, v₃], _, hlen =>
      obtain rfl : k = 1 := by simp only [List.length_cons, List.length_nil] at hlen; omega
      simp only [List.mem_cons, List.not_mem_nil, or_false, forall_eq_or_imp, forall_eq] at h
      have hmod : ((v₁ * 64 + v₂) * 64 + v₃) % 4 = 0 := by simpa using hrem
      have hval₁ : (UInt8.ofNat (v₁ * 4 + v₂ / 16)).toNat = v₁ * 4 + v₂ / 16 := by
        rw [UInt8.toNat_ofNat']; omega
      have hval₂ : (UInt8.ofNat (v₂ % 16 * 16 + v₃ / 4)).toNat = v₂ % 16 * 16 + v₃ / 4 := by
        rw [UInt8.toNat_ofNat']; omega
      exact ⟨_, isLast_two (UInt8.ofNat (v₁ * 4 + v₂ / 16)) (UInt8.ofNat (v₂ % 16 * 16 + v₃ / 4))
        (by omega) (by omega) (by omega)⟩
  | v₁ :: v₂ :: v₃ :: v₄ :: vs, _, hlen =>
      obtain rfl : vs = [] := by
        refine List.eq_nil_of_length_eq_zero ?_
        simp only [List.length_cons] at hlen
        omega
      obtain rfl : k = 0 := by simp only [List.length_cons, List.length_nil] at hlen; omega
      obtain ⟨a, b, c, hbytes, hgroup⟩ := encodeGroup_decodeGroup rfl h
      obtain ⟨-, hwhole⟩ := wholeBytes_four h rfl
      exact ⟨[a, b, c], h, by simp, rfl, rfl, hspare, by rw [hwhole, hbytes], by simp [hgroup]⟩

theorem IsLast.encodeBytes_eq {bs : Bytes} {vs : List Nat} {k : Nat} (h : IsLast bs vs k) :
    encodeBytes bs = symbols vs ++ List.replicate k pad := by
  have htwo := h.two_le
  have hadd := h.length_add
  have hlen := h.length_bytes
  have hne : bs ≠ [] := List.length_pos_iff.1 (by omega)
  rw [← h.group_eq, encodeBytes, blocks_eq_cons (by decide) hne, List.take_of_length_le (by omega),
    List.drop_eq_nil_of_le (by omega)]
  simp

/-! ### Whole groups -/

/-- **Some whole groups and their bytes**, with the numbers that the symbols stand for. -/
structure IsWhole (bs : Bytes) (vs : List Nat) : Prop where
  lt : ∀ v ∈ vs, v < 64
  length_mod : vs.length % 4 = 0
  length_eq : vs.length * 3 = bs.length * 4
  bytes_eq : (blocks 4 (symbols vs)).flatMap decodeGroup = bs
  text_eq : ∀ rest, encodeBytes (bs ++ rest) = symbols vs ++ encodeBytes rest

theorem IsWhole.nil : IsWhole [] [] := ⟨by simp, rfl, rfl, rfl, fun _ => rfl⟩

theorem IsWhole.cons {bs : Bytes} {vs four : List Nat} {a b c : UInt8} (h : IsWhole bs vs)
    (hlen : four.length = 4) (hlt : ∀ v ∈ four, v < 64)
    (hbytes : decodeGroup (symbols four) = [a, b, c])
    (hgroup : encodeGroup [a, b, c] = symbols four) : IsWhole (a :: b :: c :: bs) (four ++ vs) := by
  have hsym : symbols (four ++ vs) = symbols four ++ symbols vs := List.map_append
  have hl : (symbols four).length = 4 := by rw [symbols, List.length_map, hlen]
  refine ⟨?_, ?_, ?_, ?_, ?_⟩
  · intro v hv
    rcases List.mem_append.1 hv with hv | hv
    · exact hlt v hv
    · exact h.lt v hv
  · have := h.length_mod
    rw [List.length_append]
    omega
  · have := h.length_eq
    simp only [List.length_append, List.length_cons]
    omega
  · rw [hsym, blocks_append (by decide) hl, List.flatMap_cons, hbytes, h.bytes_eq]
    rfl
  · intro rest
    have hcut : a :: b :: c :: bs ++ rest = [a, b, c] ++ (bs ++ rest) := rfl
    have hthree : ([a, b, c] : Bytes).length = 3 := rfl
    rw [hcut, encodeBytes, blocks_append (by decide) hthree, List.flatMap_cons, hgroup, hsym,
      List.append_assoc, ← h.text_eq rest]
    rfl

theorem exists_isWhole_of_symbols (n : Nat) {vs : List Nat} (h : ∀ v ∈ vs, v < 64)
    (hlen : vs.length = 4 * n) : ∃ bs, IsWhole bs vs := by
  induction n generalizing vs with
  | zero =>
      obtain rfl := List.eq_nil_of_length_eq_zero hlen
      exact ⟨[], IsWhole.nil⟩
  | succ n ih =>
      have hfour : (vs.take 4).length = 4 := by rw [List.length_take]; omega
      have hlt : ∀ v ∈ vs.take 4, v < 64 := fun v hv => h v (List.mem_of_mem_take hv)
      obtain ⟨a, b, c, hbytes, hgroup⟩ := encodeGroup_decodeGroup hfour hlt
      have hrest : (vs.drop 4).length = 4 * n := by rw [List.length_drop]; omega
      obtain ⟨bs, hbs⟩ := ih (fun v hv => h v (List.mem_of_mem_drop hv)) hrest
      have hcons := hbs.cons hfour hlt hbytes hgroup
      rw [List.take_append_drop] at hcons
      exact ⟨_, hcons⟩

theorem exists_isWhole_of_bytes (n : Nat) {bs : Bytes} (hlen : bs.length = 3 * n) :
    ∃ vs, IsWhole bs vs := by
  induction n generalizing bs with
  | zero =>
      obtain rfl := List.eq_nil_of_length_eq_zero hlen
      exact ⟨[], IsWhole.nil⟩
  | succ n ih =>
      match bs, hlen with
      | a :: b :: c :: bs, hlen =>
          obtain ⟨four, hfour, hlt, hgroup, hbytes⟩ := decodeGroup_encodeGroup a b c
          have hrest : bs.length = 3 * n := by simp only [List.length_cons] at hlen; omega
          obtain ⟨vs, hvs⟩ := ih hrest
          exact ⟨four ++ vs, hvs.cons hfour hlt hbytes hgroup⟩

/-! ### Whole texts -/

/-- **What a byte string is written as**: whole groups, and a last one with its padding. -/
theorem exists_groups {bs : Bytes} (hne : bs ≠ []) :
    ∃ front last vs ws k, bs = front ++ last ∧ IsWhole front vs ∧ IsLast last ws k ∧
      encodeBytes bs = symbols vs ++ (symbols ws ++ List.replicate k pad) := by
  -- whole groups are cut off only as long as something is left for the last one
  have hpos : 0 < bs.length := List.length_pos_iff.2 hne
  have hsplit := List.take_append_drop (3 * ((bs.length - 1) / 3)) bs
  have hlen : (bs.take (3 * ((bs.length - 1) / 3))).length = 3 * ((bs.length - 1) / 3) := by
    rw [List.length_take]; omega
  have hlast : (bs.drop (3 * ((bs.length - 1) / 3))).length ≤ 3 := by
    rw [List.length_drop]; omega
  have hlastne : bs.drop (3 * ((bs.length - 1) / 3)) ≠ [] := by
    rw [ne_eq, List.drop_eq_nil_iff]; omega
  obtain ⟨vs, hvs⟩ := exists_isWhole_of_bytes _ hlen
  obtain ⟨ws, k, hws⟩ := exists_isLast_of_bytes hlastne hlast
  refine ⟨_, _, vs, ws, k, hsplit.symm, hvs, hws, ?_⟩
  rw [← hws.encodeBytes_eq, ← hvs.text_eq, hsplit]

/-- **Reading what was written gives the bytes back.** -/
theorem decode_encodeBytes (bs : Bytes) : decode (encodeBytes bs) = .ok bs := by
  by_cases hne : bs = []
  · subst hne
    rfl
  obtain ⟨front, last, vs, ws, k, rfl, hvs, hws, htext⟩ := exists_groups hne
  have hsym : (symbols vs).length = vs.length := List.length_map ..
  have hlen : (symbols vs ++ (symbols ws ++ List.replicate k pad)).length = vs.length + 4 := by
    simp only [List.length_append, List.length_replicate, hsym, ← hws.length_add]
    simp [symbols]
  have hmod := hvs.length_mod
  have hoffset : lastGroupAt (vs.length + 4) = (symbols vs).length := by
    rw [lastGroupAt, if_pos (by omega), hsym]
    omega
  have hstray : strayLast? (symbols vs ++ (symbols ws ++ List.replicate k pad)) = none := by
    rw [strayLast?, if_neg (by omega)]
  rw [htext, decode, hstray]
  simp only [hlen, hoffset, List.take_left, List.drop_left, stray?_symbols hvs.lt]
  rw [decodeLast_of_spare hws.lt (by rw [hws.length_add]) (Or.inl hws.two_le) hws.spare,
    hws.bytes_eq, hvs.bytes_eq]
  rfl

/-- What a text that can be read is made of: symbols up to the last group, and a last group. -/
theorem exists_last_of_decode {text bs : Bytes} (h : decode text = .ok bs) :
    ∃ last, stray? 0 (text.take (lastGroupAt text.length)) = none ∧
      decodeLast (lastGroupAt text.length) (text.drop (lastGroupAt text.length)) = .ok last ∧
      (blocks 4 (text.take (lastGroupAt text.length))).flatMap decodeGroup ++ last = bs := by
  rw [decode] at h
  cases hs : strayLast? text with
  | some fault => simp only [hs, reduceCtorEq] at h
  | none =>
      cases hg : stray? 0 (text.take (lastGroupAt text.length)) with
      | some fault => simp only [hs, hg, reduceCtorEq] at h
      | none =>
          simp only [hs, hg] at h
          obtain ⟨last, hlast, hbs⟩ := bind_eq_ok_iff.1 h
          exact ⟨last, rfl, hlast, Except.ok.inj hbs⟩

/-- **A text that is read is what would be written for its bytes.** -/
theorem eq_encodeBytes_of_decode {text bs : Bytes} (h : decode text = .ok bs) :
    text = encodeBytes bs := by
  obtain ⟨last, hg, hl, rfl⟩ := exists_last_of_decode h
  obtain ⟨vs, hvs, hfront⟩ := exists_symbols_of_stray? hg
  obtain ⟨ws, k, hws, hback, hlen, htwo, hspare, rfl⟩ := exists_symbols_of_decodeLast hl
  have hsplit := List.take_append_drop (lastGroupAt text.length) text
  have hvlen := congrArg List.length hfront
  have hwlen := congrArg List.length hback
  simp only [List.length_take, List.length_drop, List.length_append, symbols, List.length_map,
    List.length_replicate] at hvlen hwlen
  unfold lastGroupAt at hvlen hwlen
  rw [hfront, hback] at hsplit
  -- the front is a whole number of groups, and the last group is one group or nothing
  have hwhole : vs.length = 4 * (vs.length / 4) := by split at hvlen <;> omega
  obtain ⟨front, hwhole⟩ := exists_isWhole_of_symbols _ hvs hwhole
  rw [hfront, hwhole.bytes_eq, ← hsplit, hwhole.text_eq]
  rcases htwo with htwo | ⟨rfl, rfl⟩
  · have hfour : ws.length + k = 4 := by split at hwlen <;> omega
    obtain ⟨last, hlast⟩ := exists_isLast_of_symbols hws htwo hfour hspare
    rw [hlast.bytes_eq, hlast.encodeBytes_eq]
  · rfl

/-! ### Spellings as texts -/

theorem mem_encodeBytes {bs : Bytes} {x : UInt8} (h : x ∈ encodeBytes bs) :
    x = pad ∨ ∃ v < 64, x = symbol v := by
  have hne : bs ≠ [] := by rintro rfl; simp [encodeBytes] at h
  obtain ⟨front, last, vs, ws, k, -, hvs, hws, htext⟩ := exists_groups hne
  rw [htext] at h
  rcases List.mem_append.1 h with h | h
  · obtain ⟨v, hv, rfl⟩ := List.mem_map.1 h
    exact Or.inr ⟨v, hvs.lt v hv, rfl⟩
  · rcases List.mem_append.1 h with h | h
    · obtain ⟨v, hv, rfl⟩ := List.mem_map.1 h
      exact Or.inr ⟨v, hws.lt v hv, rfl⟩
    · exact Or.inl (List.eq_of_mem_replicate h)

theorem printed_of_mem_encodeBytes {bs : Bytes} {x : UInt8} (h : x ∈ encodeBytes bs) :
    32 < x ∧ x < 127 := by
  rcases mem_encodeBytes h with rfl | ⟨v, hv, rfl⟩
  · decide
  · exact (symbol_facts v hv).2

/-- **The bytes of a spelling.** -/
@[simp] theorem utf8_encode (bs : Bytes) : Text.utf8 (encode bs) = encodeBytes bs :=
  Text.utf8_ofAscii fun _ hb => UInt8.lt_trans (printed_of_mem_encodeBytes hb).2 (by decide)

theorem printed_of_mem_encode {bs : Bytes} {c : Char} (h : c ∈ (encode bs).toList) :
    32 < c.toNat ∧ c.toNat < 127 := by
  rw [encode, String.toList_ofList] at h
  obtain ⟨x, hx, rfl⟩ := List.mem_map.1 h
  obtain ⟨hlow, hhigh⟩ := printed_of_mem_encodeBytes hx
  rw [UInt8.lt_iff_toNat_lt] at hlow hhigh
  have hval : (Char.ofNat x.toNat).toNat = x.toNat := by
    have hhigh' : x.toNat < 127 := hhigh
    rw [Char.toNat, Char.ofNat, dif_pos (Or.inl (by omega))]
    rfl
  rw [hval]
  exact ⟨hlow, hhigh⟩

theorem length_encodeBytes (bs : Bytes) : (encodeBytes bs).length = encodedLength bs.length := by
  by_cases hne : bs = []
  · subst hne
    rfl
  obtain ⟨front, last, vs, ws, k, rfl, hvs, hws, htext⟩ := exists_groups hne
  have hfront := hvs.length_eq
  have hmod := hvs.length_mod
  have hadd := hws.length_add
  have hlast := hws.length_bytes
  have htwo := hws.two_le
  rw [htext, encodedLength]
  simp only [List.length_append, symbols, List.length_map, List.length_replicate]
  omega

theorem length_encodeGroup {group : Bytes} (hne : group ≠ []) : (encodeGroup group).length = 4 := by
  match group, hne with
  | [_], _ => rfl
  | [_, _], _ => rfl
  | _ :: _ :: _ :: _, _ => rfl

/-- **The first groups of a spelling** spell the first bytes, three for each group. -/
theorem take_encodeBytes (bs : Bytes) (groups : Nat) :
    (encodeBytes bs).take (4 * groups) = encodeBytes (bs.take (3 * groups)) := by
  induction groups generalizing bs with
  | zero => simp [encodeBytes]
  | succ groups ih =>
      by_cases hne : bs = []
      · subst hne
        simp [encodeBytes]
      · have hcons : ∀ {front : Bytes}, front ≠ [] →
            encodeBytes front = encodeGroup (front.take 3) ++ encodeBytes (front.drop 3) := by
          intro front hfront
          rw [encodeBytes, blocks_eq_cons (by decide) hfront, List.flatMap_cons]
          rfl
        have hfirst : (encodeGroup (bs.take 3)).length = 4 :=
          length_encodeGroup (by simpa using hne)
        have htake : bs.take (3 * (groups + 1)) ≠ [] := by simpa using hne
        rw [hcons hne, hcons htake, List.take_take, List.drop_take,
          Nat.min_eq_left (by omega : 3 ≤ 3 * (groups + 1)),
          (by omega : 3 * (groups + 1) - 3 = 3 * groups), ← ih,
          (by omega : 4 * (groups + 1) = 4 + 4 * groups), ← hfirst, List.take_length_add_append]

/-- **A text spells some bytes exactly when it is what is written for them.** -/
theorem decodeText_eq_ok_iff {text : String} {bs : Bytes} :
    decodeText text = .ok bs ↔ text = encode bs := by
  constructor
  · intro h
    refine Text.utf8_injective ?_
    rw [utf8_encode]
    exact eq_encodeBytes_of_decode h
  · rintro rfl
    rw [decodeText, utf8_encode, decode_encodeBytes]

/-- Different bytes have different spellings. -/
theorem encode_injective {a b : Bytes} (h : encode a = encode b) : a = b := by
  have ha := decodeText_eq_ok_iff.2 h
  rw [decodeText_eq_ok_iff.2 rfl] at ha
  exact Except.ok.inj ha

end Base64

end LineChat
