/-
**An envelope that is opened.**

Every message that fits comes out of its envelope again, if the two numbers that a key was made of
are prime.  A key is not checked for that when it is read, since it would take too long; what is
checked, that the exponents undo each other modulo the two, is what the proof needs besides.

The padding is undone from the outside in: the masked message gives back the seed, and the seed the
message.  A block has a zero in front, so it is smaller than any modulus of its length, and raising
it to the two exponents changes nothing, by Fermat for the two primes and the Chinese remainder
theorem for the modulus.

Main definitions:

* `LineChat.PrivateKey.IsPair` — the numbers that make a key pair;
* `LineChat.PrivateKey.Opens` — a key pair opens its envelopes;
* `LineChat.PrivateKey.shorter`, `LineChat.PrivateKey.longer` — two keys that do.

Main results:

* `LineChat.Bytes.toNat_ofNat`, `LineChat.Bytes.ofNat_toNat` — numbers and their bytes;
* `LineChat.Oaep.decode_encode` — **a hidden message is found again**;
* `LineChat.PrivateKey.IsPair.powMod_powMod` — the two exponents undo each other;
* `LineChat.PrivateKey.IsPair.opens` — **a key pair opens its envelopes**.
-/

import LineChat.Crypto.CounterMode
import LineChat.Proofs.Key.Envelope
import Mathlib.FieldTheory.Finite.Basic
import Mathlib.NumberTheory.LucasLehmer

set_option autoImplicit false

namespace LineChat

/-! ### Numbers and their bytes -/

namespace Bytes

theorem toNat_concat (bs : Bytes) (b : UInt8) : toNat (bs ++ [b]) = toNat bs * 256 + b.toNat := by
  rw [toNat, List.foldl_append]
  rfl

theorem toNat_zero_cons (bs : Bytes) : toNat (0 :: bs) = toNat bs := rfl

theorem toNat_lt (bs : Bytes) : toNat bs < 256 ^ bs.length := by
  induction bs using List.reverseRecOn with
  | nil => exact Nat.one_pos
  | append_singleton bs b ih =>
      have hb := b.toNat_lt
      rw [toNat_concat, List.length_append, List.length_singleton, Nat.pow_succ]
      omega

theorem ofNat_succ (width n : Nat) :
    ofNat (width + 1) n = ofNat width (n / 256) ++ [UInt8.ofNat n] := by
  have hlast : n >>> (8 * (width + 1 - 1 - width)) = n := by
    rw [Nat.add_sub_cancel, Nat.sub_self]
    rfl
  have hfront : ∀ i ∈ List.range width,
      UInt8.ofNat (n >>> (8 * (width + 1 - 1 - i))) =
        UInt8.ofNat ((n / 256) >>> (8 * (width - 1 - i))) := by
    intro i hi
    have hlt := List.mem_range.1 hi
    have hshift : 8 * (width + 1 - 1 - i) = 8 + 8 * (width - 1 - i) := by omega
    rw [hshift, Nat.shiftRight_add, Nat.shiftRight_eq_div_pow n 8]
  rw [ofNat, List.range_succ, List.map_append, List.map_singleton, hlast,
    List.map_congr_left hfront]
  rfl

theorem toNat_ofNat {width n : Nat} (h : n < 256 ^ width) : toNat (ofNat width n) = n := by
  induction width generalizing n with
  | zero =>
      have hzero : n = 0 := by simpa using h
      rw [hzero]
      rfl
  | succ width ih =>
      rw [Nat.pow_succ] at h
      have hbyte : (UInt8.ofNat n).toNat = n % 256 := UInt8.toNat_ofNat'
      rw [ofNat_succ, toNat_concat, ih (Nat.div_lt_of_lt_mul (by omega)), hbyte]
      omega

theorem ofNat_toNat (bs : Bytes) : ofNat bs.length (toNat bs) = bs := by
  induction bs using List.reverseRecOn with
  | nil => rfl
  | append_singleton bs b ih =>
      have hb := b.toNat_lt
      have hfront : (toNat bs * 256 + b.toNat) / 256 = toNat bs := by omega
      have hlast : UInt8.ofNat (toNat bs * 256 + b.toNat) = b := by
        apply UInt8.toNat_inj.1
        rw [UInt8.toNat_ofNat']
        omega
      rw [toNat_concat, List.length_append, List.length_singleton, ofNat_succ, hfront, hlast, ih]

end Bytes

/-! ### Hidden messages -/

namespace Oaep

@[simp] theorem length_mask (seed : Bytes) (length : Nat) : (mask seed length).length = length := by
  rw [mask, List.length_take, List.length_flatMap]
  simp only [Vector.length_toList, List.map_const', List.length_range, List.sum_replicate_nat]
  omega

variable {k : Nat} {message : Bytes}

theorem length_labelHash : labelHash.length = hashLength := Vector.length_toList

theorem length_dataBlock (h : fits k message.length = true) :
    (dataBlock k message).length = k - 33 := by
  rw [fits_iff] at h
  rw [dataBlock]
  simp only [List.length_append, List.length_replicate, List.length_cons, length_labelHash,
    hashLength, overhead]
  omega

theorem length_encode (seed : Seed) (h : fits k message.length = true) :
    (encode k seed message).length = k := by
  have hblock := length_dataBlock h
  rw [fits_iff] at h
  rw [encode]
  simp only [List.length_append, List.length_cons, Bytes.length_xor, length_mask, hblock,
    Vector.length_toList, hashLength]
  omega

/-- A block that hides a message is smaller than its length allows. -/
theorem toNat_encode_lt (seed : Seed) (h : fits k message.length = true) :
    Bytes.toNat (encode k seed message) < 256 ^ (k - 1) := by
  have hlen := length_encode seed h
  obtain ⟨masked, hmasked⟩ : ∃ masked, encode k seed message = 0 :: masked := ⟨_, rfl⟩
  rw [hmasked, List.length_cons] at hlen
  rw [hmasked, Bytes.toNat_zero_cons, ← hlen, Nat.add_sub_cancel]
  exact Bytes.toNat_lt masked

theorem unmark_replicate (n : Nat) (message : Bytes) :
    unmark (List.replicate n 0 ++ 1 :: message) = some message := by
  have hskip : (List.replicate n (0 : UInt8) ++ 1 :: message).dropWhile (· = 0) = 1 :: message := by
    induction n with
    | zero => rfl
    | succ n ih => exact ih
  rw [unmark, hskip]
  rfl

/-- **A hidden message is found again.** -/
theorem decode_encode (seed : Seed) (h : fits k message.length = true) :
    decode (encode k seed message) = some message := by
  have hlen := length_encode seed h
  have hblock := length_dataBlock h
  rw [fits_iff] at h
  generalize hmasked : Bytes.xor (dataBlock k message)
    (mask seed.toList (dataBlock k message).length) = maskedBlock
  generalize hseed : Bytes.xor seed.toList (mask maskedBlock hashLength) = maskedSeed
  have hencode : encode k seed message = 0 :: (maskedSeed ++ maskedBlock) := by
    rw [encode, hmasked, hseed]
    rfl
  have hseedLength : maskedSeed.length = hashLength := by
    rw [← hseed, Bytes.length_xor, length_mask, Vector.length_toList]
    rfl
  have hmaskedLength : maskedBlock.length = (dataBlock k message).length := by
    rw [← hmasked, Bytes.length_xor, length_mask, Nat.min_self]
  -- the masked message gives back the seed, and the seed the message
  have hseed' : Bytes.xor maskedSeed (mask maskedBlock hashLength) = seed.toList := by
    rw [← hseed]
    refine CounterMode.xor_xor_of_length_le _ _ ?_
    rw [length_mask, Vector.length_toList]
    exact Nat.le_refl _
  have hblock' : Bytes.xor maskedBlock (mask seed.toList maskedBlock.length) =
      dataBlock k message := by
    rw [hmaskedLength, ← hmasked]
    refine CounterMode.xor_xor_of_length_le _ _ ?_
    rw [length_mask]
  have hlong : ¬ (0 :: (maskedSeed ++ maskedBlock)).length < overhead := by
    rw [← hencode, hlen, overhead, hashLength]
    omega
  have htake : (maskedSeed ++ maskedBlock).take hashLength = maskedSeed :=
    List.take_left' hseedLength
  have hdrop : (maskedSeed ++ maskedBlock).drop hashLength = maskedBlock :=
    List.drop_left' hseedLength
  have hlabel : (dataBlock k message).take hashLength = labelHash := by
    rw [dataBlock, List.append_assoc]
    exact List.take_left' length_labelHash
  have hrest : (dataBlock k message).drop hashLength =
      List.replicate (k - message.length - overhead) 0 ++ 1 :: message := by
    rw [dataBlock, List.append_assoc]
    exact List.drop_left' length_labelHash
  rw [hencode, decode, if_neg hlong]
  simp only [htake, hdrop, hseed', hblock', hlabel, hrest, if_true]
  exact unmark_replicate _ _

end Oaep

/-! ### Exponents that undo each other -/

namespace PublicKey

theorem pow_byte (n : Nat) : 256 ^ n = 2 ^ (8 * n) := by
  rw [Nat.pow_mul]

theorem modulus_lt (k : PublicKey) : k.modulus < 256 ^ k.size := by
  rw [size, bits, bitLength]
  split
  · rename_i hzero
    rw [hzero]
    exact Nat.one_pos
  · rw [pow_byte]
    exact Nat.lt_log2_self.trans_le (Nat.pow_le_pow_right Nat.two_pos (by omega))

theorem pow_size_le {k : PublicKey} (h : 0 < k.size) : 256 ^ (k.size - 1) ≤ k.modulus := by
  rw [size, bits, bitLength] at h ⊢
  split at h
  · exact absurd h (Nat.lt_irrefl 0)
  · rename_i hne
    rw [if_neg hne, pow_byte]
    exact (Nat.pow_le_pow_right Nat.two_pos (by omega)).trans (Nat.log2_self_le hne)

end PublicKey

/-- **Fermat**: an exponent that is 1 modulo `p - 1` changes nothing modulo `p`. -/
theorem pow_modEq_self {p x : Nat} (hp : p.Prime) (hx : x ≡ 1 [MOD p - 1]) (hpos : 0 < x)
    (m : Nat) : m ^ x ≡ m [MOD p] := by
  have hfact : Fact p.Prime := ⟨hp⟩
  obtain ⟨t, ht⟩ := (Nat.modEq_iff_dvd' hpos).1 hx.symm
  have hsplit : x = (p - 1) * t + 1 := by omega
  rw [← ZMod.natCast_eq_natCast_iff, Nat.cast_pow]
  by_cases hm : (m : ZMod p) = 0
  · rw [hm, hsplit, pow_succ, mul_zero]
  · rw [hsplit, pow_succ, pow_mul, ZMod.pow_card_sub_one_eq_one hm, one_pow, one_mul]

namespace PrivateKey

/-- **The numbers that make a key pair**: the product of two primes, and two exponents that undo
each other modulo either prime less one. -/
structure IsPair (k : PrivateKey) : Prop where
  prime1 : k.prime1.Prime
  prime2 : k.prime2.Prime
  primes_ne : k.prime1 ≠ k.prime2
  modulus_eq : k.modulus = k.prime1 * k.prime2
  inverts1 : k.secretExponent * k.exponent ≡ 1 [MOD k.prime1 - 1]
  inverts2 : k.secretExponent * k.exponent ≡ 1 [MOD k.prime2 - 1]

/-- **A key pair opens its envelopes.** -/
def Opens (k : PrivateKey) : Prop :=
  ∀ seed message envelope, k.toPublic.seal? seed message = some envelope →
    k.unseal envelope = .ok message

variable {k : PrivateKey}

/-- A key that is accepted is a pair if the two numbers it was made of are prime, which is not
checked. -/
theorem isPair_of_isValid (hvalid : k.isValid = true) (hp : k.prime1.Prime)
    (hq : k.prime2.Prime) (hne : k.prime1 ≠ k.prime2) : k.IsPair := by
  have hmodEq : ∀ {x m : Nat}, x % m = 1 → x ≡ 1 [MOD m] := by
    intro x m hx
    have hmod := Nat.mod_modEq x m
    rw [hx] at hmod
    exact hmod.symm
  simp only [isValid, inverts, Bool.and_eq_true, beq_iff_eq] at hvalid
  obtain ⟨⟨⟨-, hmodulus⟩, -, hinv₁⟩, -, hinv₂⟩ := hvalid
  exact ⟨hp, hq, hne, hmodulus.symm, hmodEq hinv₁, hmodEq hinv₂⟩

/-- Only modulo 1 is nothing the same as 1, and no two primes are both 2. -/
theorem IsPair.exponents_pos (h : k.IsPair) : 0 < k.secretExponent * k.exponent := by
  have htwo : ∀ {p : Nat}, p.Prime → 0 ≡ 1 [MOD p - 1] → p = 2 := by
    intro p hp hzero
    have hone : p - 1 = 1 := Nat.dvd_one.1 ((Nat.modEq_iff_dvd' (Nat.zero_le 1)).1 hzero)
    have htwo := hp.two_le
    omega
  by_contra hzero
  have hx : k.secretExponent * k.exponent = 0 := by omega
  have h₁ := htwo h.prime1 (hx ▸ h.inverts1)
  have h₂ := htwo h.prime2 (hx ▸ h.inverts2)
  exact h.primes_ne (h₁.trans h₂.symm)

/-- **The two exponents undo each other.** -/
theorem IsPair.powMod_powMod (h : k.IsPair) {m : Nat} (hm : m < k.modulus) :
    powMod (powMod m k.exponent k.modulus) k.secretExponent k.modulus = m := by
  have hcoprime : Nat.Coprime k.prime1 k.prime2 :=
    (Nat.coprime_primes h.prime1 h.prime2).2 h.primes_ne
  have hall : m ^ (k.secretExponent * k.exponent) ≡ m [MOD k.modulus] := by
    rw [h.modulus_eq]
    exact (Nat.modEq_and_modEq_iff_modEq_mul hcoprime).1
      ⟨pow_modEq_self h.prime1 h.inverts1 h.exponents_pos m,
        pow_modEq_self h.prime2 h.inverts2 h.exponents_pos m⟩
  have hpow : (m ^ k.exponent % k.modulus) ^ k.secretExponent ≡
      m ^ (k.secretExponent * k.exponent) [MOD k.modulus] := by
    rw [Nat.mul_comm, Nat.pow_mul]
    exact (Nat.mod_modEq _ _).pow _
  have hboth : (m ^ k.exponent % k.modulus) ^ k.secretExponent % k.modulus = m % k.modulus :=
    hpow.trans hall
  rw [powMod_eq, powMod_eq]
  exact hboth.trans (Nat.mod_eq_of_lt hm)

/-- **A key pair opens its envelopes**, whatever they were sealed with. -/
theorem IsPair.opens (h : k.IsPair) : k.Opens := by
  intro seed message envelope hseal
  have htakes := PublicKey.takes_of_seal? hseal
  have hfits : Oaep.fits k.toPublic.size message.length = true :=
    Oaep.fits_iff.2 (PublicKey.takes_iff.1 htakes).2
  have hlen := PublicKey.length_of_seal? hseal
  have hsize : 0 < k.toPublic.size := by
    rw [Oaep.fits_iff] at hfits
    omega
  generalize hblock : Oaep.encode k.toPublic.size seed message = block
  have hblockLength : block.length = k.toPublic.size := by
    rw [← hblock]
    exact Oaep.length_encode seed hfits
  have hsmall : Bytes.toNat block < k.modulus := by
    rw [← hblock]
    exact (Oaep.toNat_encode_lt seed hfits).trans_le (PublicKey.pow_size_le hsize)
  have hpos : 0 < k.modulus := Nat.zero_lt_of_lt hsmall
  generalize hc : powMod (Bytes.toNat block) k.exponent k.modulus = c
  have hcLt : c < k.modulus := by
    rw [← hc, powMod_eq]
    exact Nat.mod_lt _ hpos
  have hundo : powMod c k.secretExponent k.modulus = Bytes.toNat block := by
    rw [← hc]
    exact h.powMod_powMod hsmall
  have henvelope : envelope = Bytes.ofNat k.toPublic.size c := by
    rw [PublicKey.seal?, if_pos htakes, hblock] at hseal
    rw [← hc]
    exact (Option.some.inj hseal).symm
  have hnumber : Bytes.toNat envelope = c := by
    rw [henvelope]
    exact Bytes.toNat_ofNat (hcLt.trans (PublicKey.modulus_lt k.toPublic))
  have haccepted : ¬ (envelope.length ≠ k.toPublic.size ∨ k.modulus ≤ c) := by
    rw [hlen]
    omega
  have hdecode : Oaep.decode (Bytes.ofNat k.toPublic.size (Bytes.toNat block)) = some message := by
    rw [← hblockLength, Bytes.ofNat_toNat, ← hblock]
    exact Oaep.decode_encode seed hfits
  simp only [PrivateKey.unseal, hnumber, if_neg haccepted, hundo, hc, ne_eq, not_true_eq_false,
    if_false, hdecode]

/-! ### Keys of Mersenne primes -/

/-- A key made of two Mersenne primes.  The number `t` makes the division come out even. -/
def ofMersenne (a b t : Nat) : PrivateKey where
  modulus := mersenne a * mersenne b
  exponent := 65537
  secretExponent := (t * ((mersenne a - 1) * (mersenne b - 1)) + 1) / 65537
  prime1 := mersenne a
  prime2 := mersenne b

theorem prime_mersenne_521 : (mersenne 521).Prime :=
  lucas_lehmer_sufficiency _ (by norm_num) (by norm_num)

theorem prime_mersenne_607 : (mersenne 607).Prime :=
  lucas_lehmer_sufficiency _ (by norm_num) (by norm_num)

theorem prime_mersenne_1279 : (mersenne 1279).Prime :=
  lucas_lehmer_sufficiency _ (by norm_num) (by norm_num)

/-- A key of 1128 bits. -/
def shorter : PrivateKey := ofMersenne 521 607 10880

/-- A key of 1886 bits. -/
def longer : PrivateKey := ofMersenne 607 1279 36409

theorem isPair_shorter : shorter.IsPair := by
  have hvalid : shorter.isValid = true := by decide +kernel
  have hne : mersenne 521 ≠ mersenne 607 := by decide +kernel
  exact isPair_of_isValid hvalid prime_mersenne_521 prime_mersenne_607 hne

theorem isPair_longer : longer.IsPair := by
  have hvalid : longer.isValid = true := by decide +kernel
  have hne : mersenne 607 ≠ mersenne 1279 := by decide +kernel
  exact isPair_of_isValid hvalid prime_mersenne_607 prime_mersenne_1279 hne

theorem opens_shorter : shorter.Opens := isPair_shorter.opens

theorem opens_longer : longer.Opens := isPair_longer.opens

end PrivateKey

end LineChat
