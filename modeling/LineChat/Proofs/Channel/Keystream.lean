/-
**No byte of keystream is used twice.**

The two sides of a session share one key, so a byte of keystream must never be added to two bytes of
text.  A byte of keystream is known by its place: the counter whose encryption it belongs to, and
its index in that block.  This module follows both ciphers of a session through an arbitrary run of
calls and collects the lines they encrypted, each with the counter it was given.

Main definitions:

* `LineChat.CounterMode.places`, `LineChat.CounterMode.byteAt` — the places that a text uses up, and
  the bytes there;
* `LineChat.SentLine` — an encrypted line with its number and its counters;
* `LineChat.CipherPair`, `LineChat.CipherPair.run` — **the two ciphers of a session, and a run of
  calls to them**.

Main results:

* `LineChat.CounterMode.apply_eq_zipWith_places` — a text is encrypted with the bytes at its places;
* `LineChat.disjoint_counters_of_ne` — two lines with different numbers or senders have no counter
  in common, wherever the counters start;
* `LineChat.CipherPair.sentLines_run` — what every line of a run was encrypted with;
* `LineChat.CipherPair.keystream_never_reused` — **no run uses a byte of keystream twice**.
-/

import LineChat.Proofs.Channel.SessionCipher
import Mathlib.Data.List.Nodup
import Mathlib.Data.List.Range

set_option autoImplicit false

namespace LineChat

namespace CounterMode

/-! ### Places in the keystream -/

/-- **A place in the keystream of a key**: a counter, and an index in the block it encrypts to. -/
abbrev Place := Counter × Nat

/-- **The places used up by a text** of `length` bytes that starts at the counter `c`. -/
def places (c : Counter) (length : Nat) : List Place :=
  (List.range length).map fun k => (c + BitVec.ofNat 128 (k / 16), k % 16)

/-- The byte of keystream at a place. -/
def byteAt (cipher : Block → Block) (p : Place) : UInt8 :=
  (cipher (counterBlock p.1)).toList.getD p.2 0

@[simp] theorem length_places (c : Counter) (length : Nat) : (places c length).length = length := by
  simp [places]

@[simp] theorem length_counters (c : Counter) (length : Nat) :
    (counters c length).length = blockCount length := by
  simp [counters]

theorem getD_flatMap_blocks (f : Counter → Block) (cs : List Counter) (k : Nat)
    (hk : k < 16 * cs.length) :
    (cs.flatMap fun x => (f x).toList).getD k 0 =
      (f (cs.getD (k / 16) 0)).toList.getD (k % 16) 0 := by
  induction cs generalizing k with
  | nil => simp at hk
  | cons c cs ih =>
      simp only [List.flatMap_cons, List.getD_eq_getElem?_getD]
      by_cases h : k < 16
      · rw [List.getElem?_append_left (by simpa using h), Nat.div_eq_of_lt h, Nat.mod_eq_of_lt h]
        rfl
      · obtain ⟨j, rfl⟩ := Nat.exists_eq_add_of_le' (Nat.not_lt.1 h)
        have hj : j < 16 * cs.length := by simp only [List.length_cons] at hk; omega
        have hlen : (f c).toList.length = 16 := Vector.length_toList
        rw [List.getElem?_append_right (by omega), hlen, Nat.add_sub_cancel,
          Nat.add_div_right _ (by decide), Nat.add_mod_right, List.getElem?_cons_succ,
          ← List.getD_eq_getElem?_getD, ih j hj]
        rfl

/-- The keystream for a text begins with the bytes at the places that the text uses up. -/
theorem getD_keystream (cipher : Block → Block) (c : Counter) {length k : Nat} (hk : k < length) :
    (keystream cipher c length).getD k 0 =
      byteAt cipher (c + BitVec.ofNat 128 (k / 16), k % 16) := by
  have hb : k / 16 < blockCount length := by unfold blockCount; omega
  have hcount : k < 16 * (counters c length).length := by rw [length_counters]; omega
  have hcounter : (counters c length).getD (k / 16) 0 = c + BitVec.ofNat 128 (k / 16) := by
    simp [counters, List.getD_eq_getElem?_getD, hb]
  rw [keystream, getD_flatMap_blocks (fun x => cipher (counterBlock x)) _ _ hcount, hcounter,
    byteAt]

/-- **A text is encrypted with the bytes at its places**, one for one. -/
theorem apply_eq_zipWith_places (cipher : Block → Block) (c : Counter) (text : Bytes) :
    apply cipher c text =
      List.zipWith (· ^^^ ·) text ((places c text.length).map (byteAt cipher)) := by
  refine List.ext_getElem (by simp) ?_
  intro k h₁ h₂
  have hk : k < text.length := by simpa using h₁
  have hks : k < (keystream cipher c text.length).length := by
    rw [length_keystream, blockCount]; omega
  have hbyte := getD_keystream cipher c hk
  rw [List.getD_eq_getElem?_getD, List.getElem?_eq_getElem hks, Option.getD_some] at hbyte
  simp [apply, Bytes.xor, places, hbyte]

/-- The beginning of a text is encrypted as the beginning of what the text is encrypted to. -/
theorem apply_take (cipher : Block → Block) (c : Counter) (text : Bytes) (count : Nat) :
    apply cipher c (text.take count) = (apply cipher c text).take count := by
  have hplaces : places c (text.take count).length = (places c text.length).take count := by
    rw [places, places, ← List.map_take, List.take_range, List.length_take]
  rw [apply_eq_zipWith_places, apply_eq_zipWith_places, hplaces, List.take_zipWith, List.map_take]

theorem fst_mem_counters {c : Counter} {length : Nat} {p : Place} (hp : p ∈ places c length) :
    p.1 ∈ counters c length := by
  obtain ⟨k, hk, rfl⟩ := List.mem_map.1 hp
  have hlt : k < length := List.mem_range.1 hk
  exact List.mem_map.2 ⟨k / 16, List.mem_range.2 (by unfold blockCount; omega), rfl⟩

/-- A text that is not as long as the whole keystream uses no place twice. -/
theorem nodup_places (c : Counter) {length : Nat} (hlen : length ≤ Nat.pow 2 36) :
    (places c length).Nodup := by
  refine List.Nodup.map_on ?_ List.nodup_range
  -- the counters of so many blocks are different modulo `2 ^ 128`
  intro k hk l hl h
  have hk' : k < length := List.mem_range.1 hk
  have hl' : l < length := List.mem_range.1 hl
  simp only [Nat.pow_eq, Nat.reducePow] at hlen
  obtain ⟨hcounter, hindex⟩ := Prod.mk.inj h
  have hnat := congrArg BitVec.toNat hcounter
  rw [BitVec.toNat_add, BitVec.toNat_add, BitVec.toNat_ofNat, BitVec.toNat_ofNat] at hnat
  omega

end CounterMode

/-! ### Lines far apart -/

open CounterMode (Counter Place)

/-- Flipping the top bit of a counter moves it by half of the counters. -/
theorem toNat_xor_directionBit (c : Counter) :
    (c ^^^ directionBit).toNat = c.toNat + Nat.pow 2 127 ∨
      (c ^^^ directionBit).toNat + Nat.pow 2 127 = c.toNat := by
  -- the lower bits stay as they are, and the top bit alone is the quotient
  have hlow := @Nat.xor_mod_two_pow c.toNat (2 ^ 127) 127
  have hhigh := @Nat.xor_div_two_pow c.toNat (2 ^ 127) 127
  have hbit : directionBit.toNat = 2 ^ 127 := rfl
  have hlt := c.isLt
  rw [BitVec.toNat_xor, hbit]
  rw [Nat.mod_self, Nat.xor_zero] at hlow
  rw [Nat.div_self (by decide)] at hhigh
  have htop : c.toNat / 2 ^ 127 = 0 ∨ c.toNat / 2 ^ 127 = 1 := by omega
  simp only [Nat.pow_eq]
  rcases htop with h | h <;> rw [h] at hhigh
  · have h1 : (0 ^^^ 1 : Nat) = 1 := rfl
    omega
  · have h0 : (1 ^^^ 1 : Nat) = 0 := rfl
    omega

/-- The counters that line `n` of a direction uses up. -/
def lineCounters (iv : Vector UInt8 16) (sender : Role) (n length : Nat) : List Counter :=
  CounterMode.counters (lineCounter .sequenced (baseCounter .sequenced iv sender) n) length

theorem exists_of_mem_lineCounters {iv : Vector UInt8 16} {sender : Role} {n length : Nat}
    {c : Counter} (hlen : length ≤ Nat.pow 2 36) (hc : c ∈ lineCounters iv sender n length) :
    ∃ i < lineStride,
      c = baseCounter .sequenced iv sender + BitVec.ofNat 128 (n * lineStride + i) := by
  obtain ⟨i, hi, rfl⟩ := List.mem_map.1 hc
  have hi' : i < CounterMode.blockCount length := List.mem_range.1 hi
  have hstride : lineStride = 4294967296 := rfl
  simp only [Nat.pow_eq, Nat.reducePow] at hlen
  unfold CounterMode.blockCount at hi'
  refine ⟨i, by omega, ?_⟩
  rw [lineCounter, BitVec.ofNat_add, BitVec.add_assoc]

/-- **Two lines with different numbers or senders have no counter in common**, wherever the counters
start, if neither is longer than the blocks reserved for it. -/
theorem disjoint_counters_of_ne (iv : Vector UInt8 16) {a b : Role} {m n k l : Nat}
    (hm : m < Nat.pow 2 64) (hn : n < Nat.pow 2 64) (hk : k ≤ Nat.pow 2 36)
    (hl : l ≤ Nat.pow 2 36) (hne : (a, m) ≠ (b, n)) :
    List.Disjoint (lineCounters iv a m k) (lineCounters iv b n l) := by
  intro c hc hc'
  obtain ⟨i, hi, rfl⟩ := exists_of_mem_lineCounters hk hc
  obtain ⟨j, hj, heq⟩ := exists_of_mem_lineCounters hl hc'
  have htop := toNat_xor_directionBit (CounterMode.counterOfBlock iv)
  have hlt := (CounterMode.counterOfBlock iv).isLt
  have hstride : lineStride = 4294967296 := rfl
  have hnat := congrArg BitVec.toNat heq
  rw [BitVec.toNat_add, BitVec.toNat_add, BitVec.toNat_ofNat, BitVec.toNat_ofNat, hstride] at hnat
  rw [hstride] at hi hj
  simp only [Nat.pow_eq, Nat.reducePow] at hm hn htop
  -- equal senders leave only the numbers to differ, and different ones are half of the counters
  -- apart
  have hnum : a = b → m ≠ n := fun hab hmn => hne (by rw [hab, hmn])
  cases a <;> cases b <;>
    simp only [baseCounter, reduceCtorEq, true_implies, false_implies] at hnat hnum <;> omega

/-! ### Encrypted lines -/

/-- **A line that one side encrypted.** -/
structure SentLine where
  sender : Role
  /-- How many lines the sender had encrypted before. -/
  number : Nat
  /-- The counter that was claimed for the line. -/
  start : Counter
  line : String
  ciphertext : String

namespace SentLine

/-- The counters that a line used up. -/
def counters (e : SentLine) : List Counter :=
  CounterMode.counters e.start (Text.utf8 e.line).length

/-- The places in the keystream that a line used up. -/
def places (e : SentLine) : List Place := CounterMode.places e.start (Text.utf8 e.line).length

/-- **What a line of a session was encrypted with**: it has the counters of its number, and its
ciphertext is the text with the bytes at exactly its places added. -/
structure IsOf (e : SentLine) (session : SessionKey) (maxLines : UInt64) : Prop where
  number_lt : e.number < maxLines.toNat
  start_eq : e.start = lineCounter .sequenced (baseCounter .sequenced session.iv e.sender) e.number
  ciphertext_eq :
    e.ciphertext = Base64.encode (List.zipWith (· ^^^ ·) (Text.utf8 e.line)
      (e.places.map (CounterMode.byteAt (Aes.encryptBlock (Aes.roundKeys session.key)))))

end SentLine

/-! ### Runs -/

/-- What a cipher is asked to do. -/
inductive CipherCall where
  | encrypt (line : String)
  | decrypt (line : String)

namespace SessionCipher

/-- The cipher after a call. -/
def after (s : SessionCipher) : CipherCall → SessionCipher
  | .encrypt line => (s.encrypt line).2
  | .decrypt line => (s.decrypt line).2

/-- The line that a call encrypted, if it did. -/
def sentLine? (s : SessionCipher) (sender : Role) : CipherCall → Option SentLine
  | .encrypt line =>
      match s.outbound.claim s.mode s.maxLines, (s.encrypt line).1 with
      | .ok (start, _), .ok ciphertext =>
          some { sender, number := s.linesSent, start, line, ciphertext }
      | _, _ => none
  | .decrypt _ => none

/-- **The cipher is that of one side of a session**: it has the key and the counters of the side. -/
structure IsSide (s : SessionCipher) (session : SessionKey) (role : Role) (maxLines : UInt64) :
    Prop where
  key_eq : s.key = session.key
  mode_eq : s.mode = .sequenced
  maxLines_eq : s.maxLines = maxLines
  base_eq : s.outbound.base = baseCounter .sequenced session.iv role

variable {s : SessionCipher} {session : SessionKey} {role : Role} {maxLines : UInt64}

theorem IsSide.after (h : s.IsSide session role maxLines) (call : CipherCall) :
    (s.after call).IsSide session role maxLines := by
  have hout : s.countOut.IsSide session role maxLines :=
    ⟨h.key_eq, h.mode_eq, h.maxLines_eq, h.base_eq⟩
  have hin : s.countIn.IsSide session role maxLines :=
    ⟨h.key_eq, h.mode_eq, h.maxLines_eq, h.base_eq⟩
  cases call with
  | encrypt line =>
      rcases Nat.lt_or_ge s.linesSent s.maxLines.toNat with hl | hl
      · rw [SessionCipher.after, encrypt_of_lt hl]; exact hout
      · rw [SessionCipher.after, encrypt_of_le hl]; exact h
  | decrypt line =>
      rw [SessionCipher.after]
      rcases s.decrypt_snd line with hd | hd <;> rw [hd]
      · exact h
      · exact hin

theorem linesSent_after_of_none {call : CipherCall} (h : s.sentLine? role call = none) :
    (s.after call).linesSent = s.linesSent := by
  cases call with
  | encrypt line =>
      rcases Nat.lt_or_ge s.linesSent s.maxLines.toNat with hl | hl
      · simp [sentLine?, encrypt_of_lt hl, Direction.claim_of_lt s.mode hl] at h
      · rw [after, encrypt_of_le hl]
  | decrypt line =>
      rw [after]
      rcases s.decrypt_snd line with hd | hd <;> rw [hd]
      rfl

/-- **A call that encrypts a line** gives it the next number and the next counter, and counts it. -/
theorem of_sentLine?_eq_some {call : CipherCall} {e : SentLine}
    (h : s.sentLine? role call = some e) :
    s.linesSent < s.maxLines.toNat ∧ (s.after call).linesSent = s.linesSent + 1 ∧
      ∃ line, call = .encrypt line ∧
        e = ⟨role, s.linesSent, s.nextOut, line,
          Base64.encode (s.applyFrom s.nextOut (Text.utf8 line))⟩ := by
  cases call with
  | encrypt line =>
      rcases Nat.lt_or_ge s.linesSent s.maxLines.toNat with hl | hl
      · simp only [sentLine?, encrypt_of_lt hl, Direction.claim_of_lt s.mode hl,
          Option.some_inj] at h
        exact ⟨hl, by rw [after, encrypt_of_lt hl]; rfl, line, rfl, h.symm⟩
      · simp [sentLine?, encrypt_of_le hl, Direction.claim_of_le s.mode hl] at h
  | decrypt line => simp [sentLine?] at h

/-- What a side of a session encrypts is a line of the session. -/
theorem IsSide.isOf (h : s.IsSide session role maxLines) {call : CipherCall} {e : SentLine}
    (he : s.sentLine? role call = some e) : e.IsOf session maxLines := by
  obtain ⟨hl, -, line, -, rfl⟩ := of_sentLine?_eq_some he
  refine ⟨?_, ?_, ?_⟩
  · rw [← h.maxLines_eq]
    exact hl
  · rw [nextOut, h.mode_eq, h.base_eq]
    rfl
  · rw [applyFrom, h.key_eq, CounterMode.apply_eq_zipWith_places]
    rfl

end SessionCipher

/-- **The ciphers of the two sides of a session.** -/
abbrev CipherPair := Role → SessionCipher

namespace CipherPair

/-- The ciphers of a fresh session, with counters of their own for every line. -/
def start (session : SessionKey) (maxLines : UInt64) : CipherPair := fun role =>
  SessionCipher.start session role .sequenced maxLines

/-- **A run of calls**: the lines that were encrypted, and the ciphers at the end. -/
def run : CipherPair → List (Role × CipherCall) → List SentLine × CipherPair
  | p, [] => ([], p)
  | p, (role, call) :: calls =>
      let (sent, last) := run (Function.update p role ((p role).after call)) calls
      (((p role).sentLine? role call).toList ++ sent, last)

variable {session : SessionKey} {maxLines : UInt64}

theorem isSide_update {p : CipherPair} (h : ∀ role, (p role).IsSide session role maxLines)
    (role : Role) (call : CipherCall) (r : Role) :
    (Function.update p role ((p role).after call) r).IsSide session r maxLines := by
  by_cases hr : r = role
  · subst hr
    rw [Function.update_self]
    exact (h r).after call
  · rw [Function.update_of_ne hr]
    exact h r

theorem linesSent_le_update (p : CipherPair) (role : Role) (call : CipherCall) (r : Role) :
    (p r).linesSent ≤ (Function.update p role ((p role).after call) r).linesSent := by
  by_cases hr : r = role
  · subst hr
    rw [Function.update_self]
    cases hs : (p r).sentLine? r call with
    | none => exact Nat.le_of_eq (SessionCipher.linesSent_after_of_none hs).symm
    | some e =>
        obtain ⟨-, hcount, -⟩ := SessionCipher.of_sentLine?_eq_some hs
        omega
  · rw [Function.update_of_ne hr]

/-- **What every line of a run was encrypted with.**  Its number is not one that was used before. -/
theorem sentLines_run {p : CipherPair} (h : ∀ role, (p role).IsSide session role maxLines)
    (calls : List (Role × CipherCall)) {e : SentLine} (he : e ∈ (p.run calls).1) :
    e.IsOf session maxLines ∧ (p e.sender).linesSent ≤ e.number ∧
      (e.sender, .encrypt e.line) ∈ calls := by
  induction calls generalizing p with
  | nil => simp [run] at he
  | cons first calls ih =>
      obtain ⟨role, call⟩ := first
      rcases List.mem_append.1 he with he | he
      · have hs : (p role).sentLine? role call = some e := by simpa using he
        have hof := (h role).isOf hs
        obtain ⟨-, -, line, rfl, rfl⟩ := SessionCipher.of_sentLine?_eq_some hs
        exact ⟨hof, Nat.le_refl _, List.mem_cons_self ..⟩
      · obtain ⟨hof, hnum, hmem⟩ := ih (isSide_update h role call) he
        refine ⟨hof, Nat.le_trans ?_ hnum, List.mem_cons_of_mem _ hmem⟩
        exact linesSent_le_update p role call e.sender

/-- No two lines of a run have the same sender and number. -/
theorem pairwise_numbers_run {p : CipherPair} (h : ∀ role, (p role).IsSide session role maxLines)
    (calls : List (Role × CipherCall)) :
    (p.run calls).1.Pairwise fun a b => (a.sender, a.number) ≠ (b.sender, b.number) := by
  induction calls generalizing p with
  | nil => exact List.Pairwise.nil
  | cons first calls ih =>
      obtain ⟨role, call⟩ := first
      have htail := ih (isSide_update h role call)
      simp only [run]
      cases hs : (p role).sentLine? role call with
      | none => simpa using htail
      | some e =>
          refine List.pairwise_cons.2 ⟨?_, htail⟩
          intro b hb heq
          -- the later lines of the sender begin after the one that was just counted
          obtain ⟨-, hnum, -⟩ := sentLines_run (isSide_update h role call) calls hb
          obtain ⟨-, hcount, line, -, rfl⟩ := SessionCipher.of_sentLine?_eq_some hs
          obtain ⟨hsender, hnumber⟩ := Prod.mk.inj heq
          simp only at hsender hnumber
          rw [← hsender, Function.update_self] at hnum
          omega

/-- **No run uses a byte of keystream twice.**  Whatever the two sides of a session are asked to
encrypt and decrypt, in whatever order, every line that is encrypted has the counters of its sender
and its number and is added to the bytes of keystream at its places; any two lines differ in sender
or number and have no counter in common; and no place occurs twice in the whole run. -/
theorem keystream_never_reused (session : SessionKey) (maxLines : UInt64)
    (calls : List (Role × CipherCall))
    (hlen : ∀ role line, (role, .encrypt line) ∈ calls →
      (Text.utf8 line).length ≤ Nat.pow 2 36) :
    let sent := ((start session maxLines).run calls).1
    (∀ e ∈ sent, e.IsOf session maxLines) ∧
      sent.Pairwise (fun a b => (a.sender, a.number) ≠ (b.sender, b.number) ∧
        List.Disjoint a.counters b.counters) ∧
      (sent.flatMap SentLine.places).Nodup := by
  intro sent
  have hside : ∀ role, (start session maxLines role).IsSide session role maxLines :=
    fun role => ⟨rfl, rfl, rfl, rfl⟩
  have hsent := fun e he => sentLines_run hside calls (e := e) he
  have hshort : ∀ e ∈ sent, (Text.utf8 e.line).length ≤ Nat.pow 2 36 :=
    fun e he => hlen _ _ (hsent e he).2.2
  have hpairs : sent.Pairwise fun a b => (a.sender, a.number) ≠ (b.sender, b.number) ∧
      List.Disjoint a.counters b.counters := by
    refine (pairwise_numbers_run hside calls).imp_of_mem ?_
    intro a b ha hb hne
    have hlimit := maxLines.toNat_lt
    have hna : a.number < Nat.pow 2 64 := Nat.lt_trans (hsent a ha).1.number_lt hlimit
    have hnb : b.number < Nat.pow 2 64 := Nat.lt_trans (hsent b hb).1.number_lt hlimit
    refine ⟨hne, ?_⟩
    rw [SentLine.counters, SentLine.counters, (hsent a ha).1.start_eq, (hsent b hb).1.start_eq]
    exact disjoint_counters_of_ne session.iv hna hnb (hshort a ha) (hshort b hb) hne
  refine ⟨fun e he => (hsent e he).1, hpairs, List.nodup_flatMap.2 ⟨?_, ?_⟩⟩
  · intro e he
    exact CounterMode.nodup_places _ (hshort e he)
  · -- one place in two lines would be one counter in two lines
    refine hpairs.imp ?_
    intro a b hab q hqa hqb
    exact hab.2 (CounterMode.fst_mem_counters hqa) (CounterMode.fst_mem_counters hqb)

/-- The same text encrypted three times under one key, at counters about to wrap around. -/
theorem keystream_never_reused_same_text :
    let session : SessionKey := ⟨Vector.replicate 32 7, Vector.replicate 16 255⟩
    let calls : List (Role × CipherCall) :=
      [(.initiator, .encrypt "same"), (.responder, .encrypt "same"), (.initiator, .encrypt "same")]
    (∀ role line, (role, .encrypt line) ∈ calls → (Text.utf8 line).length ≤ Nat.pow 2 36) ∧
      (((start session 2).run calls).1.flatMap SentLine.places).Nodup := by
  intro session calls
  have hlen : ∀ role line, (role, .encrypt line) ∈ calls →
      (Text.utf8 line).length ≤ Nat.pow 2 36 := by
    intro role line h
    have hline : line = "same" := by
      simp only [calls, List.mem_cons, Prod.mk.injEq, CipherCall.encrypt.injEq, List.not_mem_nil,
        or_false] at h
      rcases h with ⟨-, h⟩ | ⟨-, h⟩ | ⟨-, h⟩ <;> exact h
    subst hline
    decide
  exact ⟨hlen, (keystream_never_reused session 2 calls hlen).2.2⟩

end CipherPair

end LineChat
