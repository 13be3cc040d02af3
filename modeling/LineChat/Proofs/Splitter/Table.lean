/-
**Markers that can be told apart.**

A marker is registered only if it is not empty and no other one but the empty marker is its start
or starts with it.  So at most one marker that is not empty opens a line, and the marker that the
line belongs to is longer than every other one that opens it.  It does not depend on the order in
which the table lists its markers.

Main definitions:

* `LineChat.MarkerTable.add` — a table with one marker more;
* `LineChat.MarkerTable.linesOf` — the lines that wait for a marker;
* `LineChat.LongestOpening` — the longest of some markers that a line starts with;
* `LineChat.MarkerTable.PrefixFree` — **the invariant of a table**;
* `LineChat.MarkerTable.Unambiguous` — a table that leaves no choice where a line goes.

Main results:

* `LineChat.MarkerTable.linesOf_push`, `LineChat.MarkerTable.linesOf_setQueue`,
  `LineChat.MarkerTable.linesOf_add` — what the operations do to the lines that wait;
* `LineChat.MarkerTable.PrefixFree.register` — registering keeps the invariant;
* `LineChat.MarkerTable.PrefixFree.eq_of_opens` — **one marker at most opens a line**;
* `LineChat.MarkerTable.owner?_eq_some_iff` — the marker that a line belongs to;
* `LineChat.MarkerTable.PrefixFree.owner?_of_perm` — **the order of the table does not matter**.
-/

import LineChat.Splitter.Table
import Mathlib.Data.List.Induction
import Mathlib.Data.List.Nodup

set_option autoImplicit false

namespace LineChat

/-! ### Texts that start with a text -/

theorem Text.opens_iff_prefix {opening text : String} :
    Text.opens opening text = true ↔ opening.toList <+: text.toList :=
  List.isPrefixOf_iff_prefix

theorem Text.opens_iff {opening text : String} :
    Text.opens opening text = true ↔ ∃ rest, text = opening ++ rest := by
  rw [Text.opens_iff_prefix]
  constructor
  · rintro ⟨rest, hrest⟩
    refine ⟨String.ofList rest, String.toList_inj.1 ?_⟩
    rw [String.toList_append, String.toList_ofList, hrest]
  · rintro ⟨rest, rfl⟩
    rw [String.toList_append]
    exact List.prefix_append ..

@[simp] theorem Text.opens_catchAll (text : String) : Text.opens catchAll text = true :=
  Text.opens_iff_prefix.2 List.nil_prefix

@[simp] theorem Text.behind_append (opening rest : String) :
    Text.behind opening (opening ++ rest) = rest := by
  rw [Text.behind, String.toList_append, List.drop_left, String.ofList_toList]

/-- A text that opens another one of no greater size is that text. -/
theorem Text.eq_of_opens {a b : String} (h : Text.opens a b = true)
    (hle : b.utf8ByteSize ≤ a.utf8ByteSize) : a = b := by
  obtain ⟨rest, rfl⟩ := Text.opens_iff.1 h
  have hrest : rest.utf8ByteSize = 0 := by
    rw [String.utf8ByteSize_append] at hle
    omega
  rw [String.utf8ByteSize_eq_zero_iff.1 hrest, String.append_empty]

/-- Of two texts that open a line the longer one starts with the other. -/
theorem Text.opens_of_size_le {a b line : String} (ha : Text.opens a line = true)
    (hb : Text.opens b line = true) (hle : a.utf8ByteSize ≤ b.utf8ByteSize) :
    Text.opens a b = true := by
  rw [Text.opens_iff_prefix] at ha hb
  rcases List.prefix_or_prefix_of_prefix ha hb with hab | hba
  · exact Text.opens_iff_prefix.2 hab
  · obtain rfl := Text.eq_of_opens (Text.opens_iff_prefix.2 hba) hle
    exact Text.opens_iff_prefix.2 List.prefix_rfl

namespace MarkerTable

variable {t : MarkerTable} {m n line : String}

/-! ### Looking up -/

theorem contains_iff : t.contains m = true ↔ m ∈ t.markers := List.contains_iff_mem

theorem queue?_eq_none_iff : t.queue? m = none ↔ m ∉ t.markers := by
  rw [queue?, Option.map_eq_none_iff, List.find?_eq_none, markers, List.mem_map]
  constructor
  · rintro h ⟨q, hq, rfl⟩
    exact h q hq (beq_self_eq_true _)
  · intro h q hq heq
    exact h ⟨q, hq, eq_of_beq heq⟩

theorem mem_markers_of_queue? {lines : List String} (h : t.queue? m = some lines) :
    m ∈ t.markers := by
  by_contra hm
  rw [queue?_eq_none_iff.2 hm] at h
  cases h

theorem mem_of_queue? {lines : List String} (h : t.queue? m = some lines) :
    (m, lines) ∈ t.queues := by
  obtain ⟨q, hq, rfl⟩ := Option.map_eq_some_iff.1 h
  have hm : q.1 = m := by simpa using List.find?_some hq
  rw [← hm]
  exact List.mem_of_find?_eq_some hq

/-- **The lines that wait for a marker**, none if it is not registered. -/
def linesOf (t : MarkerTable) (m : String) : List String := (t.queue? m).getD []

theorem queue?_eq_some_linesOf (h : m ∈ t.markers) : t.queue? m = some (t.linesOf m) := by
  cases hq : t.queue? m with
  | none => exact absurd h (queue?_eq_none_iff.1 hq)
  | some lines => rw [linesOf, hq, Option.getD_some]

/-! ### Registering a marker -/

/-- A table with one marker more, for which no line waits. -/
def add (t : MarkerTable) (m : String) : MarkerTable := ⟨t.queues ++ [(m, [])]⟩

@[simp] theorem markers_add (t : MarkerTable) (m : String) :
    (t.add m).markers = t.markers ++ [m] := by
  simp [markers, add]

theorem queue?_add (t : MarkerTable) (m n : String) :
    (t.add m).queue? n = (t.queue? n).or (if n = m then some [] else none) := by
  simp only [queue?, add, List.find?_append, Option.map_or]
  by_cases h : n = m
  · simp [h]
  · simp [h, Ne.symm h]

@[simp] theorem linesOf_add (t : MarkerTable) (m n : String) :
    (t.add m).linesOf n = t.linesOf n := by
  rw [linesOf, linesOf, queue?_add]
  cases t.queue? n with
  | some lines => rfl
  | none => by_cases h : n = m <;> simp [h]

theorem register_eq_ok_iff {t' : MarkerTable} :
    t.register m = .ok t' ↔
      m ≠ catchAll ∧ (∀ n ∈ t.markers, n ≠ catchAll → conflict n m = false) ∧ t' = t.add m := by
  rw [register]
  by_cases hm : m = catchAll
  · simp [hm]
  · rw [if_neg hm]
    cases hfind : t.markers.find? fun n => n ≠ catchAll && conflict n m with
    | some existing =>
        have hmem := List.mem_of_find?_eq_some hfind
        have hconflict := List.find?_some hfind
        simp only [ne_eq, decide_not, Bool.and_eq_true, Bool.not_eq_true',
          decide_eq_false_iff_not] at hconflict
        constructor
        · intro h
          cases h
        · rintro ⟨-, hfree, -⟩
          rw [hfree existing hmem hconflict.1] at hconflict
          exact absurd hconflict.2 Bool.false_ne_true
    | none =>
        rw [List.find?_eq_none] at hfind
        constructor
        · intro h
          cases h
          exact ⟨hm, fun n hn hne => by simpa [hne] using hfind n hn, rfl⟩
        · rintro ⟨-, -, rfl⟩
          rfl

/-- A marker that can be registered is not there yet: it would be the start of itself. -/
theorem notMem_of_register {t' : MarkerTable} (h : t.register m = .ok t') : m ∉ t.markers := by
  obtain ⟨hne, hfree, -⟩ := register_eq_ok_iff.1 h
  intro hmem
  have hself : Text.opens m m = true := Text.opens_iff_prefix.2 List.prefix_rfl
  simpa [conflict, hself] using hfree m hmem hne

/-! ### Lines that come and go -/

theorem linesOf_push (h : m ∈ t.markers) (n : String) :
    (t.push m line).linesOf n = if n = m then t.linesOf n ++ [line] else t.linesOf n := by
  rw [linesOf, queue?_push]
  by_cases hn : n = m
  · rw [if_pos hn, if_pos hn, hn, queue?_eq_some_linesOf h]
    rfl
  · rw [if_neg hn, if_neg hn, linesOf]

@[simp] theorem markers_setQueue (t : MarkerTable) (m : String) (lines : List String) :
    (t.setQueue m lines).markers = t.markers := by
  simp only [markers, setQueue, List.map_map]
  refine List.map_congr_left fun q _ => ?_
  by_cases h : q.1 = m <;> simp [h]

theorem queue?_setQueue (t : MarkerTable) (m : String) (lines : List String) (n : String) :
    (t.setQueue m lines).queue? n =
      if n = m then (t.queue? n).map fun _ => lines else t.queue? n := by
  unfold queue? setQueue
  rw [find?_map_key _ _ _ (by intro q; by_cases h : q.1 = m <;> simp [h])]
  cases hq : t.queues.find? (·.1 == n) with
  | none => simp
  | some q =>
      have hn : q.1 = n := by simpa using List.find?_some hq
      by_cases h : n = m
      · simp [h, hn]
      · simp [h, hn]

theorem linesOf_setQueue {lines : List String} (h : m ∈ t.markers) (n : String) :
    (t.setQueue m lines).linesOf n = if n = m then lines else t.linesOf n := by
  rw [linesOf, queue?_setQueue]
  by_cases hn : n = m
  · rw [if_pos hn, if_pos hn, hn, queue?_eq_some_linesOf h]
    rfl
  · rw [if_neg hn, if_neg hn, linesOf]

theorem pop_eq_some_iff {t' : MarkerTable} :
    t.pop m = some (line, t') ↔
      ∃ rest, t.queue? m = some (line :: rest) ∧ t' = t.setQueue m rest := by
  rw [pop]
  split
  · rename_i first rest hq
    simp only [hq, Option.some.injEq, Prod.mk.injEq, List.cons.injEq]
    constructor
    · rintro ⟨rfl, rfl⟩
      exact ⟨rest, ⟨rfl, rfl⟩, rfl⟩
    · rintro ⟨rest', ⟨rfl, rfl⟩, rfl⟩
      exact ⟨rfl, rfl⟩
  · rename_i hq
    constructor
    · intro h
      cases h
    · rintro ⟨rest, h, -⟩
      exact absurd h (hq line rest)

theorem pop_eq_none_iff : t.pop m = none ↔ t.linesOf m = [] := by
  rw [pop, linesOf]
  split
  · rename_i first rest hq
    simp [hq]
  · rename_i hq
    cases h : t.queue? m with
    | none => simp
    | some lines =>
        cases lines with
        | nil => simp
        | cons first rest => exact absurd h (hq first rest)

end MarkerTable

/-! ### The marker that a line belongs to -/

/-- **The longest of some markers that a line starts with**, in bytes, with no other one as
long. -/
structure LongestOpening (markers : List String) (line m : String) : Prop where
  mem : m ∈ markers
  opens : Text.opens m line = true
  longest : ∀ n ∈ markers, Text.opens n line = true → n ≠ m → n.utf8ByteSize < m.utf8ByteSize

theorem LongestOpening.unique {markers : List String} {line m n : String}
    (hm : LongestOpening markers line m) (hn : LongestOpening markers line n) : m = n := by
  by_contra hne
  have h₁ := hm.longest n hn.mem hn.opens (Ne.symm hne)
  have h₂ := hn.longest m hm.mem hm.opens hne
  omega

theorem LongestOpening.congr {markers markers' : List String} {line m : String}
    (h : ∀ n, n ∈ markers' ↔ n ∈ markers) (hm : LongestOpening markers line m) :
    LongestOpening markers' line m :=
  ⟨(h m).2 hm.mem, hm.opens, fun n hn => hm.longest n ((h n).1 hn)⟩

namespace MarkerTable

variable {t : MarkerTable} {m n line : String}

theorem longest_spec (texts : List String) :
    (texts = [] ∧ longest texts = none) ∨
      ∃ m ∈ texts, longest texts = some m ∧ ∀ n ∈ texts, n.utf8ByteSize ≤ m.utf8ByteSize := by
  -- the fold keeps the last of the longest texts, so the induction takes texts off the end
  induction texts using List.reverseRec with
  | nil => exact Or.inl ⟨rfl, rfl⟩
  | append_singleton texts last ih =>
      refine Or.inr ?_
      rw [longest, List.foldl_append, ← longest]
      rcases ih with ⟨rfl, hnone⟩ | ⟨best, hmem, hbest, hmax⟩
      · rw [hnone]
        exact ⟨last, by simp, rfl, by simp⟩
      · rw [hbest]
        by_cases hle : best.utf8ByteSize ≤ last.utf8ByteSize
        · refine ⟨last, by simp, by simp [hle], fun n hn => ?_⟩
          rcases List.mem_append.1 hn with hn | hn
          · exact Nat.le_trans (hmax n hn) hle
          · exact Nat.le_of_eq (congrArg _ (List.mem_singleton.1 hn))
        · refine ⟨best, List.mem_append_left _ hmem, by simp [hle], fun n hn => ?_⟩
          rcases List.mem_append.1 hn with hn | hn
          · exact hmax n hn
          · rw [List.mem_singleton.1 hn]
            omega

theorem mem_openings : m ∈ t.markers.filter (fun m => Text.opens m line) ↔
    m ∈ t.markers ∧ Text.opens m line = true :=
  List.mem_filter

theorem longestOpening_of_owner? (h : t.owner? line = some m) :
    LongestOpening t.markers line m := by
  rcases longest_spec (t.markers.filter fun m => Text.opens m line) with
    ⟨-, hnone⟩ | ⟨m', hmem, hsome, hmax⟩
  · rw [owner?, hnone] at h
    cases h
  · rw [owner?, hsome] at h
    obtain rfl : m' = m := Option.some.inj h
    obtain ⟨hmem, hopens⟩ := mem_openings.1 hmem
    refine ⟨hmem, hopens, fun n hn hno hne => ?_⟩
    have hle := hmax n (mem_openings.2 ⟨hn, hno⟩)
    -- two openings of the same size are the same text
    exact Nat.lt_of_le_of_ne hle fun heq =>
      hne (Text.eq_of_opens (Text.opens_of_size_le hno hopens hle) (Nat.le_of_eq heq.symm))

/-- A line that a marker opens belongs to one. -/
theorem exists_owner_of_opens (hm : m ∈ t.markers) (ho : Text.opens m line = true) :
    ∃ m, t.owner? line = some m := by
  rcases longest_spec (t.markers.filter fun m => Text.opens m line) with
    ⟨hnil, -⟩ | ⟨m', -, hsome, -⟩
  · have hmem := mem_openings.2 ⟨hm, ho⟩
    rw [hnil] at hmem
    cases hmem
  · exact ⟨m', hsome⟩

/-- **The marker that a line belongs to** is the longest one that it starts with. -/
theorem owner?_eq_some_iff : t.owner? line = some m ↔ LongestOpening t.markers line m := by
  refine ⟨longestOpening_of_owner?, fun hm => ?_⟩
  obtain ⟨m', hsome⟩ := exists_owner_of_opens hm.mem hm.opens
  rw [hsome, (longestOpening_of_owner? hsome).unique hm]

/-- **The invariant of a table**: the empty marker is there, no marker is there twice, and of the
others none is the start of another. -/
structure PrefixFree (t : MarkerTable) : Prop where
  catchAll_mem : catchAll ∈ t.markers
  nodup : t.markers.Nodup
  disjoint : ∀ m ∈ t.markers, ∀ n ∈ t.markers, m ≠ catchAll → n ≠ catchAll →
    Text.opens m n = true → m = n

namespace PrefixFree

theorem start : PrefixFree {} :=
  ⟨by simp [markers], by simp [markers], by simp [markers]⟩

theorem congr {t' : MarkerTable} (h : t.PrefixFree) (hmarkers : t'.markers = t.markers) :
    t'.PrefixFree := by
  constructor <;> rw [hmarkers]
  exacts [h.catchAll_mem, h.nodup, h.disjoint]

/-- **Registering keeps the invariant**, since it looks for conflicts in both directions. -/
theorem register {t' : MarkerTable} (h : t.PrefixFree) (hm : t.register m = .ok t') :
    t'.PrefixFree := by
  have hnew := notMem_of_register hm
  obtain ⟨hne, hfree, rfl⟩ := register_eq_ok_iff.1 hm
  have hopens : ∀ n ∈ t.markers, n ≠ catchAll → ¬ (Text.opens n m = true ∨ Text.opens m n = true) :=
    fun n hn hn' => by simpa [conflict] using hfree n hn hn'
  constructor
  · rw [markers_add]
    exact List.mem_append_left _ h.catchAll_mem
  · rw [markers_add]
    exact h.nodup.append (List.nodup_singleton m) (by simpa using hnew)
  · intro a ha b hb hane hbne hab
    rw [markers_add] at ha hb
    rcases List.mem_append.1 ha with ha | ha <;> rcases List.mem_append.1 hb with hb | hb
    · exact h.disjoint a ha b hb hane hbne hab
    · rw [List.mem_singleton.1 hb] at hab
      exact absurd (Or.inl hab) (hopens a ha hane)
    · rw [List.mem_singleton.1 ha] at hab
      exact absurd (Or.inr hab) (hopens b hb hbne)
    · rw [List.mem_singleton.1 ha, List.mem_singleton.1 hb]

/-- **One marker at most that is not empty opens a line.** -/
theorem eq_of_opens (h : t.PrefixFree) (hm : m ∈ t.markers) (hn : n ∈ t.markers)
    (hmne : m ≠ catchAll) (hnne : n ≠ catchAll) (hmo : Text.opens m line = true)
    (hno : Text.opens n line = true) : m = n := by
  rcases Nat.le_total m.utf8ByteSize n.utf8ByteSize with hle | hle
  · exact h.disjoint m hm n hn hmne hnne (Text.opens_of_size_le hmo hno hle)
  · exact (h.disjoint n hn m hm hnne hmne (Text.opens_of_size_le hno hmo hle)).symm

/-- Every line belongs to a marker, since the empty one opens it. -/
theorem exists_owner (h : t.PrefixFree) (line : String) :
    ∃ m, t.owner? line = some m ∧ LongestOpening t.markers line m := by
  obtain ⟨m, hsome⟩ := exists_owner_of_opens h.catchAll_mem (Text.opens_catchAll line)
  exact ⟨m, hsome, owner?_eq_some_iff.1 hsome⟩

/-- **The order of the table does not matter** for the marker that a line belongs to. -/
theorem owner?_of_perm {order : MarkerTable} (h : t.PrefixFree)
    (hp : order.queues.Perm t.queues) (line : String) : order.owner? line = t.owner? line := by
  obtain ⟨m, hsome, hlongest⟩ := h.exists_owner line
  have hmem : ∀ n, n ∈ order.markers ↔ n ∈ t.markers := fun n => (hp.map _).mem_iff
  rw [hsome]
  exact owner?_eq_some_iff.2 (hlongest.congr hmem)

/-- Nor does it matter for the queue that a marker has. -/
theorem queue?_of_perm {order : MarkerTable} (h : t.PrefixFree)
    (hp : order.queues.Perm t.queues) (m : String) : order.queue? m = t.queue? m := by
  by_cases hm : m ∈ t.markers
  · have horder : m ∈ order.markers := (hp.map _).mem_iff.2 hm
    have hmem := hp.mem_iff.1 (mem_of_queue? (queue?_eq_some_linesOf horder))
    have heq := List.inj_on_of_nodup_map h.nodup hmem
      (mem_of_queue? (queue?_eq_some_linesOf hm)) rfl
    rw [queue?_eq_some_linesOf horder, queue?_eq_some_linesOf hm]
    exact congrArg some (congrArg Prod.snd heq)
  · have horder : m ∉ order.markers := fun ho => hm ((hp.map _).mem_iff.1 ho)
    rw [queue?_eq_none_iff.2 hm, queue?_eq_none_iff.2 horder]

end PrefixFree

/-- **A table that leaves no choice** where a line goes: the markers can be told apart, and whatever
the order in which they are looked through, each line has the same marker and the same queue. -/
structure Unambiguous (t : MarkerTable) : Prop extends PrefixFree t where
  at_most_one : ∀ line, ∀ m ∈ t.markers, ∀ n ∈ t.markers, m ≠ catchAll → n ≠ catchAll →
    Text.opens m line = true → Text.opens n line = true → m = n
  any_order : ∀ order : MarkerTable, order.queues.Perm t.queues → ∀ line, ∃ m lines,
    LongestOpening t.markers line m ∧
      (t.owner? line = some m ∧ t.queue? m = some lines) ∧
      (order.owner? line = some m ∧ order.queue? m = some lines)

theorem PrefixFree.unambiguous (h : t.PrefixFree) : t.Unambiguous where
  toPrefixFree := h
  at_most_one _ _ hm _ hn hmne hnne := h.eq_of_opens hm hn hmne hnne
  any_order order hp line := by
    obtain ⟨m, hsome, hlongest⟩ := h.exists_owner line
    have hq := queue?_eq_some_linesOf hlongest.mem
    exact ⟨m, t.linesOf m, hlongest, ⟨hsome, hq⟩, (h.owner?_of_perm hp line).trans hsome,
      (h.queue?_of_perm hp m).trans hq⟩

end MarkerTable

end LineChat
