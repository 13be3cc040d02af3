/-
**A configuration document is read as it is written.**

A written document has groups, with an empty line between two of them; a group is a header with
lines under it that give a name its text or its number.  Such a document is read line by line into
one table for each group, which holds the values of its lines.  The places where values stand differ
from what was in front of them; everything else is as it was written.

Main definitions:

* `LineChat.Toml.Spells` — what is written for a value;
* `LineChat.Toml.Group`, `LineChat.Toml.Group.Spelled` — **groups, and what is written for them**;
* `LineChat.Toml.Holds`, `LineChat.Toml.HoldsGroups` — tables with given values.

Main results:

* `LineChat.Toml.spells_text`, `LineChat.Toml.spells_integer` — values as they are written;
* `LineChat.Toml.takeStatement_header`, `LineChat.Toml.takeStatement_entry` — single lines;
* `LineChat.Toml.parse?_groups` — **the document as a whole**.
-/

import LineChat.Proofs.Toml.Quantity
import LineChat.Proofs.Toml.Quoted
import LineChat.Toml.Document
import Mathlib.Data.List.Forall2

set_option autoImplicit false

namespace LineChat.Toml

open Text (Stops)

variable {rest : List Char}

/-! ### Values -/

/-- **What is written for a value**, which is read as that value up to the end of the line. -/
structure Spells (cs : List Char) (value : Scalar) : Prop where
  /-- It starts neither with a blank nor like a list or a table. -/
  starts : ∃ c more, cs = c :: more ∧ isBlank c = false ∧ c ≠ '[' ∧ c ≠ '{'
  taken : ∀ rest, takeScalar (cs ++ '\n' :: rest) = some (value, '\n' :: rest)

theorem spells_text (s : String) : Spells (renderText s).toList (.text s) where
  starts := by
    obtain ⟨c, more, htext, hmark⟩ := exists_renderText_eq_cons s
    refine ⟨c, more, htext, ?_⟩
    simp only [isMark, Bool.or_eq_true, decide_eq_true_eq] at hmark
    rcases hmark with rfl | rfl <;> decide
  taken := fun rest => by
    rw [takeScalar, takeText_renderText s (.cons (by decide))]

/-- A digit starts neither a text nor a truth value. -/
theorem takeScalar_digit {c : Char} (hc : Text.isDigit 10 c = true) (cs : List Char) :
    takeScalar (c :: cs) = takeQuantity (c :: cs) := by
  have hne : ∀ d, Text.isDigit 10 d = false → c ≠ d := fun d => Text.ne_of_isDigit hc
  have htext : takeText (c :: cs) = none := by
    rw [takeText, takeLine]
    · exact fun _ h => hne _ (by decide) (List.cons.inj h).1
    · exact fun _ h => hne _ (by decide) (List.cons.inj h).1
    · exact fun _ h => hne _ (by decide) (List.cons.inj h).1
    · exact fun _ h => hne _ (by decide) (List.cons.inj h).1
  have htruth : takeTruth (c :: cs) = none := by
    have ht : 't' ≠ c := (hne _ (by decide)).symm
    have hf : 'f' ≠ c := (hne _ (by decide)).symm
    simp [takeTruth, Text.expectAll, ht, hf]
  rw [takeScalar, htext, htruth]

theorem spells_integer {n : Nat} (hn : n ≤ maxInteger) : Spells n.repr.toList (.integer n) := by
  obtain ⟨c, more, hdigits, hc⟩ := Text.exists_toDigits_eq_cons (by decide : 1 < 10) (by decide) n
  have hne : ∀ d, Text.isDigit 10 d = false → c ≠ d := fun d => Text.ne_of_isDigit hc
  rw [Nat.toList_repr]
  constructor
  · refine ⟨c, more, hdigits, ?_, hne _ (by decide), hne _ (by decide)⟩
    simp [isBlank, hne ' ' (by decide), hne '\t' (by decide)]
  · intro rest
    have htaken : takeQuantity (Nat.toDigits 10 n ++ '\n' :: rest) =
        some (.integer n, '\n' :: rest) := takeQuantity_digits hn
    rw [hdigits, List.cons_append] at htaken ⊢
    rw [takeScalar_digit hc, htaken]

/-! ### Names -/

/-- A name that stands without marks. -/
def IsBareName (name : String) : Prop := name.toList ≠ [] ∧ ∀ c ∈ name.toList, isBare c = true

theorem isBareName_ofList {cs : List Char} (hne : cs ≠ []) (h : cs.all isBare = true) :
    IsBareName (String.ofList cs) := by
  rw [IsBareName, String.toList_ofList]
  exact ⟨hne, List.all_eq_true.1 h⟩

variable {name : String}

/-- A character of a name is no blank, opens and closes nothing, and starts no comment. -/
theorem ne_of_isBare {c d : Char} (hc : isBare c = true) (hd : isBare d = false) : c ≠ d := by
  rintro rfl
  exact Bool.false_ne_true (hd.symm.trans hc)

theorem IsBareName.exists_cons (h : IsBareName name) :
    ∃ c cs, name.toList = c :: cs ∧ isBare c = true := by
  obtain ⟨hne, hbare⟩ := h
  cases hname : name.toList with
  | nil => exact absurd hname hne
  | cons c cs => exact ⟨c, cs, rfl, hbare c (hname ▸ List.mem_cons_self ..)⟩

/-- A text that does not start with a blank has none to drop. -/
theorem dropBlanks_of_stops {cs : List Char} (h : Stops isBlank cs) : dropBlanks cs = cs :=
  h.dropWhile_eq

theorem IsBareName.dropBlanks (h : IsBareName name) (rest : List Char) :
    dropBlanks (name.toList ++ rest) = name.toList ++ rest := by
  obtain ⟨c, cs, hname, hc⟩ := h.exists_cons
  rw [hname, List.cons_append]
  refine dropBlanks_of_stops (.cons ?_)
  simp [isBlank, ne_of_isBare hc (by decide : isBare ' ' = false),
    ne_of_isBare hc (by decide : isBare '\t' = false)]

theorem takeName_bare (h : IsBareName name) (hrest : Stops isBare rest) :
    takeName (name.toList ++ rest) = some (name, rest) := by
  have hline : takeLine (name.toList ++ rest) = none := by
    obtain ⟨c, cs, hname, hc⟩ := h.exists_cons
    rw [hname, List.cons_append, takeLine]
    · exact fun _ heq => ne_of_isBare hc (by decide) (List.cons.inj heq).1
    · exact fun _ heq => ne_of_isBare hc (by decide) (List.cons.inj heq).1
  rw [takeName, hline]
  simp [Text.takeWhile_append_of_stops h.2 hrest, Text.dropWhile_append_of_stops h.2 hrest, h.1]

/-- **A name without marks is taken** with the blanks behind it, and is the whole path. -/
theorem takePath_bare (h : IsBareName name) (hrest : Stops isBare rest) {behind : List Char}
    (hblanks : dropBlanks rest = behind) (hpoint : Text.expect '.' behind = none) (count : Nat) :
    ∃ key, key.name = name ∧
      takePath (count + 1) (name.toList ++ rest) = some (([], key), behind) := by
  refine ⟨⟨name, ⟨name.toList ++ rest, rest⟩⟩, rfl, ?_⟩
  simp [takePath, takeKey, h.dropBlanks, takeName_bare h hrest, hblanks, hpoint]

/-! ### Lines -/

theorem takeLineEnd_break (rest : List Char) : takeLineEnd ('\n' :: rest) = some rest := rfl

/-- A line that starts with a name, or opens a header, does not end there. -/
theorem takeLineEnd_eq_none {c : Char} (hc : isBare c = true ∨ c = '[') (cs : List Char) :
    takeLineEnd (c :: cs) = none := by
  have hne : ∀ d, isBare d = false → d ≠ '[' → c ≠ d := by
    intro d hd hbracket
    rcases hc with hc | rfl
    · exact ne_of_isBare hc hd
    · exact hbracket.symm
  have hblank : Stops isBlank (c :: cs) := by
    refine .cons ?_
    simp [isBlank, hne ' ' (by decide) (by decide), hne '\t' (by decide) (by decide)]
  rw [takeLineEnd, dropBlanks_of_stops hblank, skipComment]
  · simp only
    rw [takeBreak]
    · exact fun _ heq => hne _ (by decide) (by decide) (List.cons.inj heq).1
    · exact fun _ heq => hne _ (by decide) (by decide) (List.cons.inj heq).1
  · exact fun _ heq => hne _ (by decide) (by decide) (List.cons.inj heq).1

/-- An empty line says nothing. -/
theorem takeStatement_break (rest : List Char) :
    takeStatement ('\n' :: rest) = some (none, rest) := rfl

/-- **A header opens the table of its name.** -/
theorem takeStatement_header (h : IsBareName name) (rest : List Char) :
    ∃ key span, key.name = name ∧
      takeStatement ('[' :: (name.toList ++ ']' :: '\n' :: rest)) =
        some (some (.header false [] key span), rest) := by
  obtain ⟨key, hkey, hpath⟩ : ∃ key, key.name = name ∧
      takePath depthLimit (name.toList ++ ']' :: '\n' :: rest) =
        some (([], key), ']' :: '\n' :: rest) :=
    takePath_bare h (.cons (by decide)) rfl rfl 78
  have hsingle : Text.expect '[' (name.toList ++ ']' :: '\n' :: rest) = none := by
    obtain ⟨c, cs, hname, hc⟩ := h.exists_cons
    rw [hname, List.cons_append, Text.expect, if_neg (ne_of_isBare hc (by decide))]
  have hblanks : dropBlanks ('[' :: (name.toList ++ ']' :: '\n' :: rest)) =
      '[' :: (name.toList ++ ']' :: '\n' :: rest) := rfl
  refine ⟨key, ⟨'[' :: (name.toList ++ ']' :: '\n' :: rest), '\n' :: rest⟩, hkey, ?_⟩
  rw [takeStatement, takeLineEnd_eq_none (Or.inr rfl)]
  simp [hblanks, takeHeader, hsingle, hpath, takeLineEnd_break]

/-- **A name with a value gives it that value.** -/
theorem takeStatement_entry (h : IsBareName name) {cs : List Char} {value : Scalar}
    (hvalue : Spells cs value) (rest : List Char) :
    ∃ key span, key.name = name ∧
      takeStatement (name.toList ++ ' ' :: '=' :: ' ' :: (cs ++ '\n' :: rest)) =
        some (some (.entry [] key (.scalar span value)), rest) := by
  obtain ⟨key, hkey, hpath⟩ : ∃ key, key.name = name ∧
      takePath depthLimit (name.toList ++ ' ' :: '=' :: ' ' :: (cs ++ '\n' :: rest)) =
        some (([], key), '=' :: ' ' :: (cs ++ '\n' :: rest)) :=
    takePath_bare h (.cons (by decide)) rfl rfl 78
  obtain ⟨v, more, hcs, hblank, hlist, htable⟩ := hvalue.starts
  have hskip : dropBlanks (' ' :: (cs ++ '\n' :: rest)) = cs ++ '\n' :: rest := by
    rw [hcs]
    exact dropBlanks_of_stops (.cons hblank)
  have htaken : takeValue depthLimit (cs ++ '\n' :: rest) =
      some (.scalar ⟨cs ++ '\n' :: rest, '\n' :: rest⟩ value, '\n' :: rest) := by
    have hscalar := hvalue.taken rest
    rw [hcs, List.cons_append] at hscalar ⊢
    rw [depthLimit, takeValue, List.head?_cons, hscalar]
    split
    case h_1 heq => exact absurd (Option.some.inj heq) hlist
    case h_2 heq => exact absurd (Option.some.inj heq) htable
    case h_3 => rfl
  refine ⟨key, ⟨cs ++ '\n' :: rest, '\n' :: rest⟩, hkey, ?_⟩
  have hentry : takeEntry (takeValue depthLimit)
      (name.toList ++ ' ' :: '=' :: ' ' :: (cs ++ '\n' :: rest)) =
        some (([], key, .scalar ⟨cs ++ '\n' :: rest, '\n' :: rest⟩ value), '\n' :: rest) := by
    have hbreak : dropBlanks ('\n' :: rest) = '\n' :: rest := rfl
    simp [takeEntry, hpath, hskip, htaken, hbreak]
  have hstart := h.dropBlanks (' ' :: '=' :: ' ' :: (cs ++ '\n' :: rest))
  obtain ⟨c, letters, hname, hc⟩ := h.exists_cons
  rw [hname, List.cons_append] at hentry hstart ⊢
  have hheader : c ≠ '[' := ne_of_isBare hc (by decide)
  rw [takeStatement, takeLineEnd_eq_none (Or.inl hc)]
  simp [hstart, hheader, hentry, takeLineEnd_break]

/-! ### Reading on -/

/-- **A draft with all lines of a text.** -/
def Draft.reading (d : Draft) (cs : List Char) : Option Draft :=
  (statements? cs).bind fun statements => statements.foldlM Draft.add d

theorem Draft.reading_nil (d : Draft) : d.reading [] = some d := by
  rw [reading, statements?, if_pos rfl]
  rfl

/-- **Reading takes one line after the other.** -/
theorem Draft.reading_line {cs : List Char} {said : Option Statement}
    (htaken : takeStatement cs = some (said, rest)) (hless : rest.length < cs.length)
    {d d' : Draft} (hadd : said.elim (some d) d.add = some d') :
    d.reading cs = d'.reading rest := by
  have hcs : cs ≠ [] := by
    rintro rfl
    exact Nat.not_lt_zero _ hless
  unfold reading
  rw [statements?, if_neg hcs, htaken]
  simp only [dif_pos hless]
  cases said with
  | none =>
      obtain rfl : d = d' := Option.some.inj hadd
      cases statements? rest <;> rfl
  | some statement =>
      replace hadd : d.add statement = some d' := hadd
      cases statements? rest with
      | none => rfl
      | some more => simp [hadd]

/-! ### Groups -/

/-- **What a document says under a header.** -/
structure Group where
  name : String
  entries : List (String × Scalar)

/-- The values of a table, one for each name. -/
def Holds (found : List (Key × Node)) (entries : List (String × Scalar)) : Prop :=
  List.Forall₂ (fun e v => e.1.name = v.1 ∧ ∃ span, e.2 = .scalar span v.2) found entries

/-- The tables of a document, one for each group. -/
def HoldsGroups (found : List (Key × Node)) (groups : List Group) : Prop :=
  List.Forall₂ (fun e g => e.1.name = g.name ∧
    ∃ info entries, e.2 = .table info entries ∧ Holds entries g.entries) found groups

theorem Holds.names {found : List (Key × Node)} {entries : List (String × Scalar)}
    (h : Holds found entries) : found.map (·.1.name) = entries.map (·.1) := by
  induction h with
  | nil => rfl
  | cons hhead _ ih => rw [List.map_cons, List.map_cons, hhead.1, ih]

theorem HoldsGroups.names {found : List (Key × Node)} {groups : List Group}
    (h : HoldsGroups found groups) : found.map (·.1.name) = groups.map (·.name) := by
  induction h with
  | nil => rfl
  | cons hhead _ ih => rw [List.map_cons, List.map_cons, hhead.1, ih]

/-- A name that is not there is not found. -/
theorem Table.find?_eq_none {t : Table} (h : name ∉ t.entries.map (·.1.name)) :
    t.find? name = none := by
  have hnone : t.entries.find? (·.1.name == name) = none := by
    rw [List.find?_eq_none]
    intro e he heq
    exact h (List.mem_map.2 ⟨e, he, eq_of_beq heq⟩)
  rw [find?, hnone, Option.map_none]

/-- **A draft whose last table is open** for further values of its group. -/
def Draft.Open (d : Draft) (done : List Group) (g : Group) : Prop :=
  ∃ front key info entries,
    d = { root := { entries := front ++ [(key, .table info entries)] }, path := [key] } ∧
    HoldsGroups front done ∧ key.name = g.name ∧ Holds entries g.entries ∧
    info.isInline = false ∧ info.dotted = false

/-- **A draft with given groups.** -/
def Draft.Shows (d : Draft) (groups : List Group) : Prop :=
  ∃ found, d.root = { entries := found } ∧ HoldsGroups found groups

variable {d : Draft} {done : List Group} {g : Group}

theorem Draft.Open.shows (h : d.Open done g) : d.Shows (done ++ [g]) := by
  obtain ⟨front, key, info, entries, rfl, hfront, hkey, hentries, -, -⟩ := h
  refine ⟨_, rfl, List.rel_append hfront ?_⟩
  exact .cons ⟨hkey, info, entries, rfl, hentries⟩ .nil

/-- **A header with a new name opens a group.** -/
theorem Draft.Shows.header (h : d.Shows done) {key : Key} (hnew : key.name ∉ done.map (·.name))
    (span : Span) :
    ∃ d', d.add (.header false [] key span) = some d' ∧ d'.Open done ⟨key.name, []⟩ := by
  obtain ⟨found, hroot, hfound⟩ := h
  have hnone : d.root.find? key.name = none := by
    refine Table.find?_eq_none ?_
    rw [hroot, hfound.names]
    exact hnew
  refine ⟨{ root := { entries := found ++ [(key, .table { span } [])] }, path := [key] }, ?_,
    found, key, { span }, [], rfl, hfound, rfl, List.Forall₂.nil, rfl, rfl⟩
  have hopened : d.root.opened key span =
      some { entries := found ++ [(key, .table { span } [])] } := by
    rw [Table.opened, hnone]
    simp only [Table.push, hroot]
  simp [add, Table.change, hopened]

/-- **A line with a new name adds its value** to the group that is open. -/
theorem Draft.Open.entry (h : d.Open done g) (hname : g.name ∉ done.map (·.name)) {key : Key}
    (hnew : key.name ∉ g.entries.map (·.1)) (span : Span) (value : Scalar) :
    ∃ d', d.add (.entry [] key (.scalar span value)) = some d' ∧
      d'.Open done { g with entries := g.entries ++ [(key.name, value)] } := by
  obtain ⟨front, header, info, entries, rfl, hfront, hheader, hentries, hinline, hdotted⟩ := h
  have hold : ∀ e ∈ front, e.1.name ≠ header.name := by
    intro e he heq
    exact hname (hfront.names ▸ List.mem_map.2 ⟨e, he, heq.trans hheader⟩)
  -- The line stretches the group up to its end.
  let stretched := (Table.stretchedTo ⟨info, entries⟩ span.finish).info
  have hput : (Table.stretchedTo ⟨info, entries⟩ span.finish).insert [] key (.scalar span value) =
      some ⟨stretched, entries ++ [(key, .scalar span value)]⟩ := by
    have hnone : (Table.stretchedTo ⟨info, entries⟩ span.finish).find? key.name = none :=
      Table.find?_eq_none (hentries.names ▸ hnew)
    simp only [Table.insert, Table.change, hnone]
    rw [if_neg (by simp [Table.stretchedTo, hdotted])]
    rfl
  have hfound : Table.find? { entries := front ++ [(header, .table info entries)] } header.name =
      some (.table info entries) := by
    have hnone : front.find? (·.1.name == header.name) = none := by
      rw [List.find?_eq_none]
      exact fun e he heq => hold e he (eq_of_beq heq)
    simp [Table.find?, List.find?_append, hnone]
  have hset : Table.set { entries := front ++ [(header, .table info entries)] } header.name
      (.table stretched (entries ++ [(key, .scalar span value)])) =
        { entries := front ++
            [(header, .table stretched (entries ++ [(key, .scalar span value)]))] } := by
    have hsame : front.map (fun e => if e.1.name = header.name then
        (e.1, Node.table stretched (entries ++ [(key, .scalar span value)])) else e) = front := by
      refine (List.map_congr_left fun e he => ?_).trans (List.map_id front)
      exact if_neg (hold e he)
    simp [Table.set, hsame]
  refine ⟨{ root := _, path := [header] }, ?_, front, header, stretched,
    entries ++ [(key, .scalar span value)], rfl, hfront, hheader, ?_, hinline, hdotted⟩
  · have hspan : (Node.scalar span value).span? = some span := rfl
    simp only [add, Table.change, hfound, hspan, hput, hinline, Option.bind_eq_bind,
      Option.bind_some, Option.pure_def, Table.toNode, hset]
    simp
  · exact List.rel_append hentries (.cons ⟨rfl, span, rfl⟩ .nil)

/-! ### The text of groups -/

/-- **What is written for the values of a group**, one line for each. -/
inductive Lines : List Char → List (String × Scalar) → Prop where
  | nil : Lines [] []
  | cons {name : String} {cs more : List Char} {value : Scalar}
      {entries : List (String × Scalar)} (bare : IsBareName name) (spells : Spells cs value)
      (lines : Lines more entries) :
      Lines (name.toList ++ ' ' :: '=' :: ' ' :: (cs ++ '\n' :: more)) ((name, value) :: entries)

/-- **What is written for a group**: its header, and its values under it. -/
structure Group.Spelled (g : Group) (cs : List Char) : Prop where
  bare : IsBareName g.name
  distinct : (g.entries.map (·.1)).Nodup
  written : ∃ body, cs = '[' :: (g.name.toList ++ ']' :: '\n' :: body) ∧ Lines body g.entries

/-- Of different names, none stands in front of itself. -/
theorem not_mem_front {α : Type} (name : α → String) {front back : List α} {a : α}
    (h : ((front ++ a :: back).map name).Nodup) : name a ∉ front.map name := by
  rw [List.map_append, List.map_cons, List.nodup_append] at h
  exact fun hmem => h.2.2 _ hmem _ (List.mem_cons_self ..) rfl

/-- The lines of a group are read into it, whatever follows. -/
theorem Draft.Open.lines {cs : List Char} {front entries : List (String × Scalar)}
    (hlines : Lines cs entries) (h : d.Open done ⟨name, front⟩) (hname : name ∉ done.map (·.name))
    (hdistinct : ((front ++ entries).map (·.1)).Nodup) (rest : List Char) :
    ∃ d' : Draft, d.reading (cs ++ rest) = d'.reading rest ∧
      d'.Open done ⟨name, front ++ entries⟩ := by
  induction hlines generalizing d front with
  | nil => exact ⟨d, rfl, by rwa [List.append_nil]⟩
  | @cons entry cs more value entries hbare hspells hlines ih =>
      obtain ⟨key, span, hkey, htaken⟩ := takeStatement_entry hbare hspells (more ++ rest)
      have hnew : key.name ∉ front.map (·.1) := hkey ▸ not_mem_front _ hdistinct
      obtain ⟨d', hadd, hopen⟩ := h.entry hname hnew span value
      rw [hkey] at hopen
      have hfront : front ++ (entry, value) :: entries = front ++ [(entry, value)] ++ entries := by
        rw [List.append_assoc, List.singleton_append]
      rw [hfront] at hdistinct ⊢
      obtain ⟨d'', hreading, hopen'⟩ := ih hopen hdistinct
      refine ⟨d'', ?_, hopen'⟩
      have htext : entry.toList ++ ' ' :: '=' :: ' ' :: (cs ++ '\n' :: more) ++ rest =
          entry.toList ++ ' ' :: '=' :: ' ' :: (cs ++ '\n' :: (more ++ rest)) := by
        simp
      rw [htext, ← hreading]
      exact Draft.reading_line htaken (by simp; omega) hadd

/-- **A group with a new name is read as a table**, whatever follows. -/
theorem Draft.Shows.group {cs : List Char} (h : d.Shows done) (hg : g.Spelled cs)
    (hnew : g.name ∉ done.map (·.name)) (rest : List Char) :
    ∃ d' : Draft, d.reading (cs ++ rest) = d'.reading rest ∧ d'.Shows (done ++ [g]) := by
  obtain ⟨hbare, hdistinct, body, rfl, hlines⟩ := hg
  obtain ⟨key, span, hkey, htaken⟩ := takeStatement_header hbare (body ++ rest)
  obtain ⟨d', hadd, hopen⟩ := h.header (hkey ▸ hnew) span
  rw [hkey] at hopen
  obtain ⟨d'', hreading, hopen'⟩ := Draft.Open.lines hlines hopen hnew hdistinct rest
  refine ⟨d'', ?_, hopen'.shows⟩
  have htext : '[' :: (g.name.toList ++ ']' :: '\n' :: body) ++ rest =
      '[' :: (g.name.toList ++ ']' :: '\n' :: (body ++ rest)) := by
    simp
  rw [htext, ← hreading]
  exact Draft.reading_line htaken (by simp; omega) hadd

/-- **Groups with an empty line between two of them are read as their tables.** -/
theorem Draft.Shows.groups {texts : List (List Char)} {groups : List Group}
    (hgroups : List.Forall₂ Group.Spelled groups texts) (h : d.Shows done)
    (hdistinct : ((done ++ groups).map (·.name)).Nodup) :
    ∃ d', d.reading (['\n'].intercalate texts) = some d' ∧ d'.Shows (done ++ groups) := by
  induction hgroups generalizing d done with
  | nil => exact ⟨d, d.reading_nil, by rwa [List.append_nil]⟩
  | @cons g cs groups texts hg hgroups ih =>
      have hnew : g.name ∉ done.map (·.name) := not_mem_front _ hdistinct
      have hdone : done ++ g :: groups = done ++ [g] ++ groups := by
        rw [List.append_assoc, List.singleton_append]
      rw [hdone] at hdistinct ⊢
      -- Nothing follows the last group; behind any other one there is an empty line.
      cases hgroups with
      | nil =>
          obtain ⟨d', hreading, hshows⟩ := h.group hg hnew []
          rw [List.append_nil, d'.reading_nil] at hreading
          exact ⟨d', by rwa [List.intercalate_singleton], by rwa [List.append_nil]⟩
      | @cons g' cs' groups texts hg' hgroups =>
          obtain ⟨d', hreading, hshows⟩ :=
            h.group hg hnew ('\n' :: ['\n'].intercalate (cs' :: texts))
          obtain ⟨d'', hmore, hshows'⟩ := ih hshows hdistinct
          refine ⟨d'', ?_, hshows'⟩
          rw [List.intercalate_cons_cons, List.append_assoc, List.singleton_append, hreading,
            ← hmore]
          exact Draft.reading_line (takeStatement_break _) (Nat.lt_succ_self _) rfl

/-- **A document is read as it is written.** -/
theorem parse?_groups {text : String} {texts : List (List Char)} {groups : List Group}
    (htext : text.toList = ['\n'].intercalate texts)
    (hgroups : List.Forall₂ Group.Spelled groups texts)
    (hdistinct : (groups.map (·.name)).Nodup) :
    ∃ found, parse? text = some { entries := found } ∧ HoldsGroups found groups := by
  have hempty : Draft.Shows {} [] := ⟨[], rfl, .nil⟩
  obtain ⟨d, hreading, found, hroot, hfound⟩ := hempty.groups hgroups hdistinct
  refine ⟨found, ?_, hfound⟩
  -- A byte order mark in front would be dropped, but a document starts with a header.
  have hmark : ∀ more, text.toList ≠ '\ufeff' :: more := by
    intro more h
    rw [htext] at h
    cases hgroups with
    | nil => exact absurd h (List.cons_ne_nil _ _).symm
    | @cons g cs groups texts hg _ =>
        obtain ⟨-, -, body, rfl, -⟩ := hg
        cases texts with
        | nil => exact absurd (List.cons.inj h).1 (by decide)
        | cons cs' texts => exact absurd (List.cons.inj h).1 (by decide)
  rw [← htext, Draft.reading] at hreading
  obtain ⟨statements, hstatements, hfold⟩ := Option.bind_eq_some_iff.1 hreading
  simp only [parse?, hstatements, hfold, hroot, Option.bind_eq_bind, Option.bind_some,
    Option.pure_def]

end LineChat.Toml
