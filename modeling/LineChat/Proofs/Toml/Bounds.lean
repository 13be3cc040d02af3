/-
**The integers of a configuration document fit.**

Every integer that is read from a document fits into sixty-four bits with a sign, wherever it stands
in lists and tables.  So it can be written to a document again.

Main definitions:

* `LineChat.Text.TakesOnly` — what a reader's values have in common;
* `LineChat.Toml.Node.Fits`, `LineChat.Toml.Table.Fits` — **values whose integers fit**.

Main results:

* `LineChat.Text.takesOnly_separated` — several values read one after the other;
* `LineChat.Toml.Table.Fits.change`, `LineChat.Toml.Table.Fits.insert` — tables;
* `LineChat.Toml.takesOnly_takeValue` — values of any depth;
* `LineChat.Toml.fits_of_parse?` — **a whole document**.
-/

import LineChat.Toml.Document

set_option autoImplicit false

namespace LineChat

/-! ### What readers take -/

namespace Text

/-- **Every value that a reader takes has a property.** -/
def TakesOnly {α : Type} (item : Scan α) (P : α → Prop) : Prop :=
  ∀ cs a rest, item cs = some (a, rest) → P a

theorem takesOnly_separated {α : Type} {item : Scan α} {P : α → Prop} (h : TakesOnly item P)
    (mark : Char) : TakesOnly (separated mark item) fun as => ∀ a ∈ as, P a := by
  intro cs
  fun_induction separated mark item cs with
  | case1 cs hitem => simp
  | case2 cs a rest hitem hmark =>
      rintro as rest' ⟨⟩
      simpa using h cs a rest hitem
  | case3 cs a rest hitem behind hmark hless more rest' hmore ih =>
      rintro as rest'' ⟨⟩
      exact List.forall_mem_cons.2 ⟨h cs a rest hitem, ih more rest' hmore⟩
  | case4 cs a rest hitem behind hmark hless hmore ih =>
      rintro as rest'' ⟨⟩
      simpa using h cs a rest hitem
  | case5 cs a rest hitem behind hmark hless =>
      rintro as rest'' ⟨⟩
      simpa using h cs a rest hitem

end Text

namespace Toml

open Text (TakesOnly)

/-! ### Values that fit -/

/-- A single value that fits, if it is an integer. -/
def Scalar.Fits : Scalar → Prop
  | .integer n => -maxInteger - 1 ≤ n ∧ n ≤ maxInteger
  | _ => True

/-- **A value whose integers fit.** -/
inductive Node.Fits : Node → Prop where
  | scalar {span : Span} {value : Scalar} (fits : value.Fits) : Fits (.scalar span value)
  | array {span : Span} {items : List Node} (fits : ∀ n ∈ items, Fits n) : Fits (.array span items)
  | table {info : TableInfo} {entries : List (Key × Node)} (fits : ∀ e ∈ entries, Fits e.2) :
      Fits (.table info entries)
  | tables {items : List Node} (fits : ∀ n ∈ items, Fits n) : Fits (.tables items)

/-- **A table whose integers fit.** -/
def Table.Fits (t : Table) : Prop := ∀ e ∈ t.entries, e.2.Fits

theorem fitting?_eq_some {n m : Int} (h : fitting? n = some m) :
    -maxInteger - 1 ≤ m ∧ m ≤ maxInteger := by
  unfold fitting? at h
  split at h
  case isTrue hn => exact Option.some.inj h ▸ hn
  case isFalse => exact absurd h (by simp)

theorem takesOnly_takeInteger : TakesOnly takeInteger fun n => Scalar.Fits (.integer n) := by
  intro cs n rest h
  have hbased : ∀ base cs, takeBased base cs = some (n, rest) → Scalar.Fits (.integer n) := by
    intro base cs h
    simp only [takeBased, Option.bind_eq_bind, Option.bind_eq_some_iff, Option.pure_def,
      Option.some.injEq, Prod.mk.injEq] at h
    obtain ⟨digits, -, m, hm, rfl, -⟩ := h
    exact fitting?_eq_some hm
  unfold takeInteger at h
  split at h
  · exact hbased _ _ h
  · exact hbased _ _ h
  · exact hbased _ _ h
  · simp only [Option.bind_eq_bind, Option.bind_eq_some_iff, Option.pure_def, Option.some.injEq,
      Prod.mk.injEq] at h
    obtain ⟨digits, -, m, hm, rfl, -⟩ := h
    exact fitting?_eq_some hm

theorem takesOnly_takeScalar : TakesOnly takeScalar Scalar.Fits := by
  intro cs value rest h
  unfold takeScalar takeQuantity at h
  split at h
  · obtain ⟨rfl, -⟩ : _ ∧ _ := by simpa using h
    trivial
  · split at h
    · obtain ⟨rfl, -⟩ : _ ∧ _ := by simpa using h
      trivial
    · split at h
      · obtain ⟨rfl, -⟩ : _ ∧ _ := by simpa using h
        trivial
      · split at h
        · obtain ⟨rfl, -⟩ : _ ∧ _ := by simpa using h
          trivial
        · obtain ⟨⟨n, rest'⟩, hn, heq⟩ := Option.map_eq_some_iff.1 h
          obtain ⟨rfl, -⟩ : _ ∧ _ := by simpa using heq
          exact takesOnly_takeInteger _ _ _ hn

/-! ### Tables -/

namespace Table.Fits

variable {t t' : Table}

theorem empty (info : TableInfo) : Table.Fits ⟨info, []⟩ := List.forall_mem_nil _

theorem toNode (h : t.Fits) : t.toNode.Fits := .table h

theorem of_node {info : TableInfo} {entries : List (Key × Node)}
    (h : (Node.table info entries).Fits) : Table.Fits ⟨info, entries⟩ := by
  cases h with
  | table fits => exact fits

theorem find (h : t.Fits) {name : String} {n : Node} (hfind : t.find? name = some n) :
    n.Fits := by
  obtain ⟨e, he, rfl⟩ := Option.map_eq_some_iff.1 hfind
  exact h e (List.mem_of_find?_eq_some he)

theorem push (h : t.Fits) (key : Key) {n : Node} (hn : n.Fits) : (t.push key n).Fits := by
  intro e he
  rcases List.mem_append.1 he with he | he
  · exact h e he
  · exact List.mem_singleton.1 he ▸ hn

theorem set (h : t.Fits) (name : String) {n : Node} (hn : n.Fits) : (t.set name n).Fits := by
  intro e he
  obtain ⟨e', he', rfl⟩ := List.mem_map.1 he
  split
  · exact hn
  · exact h e' he'

theorem erase (h : t.Fits) (name : String) : (t.erase name).Fits :=
  fun e he => h e (List.mem_filter.1 he).1

/-- **A change at the end of a path keeps what fits**, if it does so there. -/
theorem change {f : Table → Option Table} (hf : ∀ t t', Fits t → f t = some t' → Fits t')
    (dotted : Bool) (path : List Key) (h : t.Fits) (hchange : t.change dotted f path = some t') :
    t'.Fits := by
  induction path generalizing t t' with
  | nil => exact hf t t' h hchange
  | cons key path ih =>
      rw [Table.change] at hchange
      split at hchange
      case h_1 hfind =>
        simp only [Option.bind_eq_bind, Option.bind_eq_some_iff, Option.pure_def,
          Option.some.injEq] at hchange
        obtain ⟨fresh, hfresh, rfl⟩ := hchange
        exact h.push key (ih (empty _) hfresh).toNode
      case h_2 info entries hfind =>
        split at hchange
        · simp at hchange
        · simp only [Option.bind_eq_bind, Option.bind_eq_some_iff, Option.pure_def,
            Option.some.injEq] at hchange
          obtain ⟨inner, hinner, rfl⟩ := hchange
          exact h.set _ (ih (of_node (h.find hfind)) hinner).toNode
      case h_3 items hfind =>
        -- The path goes on in the last one of several tables.
        have hitems : ∀ n ∈ items, n.Fits := by
          cases h.find hfind with
          | tables fits => exact fits
        split at hchange
        case h_1 info entries hlast =>
          simp only [Option.bind_eq_bind, Option.bind_eq_some_iff, Option.pure_def,
            Option.some.injEq] at hchange
          obtain ⟨last, hinner, rfl⟩ := hchange
          have hfits := (ih (of_node (hitems _ (List.mem_of_getLast? hlast))) hinner).toNode
          refine h.set _ (.tables fun n hn => ?_)
          rcases List.mem_append.1 hn with hn | hn
          · exact hitems n ((List.dropLast_sublist items).subset hn)
          · exact List.mem_singleton.1 hn ▸ hfits
        case h_2 => simp at hchange
      case h_4 => simp at hchange

theorem insert (h : t.Fits) (path : List Key) (key : Key) {n : Node} (hn : n.Fits)
    (hinsert : t.insert path key n = some t') : t'.Fits := by
  refine h.change (fun last last' hlast hpush => ?_) true path hinsert
  split at hpush
  · simp at hpush
  · exact Option.some.inj hpush ▸ hlast.push key hn

theorem opened (h : t.Fits) (key : Key) (span : Span) (hopened : t.opened key span = some t') :
    t'.Fits := by
  unfold Table.opened at hopened
  split at hopened
  case h_1 => exact Option.some.inj hopened ▸ h.push key (empty _).toNode
  case h_2 info entries hfind =>
    split at hopened
    · exact Option.some.inj hopened ▸ (h.erase _).push key (.table (of_node (h.find hfind)))
    · simp at hopened
  case h_3 => simp at hopened

theorem extended (h : t.Fits) (key : Key) (span : Span)
    (hextended : t.extended key span = some t') : t'.Fits := by
  have hempty : (Node.table { span } []).Fits := (empty _).toNode
  unfold Table.extended at hextended
  split at hextended
  case h_1 => exact Option.some.inj hextended ▸ h.push key (.tables (by simpa using hempty))
  case h_2 items hfind =>
    have hitems : ∀ n ∈ items, n.Fits := by
      cases h.find hfind with
      | tables fits => exact fits
    refine Option.some.inj hextended ▸ h.set _ (.tables fun n hn => ?_)
    rcases List.mem_append.1 hn with hn | hn
    · exact hitems n hn
    · exact List.mem_singleton.1 hn ▸ hempty
  case h_3 => simp at hextended

end Table.Fits

/-! ### Values of any depth -/

variable {value : Text.Scan Node}

/-- Of several values, or of none if the first one is not there, each has the property. -/
theorem forall_mem_getD {α : Type} {item : Text.Scan α} {P : α → Prop} (h : TakesOnly item P)
    (mark : Char) (cs : List Char) :
    ∀ a ∈ ((Text.separated mark item cs).getD ([], cs)).1, P a := by
  cases hread : Text.separated mark item cs with
  | none => exact List.forall_mem_nil _
  | some found => exact Text.takesOnly_separated h mark cs found.1 found.2 hread

theorem takesOnly_takeArray (h : TakesOnly value Node.Fits) :
    TakesOnly (takeArray value) Node.Fits := by
  intro cs n rest hread
  simp only [takeArray, Option.bind_eq_bind, Option.bind_eq_some_iff, Option.pure_def,
    Option.some.injEq, Prod.mk.injEq] at hread
  obtain ⟨body, -, behind, -, rfl, -⟩ := hread
  refine .array (forall_mem_getD ?_ ',' body)
  intro cs n rest hitem
  obtain ⟨⟨n', rest'⟩, hvalue, heq⟩ := Option.map_eq_some_iff.1 hitem
  obtain ⟨rfl, -⟩ := Prod.mk.inj heq
  exact h _ _ _ hvalue

theorem takesOnly_takeEntry (h : TakesOnly value Node.Fits) :
    TakesOnly (takeEntry value) fun entry => entry.2.2.Fits := by
  intro cs entry rest hread
  simp only [takeEntry, Option.bind_eq_bind, Option.bind_eq_some_iff, Option.pure_def,
    Option.some.injEq, Prod.mk.injEq] at hread
  obtain ⟨⟨⟨path, key⟩, behind⟩, -, more, -, ⟨n, rest'⟩, hvalue, rfl, -⟩ := hread
  exact h _ _ _ hvalue

/-- What every step of a loop preserves, the whole loop does. -/
theorem foldlM_some_preserves {σ β : Type} {P : σ → Prop} {step : σ → β → Option σ} {bs : List β}
    (hstep : ∀ b ∈ bs, ∀ t t', P t → step t b = some t' → P t') {t t' : σ} (ht : P t)
    (h : bs.foldlM step t = some t') : P t' := by
  induction bs generalizing t with
  | nil => exact Option.some.inj h ▸ ht
  | cons b bs ih =>
      rw [List.foldlM_cons] at h
      obtain ⟨next, hnext, hmore⟩ := Option.bind_eq_some_iff.1 h
      exact ih (fun b hb => hstep b (List.mem_cons_of_mem _ hb))
        (hstep b (List.mem_cons_self ..) t next ht hnext) hmore

theorem takesOnly_takeInline (h : TakesOnly value Node.Fits) :
    TakesOnly (takeInline value) Node.Fits := by
  intro cs n rest hread
  simp only [takeInline, Option.bind_eq_bind, Option.bind_eq_some_iff, Option.pure_def,
    Option.some.injEq, Prod.mk.injEq] at hread
  obtain ⟨body, -, behind, -, table, hfold, rfl, -⟩ := hread
  have hentries := forall_mem_getD (takesOnly_takeEntry h) ',' body
  refine Table.Fits.toNode (foldlM_some_preserves (fun entry hentry t t' ht hinsert => ?_)
    (Table.Fits.empty _) hfold)
  exact ht.insert entry.1 entry.2.1 (hentries entry hentry) hinsert

/-- **Whatever its depth, a value fits.** -/
theorem takesOnly_takeValue (depth : Nat) : TakesOnly (takeValue depth) Node.Fits := by
  -- At the limit of depth, and where neither a list nor a table starts, a single value is taken.
  have hsingle : TakesOnly (fun cs => (takeScalar cs).map fun p =>
      (Node.scalar ⟨cs, p.2⟩ p.1, p.2)) Node.Fits := by
    intro cs n rest hread
    obtain ⟨⟨v, rest'⟩, hscalar, heq⟩ := Option.map_eq_some_iff.1 hread
    obtain ⟨rfl, -⟩ := Prod.mk.inj heq
    exact .scalar (takesOnly_takeScalar _ _ _ hscalar)
  induction depth with
  | zero => exact hsingle
  | succ depth ih =>
      intro cs n rest hread
      rw [takeValue] at hread
      split at hread
      · exact takesOnly_takeArray ih _ _ _ hread
      · exact takesOnly_takeInline ih _ _ _ hread
      · exact hsingle _ _ _ hread

/-! ### Documents -/

/-- What a line says fits. -/
def Statement.Fits : Statement → Prop
  | .header _ _ _ _ => True
  | .entry _ _ value => value.Fits

theorem takesOnly_takeHeader : TakesOnly takeHeader Statement.Fits := by
  intro cs statement rest hread
  simp only [takeHeader, Option.bind_eq_bind, Option.pure_def] at hread
  obtain ⟨inner, -, hread⟩ := Option.bind_eq_some_iff.1 hread
  obtain ⟨path, -, hread⟩ := Option.bind_eq_some_iff.1 hread
  obtain ⟨behind, -, hread⟩ := Option.bind_eq_some_iff.1 hread
  split at hread <;> split at hread
  all_goals
    obtain ⟨behind', -, heq⟩ := Option.bind_eq_some_iff.1 hread
    obtain ⟨rfl, -⟩ := Prod.mk.inj (Option.some.inj heq)
    trivial

theorem takesOnly_takeStatement :
    TakesOnly takeStatement fun said => ∀ statement, said = some statement → statement.Fits := by
  rintro cs said rest hread statement rfl
  unfold takeStatement at hread
  simp only [Option.bind_eq_bind, Option.pure_def] at hread
  split at hread
  case h_1 => simp at hread
  case h_2 =>
    split at hread
    case isTrue =>
      obtain ⟨found, htaken, hend⟩ := Option.bind_eq_some_iff.1 hread
      obtain ⟨behind, -, heq⟩ := Option.bind_eq_some_iff.1 hend
      obtain ⟨hsaid, -⟩ := Prod.mk.inj (Option.some.inj heq)
      exact Option.some.inj hsaid ▸ takesOnly_takeHeader _ _ _ htaken
    case isFalse =>
      obtain ⟨found, htaken, hend⟩ := Option.bind_eq_some_iff.1 hread
      obtain ⟨behind, -, heq⟩ := Option.bind_eq_some_iff.1 hend
      obtain ⟨hsaid, -⟩ := Prod.mk.inj (Option.some.inj heq)
      obtain ⟨entry, hentry, rfl⟩ := Option.map_eq_some_iff.1 htaken
      have hfits := takesOnly_takeEntry (takesOnly_takeValue depthLimit) _ _ _ hentry
      exact Option.some.inj hsaid ▸ hfits

theorem fits_of_statements? {cs : List Char} {said : List Statement}
    (h : statements? cs = some said) : ∀ statement ∈ said, statement.Fits := by
  fun_induction statements? cs generalizing said with
  | case1 => exact Option.some.inj h ▸ List.forall_mem_nil _
  | case2 => simp at h
  | case3 cs hcs statement rest htaken hless ih =>
      obtain ⟨more, hmore, rfl⟩ := Option.map_eq_some_iff.1 h
      intro s hs
      rcases List.mem_append.1 hs with hs | hs
      · exact takesOnly_takeStatement _ _ _ htaken s (Option.mem_toList.1 hs)
      · exact ih hmore s hs
  | case4 => simp at h

/-- What fits still does with one statement more. -/
theorem Draft.fits_add {d d' : Draft} {statement : Statement} (h : d.root.Fits)
    (hfits : statement.Fits) (hadd : d.add statement = some d') : d'.root.Fits := by
  cases statement with
  | header isDouble path key span =>
      simp only [add, Option.bind_eq_bind, Option.bind_eq_some_iff, Option.pure_def,
        Option.some.injEq] at hadd
      obtain ⟨root, hroot, rfl⟩ := hadd
      refine h.change (fun t t' ht hopening => ?_) false path hroot
      split at hopening
      · exact ht.extended key span hopening
      · exact ht.opened key span hopening
  | entry path key value =>
      simp only [add, Option.bind_eq_bind, Option.bind_eq_some_iff, Option.pure_def,
        Option.some.injEq] at hadd
      obtain ⟨root, hroot, rfl⟩ := hadd
      refine h.change (fun t t' ht hput => ?_) false d.path hroot
      split at hput
      · exact Table.Fits.insert (t := t.stretchedTo _) ht path key hfits hput
      · exact ht.insert path key hfits hput

/-- **Every integer of a document fits.** -/
theorem fits_of_parse? {text : String} {table : Table} (h : parse? text = some table) :
    table.Fits := by
  simp only [parse?, Option.bind_eq_bind, Option.bind_eq_some_iff, Option.pure_def,
    Option.some.injEq] at h
  obtain ⟨said, hsaid, d, hfold, rfl⟩ := h
  have hempty : Table.Fits (Draft.root {}) := Table.Fits.empty _
  exact foldlM_some_preserves (P := fun d => d.root.Fits) (fun statement hmem t t' ht hadd =>
    Draft.fits_add ht (fits_of_statements? hsaid statement hmem) hadd) hempty hfold

end Toml

end LineChat
