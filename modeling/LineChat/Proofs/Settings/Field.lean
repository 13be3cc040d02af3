/-
**Single settings come back from a document.**

Every kind of setting reads what it writes, for every value of the kind.  So a record that is read
from the values written for another has each of its settings from there, except for those that are
left out, which it keeps.

What reading a record preserves is what reading each of its settings does, where a setting is only
read from a value that the document gives it.

Main definitions:

* `LineChat.Settings.Written.scalar?` — the value that is written;
* `LineChat.Settings.Kind.ReadsBack`, `LineChat.Settings.Field.ReadsBack` — **reading what is
  written**;
* `LineChat.Settings.Field.copy` — a setting taken from another record;
* `LineChat.Settings.Receives` — **which value is read as which setting**.

Main results:

* `LineChat.Settings.Kind.address_readsBack`, `LineChat.Settings.Kind.count_readsBack` and others —
  the kinds of settings;
* `LineChat.Settings.readRecord_shown` — **a record comes back**;
* `LineChat.Settings.readRecord_preserves` — what reading a record preserves.
-/

import LineChat.Proofs.Network.Address
import LineChat.Proofs.Result
import LineChat.Proofs.Toml.Bounds
import LineChat.Proofs.Toml.Document
import LineChat.Settings.Field

set_option autoImplicit false

namespace LineChat.Settings

open Toml (Node Scalar Span Key)

/-! ### Kinds -/

/-- The value that is written for a setting, unless the setting is left out. -/
def Written.scalar? : Written → Option Scalar
  | text s => some (.text s)
  | number n => some (.integer n)
  | omitted => none

namespace Kind

variable {α : Type}

/-- **A kind reads the value that it writes.** -/
def ReadsBack (kind : Kind α) (a : α) : Prop :=
  ∃ value, (kind.write a).scalar? = some value ∧ ∀ span, kind.read (.scalar span value) = .ok a

theorem text_readsBack (s : String) : text.ReadsBack s := ⟨.text s, rfl, fun _ => rfl⟩

theorem path_readsBack (s : String) : path.ReadsBack s := ⟨.text s, rfl, fun _ => rfl⟩

theorem optional_readsBack {kind : Kind α} {a : α} (h : kind.ReadsBack a) :
    (optional kind).ReadsBack (some a) := by
  obtain ⟨value, hwrite, hread⟩ := h
  refine ⟨value, hwrite, fun span => ?_⟩
  simp only [optional, hread]
  rfl

theorem address_readsBack (a : Address) : address.ReadsBack a := by
  refine ⟨.text a.render, rfl, fun span => ?_⟩
  simp only [address, readText, Address.parse?_render]

theorem count_readsBack (n : UInt64) : count.ReadsBack n := by
  refine ⟨.integer n.toNat, rfl, fun span => ?_⟩
  have hpos : ¬(n.toNat : Int) < 0 := by omega
  simp only [count, if_neg hpos, Int.toNat_natCast, UInt64.ofNat_toNat]

/-- A word is read as what it stands for, if no word in front of it is the same. -/
theorem choice_readsBack [DecidableEq α] {words : List (String × α)} {word : String} {a : α}
    (hwrite : words.find? (·.2 = a) = some (word, a))
    (hread : words.find? (·.1 == word) = some (word, a)) :
    (choice words).ReadsBack a := by
  refine ⟨.text word, ?_, fun span => ?_⟩
  · simp only [choice, hwrite]
    rfl
  · simp only [choice, readChoice, readWord, hread]

end Kind

/-! ### Settings -/

variable {σ α : Type}

/-- **A record with one of its settings taken from another**, as it is written there. -/
def Field.copy (f : Field σ) (s t : σ) : σ :=
  match (f.write s).scalar? with
  | none => t
  | some value =>
      match f.read (.scalar ⟨[], []⟩ value) t with
      | .ok t' => t'
      | .error _ => t

/-- **A setting is read back from the value that is written for it**, wherever that stands. -/
def Field.ReadsBack (f : Field σ) (s : σ) : Prop :=
  ∀ value, (f.write s).scalar? = some value →
    ∀ span t, f.read (.scalar span value) t = .ok (f.copy s t)

section

variable {name : String} {kind : Kind α} {get : σ → α} {set : α → σ → σ} {s t t' : σ}

theorem Field.copy_of (h : kind.ReadsBack (get s)) :
    (Field.of name kind get set).copy s t = set (get s) t := by
  obtain ⟨value, hwrite, hread⟩ := h
  simp only [copy, Field.of, hwrite, hread]
  rfl

theorem Field.readsBack_of (h : kind.ReadsBack (get s)) :
    (Field.of name kind get set).ReadsBack s := by
  intro value hvalue span t
  rw [copy_of h]
  obtain ⟨value', hwrite, hread⟩ := h
  obtain rfl : value' = value := Option.some.inj (hwrite.symm.trans hvalue)
  simp only [Field.of, hread]
  rfl

/-- A setting of a kind whose values are all read back is taken over as it is. -/
theorem Field.copy_of_kind (h : ∀ a, kind.ReadsBack a) :
    (Field.of name kind get set).copy s t = set (get s) t :=
  copy_of (h (get s))

/-- A setting that is left out is not taken over, and there is nothing to read. -/
theorem Field.copy_of_omitted {f : Field σ} (h : f.write s = .omitted) : f.copy s t = t := by
  simp only [copy, h]
  rfl

theorem Field.readsBack_of_omitted {f : Field σ} (h : f.write s = .omitted) : f.ReadsBack s := by
  intro value hvalue
  rw [h] at hvalue
  exact absurd hvalue (by simp [Written.scalar?])

/-- What is read of a kind is put in its place. -/
theorem Field.read_of_eq_ok {n : Node}
    (h : (Field.of name kind get set).read n t = .ok t') :
    ∃ a, kind.read n = .ok a ∧ t' = set a t := by
  simp only [Field.of] at h
  cases hread : kind.read n with
  | error c =>
      rw [hread] at h
      cases h
  | ok a =>
      rw [hread] at h
      cases h
      exact ⟨a, rfl, rfl⟩

end

/-! ### Records -/

variable {fields : List (Field σ)} {s : σ}

/-- The values that are written for settings, one for each that is not left out. -/
def shown (fields : List (Field σ)) (s : σ) : List (String × Scalar) :=
  fields.filterMap fun f => (f.write s).scalar?.map (f.name, ·)

theorem shown_cons (f : Field σ) (fields : List (Field σ)) (s : σ) :
    shown (f :: fields) s = ((f.write s).scalar?.map (f.name, ·)).toList ++ shown fields s := by
  rw [shown, List.filterMap_cons]
  cases (f.write s).scalar? <;> rfl

theorem shown_names_sublist (fields : List (Field σ)) (s : σ) :
    List.Sublist ((shown fields s).map (·.1)) (fields.map (·.name)) := by
  induction fields with
  | nil => exact .slnil
  | cons f fields ih =>
      rw [shown_cons, List.map_cons]
      cases (f.write s).scalar? with
      | none => exact ih.cons _
      | some value => exact ih.cons_cons _

/-- Where names are different, one with a name is the only one. -/
theorem find?_name {β : Type} {name : β → String} {bs : List β} (h : (bs.map name).Nodup) {b : β}
    (hb : b ∈ bs) : bs.find? (name · == name b) = some b := by
  induction bs with
  | nil => exact absurd hb List.not_mem_nil
  | cons b' bs ih =>
      rw [List.map_cons, List.nodup_cons] at h
      rcases List.mem_cons.1 hb with rfl | hb
      · rw [List.find?_cons, beq_self_eq_true]
      · have hne : (name b' == name b) = false := by
          refine beq_false_of_ne fun heq => ?_
          exact h.1 (List.mem_map.2 ⟨b, hb, heq.symm⟩)
        rw [List.find?_cons, hne]
        exact ih h.2 hb

/-- **A record that is read from the values written for another has its settings.** -/
theorem readRecord_shown (expected : String) (hnames : (fields.map (·.name)).Nodup)
    (hback : ∀ f ∈ fields, f.ReadsBack s) {info : Toml.TableInfo} {entries : List (Key × Node)}
    (hentries : Toml.Holds entries (shown fields s)) (t : σ) :
    readRecord expected fields t (.table info entries) =
      .ok (fields.foldl (fun t f => f.copy s t) t) := by
  rw [readRecord]
  -- Settings are looked up among all of them, while those still to come get fewer.
  suffices hfold : ∀ part ⊆ fields, ∀ entries t, Toml.Holds entries (shown part s) →
      entries.foldlM (readEntry fields) t = .ok (part.foldl (fun t f => f.copy s t) t) from
    hfold fields (List.Subset.refl _) entries t hentries
  intro part
  induction part with
  | nil =>
      rintro - entries t hentries
      cases hentries
      rfl
  | cons f part ih =>
      intro hpart entries t hentries
      obtain ⟨hf, hpart⟩ := List.cons_subset.1 hpart
      cases hvalue : (f.write s).scalar? with
      | none =>
          have hshown : shown (f :: part) s = shown part s := by
            rw [shown_cons, hvalue]
            rfl
          have hcopy : f.copy s t = t := by simp only [Field.copy, hvalue]
          rw [List.foldl_cons, hcopy]
          exact ih hpart entries t (hshown ▸ hentries)
      | some value =>
          have hshown : shown (f :: part) s = (f.name, value) :: shown part s := by
            rw [shown_cons, hvalue]
            rfl
          rw [hshown] at hentries
          obtain ⟨e, more, ⟨hname, span, hnode⟩, hmore, rfl⟩ :=
            List.forall₂_cons_right_iff.1 hentries
          have hread : readEntry fields t e = .ok (f.copy s t) := by
            rw [readEntry, hname, find?_name hnames hf, hnode]
            simp only [hback f hf value hvalue span t]
            rfl
          rw [List.foldlM_cons, hread, List.foldl_cons]
          exact ih hpart more _ hmore

/-- **The value that is read as a setting** when a record is read from a value: in a table the one
of its name, in a list the one in its place. -/
def Receives (fields : List (Field σ)) (n : Node) (f : Field σ) (m : Node) : Prop :=
  match n with
  | .table _ entries => ∃ e ∈ entries, e.1.name = f.name ∧ e.2 = m
  | .array _ items | .tables items => (f, m) ∈ fields.zip items
  | .scalar _ _ => False

/-- The parts of a value whose integers fit fit, too. -/
theorem Receives.fits {n m : Node} {f : Field σ} (h : Receives fields n f m) (hn : n.Fits) :
    m.Fits := by
  cases hn with
  | scalar => exact h.elim
  | array hitems => exact hitems m (List.of_mem_zip h).2
  | table hentries =>
      obtain ⟨e, he, -, rfl⟩ := h
      exact hentries e he
  | tables hitems => exact hitems m (List.of_mem_zip h).2

theorem located_eq_ok {span : Option Span} {x : Except Complaint α} {a : α}
    (h : located span x = .ok a) : x = .ok a := by
  cases x with
  | error c => cases h
  | ok b => exact h

/-- **Reading a record preserves what reading each of its settings does.** -/
theorem readRecord_preserves {P : σ → Prop} {n : Node}
    (hread : ∀ f ∈ fields, ∀ m, Receives fields n f m →
      ∀ t t', P t → f.read m t = .ok t' → P t')
    {expected : String} {t t' : σ} (ht : P t) (h : readRecord expected fields t n = .ok t') :
    P t' := by
  -- A list, and the tables under a repeated header, give the settings in their order.
  have hitems : ∀ items : List Node,
      (∀ f ∈ fields, ∀ m, (f, m) ∈ fields.zip items → ∀ t t', P t → f.read m t = .ok t' → P t') →
      (fields.zip items).foldlM
        (fun s p => located p.2.span? (p.1.read p.2 s)) t = .ok t' → P t' := by
    intro items hzip hfold
    refine foldlM_preserves (fun b hb t t' ht hstep => ?_) ht hfold
    exact hzip b.1 (List.of_mem_zip hb).1 b.2 hb t t' ht (located_eq_ok hstep)
  unfold readRecord at h
  split at h
  case h_1 info entries =>
    refine foldlM_preserves (fun e he t t' ht hstep => ?_) ht h
    unfold readEntry at hstep
    split at hstep
    case h_1 f hfind =>
      have hname : f.name = e.1.name :=
        eq_of_beq (List.find?_some (p := fun f : Field σ => f.name == e.1.name) hfind)
      exact hread f (List.mem_of_find?_eq_some hfind) e.2 ⟨e, he, hname.symm, rfl⟩ t t' ht
        (located_eq_ok hstep)
    case h_2 =>
      cases hstep
      exact ht
  case h_2 span items => exact hitems items hread h
  case h_3 items => exact hitems items hread h
  case h_4 =>
    cases h
    exact ht
  case h_5 => cases h

end LineChat.Settings
