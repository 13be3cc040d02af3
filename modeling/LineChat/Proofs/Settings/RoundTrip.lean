/-
**Settings come back from a document.**

Settings that a document stands for can be written, and reading what is written gives them again,
with the variables of the environment applied in between and wherever keys are looked for by then.
Every text, path and address is written so that it is read as itself; every number that was read
fits into a document.  The only setting that is left out is the directory of reports where there is
none, which is its default.

Reading a setting changes nothing that is written for another one.  So a setting that the document
does not give has its default in the end, unless a variable overrides it.

Main definitions:

* `LineChat.Settings.written` — what is written for settings;
* `LineChat.Settings.Mentions` — whether a document gives a setting;
* `LineChat.Settings.SurviveSaving` — **what saving keeps**.

Main results:

* `LineChat.Settings.exists_render` — settings whose numbers fit can be written, group by group;
* `LineChat.Settings.parse_render` — **what is written is read as the same settings**;
* `LineChat.Settings.fits_of_parse` — the numbers of settings that were read fit;
* `LineChat.Settings.written_read` — reading a setting changes no other;
* `LineChat.Settings.survive_saving` — **settings survive saving**.
-/

import LineChat.Proofs.Settings.Field
import LineChat.Settings.Text

set_option autoImplicit false

namespace LineChat.Settings

open Toml (Node Scalar Span Key)

variable {s t : Settings}

/-! ### The groups -/

theorem sections_names_nodup : (sections.map (·.name)).Nodup := by decide

theorem groupFields_names_nodup : (groupFields.map (·.name)).Nodup := by decide

theorem fields_names_nodup : ∀ g ∈ sections, (g.fields.map (·.name)).Nodup := by decide

theorem names_bare :
    ∀ g ∈ sections, Toml.IsBareName g.name ∧ ∀ f ∈ g.fields, Toml.IsBareName f.name := by
  simp only [sections, List.forall_mem_cons, List.not_mem_nil, false_implies, implies_true,
    and_true]
  refine ⟨⟨?_, ?_, ?_⟩, ⟨?_, ?_, ?_, ?_, ?_⟩, ⟨?_, ?_, ?_, ?_, ?_⟩, ⟨?_, ?_, ?_⟩, ?_, ?_, ?_, ?_⟩
  all_goals exact Toml.isBareName_ofList (by decide) (by decide)

theorem policy_readsBack (a : BrokenPolicy) : policyKind.ReadsBack a := by
  cases a <;> exact Kind.choice_readsBack rfl rfl

theorem mode_readsBack (a : KeystreamMode) : modeKind.ReadsBack a := by
  cases a <;> exact Kind.choice_readsBack rfl rfl

/-- The setting that may be left out. -/
abbrev directoryField : Field Settings :=
  .of "log_dir" (.optional .path) (·.log.directory) fun a s => { s with log.directory := a }

theorem directory_readsBack (s : Settings) : directoryField.ReadsBack s := by
  cases hdirectory : s.log.directory with
  | none => exact Field.readsBack_of_omitted (by simp [Field.of, Kind.optional, hdirectory])
  | some path =>
      refine Field.readsBack_of ?_
      simp only [hdirectory]
      exact Kind.optional_readsBack (Kind.path_readsBack path)

/-- Where there is no directory of reports to begin with, there is the one of `s` afterwards. -/
theorem directory_copy (ht : t.log.directory = none) :
    directoryField.copy s t = { t with log.directory := s.log.directory } := by
  cases hdirectory : s.log.directory with
  | none =>
      rw [Field.copy_of_omitted (by simp [Field.of, Kind.optional, hdirectory]), ← ht]
  | some path =>
      rw [← hdirectory]
      refine Field.copy_of ?_
      simp only [hdirectory]
      exact Kind.optional_readsBack (Kind.path_readsBack path)

/-- **Every setting is read as it is written.** -/
theorem fields_readBack (s : Settings) : ∀ g ∈ sections, ∀ f ∈ g.fields, f.ReadsBack s := by
  simp only [sections, List.forall_mem_cons, List.not_mem_nil, false_implies, implies_true,
    and_true]
  refine ⟨⟨?_, directory_readsBack s⟩, ⟨?_, ?_, ?_, ?_⟩, ⟨?_, ?_, ?_, ?_⟩, ⟨?_, ?_⟩, ?_, ?_, ?_⟩
  all_goals refine Field.readsBack_of ?_
  any_goals exact Kind.text_readsBack _
  any_goals exact Kind.path_readsBack _
  any_goals exact Kind.address_readsBack _
  any_goals exact Kind.count_readsBack _
  any_goals exact policy_readsBack _
  any_goals exact mode_readsBack _

/-- **Settings that take over every setting of others are those.** -/
theorem copy_sections (s : Settings) (keys : String) :
    sections.foldl (fun t g => g.fields.foldl (fun t f => f.copy s t) t) (defaults keys) = s := by
  simp only [sections, List.foldl_cons, List.foldl_nil, Field.copy_of_kind Kind.text_readsBack,
    Field.copy_of_kind Kind.path_readsBack, Field.copy_of_kind Kind.address_readsBack,
    Field.copy_of_kind Kind.count_readsBack, Field.copy_of_kind policy_readsBack,
    Field.copy_of_kind mode_readsBack]
  rw [directory_copy rfl]

/-- **What is written for settings says all about them.** -/
theorem ext_write (h : ∀ g ∈ sections, ∀ f ∈ g.fields, f.write s = f.write t) : s = t := by
  have hgroup : ∀ g ∈ sections, ∀ u : Settings,
      g.fields.foldl (fun u f => f.copy s u) u = g.fields.foldl (fun u f => f.copy t u) u := by
    intro g hg u
    refine List.foldl_ext _ _ _ fun u f hf => ?_
    rw [Field.copy, Field.copy, h g hg f hf]
  rw [← copy_sections s "", ← copy_sections t ""]
  exact List.foldl_ext _ _ _ fun u g hg => hgroup g hg u

/-! ### Writing -/

/-- A number that is written fits into a document. -/
def Written.Fits : Written → Prop
  | number n => n ≤ Toml.maxInteger
  | _ => True

/-- **Settings whose numbers fit.** -/
def Fit (s : Settings) : Prop := ∀ g ∈ sections, ∀ f ∈ g.fields, (f.write s).Fits

/-- A group with what is written for its settings. -/
def Section.shown (g : Section) (s : Settings) : Toml.Group := ⟨g.name, Settings.shown g.fields s⟩

/-- The line of a setting with what is written for its value. -/
theorem toList_line (name value : String) (more : List Char) :
    s!"{name} = {value}\n".toList ++ more =
      name.toList ++ ' ' :: '=' :: ' ' :: (value.toList ++ '\n' :: more) := by
  change (name ++ " = " ++ value ++ "\n").toList ++ more = _
  simp

/-- **What is written for a setting** adds it to the values behind it, unless it is left out. -/
def IsLineOf (s : Settings) (f : Field Settings) (line : String) : Prop :=
  ∀ more entries, Toml.Lines more entries →
    Toml.Lines (line.toList ++ more) (((f.write s).scalar?.map (f.name, ·)).toList ++ entries)

/-- A setting that fits can be written. -/
theorem exists_line {f : Field Settings} (hbare : Toml.IsBareName f.name)
    (hfits : (f.write s).Fits) : ∃ line, f.line s = some line ∧ IsLineOf s f line := by
  unfold IsLineOf
  cases hwrite : f.write s with
  | text value =>
      refine ⟨_, by rw [Field.line, hwrite], fun more entries hmore => ?_⟩
      rw [toList_line]
      exact .cons hbare (Toml.spells_text value) hmore
  | number n =>
      rw [hwrite] at hfits
      have hline : f.line s = some s!"{f.name} = {n.repr}\n" := by
        rw [Field.line, hwrite]
        exact if_pos hfits
      refine ⟨_, hline, fun more entries hmore => ?_⟩
      rw [toList_line]
      exact .cons hbare (Toml.spells_integer hfits) hmore
  | omitted => exact ⟨"", by rw [Field.line, hwrite], fun _ _ h => h⟩

theorem lines_shown {fields : List (Field Settings)} {lines : List String}
    (h : List.Forall₂ (IsLineOf s) fields lines) :
    Toml.Lines (lines.flatMap String.toList) (Settings.shown fields s) := by
  induction h with
  | nil => exact .nil
  | cons hline _ ih =>
      rw [List.flatMap_cons, shown_cons]
      exact hline _ _ ih

theorem exists_mapM {α β : Type} {f : α → Option β} {P : α → β → Prop} {l : List α}
    (h : ∀ a ∈ l, ∃ b, f a = some b ∧ P a b) : ∃ bs, l.mapM f = some bs ∧ List.Forall₂ P l bs := by
  induction l with
  | nil => exact ⟨[], rfl, .nil⟩
  | cons a l ih =>
      obtain ⟨b, hb, hP⟩ := h a (List.mem_cons_self ..)
      obtain ⟨bs, hbs, hPs⟩ := ih fun a ha => h a (List.mem_cons_of_mem _ ha)
      refine ⟨b :: bs, ?_, .cons hP hPs⟩
      rw [List.mapM_cons, hb, hbs]
      rfl

/-- **A group is a header with its lines.** -/
theorem Section.exists_render {g : Section} (hg : g ∈ sections)
    (hfits : ∀ f ∈ g.fields, (f.write s).Fits) :
    ∃ text, g.render s = some text ∧ (g.shown s).Spelled text.toList := by
  obtain ⟨hbare, hnames⟩ := names_bare g hg
  obtain ⟨lines, hlines, hspelled⟩ := exists_mapM fun f hf => exists_line (hnames f hf) (hfits f hf)
  refine ⟨"[" ++ g.name ++ "]\n" ++ String.join lines, ?_, hbare, ?_,
    (String.join lines).toList, ?_, ?_⟩
  · simp only [render, hlines]
    rfl
  · exact (fields_names_nodup g hg).sublist (shown_names_sublist g.fields s)
  · simp [shown]
  · rw [String.toList_join]
    exact lines_shown hspelled

/-- **Settings whose numbers fit can be written**, group by group. -/
theorem exists_render (h : s.Fit) :
    ∃ text texts, s.render = some text ∧ text.toList = ['\n'].intercalate texts ∧
      List.Forall₂ Toml.Group.Spelled (sections.map (·.shown s)) texts := by
  obtain ⟨texts, htexts, hspelled⟩ := exists_mapM fun g hg => Section.exists_render hg (h g hg)
  refine ⟨"\n".intercalate texts, texts.map String.toList, ?_, String.toList_intercalate, ?_⟩
  · rw [render, htexts]
    rfl
  · exact List.forall₂_map_left_iff.2 (List.forall₂_map_right_iff.2 hspelled)

/-! ### Reading -/

/-- A group is read from the values that are written for its settings. -/
theorem Section.read_shown {g : Section} (hg : g ∈ sections) {info : Toml.TableInfo}
    {entries : List (Key × Node)} (hentries : Toml.Holds entries (g.shown s).entries)
    (t : Settings) :
    g.read (.table info entries) t = .ok (g.fields.foldl (fun t f => f.copy s t) t) :=
  readRecord_shown g.expected (fields_names_nodup g hg) (fields_readBack s g hg) hentries t

/-- The whole document is read group by group. -/
theorem readRecord_groups {found : List (Key × Node)}
    (hfound : Toml.HoldsGroups found (sections.map (·.shown s))) (info : Toml.TableInfo)
    (t : Settings) :
    readRecord "struct Config" groupFields t (.table info found) =
      .ok (sections.foldl (fun t g => g.fields.foldl (fun t f => f.copy s t) t) t) := by
  rw [readRecord]
  -- As for the settings of one group: what is left of the groups, looked up among all of them.
  suffices hfold : ∀ part ⊆ sections, ∀ found t, Toml.HoldsGroups found (part.map (·.shown s)) →
      found.foldlM (readEntry groupFields) t =
        .ok (part.foldl (fun t g => g.fields.foldl (fun t f => f.copy s t) t) t) from
    hfold sections (List.Subset.refl _) found t hfound
  intro part
  induction part with
  | nil =>
      rintro - found t hfound
      cases hfound
      rfl
  | cons g part ih =>
      intro hpart found t hfound
      obtain ⟨hg, hpart⟩ := List.cons_subset.1 hpart
      obtain ⟨e, more, ⟨hname, info, entries, hnode, hentries⟩, hmore, rfl⟩ :=
        List.forall₂_cons_right_iff.1 hfound
      have hfind : groupFields.find? (·.name == g.name) =
          some { name := g.name, read := g.read, write := fun _ => .omitted } :=
        find?_name groupFields_names_nodup (List.mem_map_of_mem hg)
      have hread : readEntry groupFields t e = .ok (g.fields.foldl (fun t f => f.copy s t) t) := by
        have hgroup : (g.shown s).name = g.name := rfl
        rw [readEntry, hname, hgroup, hfind, hnode]
        simp only [Section.read_shown hg hentries]
        rfl
      rw [List.foldlM_cons, hread, List.foldl_cons]
      exact ih hpart more _ hmore

/-- **What is written is read as the same settings**, wherever keys are looked for. -/
theorem parse_render (h : s.Fit) :
    ∃ text, s.render = some text ∧ ∀ keys, parse (defaults keys) text = .ok s := by
  obtain ⟨text, texts, hrender, htext, hspelled⟩ := exists_render h
  obtain ⟨found, hparse, hfound⟩ := Toml.parse?_groups htext hspelled (by
    rw [List.map_map]
    exact sections_names_nodup)
  refine ⟨text, hrender, fun keys => ?_⟩
  rw [parse, hparse]
  simp only [Toml.Table.toNode, readRecord_groups hfound, copy_sections]

/-! ### What reading changes -/

/-- **What is written for settings**, group by group. -/
def written (s : Settings) : List (List Written) := sections.map fun g => g.fields.map (·.write s)

/-- Reading a setting changes what is written for it, and nothing else. -/
theorem written_read : ∀ p ∈ sections.zipIdx, ∀ q ∈ p.1.fields.zipIdx, ∀ n t s,
    q.1.read n t = .ok s → written s = (written t).modify p.2 (·.set q.2 (q.1.write s)) := by
  simp only [sections, List.zipIdx_cons, List.zipIdx_nil, List.forall_mem_cons, List.not_mem_nil,
    false_implies, implies_true, and_true]
  refine ⟨⟨?_, ?_⟩, ⟨?_, ?_, ?_, ?_⟩, ⟨?_, ?_, ?_, ?_⟩, ⟨?_, ?_⟩, ?_, ?_, ?_⟩
  all_goals
    intro n t s h
    obtain ⟨a, -, rfl⟩ := Field.read_of_eq_ok h
    rfl

/-- A setting of a group at their places. -/
structure Stands (i j : Nat) (g : Section) (f : Field Settings) : Prop where
  group : sections[i]? = some g
  field : g.fields[j]? = some f

theorem exists_stands {g : Section} (hg : g ∈ sections) {f : Field Settings} (hf : f ∈ g.fields) :
    ∃ i j, Stands i j g f := by
  obtain ⟨i, hi⟩ := List.mem_iff_getElem?.1 hg
  obtain ⟨j, hj⟩ := List.mem_iff_getElem?.1 hf
  exact ⟨i, j, hi, hj⟩

theorem Stands.unique {i j : Nat} {g g' : Section} {f f' : Field Settings} (h : Stands i j g f)
    (h' : Stands i j g' f') : g = g' ∧ f = f' := by
  obtain rfl : g = g' := Option.some.inj (h.group.symm.trans h'.group)
  exact ⟨rfl, Option.some.inj (h.field.symm.trans h'.field)⟩

theorem Stands.written {i j : Nat} {g : Section} {f : Field Settings} (h : Stands i j g f)
    (s : Settings) : (written s)[i]?.bind (·[j]?) = some (f.write s) := by
  simp [Settings.written, h.group, h.field]

/-- **Reading a setting changes no other.** -/
theorem Stands.write_eq {i j i' j' : Nat} {g g' : Section} {f f' : Field Settings}
    (h : Stands i j g f) (h' : Stands i' j' g' f') (hne : i = i' → j ≠ j') {n : Node}
    (hread : f.read n t = .ok s) : f'.write s = f'.write t := by
  have hwritten := written_read (g, i) (List.mem_zipIdx_iff_getElem?.2 h.group) (f, j)
    (List.mem_zipIdx_iff_getElem?.2 h.field) n t s hread
  have hs := h'.written s
  have ht := h'.written t
  obtain ⟨row, hrow, hcell⟩ := Option.bind_eq_some_iff.1 ht
  rw [hwritten, List.getElem?_modify, hrow] at hs
  by_cases hi : i = i'
  · simp only [if_pos hi, Option.map_eq_map, Option.map_some, Option.bind_some,
      List.getElem?_set_ne (hne hi), hcell] at hs
    exact (Option.some.inj hs).symm
  · simp only [if_neg hi, Option.map_eq_map, Option.map_some, Option.bind_some, hcell] at hs
    exact (Option.some.inj hs).symm

/-! ### What a document gives -/

/-- **The value that a document gives a setting** of a group. -/
def Gives (document : String) (g : Section) (f : Field Settings) (m : Node) : Prop :=
  ∃ table, Toml.parse? document = some table ∧
    ∃ e ∈ table.entries, e.1.name = g.name ∧ Receives g.fields e.2 f m

/-- The values that a document gives fit. -/
theorem Gives.fits {document : String} {g : Section} {f : Field Settings} {m : Node}
    (h : Gives document g f m) : m.Fits := by
  obtain ⟨table, htable, e, he, -, hreceives⟩ := h
  exact hreceives.fits (Toml.fits_of_parse? htable e he)

/-- **Reading a document preserves what reading each setting that it gives does.** -/
theorem parse_preserves {P : Settings → Prop} {document : String}
    (hread : ∀ g ∈ sections, ∀ f ∈ g.fields, ∀ m, Gives document g f m →
      ∀ t t', P t → f.read m t = .ok t' → P t')
    (ht : P t) (h : parse t document = .ok s) : P s := by
  unfold parse at h
  split at h
  case h_1 => cases h
  case h_2 table htable =>
    split at h
    case h_2 => cases h
    case h_1 s' hrecord =>
      obtain rfl : s' = s := Except.ok.inj h
      refine readRecord_preserves (fun group hgroup m hm t t' ht hgroupRead => ?_) ht hrecord
      obtain ⟨g, hg, rfl⟩ := List.mem_map.1 hgroup
      obtain ⟨e, he, hname, rfl⟩ := hm
      exact readRecord_preserves
        (fun f hf m hm => hread g hg f hf m ⟨table, htable, e, he, hname, hm⟩) ht hgroupRead

/-- **A setting that a document does not give stays what it is.** -/
theorem write_of_not_gives {document : String} {g : Section} (hg : g ∈ sections)
    {f : Field Settings} (hf : f ∈ g.fields) (hnone : ∀ m, ¬Gives document g f m)
    (h : parse t document = .ok s) : f.write s = f.write t := by
  obtain ⟨i, j, hstands⟩ := exists_stands hg hf
  refine parse_preserves (P := fun t' => f.write t' = f.write t)
    (fun g' hg' f' hf' m hm t₁ t₂ ht hread => ?_) rfl h
  obtain ⟨i', j', hstands'⟩ := exists_stands hg' hf'
  refine (hstands'.write_eq hstands ?_ hread).trans ht
  -- Two settings in one place are the same, and this one is not given.
  rintro rfl rfl
  obtain ⟨rfl, rfl⟩ := hstands.unique hstands'
  exact hnone m hm

/-! ### Numbers -/

theorem fits_directory (a : Option String) : ((Kind.optional .path).write a).Fits := by
  cases a <;> exact True.intro

theorem fits_policy (a : BrokenPolicy) : (policyKind.write a).Fits := by
  cases a <;> exact True.intro

theorem fits_mode (a : KeystreamMode) : (modeKind.write a).Fits := by
  cases a <;> exact True.intro

/-- A count that is read from a value that fits, fits. -/
theorem fits_count {m : Node} {n : UInt64} (hm : m.Fits) (h : Kind.count.read m = .ok n) :
    (Kind.count.write n).Fits := by
  simp only [Kind.count] at h
  split at h
  case h_1 span k =>
    split at h
    · cases h
    · obtain rfl : UInt64.ofNat k.toNat = n := Except.ok.inj h
      cases hm with
      | scalar hk =>
          have hk : -Toml.maxInteger - 1 ≤ k ∧ k ≤ Toml.maxInteger := hk
          have hsmall : k.toNat < 2 ^ 64 := by
            unfold Toml.maxInteger at hk
            omega
          change ((UInt64.ofNat k.toNat).toNat : Int) ≤ Toml.maxInteger
          rw [UInt64.toNat_ofNat_of_lt' hsmall]
          omega
  case h_2 => cases h

/-- A number that is read from a value that fits, fits. -/
theorem fits_read : ∀ g ∈ sections, ∀ f ∈ g.fields, ∀ m t s, m.Fits → f.read m t = .ok s →
    (f.write s).Fits := by
  simp only [sections, List.forall_mem_cons, List.not_mem_nil, false_implies, implies_true,
    and_true]
  refine ⟨⟨?_, ?_⟩, ⟨?_, ?_, ?_, ?_⟩, ⟨?_, ?_, ?_, ?_⟩, ⟨?_, ?_⟩, ?_, ?_, ?_⟩
  all_goals
    intro m t s hm h
    obtain ⟨a, hread, rfl⟩ := Field.read_of_eq_ok h
  any_goals exact True.intro
  any_goals exact fits_count hm hread
  · exact fits_directory a
  · exact fits_policy a
  · exact fits_mode a

/-- Of all that is written for settings, two are numbers. -/
theorem fit_iff (s : Settings) :
    s.Fit ↔ (Kind.count.write s.server.handshakeSeconds).Fits ∧
      (Kind.count.write s.channel.maxLines).Fits := by
  simp only [Fit, sections, List.forall_mem_cons, List.not_mem_nil, false_implies, implies_true,
    and_true]
  constructor
  · rintro ⟨-, ⟨-, -, -, hseconds⟩, -, -, -, -, hlines⟩
    exact ⟨hseconds, hlines⟩
  · rintro ⟨hseconds, hlines⟩
    exact ⟨⟨True.intro, fits_directory _⟩, ⟨True.intro, True.intro, True.intro, hseconds⟩,
      ⟨True.intro, True.intro, True.intro, True.intro⟩, ⟨True.intro, True.intro⟩,
      fits_policy _, fits_mode _, hlines⟩

theorem fit_defaults (keys : String) : (defaults keys).Fit := by
  refine (fit_iff _).2 ⟨?_, ?_⟩
  · change (((30 : UInt64).toNat : Nat) : Int) ≤ Toml.maxInteger
    decide
  · change ((SessionCipher.defaultMaxLines.toNat : Nat) : Int) ≤ Toml.maxInteger
    decide

/-- **The numbers of settings that were read fit into a document.** -/
theorem fit_of_parse {document : String} (ht : t.Fit) (h : parse t document = .ok s) : s.Fit := by
  refine parse_preserves (fun g hg f hf m hm t₁ t₂ ht hread g' hg' f' hf' => ?_) ht h
  obtain ⟨i, j, hstands⟩ := exists_stands hg hf
  obtain ⟨i', j', hstands'⟩ := exists_stands hg' hf'
  -- The setting that was read has a number that fits; every other one is what it was.
  by_cases hsame : i = i' ∧ j = j'
  · obtain ⟨rfl, rfl⟩ := hsame
    obtain ⟨rfl, rfl⟩ := hstands.unique hstands'
    exact fits_read g hg f hf m t₁ t₂ hm.fits hread
  · rw [hstands.write_eq hstands' (fun hi hj => hsame ⟨hi, hj⟩) hread]
    exact ht g' hg' f' hf'

/-! ### The environment -/

/-- Settings that are alike in one place are so with the same variables applied. -/
theorem write_override (env : Environment) : ∀ g ∈ sections, ∀ f ∈ g.fields, ∀ s t : Settings,
    f.write s = f.write t → f.write (s.override env) = f.write (t.override env) := by
  have htext : ∀ (found : Option String) {a b : String}, Written.text a = .text b →
      Written.text (found.getD a) = .text (found.getD b) := by
    rintro found a b h
    rw [Written.text.inj h]
  simp only [sections, List.forall_mem_cons, List.not_mem_nil, false_implies, implies_true,
    and_true]
  refine ⟨⟨?_, ?_⟩, ⟨?_, ?_, ?_, ?_⟩, ⟨?_, ?_, ?_, ?_⟩, ⟨?_, ?_⟩, ?_, ?_, ?_⟩
  all_goals intro s t h
  any_goals exact h
  · exact htext _ h
  · exact htext _ h
  · exact htext _ h

theorem Fit.override (h : s.Fit) (env : Environment) : (s.override env).Fit :=
  (fit_iff _).2 ((fit_iff s).1 h)

/-! ### Saving -/

/-- **What saving keeps of settings** that a document stands for, with variables of the environment
applied. -/
structure SurviveSaving (keys document : String) (env : Environment) (s : Settings) : Prop where
  /-- They are written, and what is written is read as them, wherever keys are looked for. -/
  comesBack : ∃ text, s.render = some text ∧ ∀ keys', parse (defaults keys') text = .ok s
  /-- What the document does not give has its default, unless a variable overrides it. -/
  keepsDefaults : ∀ g ∈ sections, ∀ f ∈ g.fields, (∀ m, ¬Gives document g f m) →
    f.write s = f.write ((defaults keys).override env)

/-- **Settings survive saving.** -/
theorem survive_saving {keys document : String} {s : Settings}
    (h : parse (defaults keys) document = .ok s) (env : Environment) :
    SurviveSaving keys document env (s.override env) where
  comesBack := parse_render ((fit_of_parse (fit_defaults keys) h).override env)
  keepsDefaults g hg f hf hnone :=
    write_override env g hg f hf s (defaults keys) (write_of_not_gives hg hf hnone h)

/-- A document with a text in escapes, an address with a link, and the largest number. -/
def oddDocument : String :=
  "[logging]\nlevel = \"it's \\\"odd\\\"\\u0000\"\n\n[server]\n" ++
    "listen_addr = \"[fe80::1%7]:0\"\nhandshake_timeout_secs = 9223372036854775807\n"

/-- What it stands for. -/
def oddSettings : Settings :=
  { defaults "keys" with
    log := { level := "it's \"odd\"\x00" }
    server :=
      { (defaults "keys").server with
        listen := ⟨.v6 #v[0xfe80, 0, 0, 0, 0, 0, 0, 1] 7, 0⟩
        handshakeSeconds := 9223372036854775807 } }

/-- A username with marks of both kinds, breaks and a backslash. -/
def oddEnvironment : Environment where
  assigned := [("CHATLINE_USERNAME", "'''\n\"\"\"\r\\")]

theorem oddSettings_survive_saving :
    parse (defaults "keys") oddDocument = .ok oddSettings ∧
      SurviveSaving "keys" oddDocument oddEnvironment (oddSettings.override oddEnvironment) := by
  have hparse : parse (defaults "keys") oddDocument = .ok oddSettings :=
    eq_ok_of_toOption (by decide +kernel)
  exact ⟨hparse, survive_saving hparse oddEnvironment⟩

end LineChat.Settings
