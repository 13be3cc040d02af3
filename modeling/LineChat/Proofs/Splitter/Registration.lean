/-
**Registering markers.**

A marker is compared with those that are registered already, one call after the other.  Nevertheless
it does not matter in which order markers come: all of them are registered exactly if none is empty
and none is the start of another one, which has nothing to do with their order.

A call that ensures a marker looks at the table up to three times, and others may register markers
in between.  One of its steps at most changes anything, and that step ends the call.  What a call
has learnt stays true, because no marker ever goes away: a marker that was refused conflicts with
another one for ever.

Main definitions:

* `LineChat.Apart`, `LineChat.Separable` — **markers that can be told apart**;
* `LineChat.MarkerTable.Gains` — a table that gets one marker more;
* `LineChat.Splitter.registerAll` — markers registered one after the other;
* `LineChat.Conversation.RegistersAtomically`, `LineChat.Conversation.EnsuresAtomically` — **what
  registering comes to** in one state.

Main results:

* `LineChat.Splitter.registerAll_eq_ok_iff` — which markers can be registered together;
* `LineChat.Conversation.runEnsure_cases` — a step of a call that ensures a marker;
* `LineChat.EnsureCall.Tracks.step` — **what a call has learnt stays true**;
* `LineChat.Conversation.registration_orderless_and_atomic` — all of it, in every state.
-/

import LineChat.Proofs.Result
import LineChat.Proofs.Splitter.Calls
import LineChat.Proofs.Splitter.Routing
import LineChat.Proofs.Text.Sorted

set_option autoImplicit false

namespace LineChat

/-! ### Markers that can be told apart -/

/-- Neither of two markers is the start of the other. -/
def Apart (a b : String) : Prop := ¬a.toList <+: b.toList ∧ ¬b.toList <+: a.toList

instance : DecidableRel Apart := fun _ _ => inferInstanceAs (Decidable (_ ∧ _))

theorem Apart.symm {a b : String} (h : Apart a b) : Apart b a := ⟨h.2, h.1⟩

theorem Apart.ne {a b : String} (h : Apart a b) : a ≠ b := by
  rintro rfl
  exact h.1 List.prefix_rfl

/-- **Markers that can be told apart**: none is empty, and no two of them are the start of one
another, equal ones included. -/
structure Separable (markers : List String) : Prop where
  nonempty : ∀ m ∈ markers, m ≠ ""
  apart : markers.Pairwise Apart

instance (markers : List String) : Decidable (Separable markers) :=
  decidable_of_iff ((∀ m ∈ markers, m ≠ "") ∧ markers.Pairwise Apart)
    ⟨fun h => ⟨h.1, h.2⟩, fun h => ⟨h.1, h.2⟩⟩

/-- The two that are the start of one another need not be neighbours. -/
example : Separable ["!a", "?", "!b"] ∧ ¬Separable ["!a", "?", "!ab"] := by decide

namespace Separable

variable {m : String} {markers markers' : List String}

theorem nil : Separable [] := ⟨by simp, List.Pairwise.nil⟩

theorem cons_iff : Separable (m :: markers) ↔
    m ≠ "" ∧ (∀ n ∈ markers, Apart m n) ∧ Separable markers := by
  constructor
  · rintro ⟨hne, hapart⟩
    obtain ⟨hm, hrest⟩ := List.forall_mem_cons.1 hne
    obtain ⟨hfirst, hothers⟩ := List.pairwise_cons.1 hapart
    exact ⟨hm, hfirst, hrest, hothers⟩
  · rintro ⟨hm, hfirst, hrest, hothers⟩
    exact ⟨List.forall_mem_cons.2 ⟨hm, hrest⟩, List.pairwise_cons.2 ⟨hfirst, hothers⟩⟩

theorem nodup (h : Separable markers) : markers.Nodup := h.apart.imp Apart.ne

/-- **Their order does not matter.** -/
theorem perm (h : Separable markers) (hp : markers'.Perm markers) : Separable markers' where
  nonempty m hm := h.nonempty m (hp.mem_iff.1 hm)
  apart := (hp.pairwise_iff Apart.symm).2 h.apart

end Separable

namespace MarkerTable

variable {t t' : MarkerTable} {m n : String} {markers : List String}

theorem conflict_eq_false_iff : conflict m n = false ↔ Apart m n := by
  rw [conflict, Bool.or_eq_false_iff, Bool.eq_false_iff, Bool.eq_false_iff, Ne, Ne,
    Text.opens_iff_prefix, Text.opens_iff_prefix, Apart]

/-! ### One marker -/

/-- **A marker that registering adds** to a table. -/
def Accepts (t : MarkerTable) (m : String) : Prop := ∃ t', t.register m = .ok t'

theorem accepts_iff :
    t.Accepts m ↔ m ≠ "" ∧ ∀ n ∈ t.markers, n ≠ "" → Apart n m := by
  simp only [Accepts, register_eq_ok_iff, conflict_eq_false_iff, catchAll]
  constructor
  · rintro ⟨t', hne, happart, -⟩
    exact ⟨hne, happart⟩
  · rintro ⟨hne, happart⟩
    exact ⟨t.add m, hne, happart, rfl⟩

theorem Accepts.register (h : t.Accepts m) : t.register m = .ok (t.add m) := by
  obtain ⟨t', ht'⟩ := h
  rw [ht', (register_eq_ok_iff.1 ht').2.2]

theorem Accepts.notMem (h : t.Accepts m) : m ∉ t.markers := notMem_of_register h.register

/-- A marker that is refused stays so, since no marker goes away. -/
theorem Accepts.of_subset (h : t'.Accepts m) (hsub : t.markers ⊆ t'.markers) : t.Accepts m := by
  rw [accepts_iff] at h ⊢
  exact ⟨h.1, fun n hn => h.2 n (hsub hn)⟩

theorem exists_error_of_not_accepts (h : ¬t.Accepts m) : ∃ e, t.register m = .error e := by
  cases hr : t.register m with
  | error e => exact ⟨e, rfl⟩
  | ok t' => exact absurd ⟨t', hr⟩ h

/-- **A table that gets one marker more**: no line waits for it, and those that wait for the others
are what they were. -/
structure Gains (t : MarkerTable) (m : String) (t' : MarkerTable) : Prop where
  fresh : m ∉ t.markers
  markers : t'.markers = t.markers ++ [m]
  empty : t'.queue? m = some []
  others : ∀ n, n ≠ m → t'.queue? n = t.queue? n

theorem Gains.mem (h : t.Gains m t') : m ∈ t'.markers := by
  rw [h.markers]
  exact List.mem_append_right _ (List.mem_singleton_self m)

theorem Accepts.gains (h : t.Accepts m) : t.Gains m (t.add m) where
  fresh := h.notMem
  markers := markers_add t m
  empty := by simp [queue?_add, queue?_eq_none_iff.2 h.notMem]
  others n hn := by simp [queue?_add, hn]

/-! ### Markers one after the other -/

@[simp] theorem markers_foldl_add (t : MarkerTable) (markers : List String) :
    (markers.foldl add t).markers = t.markers ++ markers := by
  induction markers generalizing t with
  | nil => simp
  | cons m markers ih => simp [ih]

/-- **Markers that can all be registered**: they can be told apart from one another and from those
that are there. -/
structure AcceptsAll (t : MarkerTable) (markers : List String) : Prop where
  separable : Separable markers
  apart : ∀ n ∈ t.markers, n ≠ "" → ∀ m ∈ markers, Apart n m

theorem acceptsAll_nil : t.AcceptsAll [] := ⟨Separable.nil, by simp⟩

/-- The first marker is one that the others are compared with. -/
theorem acceptsAll_cons_iff :
    t.AcceptsAll (m :: markers) ↔ t.Accepts m ∧ (t.add m).AcceptsAll markers := by
  constructor
  · -- the first marker is compared with the table, the others with the first one as well
    rintro ⟨hsep, hapart⟩
    obtain ⟨hm, hfirst, hothers⟩ := Separable.cons_iff.1 hsep
    refine ⟨accepts_iff.2 ⟨hm, fun n hn hne => hapart n hn hne m (List.mem_cons_self ..)⟩,
      hothers, fun n hn hne k hk => ?_⟩
    rw [markers_add] at hn
    rcases List.mem_append.1 hn with hn | hn
    · exact hapart n hn hne k (List.mem_cons_of_mem _ hk)
    · rw [List.mem_singleton.1 hn]
      exact hfirst k hk
  · rintro ⟨hm, hsep, hapart⟩
    obtain ⟨hne, hthere⟩ := accepts_iff.1 hm
    simp only [markers_add] at hapart
    refine ⟨Separable.cons_iff.2 ⟨hne, hapart m (by simp) hne, hsep⟩, fun n hn hne' k hk => ?_⟩
    rcases List.mem_cons.1 hk with rfl | hk
    · exact hthere n hn hne'
    · exact hapart n (List.mem_append_left _ hn) hne' k hk

/-- In a new table there is nothing to compare them with. -/
theorem acceptsAll_new_iff : ({} : MarkerTable).AcceptsAll markers ↔ Separable markers :=
  ⟨AcceptsAll.separable, fun h => ⟨h, fun _ hn hne => absurd (List.mem_singleton.1 hn) hne⟩⟩

/-- **The markers of a table to which some were added**, but the empty one. -/
theorem sortedMarkers_foldl_add (h : Separable markers) :
    (markers.foldl add {}).sortedMarkers = markers.mergeSort fun a b => decide (a ≤ b) := by
  have hfilter : (markers.foldl add {}).markers.filter (· ≠ catchAll) = markers := by
    rw [markers_foldl_add]
    exact List.filter_eq_self.2 fun m hm => decide_eq_true (h.nonempty m hm)
  rw [sortedMarkers, hfilter]

end MarkerTable

namespace Splitter

variable {s s' : Splitter} {m : String} {markers : List String}

theorem register_eq_ok_iff :
    s.register m = .ok s' ↔ s.table.Accepts m ∧ s' = { s with table := s.table.add m } := by
  rw [register]
  by_cases h : s.table.Accepts m
  · simp [h, h.register, Except.map, eq_comm]
  · obtain ⟨e, he⟩ := MarkerTable.exists_error_of_not_accepts h
    simp [h, he, Except.map]

/-- **Registers markers one after the other**, until one is refused. -/
def registerAll (s : Splitter) (markers : List String) : Except LineError Splitter :=
  markers.foldlM register s

/-- **Which markers can be registered together.** -/
theorem registerAll_eq_ok_iff :
    s.registerAll markers = .ok s' ↔
      s.table.AcceptsAll markers ∧
        s' = { s with table := markers.foldl MarkerTable.add s.table } := by
  induction markers generalizing s with
  | nil => simp [registerAll, MarkerTable.acceptsAll_nil, pure, Except.pure, eq_comm]
  | cons m markers ih =>
      rw [registerAll, List.foldlM_cons, bind_eq_ok_iff, MarkerTable.acceptsAll_cons_iff]
      constructor
      · rintro ⟨s₁, hfirst, hothers⟩
        obtain ⟨hm, rfl⟩ := register_eq_ok_iff.1 hfirst
        obtain ⟨hall, hs'⟩ := ih.1 hothers
        exact ⟨⟨hm, hall⟩, hs'⟩
      · rintro ⟨⟨hm, hall⟩, hs'⟩
        exact ⟨_, register_eq_ok_iff.2 ⟨hm, rfl⟩, ih.2 ⟨hall, hs'⟩⟩

/-! ### Ensuring a marker at once -/

theorem ensure_of_mem (h : m ∈ s.table.markers) : s.ensure m = .ok s := by
  rw [ensure, MarkerTable.ensure, if_pos (MarkerTable.contains_iff.2 h)]
  rfl

theorem ensure_of_notMem (h : m ∉ s.table.markers) : s.ensure m = s.register m := by
  rw [ensure, MarkerTable.ensure, if_neg fun hm => h (MarkerTable.contains_iff.1 hm), register]

theorem ensure_of_accepts (h : s.table.Accepts m) :
    s.ensure m = .ok { s with table := s.table.add m } := by
  rw [ensure_of_notMem h.notMem]
  exact register_eq_ok_iff.2 ⟨h, rfl⟩

theorem exists_error_of_ensure (hm : m ∉ s.table.markers) (h : ¬s.table.Accepts m) :
    ∃ e, s.ensure m = .error e := by
  obtain ⟨e, he⟩ := MarkerTable.exists_error_of_not_accepts h
  exact ⟨e, by rw [ensure_of_notMem hm, register, he]; rfl⟩

end Splitter

namespace Conversation

variable {v v' w : Conversation} {m : String} {id : Nat} {a : Action}

/-! ### A call that nobody disturbs -/

/-- A call that ensures a marker, with no step of anybody else in between. -/
def ensureCall (id : Nat) (m : String) : List Action :=
  [.ensure id m, .ensureNext id, .ensureNext id, .ensureNext id]

theorem run_ensureCall_of_ok {s : Splitter} (hid : v.ensure? id = none)
    (h : v.splitter.ensure m = .ok s) :
    (v.run (ensureCall id m)).splitter = s ∧
      (v.run (ensureCall id m)).ensure? id = some { id, marker := m, phase := .finished none } := by
  have hrun := run_ensure hid m
  rw [h] at hrun
  exact hrun

theorem run_ensureCall_of_error {e : LineError} (hid : v.ensure? id = none)
    (h : v.splitter.ensure m = .error e) :
    (v.run (ensureCall id m)).splitter = v.splitter ∧
      (v.run (ensureCall id m)).ensure? id =
        some { id, marker := m, phase := .finished (some e) } := by
  have hrun := run_ensure hid m
  rw [h] at hrun
  exact hrun

/-- **What a call that ensures a marker comes to**, from the state before it to the one after it: it
is accepted exactly if the marker is registered or can be, it changes nothing unless it registers
the marker, and a second call gets the same answer and changes nothing. -/
structure Ensures (v : Conversation) (id : Nat) (m : String) (error : Option LineError)
    (w : Conversation) : Prop where
  answer : w.ensure? id = some { id, marker := m, phase := .finished error }
  accepted_iff : error = none ↔ m ∈ v.splitter.table.markers ∨ v.splitter.table.Accepts m
  unchanged : m ∈ v.splitter.table.markers ∨ error ≠ none → w.splitter = v.splitter
  gained : m ∉ v.splitter.table.markers → error = none → ∃ table,
    v.splitter.table.Gains m table ∧ w.splitter = { v.splitter with table }
  again : ∀ id', w.ensure? id' = none →
    (w.run (ensureCall id' m)).splitter = w.splitter ∧
      (w.run (ensureCall id' m)).ensure? id' =
        some { id := id', marker := m, phase := .finished error }

/-- **Every call that nobody disturbs has an answer.** -/
theorem exists_ensures (hid : v.ensure? id = none) (m : String) :
    ∃ error, v.Ensures id m error (v.run (ensureCall id m)) := by
  by_cases hm : m ∈ v.splitter.table.markers
  · have hensure := Splitter.ensure_of_mem hm
    obtain ⟨hs, he⟩ := run_ensureCall_of_ok hid hensure
    refine ⟨none, he, by simp [hm], fun _ => hs, fun hnot => absurd hm hnot, fun id' hid' => ?_⟩
    rw [← hs] at hensure
    exact run_ensureCall_of_ok hid' hensure
  · by_cases hacc : v.splitter.table.Accepts m
    · obtain ⟨hs, he⟩ := run_ensureCall_of_ok hid (Splitter.ensure_of_accepts hacc)
      refine ⟨none, he, by simp [hacc], ?_, fun _ _ => ⟨_, hacc.gains, hs⟩, fun id' hid' => ?_⟩
      · rintro (hmem | hne)
        · exact absurd hmem hm
        · exact absurd rfl hne
      · -- the second call finds the marker that the first one registered
        refine run_ensureCall_of_ok hid' (Splitter.ensure_of_mem ?_)
        rw [hs]
        exact hacc.gains.mem
    · obtain ⟨e, hensure⟩ := Splitter.exists_error_of_ensure hm hacc
      obtain ⟨hs, he⟩ := run_ensureCall_of_error hid hensure
      refine ⟨some e, he, by simp [hm, hacc], fun _ => hs, by simp, fun id' hid' => ?_⟩
      rw [← hs] at hensure
      exact run_ensureCall_of_error hid' hensure

end Conversation

/-! ### Calls that others disturb -/

/-- **What a call has learnt** about its marker: that it is registered, or that it cannot be. -/
def EnsureCall.Tracks (e : EnsureCall) (t : MarkerTable) : Prop :=
  match e.phase with
  | .looking | .registering => True
  | .lookingAgain _ => ¬t.Accepts e.marker
  | .finished none => e.marker ∈ t.markers
  | .finished (some _) => e.marker ∉ t.markers ∧ ¬t.Accepts e.marker

namespace Conversation

variable {v v' : Conversation} {m : String} {id : Nat} {a : Action} {e : EnsureCall}

/-- A marker that is refused is not registered by any step. -/
theorem Step.notMem_markers (h : Step v a v') (hm : m ∉ v.splitter.table.markers)
    (hacc : ¬v.splitter.table.Accepts m) : m ∉ v'.splitter.table.markers := by
  rcases h.markers_eq with heq | ⟨n, hr⟩
  · rwa [heq]
  · have hn : v.splitter.table.Accepts n := ⟨_, hr⟩
    obtain ⟨-, -, hadd⟩ := MarkerTable.register_eq_ok_iff.1 hr
    rw [hadd, MarkerTable.markers_add, List.mem_append, List.mem_singleton]
    rintro (hmem | rfl)
    · exact hm hmem
    · exact hacc hn

end Conversation

/-- **What a call has learnt stays true**, whoever takes a step. -/
theorem EnsureCall.Tracks.step {v v' : Conversation} {a : Conversation.Action} {e : EnsureCall}
    (h : e.Tracks v.splitter.table) (hstep : Conversation.Step v a v') :
    e.Tracks v'.splitter.table := by
  have hrefused : ¬v.splitter.table.Accepts e.marker → ¬v'.splitter.table.Accepts e.marker :=
    fun hacc hacc' => hacc (hacc'.of_subset hstep.markers_subset)
  cases hp : e.phase with
  | looking | registering => simp only [Tracks, hp]
  | lookingAgain error =>
      simp only [Tracks, hp] at h ⊢
      exact hrefused h
  | finished error =>
      cases error with
      | none =>
          simp only [Tracks, hp] at h ⊢
          exact hstep.markers_subset h
      | some error =>
          simp only [Tracks, hp] at h ⊢
          exact ⟨hstep.notMem_markers h.1 h.2, hrefused h.2⟩

namespace Conversation

variable {v v' : Conversation} {m : String} {id : Nat} {a : Action} {e : EnsureCall}

/-- **A step of a call that ensures a marker**: it registers the marker and ends, or it learns
something. -/
theorem runEnsure_cases (h : v.runEnsure e = some v') :
    (v.splitter.table.Accepts e.marker ∧
        v' = { v with
          splitter := { v.splitter with table := v.splitter.table.add e.marker } }.setEnsure
            { e with phase := .finished none }) ∨
      ∃ phase, v' = v.setEnsure { e with phase } ∧
        (e.Tracks v.splitter.table → { e with phase }.Tracks v.splitter.table) := by
  rw [runEnsure] at h
  split at h
  next =>
    cases h
    refine Or.inr ⟨_, rfl, fun _ => ?_⟩
    cases hm : v.splitter.table.contains e.marker with
    | true => exact MarkerTable.contains_iff.1 hm
    | false => trivial
  next =>
    by_cases hacc : v.splitter.table.Accepts e.marker
    · rw [Splitter.register_eq_ok_iff.2 ⟨hacc, rfl⟩] at h
      cases h
      exact Or.inl ⟨hacc, rfl⟩
    · obtain ⟨error, herror⟩ := MarkerTable.exists_error_of_not_accepts hacc
      rw [Splitter.register, herror] at h
      cases h
      exact Or.inr ⟨_, rfl, fun _ => hacc⟩
  next error hp =>
    cases h
    refine Or.inr ⟨_, rfl, fun htracks => ?_⟩
    rw [EnsureCall.Tracks, hp] at htracks
    cases hm : v.splitter.table.contains e.marker with
    | true => exact MarkerTable.contains_iff.1 hm
    | false =>
        refine ⟨fun hmem => ?_, htracks⟩
        rw [MarkerTable.contains_iff.2 hmem] at hm
        cases hm
  next => cases h

/-- Only steps that register markers touch the calls. -/
theorem Step.ensures_eq (h : Step v a v') (ha : a.isRegistration = false) :
    v'.ensures = v.ensures := by
  cases h with
  | registered _ ha' | ensuring _ ha' =>
      rw [ha] at ha'
      cases ha'
  | _ => rfl

theorem mem_of_ensure? (h : v.ensure? id = some e) : e ∈ v.ensures :=
  List.mem_of_find?_eq_some h

theorem id_of_ensure? (h : v.ensure? id = some e) : e.id = id := by
  simpa using List.find?_some h

theorem eq_or_mem_of_mem_setEnsure {f : EnsureCall} (h : e ∈ (v.setEnsure f).ensures) :
    e = f ∨ e ∈ v.ensures := by
  obtain ⟨d, hd, rfl⟩ := List.mem_map.1 h
  by_cases hid : d.id = f.id
  · rw [if_pos hid]
    exact Or.inl rfl
  · rw [if_neg hid]
    exact Or.inr hd

/-- All calls, whatever they have learnt so far. -/
def Tracked (v : Conversation) : Prop := ∀ e ∈ v.ensures, e.Tracks v.splitter.table

theorem Tracked.step? (hv : v.Tracked) (h : v.step? a = some v') : v'.Tracked := by
  -- the calls that do not move know what they knew; the kinds of steps do not tell which one moves
  have hold : ∀ e ∈ v.ensures, e.Tracks v'.splitter.table :=
    fun e he => (hv e he).step (Step.of_step? h)
  cases a with
  | register marker =>
      obtain ⟨s, -, rfl⟩ := Option.map_eq_some_iff.1 h
      exact hold
  | ensure id marker =>
      simp only [Conversation.step?] at h
      split at h
      · cases h
        intro e he
        rcases List.mem_append.1 he with he | he
        · exact hold e he
        · rw [List.mem_singleton.1 he]
          trivial
      · cases h
  | ensureNext id =>
      obtain ⟨e, he, hrun⟩ := Option.bind_eq_some_iff.1 h
      have hmem := mem_of_ensure? he
      rcases runEnsure_cases hrun with ⟨hacc, rfl⟩ | ⟨phase, rfl, htracks⟩
      all_goals
        intro f hf
        rcases eq_or_mem_of_mem_setEnsure hf with rfl | hf
      · exact hacc.gains.mem
      · exact hold f hf
      · exact htracks (hv e hmem)
      · exact hold f hf
  | _ =>
      intro e he
      rw [(Step.of_step? h).ensures_eq rfl] at he
      exact hold e he

theorem tracked_run (schedule : List Action) : (run {} schedule).Tracked :=
  run_induction_of_step? (fun _ _ _ hv h => hv.step? h) (fun _ he => absurd he List.not_mem_nil)
    schedule

/-! ### In every state -/

/-- **What registering a marker comes to** in a state: if it is refused nothing changes, and if it
is accepted the table gains one marker and nothing else changes. -/
structure RegistersAtomically (v : Conversation) (m : String) : Prop where
  refused : ¬v.splitter.table.Accepts m → v.tryStep (.register m) = v
  accepted : v.splitter.table.Accepts m → ∃ table, v.splitter.table.Gains m table ∧
    v.tryStep (.register m) = { v with splitter := { v.splitter with table } }

theorem registersAtomically (v : Conversation) (m : String) : v.RegistersAtomically m where
  refused h := by
    obtain ⟨e, he⟩ := MarkerTable.exists_error_of_not_accepts h
    rw [tryStep, step?, Splitter.register, he]
    rfl
  accepted h := by
    refine ⟨_, h.gains, ?_⟩
    rw [tryStep, step?, Splitter.register, h.register]
    rfl

/-- **What ensuring markers comes to** in a state.  A call that nobody disturbs is answered.  Of the
calls that others disturb each step changes nothing, or registers the marker and ends the call; and
one that has ended was accepted exactly if its marker is registered, and refused only if it cannot
be. -/
structure EnsuresAtomically (v : Conversation) : Prop where
  undisturbed : ∀ id m, v.ensure? id = none →
    ∃ error, v.Ensures id m error (v.run (ensureCall id m))
  one_step : ∀ id e v', v.ensure? id = some e → v.step? (.ensureNext id) = some v' →
    v'.splitter = v.splitter ∨
      ∃ table, v.splitter.table.Gains e.marker table ∧ v'.splitter = { v.splitter with table } ∧
        v'.ensure? id = some { e with phase := .finished none }
  settled : ∀ e ∈ v.ensures, ∀ error, e.phase = .finished error →
    (error = none ↔ e.marker ∈ v.splitter.table.markers) ∧
      (error ≠ none → ¬v.splitter.table.Accepts e.marker)

theorem Tracked.ensuresAtomically (hv : v.Tracked) : v.EnsuresAtomically where
  undisturbed _ m hid := exists_ensures hid m
  one_step id e v' he hstep := by
    obtain ⟨f, hf, hrun⟩ := Option.bind_eq_some_iff.1 hstep
    obtain rfl : f = e := Option.some.inj (hf.symm.trans he)
    have hid : f.id = id := id_of_ensure? he
    rcases runEnsure_cases hrun with ⟨hacc, rfl⟩ | ⟨phase, rfl, -⟩
    · refine Or.inr ⟨_, hacc.gains, rfl, ?_⟩
      have he' : { v with
          splitter := { v.splitter with table := v.splitter.table.add f.marker } }.ensure? id =
            some f := he
      exact ensure?_setEnsure he' hid
    · exact Or.inl rfl
  settled e he error hp := by
    have htracks := hv e he
    rw [EnsureCall.Tracks, hp] at htracks
    cases error with
    | none => exact ⟨iff_of_true rfl htracks, fun hne => absurd rfl hne⟩
    | some error => exact ⟨iff_of_false (by simp) htracks.1, fun _ => htracks.2⟩

/-- **Registering markers is a matter of the markers alone, and of one step.**  A new splitter
accepts some markers exactly if they can be told apart, whatever their order, and lists them sorted.
In every state that steps can lead to, registering or ensuring a marker changes nothing if it is
refused, and otherwise adds at most one empty queue. -/
theorem registration_orderless_and_atomic (markers : List String) (schedule : List Action) :
    ((∃ s, ({} : Splitter).registerAll markers = .ok s) ↔ Separable markers) ∧
      (∀ s, ({} : Splitter).registerAll markers = .ok s →
        s.table.sortedMarkers.Perm markers ∧ s.table.sortedMarkers.Pairwise (· < ·) ∧
          ∀ markers', markers'.Perm markers → ∃ s',
            ({} : Splitter).registerAll markers' = .ok s' ∧
              s'.table.sortedMarkers = s.table.sortedMarkers) ∧
      (∀ m, (run {} schedule).RegistersAtomically m) ∧ (run {} schedule).EnsuresAtomically := by
  have hnew : ∀ (ms : List String) (s : Splitter), ({} : Splitter).registerAll ms = .ok s ↔
      Separable ms ∧ s = { table := ms.foldl MarkerTable.add {} } := by
    intro ms s
    rw [Splitter.registerAll_eq_ok_iff, MarkerTable.acceptsAll_new_iff]
  refine ⟨⟨?_, fun h => ⟨_, (hnew _ _).2 ⟨h, rfl⟩⟩⟩, fun s hs => ?_,
    fun m => registersAtomically _ m, (tracked_run schedule).ensuresAtomically⟩
  · rintro ⟨s, hs⟩
    exact ((hnew _ _).1 hs).1
  · obtain ⟨hsep, rfl⟩ := (hnew _ _).1 hs
    rw [MarkerTable.sortedMarkers_foldl_add hsep]
    refine ⟨List.mergeSort_perm .., Text.sorted_pairwise_lt hsep.nodup, fun markers' hp => ?_⟩
    have hsep' := hsep.perm hp
    refine ⟨_, (hnew _ _).2 ⟨hsep', rfl⟩, ?_⟩
    rw [MarkerTable.sortedMarkers_foldl_add hsep']
    exact Text.sorted_eq_of_perm hp hsep'.nodup

end Conversation

end LineChat
