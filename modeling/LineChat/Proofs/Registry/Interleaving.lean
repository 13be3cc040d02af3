/-
**Registering while others log in.**

Several tasks use a registry at once, and what is atomic is one access to it.  Logging in and out is
one access.  Registering a user that has a record is one as well; registering a new user is a look
and, since that finds nothing, an insertion, with any accesses of others between the two.

An insertion puts a fresh record in the place of any that has come since the look.  So when two
tasks register a new user at the same time, the second insertion replaces a key without saying so,
and it ends the session of a user who has logged in between.  Nothing else goes wrong: as long as no
two registrations of a user have both found nothing, what is known of that user is what calls one
after the other would make of it, whatever the tasks do to other users.

Main definitions:

* `LineChat.RegistryAccess`, `LineChat.SharedRegistry` — accesses, and a registry with the
  registrations that have found nothing;
* `LineChat.SharedRegistry.Atomic` — **registering as one access would be**;
* `LineChat.SharedRegistry.Calm` — no two registrations of a user have both found nothing.

Main results:

* `LineChat.SharedRegistry.not_atomic_insert`, `LineChat.SharedRegistry.exists_not_atomic` — **a
  late insertion is noticed**, and two registrations that have found nothing lead to one;
* `LineChat.SharedRegistry.not_forall_atomic` — a login is lost;
* `LineChat.SharedRegistry.atomic_of_calm` — **nothing else goes wrong**;
* `LineChat.SharedRegistry.Calm.append_of_contains` — nor does it for a user that is registered;
* `LineChat.SharedRegistry.exists_calls_of_calm` — if it never does, the calls might have come one
  after the other.
-/

import LineChat.Proofs.Registry.Histories
import Mathlib.Data.List.Infix

set_option autoImplicit false

namespace LineChat

/-- **An access to a registry.** -/
inductive RegistryAccess where
  /-- A task registers a user: it looks, and replaces the key if there is one. -/
  | look (user : String) (key : PublicKey)
  /-- One of the tasks that have found nothing inserts a record. -/
  | insert (i : Nat)
  | bind (user : String) (peer : Address)
  | release (user : String) (id : Nat)

/-- **A registry that several tasks use.** -/
structure SharedRegistry where
  now : Registry := {}
  /-- The registrations that have found nothing, and have still to insert. -/
  pending : List (String × PublicKey) := []
  /-- What was answered, and the registry that the last access for it met. -/
  log : List (Registry × RegistryEvent) := []

namespace SharedRegistry

/-- What was answered. -/
def events (s : SharedRegistry) : List RegistryEvent := s.log.map (·.2)

/-- The registry after an access with which a call was answered. -/
def answered (s : SharedRegistry) (e : RegistryEvent) (r : Registry) : SharedRegistry :=
  { s with now := r, log := s.log ++ [(s.now, e)] }

/-- **One access.** -/
def step (s : SharedRegistry) : RegistryAccess → SharedRegistry
  | .look user key =>
      match s.now.replaceKey? user key with
      | some (previous, r) => s.answered (.registered user key (some previous)) r
      | none => { s with pending := s.pending ++ [(user, key)] }
  | .insert i =>
      match s.pending[i]? with
      | some (user, key) =>
          { s.answered (.registered user key none) (s.now.insert user key) with
            pending := s.pending.eraseIdx i }
      | none => s
  | .bind user peer =>
      s.answered (s.now.answer (.bind user peer)).1 (s.now.answer (.bind user peer)).2
  | .release user id =>
      s.answered (s.now.answer (.release user id)).1 (s.now.answer (.release user id)).2

/-- **Accesses in some order**, to a registry without users. -/
def run (schedule : List RegistryAccess) : SharedRegistry := schedule.foldl step {}

/-- The registrations of a user that have found nothing. -/
def pendingOf (s : SharedRegistry) (user : String) : List (String × PublicKey) :=
  s.pending.filter (·.1 = user)

/-- **Registering as one access would be**, as far as a user notices: a session goes on until it is
released or replaced, and every registration says which key it has replaced. -/
structure Atomic (s : SharedRegistry) (user : String) : Prop where
  session_kept : ∀ session : Session,
    Since (fun e => ¬e.Binds user ∧ ¬e.Releases user session.id) (.bound user session) s.events →
      s.now.session? user = some session
  previous_eq : ∀ r key previous, (r, .registered user key previous) ∈ s.log →
    previous = r.lookup user

/-- **No two registrations of a user have both found nothing**, at any time. -/
def Calm (user : String) (schedule : List RegistryAccess) : Prop :=
  ∀ before, before <+: schedule → ((run before).pendingOf user).length ≤ 1

variable {s s' : SharedRegistry} {user : String} {key : PublicKey} {i : Nat}
  {schedule before after : List RegistryAccess}

theorem run_snoc (schedule : List RegistryAccess) (a : RegistryAccess) :
    run (schedule ++ [a]) = (run schedule).step a := by
  rw [run, List.foldl_append]
  rfl

@[simp] theorem events_answered (s : SharedRegistry) (e : RegistryEvent) (r : Registry) :
    (s.answered e r).events = s.events ++ [e] := by
  simp [events, answered]

/-! ### The kinds of accesses -/

/-- What is found by a look is registered in one access. -/
theorem answer_of_replaceKey? {r r' : Registry} {previous : PublicKey}
    (h : r.replaceKey? user key = some (previous, r')) :
    r.answer (.register user key) = (.registered user key (some previous), r') := by
  rw [Registry.answer, Registry.register_of_replaceKey? h]

/-- And so is what is inserted in time. -/
theorem answer_of_lookup {r : Registry} (h : r.lookup user = none) (key : PublicKey) :
    r.answer (.register user key) = (.registered user key none, r.insert user key) := by
  rw [Registry.answer, Registry.register_of_lookup_eq_none h]

/-- **The kinds of accesses**: only an insertion makes a user known, and all others that are
answered are whole calls. -/
inductive Access (s : SharedRegistry) : SharedRegistry → Prop
  | missed (user : String) (key : PublicKey) (h : s.now.lookup user = none) :
      Access s { s with pending := s.pending ++ [(user, key)] }
  | inserted (i : Nat) (user : String) (key : PublicKey) (h : s.pending[i]? = some (user, key)) :
      Access s { s.answered (.registered user key none) (s.now.insert user key) with
        pending := s.pending.eraseIdx i }
  | idle : Access s s
  | called (call : RegistryCall)
      (h : ∀ user, (s.now.answer call).2.contains user = s.now.contains user) :
      Access s (s.answered (s.now.answer call).1 (s.now.answer call).2)

theorem contains_eq_of_lookup {r r' : Registry} (h : r'.lookup = r.lookup) (user : String) :
    r'.contains user = r.contains user := by
  rw [Registry.contains_eq_isSome_lookup, Registry.contains_eq_isSome_lookup, h]

/-- Registering a user that is known makes nobody known. -/
theorem contains_answer_register {r r' : Registry} {previous : PublicKey}
    (h : r.replaceKey? user key = some (previous, r')) (other : String) :
    (r.answer (.register user key)).2.contains other = r.contains other := by
  have hknown : (r.lookup user).isSome = true := by
    rw [Option.isSome_iff_ne_none]
    intro hnone
    rw [Registry.replaceKey?_eq_none_iff.2 hnone] at h
    cases h
  rw [Registry.contains_eq_isSome_lookup, Registry.contains_eq_isSome_lookup]
  change ((r.register user key).2.lookup other).isSome = _
  rw [Registry.lookup_register]
  split
  next ho => rw [ho, hknown]; rfl
  next => rfl

theorem Access.of_step (s : SharedRegistry) (a : RegistryAccess) : Access s (s.step a) := by
  cases a with
  | look user key =>
      rw [step]
      split
      next previous r hr =>
        have hcalled := Access.called (s := s) (.register user key) (contains_answer_register hr)
        rwa [answer_of_replaceKey? hr] at hcalled
      next hr => exact .missed user key (Registry.replaceKey?_eq_none_iff.1 hr)
  | insert i =>
      rw [step]
      split
      next user key hi => exact .inserted i user key hi
      next => exact .idle
  | bind user peer =>
      refine .called (.bind user peer) (contains_eq_of_lookup ?_)
      rw [Registry.snd_answer_bind]
      exact Registry.lookup_bind s.now user peer
  | release user id =>
      exact .called (.release user id) (contains_eq_of_lookup (Registry.lookup_release _ user id))

/-! ### Registrations that have found nothing -/

theorem exists_eraseIdx {α : Type} {l : List α} {x : α} (h : l[i]? = some x) :
    ∃ front back, l = front ++ x :: back ∧ l.eraseIdx i = front ++ back := by
  obtain ⟨hi, rfl⟩ := List.getElem?_eq_some_iff.1 h
  refine ⟨l.take i, l.drop (i + 1), ?_, List.eraseIdx_eq_take_drop_succ l i⟩
  rw [List.getElem_cons_drop, List.take_append_drop]

theorem pendingOf_append (s : SharedRegistry) {other : String} (h : other ≠ user) :
    { s with pending := s.pending ++ [(other, key)] : SharedRegistry }.pendingOf user =
      s.pendingOf user := by
  simp [pendingOf, h]

theorem pendingOf_eraseIdx_of_ne {other : String} (h : s.pending[i]? = some (other, key))
    (ho : other ≠ user) : (s.pending.eraseIdx i).filter (·.1 = user) = s.pendingOf user := by
  obtain ⟨front, back, hpending, herase⟩ := exists_eraseIdx h
  rw [herase, pendingOf, hpending, List.filter_append, List.filter_append,
    List.filter_cons_of_neg (by simpa using ho)]

theorem length_pendingOf_eraseIdx (h : s.pending[i]? = some (user, key)) :
    ((s.pending.eraseIdx i).filter (·.1 = user)).length + 1 = (s.pendingOf user).length := by
  obtain ⟨front, back, hpending, herase⟩ := exists_eraseIdx h
  rw [herase, pendingOf, hpending, List.filter_append, List.filter_append,
    List.filter_cons_of_pos (by simp), List.length_append, List.length_append, List.length_cons]
  omega

theorem mem_pendingOf (h : s.pending[i]? = some (user, key)) : (user, key) ∈ s.pendingOf user :=
  List.mem_filter.2 ⟨List.mem_of_getElem? h, by simp⟩

theorem exists_pending (h : 0 < (s.pendingOf user).length) :
    ∃ (i : Nat) (key : PublicKey), s.pending[i]? = some (user, key) := by
  obtain ⟨⟨other, key⟩, hmem⟩ := List.exists_mem_of_length_pos h
  obtain ⟨hpending, ho⟩ := List.mem_filter.1 hmem
  obtain rfl : other = user := by simpa using ho
  obtain ⟨i, hi⟩ := List.mem_iff_getElem?.1 hpending
  exact ⟨i, key, hi⟩

/-! ### Late insertions -/

theorem step_insert (h : s.pending[i]? = some (user, key)) :
    s.step (.insert i) =
      { s.answered (.registered user key none) (s.now.insert user key) with
        pending := s.pending.eraseIdx i } := by
  rw [step, h]

/-- **A late insertion is noticed**: it replaces a key and does not say so. -/
theorem not_atomic_insert (h : s.pending[i]? = some (user, key))
    (hcontains : s.now.contains user = true) : ¬(s.step (.insert i)).Atomic user := by
  intro hatomic
  rw [step_insert h] at hatomic
  have hprevious := hatomic.previous_eq s.now key none (by simp [answered])
  rw [Registry.contains_eq_isSome_lookup, ← hprevious] at hcontains
  cases hcontains

/-- And it ends a session. -/
theorem session?_insert (h : s.pending[i]? = some (user, key)) :
    (s.step (.insert i)).now.session? user = none := by
  rw [step_insert h]
  exact (Registry.session?_insert s.now user key user).trans (if_pos rfl)

/-- **Two registrations of a user that have both found nothing** go wrong, whatever was before. -/
theorem exists_not_atomic (h : 2 ≤ ((run schedule).pendingOf user).length) :
    ∃ i j, ¬(run (schedule ++ [.insert i, .insert j])).Atomic user := by
  obtain ⟨i, first, hi⟩ := exists_pending (Nat.lt_of_lt_of_le Nat.zero_lt_two h)
  have hknown : ((run schedule).step (.insert i)).now.contains user = true := by
    rw [step_insert hi]
    change ((run schedule).now.insert user first).contains user = true
    rw [Registry.contains_eq_isSome_lookup, Registry.lookup_insert, if_pos rfl]
    rfl
  have hleft : 0 < (((run schedule).step (.insert i)).pendingOf user).length := by
    have hlength := length_pendingOf_eraseIdx hi
    rw [step_insert hi]
    change 0 < (((run schedule).pending.eraseIdx i).filter (·.1 = user)).length
    omega
  obtain ⟨j, second, hj⟩ := exists_pending hleft
  refine ⟨i, j, ?_⟩
  rw [List.append_cons, run_snoc, run_snoc]
  exact not_atomic_insert hj hknown

/-- An address to log in from. -/
def desk : Address := ⟨.v4 (Vector.replicate 4 10), 4040⟩

/-- Two tasks register a user, one of them inserts, and the user logs in. -/
def overlap : List RegistryAccess :=
  [.look "alice" ⟨33, 3⟩, .look "alice" ⟨35, 5⟩, .insert 1, .bind "alice" desk]

/-- **A login is lost**, once the other task inserts as well. -/
theorem not_forall_atomic :
    ¬∀ (schedule : List RegistryAccess) (user : String), (run schedule).Atomic user := by
  intro h
  have hpending : (run overlap).pending[0]? = some ("alice", ⟨33, 3⟩) := by rfl
  have hevents : (run (overlap ++ [.insert 0])).events =
      [.registered "alice" ⟨35, 5⟩ none, .bound "alice" ⟨0, desk⟩,
        .registered "alice" ⟨33, 3⟩ none] := by rfl
  have hsession := (h (overlap ++ [.insert 0]) "alice").session_kept
    ⟨0, desk⟩
    ⟨[.registered "alice" ⟨35, 5⟩ none], [.registered "alice" ⟨33, 3⟩ none], hevents, by
      simp [RegistryEvent.Binds, RegistryEvent.Releases]⟩
  rw [run_snoc, session?_insert hpending] at hsession
  cases hsession

/-! ### Without late insertions -/

/-- **What is known of a user for whom no insertion was late.** -/
structure Orderly (s : SharedRegistry) (user : String) : Prop where
  recounts : s.now.Recounts s.events user
  previous_eq : ∀ r key previous, (r, .registered user key previous) ∈ s.log →
    previous = r.lookup user
  /-- No insertion will be. -/
  clear : s.now.contains user = true → s.pendingOf user = []

theorem Orderly.atomic (h : s.Orderly user) : s.Atomic user where
  session_kept session hsince := (h.recounts.session?_eq_some_iff session).2 hsince
  previous_eq := h.previous_eq

theorem orderly_start (user : String) : ({} : SharedRegistry).Orderly user where
  recounts := Registry.recounts_empty user
  previous_eq r key previous hmem := by cases hmem
  clear hcontains := by cases hcontains

/-- An answer that is recorded keeps order. -/
theorem Orderly.answered (h : s.Orderly user) {e : RegistryEvent} {r : Registry}
    {pending : List (String × PublicKey)} (he : s.now.Records e r user)
    (hclear : r.contains user = true → pending.filter (·.1 = user) = []) :
    { s.answered e r with pending : SharedRegistry }.Orderly user where
  recounts := by
    change r.Recounts (s.answered e r).events user
    rw [events_answered]
    exact h.recounts.snoc he
  previous_eq r' key previous hmem := by
    rcases List.mem_append.1 hmem with hmem | hmem
    · exact h.previous_eq r' key previous hmem
    · obtain ⟨rfl, rfl⟩ := Prod.mk.inj (List.mem_singleton.1 hmem)
      exact he.right rfl
  clear := hclear

/-- A registration that has found nothing does so rightly. -/
theorem Orderly.lookup_eq_none (h : s.Orderly user) (hi : s.pending[i]? = some (user, key)) :
    s.now.lookup user = none := by
  have hmem := mem_pendingOf hi
  by_contra hknown
  rw [h.clear (by rwa [Registry.contains_eq_isSome_lookup, Option.isSome_iff_ne_none])] at hmem
  cases hmem

/-- **An access keeps order**, unless two registrations of the user have found nothing. -/
theorem Orderly.access (h : s.Orderly user) (hone : (s.pendingOf user).length ≤ 1)
    (ha : Access s s') : s'.Orderly user := by
  cases ha with
  | missed other key hnone =>
      refine { recounts := h.recounts, previous_eq := h.previous_eq, clear := fun hknown => ?_ }
      have ho : other ≠ user := by
        rintro rfl
        change s.now.contains other = true at hknown
        rw [Registry.contains_eq_isSome_lookup, hnone] at hknown
        cases hknown
      rw [pendingOf_append s ho]
      exact h.clear hknown
  | inserted i other key hi =>
      by_cases ho : other = user
      · -- the insertion is in time, so it is what registering would be
        subst ho
        have hrecords := s.now.records_answer (.register other key) other
        rw [answer_of_lookup (h.lookup_eq_none hi)] at hrecords
        refine h.answered hrecords fun _ => List.length_eq_zero_iff.1 ?_
        have hlength := length_pendingOf_eraseIdx hi
        omega
      · have hrecords : s.now.Records (.registered other key none) (s.now.insert other key) user :=
          { lookup := Registry.lookup_insert s.now other key user
            session? := (Registry.session?_insert s.now other key user).trans (if_neg (Ne.symm ho))
            right := fun hu => absurd hu ho }
        refine h.answered hrecords fun hknown => ?_
        rw [Registry.contains_eq_isSome_lookup, Registry.lookup_insert, if_neg (Ne.symm ho),
          ← Registry.contains_eq_isSome_lookup] at hknown
        rw [pendingOf_eraseIdx_of_ne hi ho]
        exact h.clear hknown
  | idle => exact h
  | called call hcontains =>
      exact h.answered (s.now.records_answer call user) fun hknown =>
        h.clear (hcontains user ▸ hknown)

theorem calm_snoc_iff {a : RegistryAccess} :
    Calm user (schedule ++ [a]) ↔
      Calm user schedule ∧ ((run (schedule ++ [a])).pendingOf user).length ≤ 1 := by
  constructor
  · intro h
    exact ⟨fun before hb => h before (hb.trans (List.prefix_append ..)), h _ List.prefix_rfl⟩
  · rintro ⟨h, hlast⟩ before hb
    rcases List.prefix_concat_iff.1 hb with rfl | hb
    · exact hlast
    · exact h before hb

theorem Calm.length_le (h : Calm user schedule) : ((run schedule).pendingOf user).length ≤ 1 :=
  h schedule List.prefix_rfl

theorem Calm.orderly (h : Calm user schedule) : (run schedule).Orderly user := by
  induction schedule using List.reverseRecOn with
  | nil => exact orderly_start user
  | append_singleton schedule a ih =>
      have hbefore := (calm_snoc_iff.1 h).1
      rw [run_snoc]
      exact (ih hbefore).access hbefore.length_le (.of_step _ a)

/-- **Nothing else goes wrong**: if no two registrations of a user have both found nothing,
registering that user is as one access would be, and what is known of the user is what has been
answered. -/
theorem atomic_of_calm (h : Calm user schedule) :
    (run schedule).Atomic user ∧ (run schedule).now.Recounts (run schedule).events user :=
  ⟨h.orderly.atomic, h.orderly.recounts⟩

/-- A user logs in while others are registered, and is registered again by two tasks at once. -/
def crowd : List RegistryAccess :=
  [.look "alice" ⟨33, 3⟩, .look "bob" ⟨35, 5⟩, .look "bob" ⟨35, 7⟩, .insert 0, .insert 1,
    .bind "alice" desk, .look "alice" ⟨39, 5⟩, .insert 0,
    .look "alice" ⟨51, 3⟩, .release "alice" 1]

theorem atomic_of_calm_crowd :
    Calm "alice" crowd ∧ (run crowd).Atomic "alice" ∧
      (run crowd).now.Recounts (run crowd).events "alice" := by
  have hcalm : Calm "alice" crowd := by
    intro before hbefore
    rw [← List.mem_inits] at hbefore
    revert before
    decide
  exact ⟨hcalm, atomic_of_calm hcalm⟩

/-! ### When it is calm -/

/-- A user that is registered stays so, and no registration finds nothing any more. -/
theorem Access.settled (ha : Access s s')
    (h : s.now.contains user = true ∧ s.pendingOf user = []) :
    s'.now.contains user = true ∧ s'.pendingOf user = [] := by
  obtain ⟨hknown, hclear⟩ := h
  cases ha with
  | missed other key hnone =>
      have ho : other ≠ user := by
        rintro rfl
        rw [Registry.contains_eq_isSome_lookup, hnone] at hknown
        cases hknown
      exact ⟨hknown, (pendingOf_append s ho).trans hclear⟩
  | inserted i other key hi =>
      have ho : other ≠ user := by
        rintro rfl
        have hmem := mem_pendingOf hi
        rw [hclear] at hmem
        cases hmem
      refine ⟨?_, (pendingOf_eraseIdx_of_ne hi ho).trans hclear⟩
      change (s.now.insert other key).contains user = true
      rw [Registry.contains_eq_isSome_lookup, Registry.lookup_insert, if_neg (Ne.symm ho),
        ← Registry.contains_eq_isSome_lookup]
      exact hknown
  | idle => exact ⟨hknown, hclear⟩
  | called call hcontains => exact ⟨(hcontains user).trans hknown, hclear⟩

/-- **It stays calm once a user is registered**, whatever the tasks do. -/
theorem Calm.append_of_contains (h : Calm user before)
    (hknown : (run before).now.contains user = true) (after : List RegistryAccess) :
    Calm user (before ++ after) := by
  have hsettled : Calm user (before ++ after) ∧
      (run (before ++ after)).now.contains user = true ∧
        (run (before ++ after)).pendingOf user = [] := by
    induction after using List.reverseRecOn with
    | nil =>
        rw [List.append_nil]
        exact ⟨h, hknown, h.orderly.clear hknown⟩
    | append_singleton after a ih =>
        have hnext := (Access.of_step _ a).settled ih.2
        rw [← List.append_assoc, calm_snoc_iff, run_snoc]
        exact ⟨⟨ih.1, by rw [hnext.2]; exact Nat.zero_le _⟩, hnext⟩
  exact hsettled.1

/-- What an access makes of a history. -/
theorem Access.history (ha : Access s s') (h : ∀ user, s.Orderly user) :
    s'.now = s.now ∧ s'.events = s.events ∨
      ∃ call, s'.now = (s.now.answer call).2 ∧ s'.events = s.events ++ [(s.now.answer call).1] := by
  cases ha with
  | missed | idle => exact Or.inl ⟨rfl, rfl⟩
  | inserted i user key hi =>
      refine Or.inr ⟨.register user key, ?_⟩
      rw [answer_of_lookup ((h user).lookup_eq_none hi)]
      exact ⟨rfl, events_answered s _ (s.now.insert user key)⟩
  | called call => exact Or.inr ⟨call, rfl, events_answered ..⟩

/-- **Calls that might have come one after the other**: if it is calm for every user, a registry and
its answers are those of some calls, made when they were answered. -/
theorem exists_calls_of_calm (h : ∀ user, Calm user schedule) :
    ∃ calls, RegistryHistory.run calls = ⟨(run schedule).now, (run schedule).events⟩ := by
  induction schedule using List.reverseRecOn with
  | nil => exact ⟨[], rfl⟩
  | append_singleton schedule a ih =>
      have hbefore := fun user => (calm_snoc_iff.1 (h user)).1
      obtain ⟨calls, hcalls⟩ := ih hbefore
      rw [run_snoc]
      rcases (Access.of_step _ a).history fun user => (hbefore user).orderly with
        ⟨hnow, hevents⟩ | ⟨call, hnow, hevents⟩
      · exact ⟨calls, by rw [hcalls, hnow, hevents]⟩
      · refine ⟨calls ++ [call], ?_⟩
        rw [RegistryHistory.run_snoc, hcalls, hnow, hevents]
        rfl

end SharedRegistry

end LineChat
