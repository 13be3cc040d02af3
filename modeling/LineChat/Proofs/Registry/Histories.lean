/-
**What a registry remembers.**

A registry answers from the calls it has had: with the key that a user was registered with last, and
with the session that was bound to a user last, unless that session has been released.  Calls for
other users have no part in it, and neither have releases of other sessions, late ones included.

What one call comes to is said once, by what it makes of the keys and of the sessions.  The answers
after any number of calls follow from that alone, so they hold of everything that records events in
this way.

Main definitions:

* `LineChat.Since` — an event, and **what has been so since**;
* `LineChat.RegistryCall`, `LineChat.RegistryEvent`, `LineChat.Registry.answer` — the calls that
  change a registry, with their answers;
* `LineChat.Registry.Records` — **what an event comes to**;
* `LineChat.Registry.Recounts` — a registry that **answers by its past**;
* `LineChat.RegistryHistory.Accurate` — what is to be true after any calls.

Main results:

* `LineChat.Registry.find?_register` — **what registering changes**;
* `LineChat.Registry.records_answer` — every call is recorded;
* `LineChat.Registry.Recounts.snoc` — a registry goes on answering by its past;
* `LineChat.Registry.Keyed.mem_online_iff`, `LineChat.Registry.Keyed.online_sorted` — who is
  logged in, each of them once;
* `LineChat.RegistryHistory.accurate_run` — **the answers after any calls**.
-/

import LineChat.Proofs.Registry
import LineChat.Proofs.Text.Sorted
import Mathlib.Data.List.Induction

set_option autoImplicit false

namespace LineChat

/-! ### Since an event -/

section

variable {α : Type} {keeps : α → Prop} {e x : α} {log : List α}

/-- **What has been so since an event**: it is in the log, and what came after it is all of one
kind. -/
def Since (keeps : α → Prop) (e : α) (log : List α) : Prop :=
  ∃ before after, log = before ++ e :: after ∧ ∀ x ∈ after, keeps x

theorem not_since_nil : ¬Since keeps e [] := by
  rintro ⟨before, after, h, -⟩
  simp at h

theorem since_snoc : Since keeps e (log ++ [x]) ↔ x = e ∨ keeps x ∧ Since keeps e log := by
  constructor
  · rintro ⟨before, after, h, hafter⟩
    rcases List.eq_nil_or_concat after with rfl | ⟨after, y, rfl⟩
    · exact Or.inl (List.singleton_inj.1 (List.append_inj' h rfl).2)
    · rw [List.concat_eq_append] at h hafter
      rw [← List.cons_append, ← List.append_assoc] at h
      obtain ⟨hlog, hx⟩ := List.append_inj' h rfl
      obtain rfl := List.singleton_inj.1 hx
      exact Or.inr ⟨hafter x (by simp), before, after, hlog, fun y hy => hafter y (by simp [hy])⟩
  · rintro (rfl | ⟨hx, before, after, rfl, hafter⟩)
    · exact ⟨log, [], rfl, by simp⟩
    · refine ⟨before, after ++ [x], by simp, fun y hy => ?_⟩
      rcases List.mem_append.1 hy with hy | hy
      · exact hafter y hy
      · rwa [List.mem_singleton.1 hy]

end

namespace Registry

variable {r : Registry} {user other : String} {key : PublicKey} {record : UserRecord}

/-! ### Registering -/

theorem find?_insert (r : Registry) (user : String) (key : PublicKey) (other : String) :
    (r.insert user key).find? other =
      if other = user then some { key } else r.find? other := by
  rw [insert]
  split
  next hcontains =>
    obtain ⟨record, hf⟩ := Option.isSome_iff_exists.1 hcontains
    exact find?_setRecord_of_find? hf _
  next hcontains =>
    have hnone : r.find? user = none := by simpa [contains] using hcontains
    by_cases ho : other = user
    · subst ho
      rw [find?, Option.map_eq_none_iff] at hnone
      simp [find?, List.find?_append, hnone]
    · have hother : (user == other) = false := by simpa using Ne.symm ho
      simp [find?, List.find?_append, ho, hother]

theorem lookup_insert (r : Registry) (user : String) (key : PublicKey) (other : String) :
    (r.insert user key).lookup other = if other = user then some key else r.lookup other := by
  rw [lookup, find?_insert]
  split <;> rfl

theorem session?_insert (r : Registry) (user : String) (key : PublicKey) (other : String) :
    (r.insert user key).session? other = if other = user then none else r.session? other := by
  rw [session?, find?_insert]
  split <;> rfl

theorem replaceKey?_of_find? (h : r.find? user = some record) (key : PublicKey) :
    r.replaceKey? user key = some (record.key, r.setRecord user { record with key }) := by
  rw [replaceKey?, h, Option.map_some]

theorem replaceKey?_eq_none_iff : r.replaceKey? user key = none ↔ r.lookup user = none := by
  rw [replaceKey?, lookup, Option.map_eq_none_iff, Option.map_eq_none_iff]

theorem register_of_replaceKey? {previous : PublicKey} {r' : Registry}
    (h : r.replaceKey? user key = some (previous, r')) :
    r.register user key = (some previous, r') := by
  rw [register, h]

theorem register_of_lookup_eq_none (h : r.lookup user = none) (key : PublicKey) :
    r.register user key = (none, r.insert user key) := by
  rw [register, replaceKey?_eq_none_iff.2 h]

/-- **What registering changes**: the key of one user. -/
theorem find?_register (r : Registry) (user : String) (key : PublicKey) (other : String) :
    (r.register user key).2.find? other =
      if other = user then some { key, session := r.session? user } else r.find? other := by
  cases hf : r.find? user with
  | none =>
      rw [register_of_lookup_eq_none (by rw [lookup, hf]; rfl), find?_insert, session?, hf]
      rfl
  | some record =>
      rw [register_of_replaceKey? (replaceKey?_of_find? hf key), find?_setRecord_of_find? hf,
        session?, hf]
      rfl

theorem lookup_register (r : Registry) (user : String) (key : PublicKey) (other : String) :
    (r.register user key).2.lookup other = if other = user then some key else r.lookup other := by
  rw [lookup, find?_register]
  split <;> rfl

/-- **A session goes on** when its user is registered again. -/
theorem session?_register (r : Registry) (user : String) (key : PublicKey) :
    (r.register user key).2.session? = r.session? := by
  funext other
  rw [session?, find?_register]
  split
  next ho => rw [ho]; rfl
  next => rfl

/-- Registering answers with the key that it replaces. -/
theorem register_fst (r : Registry) (user : String) (key : PublicKey) :
    (r.register user key).1 = r.lookup user := by
  cases hf : r.find? user with
  | none =>
      have hnone : r.lookup user = none := by rw [lookup, hf]; rfl
      rw [register_of_lookup_eq_none hnone, hnone]
  | some record =>
      rw [register_of_replaceKey? (replaceKey?_of_find? hf key), lookup, hf]
      rfl

theorem issued_register (r : Registry) (user : String) (key : PublicKey) :
    (r.register user key).2.issued = r.issued := by
  cases hf : r.find? user with
  | none =>
      rw [register_of_lookup_eq_none (by rw [lookup, hf]; rfl), insert]
      split <;> rfl
  | some record =>
      rw [register_of_replaceKey? (replaceKey?_of_find? hf key)]
      rfl

/-! ### One record for each user -/

/-- **A registry with one record for each user.** -/
def Keyed (r : Registry) : Prop := (r.users.map (·.1)).Nodup

theorem keyed_empty : Keyed {} := List.nodup_nil

theorem map_fst_setRecord (r : Registry) (user : String) (record : UserRecord) :
    (r.setRecord user record).users.map (·.1) = r.users.map (·.1) := by
  rw [setRecord, List.map_map]
  refine List.map_congr_left fun u _ => ?_
  by_cases hu : u.1 = user
  · simp [hu]
  · simp [hu]

theorem Keyed.setRecord (h : r.Keyed) (user : String) (record : UserRecord) :
    (r.setRecord user record).Keyed := by
  rw [Keyed, map_fst_setRecord]
  exact h

theorem Keyed.insert (h : r.Keyed) (user : String) (key : PublicKey) :
    (r.insert user key).Keyed := by
  rw [Registry.insert]
  split
  next => exact h.setRecord user _
  next hcontains =>
    have hnone : r.find? user = none := by simpa [contains] using hcontains
    rw [find?, Option.map_eq_none_iff, List.find?_eq_none] at hnone
    have hnew : user ∉ r.users.map (·.1) := by
      rw [List.mem_map]
      rintro ⟨u, hu, hname⟩
      exact hnone u hu (beq_iff_eq.2 hname)
    rw [Keyed, List.map_append, List.nodup_append]
    refine ⟨h, by simp, fun a ha b hb => ?_⟩
    obtain rfl : b = user := by simpa using hb
    exact fun hab => hnew (hab ▸ ha)

theorem Keyed.register (h : r.Keyed) (user : String) (key : PublicKey) :
    (r.register user key).2.Keyed := by
  rw [Registry.register]
  cases hf : r.find? user with
  | none =>
      rw [replaceKey?, hf]
      exact h.insert user key
  | some record =>
      rw [replaceKey?_of_find? hf]
      exact h.setRecord user _

theorem Keyed.bind (h : r.Keyed) (user : String) (peer : Address) :
    (r.bind user peer).2.Keyed := by
  cases hf : r.find? user with
  | none =>
      rw [bind_of_find?_none hf]
      exact h
  | some record =>
      rw [bind_of_find? hf]
      exact h.setRecord user _

theorem Keyed.release (h : r.Keyed) (user : String) (id : Nat) :
    (r.release user id).2.Keyed := by
  rcases release_cases r user id with ⟨record, -, -, hrelease⟩ | ⟨-, hrelease⟩
  · rw [hrelease]
    exact h.setRecord user _
  · rw [hrelease]
    exact h

theorem Keyed.find?_eq_some_iff (h : r.Keyed) :
    r.find? user = some record ↔ (user, record) ∈ r.users := by
  rw [Keyed] at h
  rw [find?]
  generalize r.users = us at h ⊢
  induction us with
  | nil => simp
  | cons u us ih =>
      rw [List.map_cons, List.nodup_cons] at h
      by_cases hu : u.1 = user
      · have hrest : (user, record) ∉ us := by
          intro hmem
          exact h.1 (hu ▸ List.mem_map_of_mem (f := (·.1)) hmem)
        simp [hu, hrest, Prod.ext_iff, eq_comm]
      · have hne : (user, record) ≠ u := fun heq => hu (heq ▸ rfl)
        simpa [hu, hne] using ih h.2

/-- **Who is logged in.** -/
theorem Keyed.mem_online_iff (h : r.Keyed) :
    user ∈ r.online ↔ ∃ session, r.session? user = some session := by
  have hmem : user ∈ r.online ↔
      ∃ record, (user, record) ∈ r.users ∧ record.session.isSome = true := by
    simp [online, List.mem_mergeSort]
  simp only [hmem, session?, ← h.find?_eq_some_iff, Option.bind_eq_some_iff,
    Option.isSome_iff_exists]
  constructor
  · rintro ⟨record, hf, session, hsession⟩
    exact ⟨session, record, hf, hsession⟩
  · rintro ⟨session, record, hf, hsession⟩
    exact ⟨record, hf, session, hsession⟩

/-- **Each of them once**, in order. -/
theorem Keyed.online_sorted (h : r.Keyed) : r.online.Pairwise (· < ·) :=
  Text.sorted_pairwise_lt (h.sublist (List.filter_sublist.map _))

end Registry

/-! ### Calls and their answers -/

/-- **A call that changes a registry.** -/
inductive RegistryCall where
  | register (user : String) (key : PublicKey)
  | bind (user : String) (peer : Address)
  | release (user : String) (id : Nat)

namespace RegistryCall

/-- The user that a call is for. -/
def user : RegistryCall → String
  | register user _ | bind user _ | release user _ => user

end RegistryCall

/-- **A call with its answer.** -/
inductive RegistryEvent where
  /-- A user was registered, in place of a key if there was one. -/
  | registered (user : String) (key : PublicKey) (previous : Option PublicKey)
  /-- A session was bound to a user. -/
  | bound (user : String) (session : Session)
  /-- A session was not bound, since its user was not registered. -/
  | refused (user : String) (peer : Address)
  /-- A session of a user was to be released; whether it was. -/
  | released (user : String) (id : Nat) (done : Bool)

namespace RegistryEvent

/-- The call that was answered. -/
def call : RegistryEvent → RegistryCall
  | registered user key _ => .register user key
  | bound user session => .bind user session.peer
  | refused user peer => .bind user peer
  | released user id _ => .release user id

/-- A user is registered. -/
def Registers (user : String) (e : RegistryEvent) : Prop :=
  ∃ key previous, e = registered user key previous

/-- A session is bound to a user. -/
def Binds (user : String) (e : RegistryEvent) : Prop := ∃ session, e = bound user session

/-- A session of a user is to be released. -/
def Releases (user : String) (id : Nat) (e : RegistryEvent) : Prop :=
  ∃ done, e = released user id done

/-- The number of the session that is bound. -/
def sessionId? : RegistryEvent → Option Nat
  | bound _ session => some session.id
  | _ => none

/-- **What an event makes of the keys.** -/
def onKeys (keys : String → Option PublicKey) : RegistryEvent → String → Option PublicKey
  | registered user key _ => fun other => if other = user then some key else keys other
  | _ => keys

/-- **What an event makes of the sessions.** -/
def onSessions (sessions : String → Option Session) : RegistryEvent → String → Option Session
  | bound user session => fun other => if other = user then some session else sessions other
  | released user _ true => fun other => if other = user then none else sessions other
  | _ => sessions

/-- **An answer that is right** for the keys and the sessions that the call met. -/
def Right (keys : String → Option PublicKey) (sessions : String → Option Session) :
    RegistryEvent → Prop
  | registered user _ previous => previous = keys user
  | bound user _ => keys user ≠ none
  | refused user _ => keys user = none
  | released user id done => done = (sessions user).any (·.id = id)

/-- A release that is answered rightly leaves every session that it is not meant for. -/
theorem onSessions_released_eq_some_iff {sessions : String → Option Session} {user : String}
    {id : Nat} {done : Bool} {session : Session}
    (h : done = (sessions user).any (·.id = id)) :
    onSessions sessions (released user id done) user = some session ↔
      id ≠ session.id ∧ sessions user = some session := by
  rw [h]
  cases hs : sessions user with
  | none => simp [onSessions, hs]
  | some bound =>
      by_cases hid : bound.id = id
      · have hcleared : onSessions sessions
            (released user id ((some bound).any (·.id = id))) user = none := by
          simp [onSessions, hid]
        rw [hcleared]
        constructor
        · nofun
        · rintro ⟨hne, heq⟩
          cases heq
          exact absurd hid.symm hne
      · have hkept : onSessions sessions
            (released user id ((some bound).any (·.id = id))) user = some bound := by
          simp [onSessions, hs, hid]
        rw [hkept]
        constructor
        · intro heq
          cases heq
          exact ⟨Ne.symm hid, rfl⟩
        · exact fun h => h.2

end RegistryEvent

namespace Registry

variable {r r' : Registry} {e : RegistryEvent} {events : List RegistryEvent}

/-- A call answered. -/
def answer (r : Registry) : RegistryCall → RegistryEvent × Registry
  | .register user key => (.registered user key (r.register user key).1, (r.register user key).2)
  | .bind user peer =>
      match r.bind user peer with
      | (some id, r) => (.bound user ⟨id, peer⟩, r)
      | (none, r) => (.refused user peer, r)
  | .release user id => (.released user id (r.release user id).1, (r.release user id).2)

/-- **What an event comes to** for one user, whoever it is of. -/
structure Records (r : Registry) (e : RegistryEvent) (r' : Registry) (user : String) : Prop where
  lookup : r'.lookup user = e.onKeys r.lookup user
  session? : r'.session? user = e.onSessions r.session? user
  right : e.call.user = user → e.Right r.lookup r.session?

theorem answer_bind_of_some {user : String} {peer : Address} {id : Nat}
    (h : (r.bind user peer).1 = some id) :
    r.answer (.bind user peer) = (.bound user ⟨id, peer⟩, (r.bind user peer).2) := by
  rw [answer]
  split
  next id' r' hbind =>
    rw [hbind] at h ⊢
    cases h
    rfl
  next r' hbind =>
    rw [hbind] at h
    cases h

theorem answer_bind_of_none {user : String} {peer : Address}
    (h : (r.bind user peer).1 = none) :
    r.answer (.bind user peer) = (.refused user peer, (r.bind user peer).2) := by
  rw [answer]
  split
  next id' r' hbind =>
    rw [hbind] at h
    cases h
  next r' hbind => rw [hbind]

theorem snd_answer_bind (r : Registry) (user : String) (peer : Address) :
    (r.answer (.bind user peer)).2 = (r.bind user peer).2 := by
  cases hb : (r.bind user peer).1 with
  | some id => rw [answer_bind_of_some hb]
  | none => rw [answer_bind_of_none hb]

theorem bind_fst_eq_none_iff {user : String} {peer : Address} :
    (r.bind user peer).1 = none ↔ r.lookup user = none := by
  rw [lookup, Option.map_eq_none_iff]
  cases hf : r.find? user with
  | none => simp [bind_of_find?_none hf]
  | some record => simp [bind_of_find? hf]

theorem bind_snd_of_none {user : String} {peer : Address} (h : (r.bind user peer).1 = none) :
    (r.bind user peer).2 = r := by
  cases hf : r.find? user with
  | none => rw [bind_of_find?_none hf]
  | some record =>
      rw [bind_of_find? hf] at h
      cases h

theorem release_fst (r : Registry) (user : String) (id : Nat) :
    (r.release user id).1 = (r.session? user).any (·.id = id) := by
  rcases release_cases r user id with ⟨record, -, hown, hrelease⟩ | ⟨hown, hrelease⟩
  · rw [hrelease, hown]
  · rw [hrelease, hown]

/-- **A release is answered with yes** if it is of the session that the user is logged in on. -/
theorem release_eq_true_iff (r : Registry) (user : String) (id : Nat) :
    (r.release user id).1 = true ↔
      ∃ session, r.session? user = some session ∧ session.id = id := by
  rw [release_fst, Option.any_eq_true]
  simp only [decide_eq_true_eq]

/-- It then logs the user out, and else nobody. -/
theorem release_clears_iff (r : Registry) (user : String) (id : Nat) :
    (r.release user id).1 = true ↔
      r.session? user ≠ none ∧ (r.release user id).2.session? user = none := by
  rw [session?_release, release_fst]
  cases hs : r.session? user with
  | none => simp
  | some session => simp

theorem release_snd_of_false {user : String} {id : Nat} (h : (r.release user id).1 = false) :
    (r.release user id).2 = r := by
  rcases release_cases r user id with ⟨record, -, -, hrelease⟩ | ⟨-, hrelease⟩
  · rw [hrelease] at h
    cases h
  · rw [hrelease]

theorem call_answer (r : Registry) (call : RegistryCall) : (r.answer call).1.call = call := by
  cases call with
  | register user key => rfl
  | bind user peer =>
      cases hb : (r.bind user peer).1 with
      | some id => rw [answer_bind_of_some hb]; rfl
      | none => rw [answer_bind_of_none hb]; rfl
  | release user id => rfl

/-- **Every call is recorded.** -/
theorem records_answer (r : Registry) (call : RegistryCall) (user : String) :
    r.Records (r.answer call).1 (r.answer call).2 user := by
  cases call with
  | register other key =>
      exact
        { lookup := lookup_register r other key user
          session? := congrFun (session?_register r other key) user
          right := fun _ => register_fst r other key }
  | bind other peer =>
      cases hb : (r.bind other peer).1 with
      | some id =>
          rw [answer_bind_of_some hb]
          have hknown : r.lookup other ≠ none := fun hnone => by
            rw [bind_fst_eq_none_iff.2 hnone] at hb
            cases hb
          exact
            { lookup := congrFun (lookup_bind r other peer) user
              session? := session?_bind hb user
              right := fun _ => hknown }
      | none =>
          rw [answer_bind_of_none hb, bind_snd_of_none hb]
          exact
            { lookup := rfl, session? := rfl, right := fun _ => bind_fst_eq_none_iff.1 hb }
  | release other id =>
      refine
        { lookup := congrFun (lookup_release r other id) user
          session? := ?_
          right := fun _ => release_fst r other id }
      change (r.release other id).2.session? user =
        RegistryEvent.onSessions r.session? (.released other id (r.release other id).1) user
      rw [session?_release, release_fst]
      cases (r.session? other).any (·.id = id) with
      | true => simp [RegistryEvent.onSessions]
      | false => simp [RegistryEvent.onSessions]

theorem Keyed.answer (h : r.Keyed) (call : RegistryCall) : (r.answer call).2.Keyed := by
  cases call with
  | register user key => exact h.register user key
  | bind user peer =>
      rw [snd_answer_bind]
      exact h.bind user peer
  | release user id => exact h.release user id

/-! ### Answering by the past -/

/-- **A registry that answers by its past** about a user: the user has the key registered last, and
is logged in on the session bound last, unless it was released. -/
structure Recounts (r : Registry) (events : List RegistryEvent) (user : String) : Prop where
  lookup_eq_some_iff : ∀ key, r.lookup user = some key ↔
    ∃ previous, Since (fun e => ¬e.Registers user) (.registered user key previous) events
  lookup_eq_none_iff : r.lookup user = none ↔ ∀ e ∈ events, ¬e.Registers user
  session?_eq_some_iff : ∀ session, r.session? user = some session ↔
    Since (fun e => ¬e.Binds user ∧ ¬e.Releases user session.id) (.bound user session) events

theorem recounts_empty (user : String) : Recounts {} [] user where
  lookup_eq_some_iff key := by simp [lookup, find?, not_since_nil]
  lookup_eq_none_iff := by simp [lookup, find?]
  session?_eq_some_iff session := by simp [session?, find?, not_since_nil]

/-- **It goes on doing so.** -/
theorem Recounts.snoc {user : String} (h : r.Recounts events user) (he : r.Records e r' user) :
    r'.Recounts (events ++ [e]) user where
  lookup_eq_some_iff key := by
    have hold := h.lookup_eq_some_iff key
    simp only [since_snoc, he.lookup]
    cases e with
    | registered other key' previous' =>
        by_cases ho : user = other
        · subst ho
          simp [RegistryEvent.onKeys, RegistryEvent.Registers]
        · simp [RegistryEvent.onKeys, RegistryEvent.Registers, ho, Ne.symm ho, hold]
    | bound | refused | released => simp [RegistryEvent.onKeys, RegistryEvent.Registers, hold]
  lookup_eq_none_iff := by
    have hold := h.lookup_eq_none_iff
    simp only [List.forall_mem_append, List.forall_mem_singleton, he.lookup]
    cases e with
    | registered other key' previous' =>
        by_cases ho : user = other
        · simp [RegistryEvent.onKeys, RegistryEvent.Registers, ho]
        · simp [RegistryEvent.onKeys, RegistryEvent.Registers, ho, Ne.symm ho, hold]
    | bound | refused | released => simp [RegistryEvent.onKeys, RegistryEvent.Registers, hold]
  session?_eq_some_iff session := by
    have hold := h.session?_eq_some_iff session
    simp only [since_snoc, he.session?]
    cases e with
    | bound other session' =>
        by_cases ho : user = other
        · subst ho
          simp [RegistryEvent.onSessions, RegistryEvent.Binds]
        · simp [RegistryEvent.onSessions, RegistryEvent.Binds, RegistryEvent.Releases, ho,
            Ne.symm ho, hold]
    | released other id done =>
        by_cases ho : other = user
        · -- a release that is answered with no is of another session than the one that is bound
          subst ho
          have hdone : done = (r.session? other).any (·.id = id) := he.right rfl
          rw [RegistryEvent.onSessions_released_eq_some_iff hdone, hold]
          simp [RegistryEvent.Binds, RegistryEvent.Releases]
        · cases done <;>
            simp [RegistryEvent.onSessions, RegistryEvent.Binds, RegistryEvent.Releases, ho,
              Ne.symm ho, hold]
    | registered | refused =>
        simp [RegistryEvent.onSessions, RegistryEvent.Binds, RegistryEvent.Releases, hold]

/-! ### Other users -/

/-- **Two registries that are the same for a user**, whatever is asked about the user or done with
it.  (The number of a new session is new in either.) -/
structure SameFor (user : String) (r r' : Registry) : Prop where
  lookup : r'.lookup user = r.lookup user
  contains : r'.contains user = r.contains user
  session? : r'.session? user = r.session? user
  online : user ∈ r'.online ↔ user ∈ r.online
  register : ∀ key, (r'.register user key).1 = (r.register user key).1
  bind : ∀ peer, (r'.bind user peer).1 = none ↔ (r.bind user peer).1 = none
  release : ∀ id, (r'.release user id).1 = (r.release user id).1

theorem contains_eq_isSome_lookup (r : Registry) (user : String) :
    r.contains user = (r.lookup user).isSome := by
  rw [contains, lookup, Option.isSome_map]

theorem Keyed.sameFor {user : String} (h : r.Keyed) (h' : r'.Keyed)
    (hlookup : r'.lookup user = r.lookup user) (hsession : r'.session? user = r.session? user) :
    r.SameFor user r' where
  lookup := hlookup
  contains := by rw [contains_eq_isSome_lookup, contains_eq_isSome_lookup, hlookup]
  session? := hsession
  online := by rw [h'.mem_online_iff, h.mem_online_iff, hsession]
  register key := by rw [register_fst, register_fst, hlookup]
  bind peer := by rw [bind_fst_eq_none_iff, bind_fst_eq_none_iff, hlookup]
  release id := by rw [release_fst, release_fst, hsession]

theorem onKeys_of_ne {user : String} (h : user ≠ e.call.user) (keys : String → Option PublicKey) :
    e.onKeys keys user = keys user := by
  cases e with
  | registered => exact if_neg h
  | bound | refused | released => rfl

theorem onSessions_of_ne {user : String} (h : user ≠ e.call.user)
    (sessions : String → Option Session) : e.onSessions sessions user = sessions user := by
  cases e with
  | bound => exact if_neg h
  | released other id done =>
      cases done with
      | true => exact if_neg h
      | false => rfl
  | registered | refused => rfl

/-- **A call is for one user**, and nobody else notices it. -/
theorem Keyed.sameFor_answer (h : r.Keyed) {call : RegistryCall} {user : String}
    (hu : user ≠ call.user) : r.SameFor user (r.answer call).2 := by
  have hrecords := r.records_answer call user
  rw [← call_answer r call] at hu
  exact h.sameFor (h.answer call) (by rw [hrecords.lookup, onKeys_of_ne hu])
    (by rw [hrecords.session?, onSessions_of_ne hu])

/-! ### Numbers of sessions -/

/-- A session is bound under the next number. -/
theorem issued_answer (r : Registry) (call : RegistryCall) :
    (r.answer call).1.sessionId? = none ∧ (r.answer call).2.issued = r.issued ∨
      (r.answer call).1.sessionId? = some r.issued ∧
        (r.answer call).2.issued = r.issued + 1 := by
  cases call with
  | register user key => exact Or.inl ⟨rfl, issued_register r user key⟩
  | bind user peer =>
      cases hb : (r.bind user peer).1 with
      | some id =>
          obtain ⟨hissued, rfl⟩ := issued_bind hb
          rw [answer_bind_of_some hb]
          exact Or.inr ⟨rfl, hissued⟩
      | none =>
          rw [answer_bind_of_none hb, bind_snd_of_none hb]
          exact Or.inl ⟨rfl, rfl⟩
  | release user id => exact Or.inl ⟨rfl, issued_release r user id⟩

end Registry

/-! ### Histories -/

/-- **A registry with the calls it has had**, and their answers. -/
structure RegistryHistory where
  now : Registry := {}
  events : List RegistryEvent := []

namespace RegistryHistory

/-- One more call. -/
def step (h : RegistryHistory) (call : RegistryCall) : RegistryHistory where
  now := (h.now.answer call).2
  events := h.events ++ [(h.now.answer call).1]

/-- **Calls, one after the other**, from a registry without users. -/
def run (calls : List RegistryCall) : RegistryHistory := calls.foldl step {}

/-- **What is to be true of a registry and its past.**  The clauses about a call are about the next
one, whichever it is. -/
structure Accurate (h : RegistryHistory) : Prop where
  /-- Keys and sessions are those of the past. -/
  recounts : ∀ user, h.now.Recounts h.events user
  /-- No two sessions have one number. -/
  ids : (h.events.filterMap RegistryEvent.sessionId?).Nodup
  /-- The users that are logged in, each of them once and in order. -/
  online_sorted : h.now.online.Pairwise (· < ·)
  mem_online_iff : ∀ user, user ∈ h.now.online ↔ ∃ session, h.now.session? user = some session
  /-- Registering gives back the key it replaces, and no session ends by it. -/
  register_fst : ∀ user key, (h.now.register user key).1 = h.now.lookup user
  session?_register : ∀ user key, (h.now.register user key).2.session? = h.now.session?
  /-- Whoever was registered at some time can log in, and nobody else. -/
  bind_eq_none_iff : ∀ user peer,
    (h.now.bind user peer).1 = none ↔ ∀ e ∈ h.events, ¬e.Registers user
  /-- A release is of the session that has its number, and says whether there was one. -/
  release_eq_true_iff : ∀ user id, (h.now.release user id).1 = true ↔
    ∃ session, h.now.session? user = some session ∧ session.id = id
  release_clears_iff : ∀ user id, (h.now.release user id).1 = true ↔
    h.now.session? user ≠ none ∧ (h.now.release user id).2.session? user = none
  release_of_false : ∀ user id, (h.now.release user id).1 = false →
    (h.now.release user id).2 = h.now
  /-- Nobody else notices. -/
  others : ∀ (call : RegistryCall) user, user ≠ call.user →
    h.now.SameFor user (h.now.answer call).2

theorem run_snoc (calls : List RegistryCall) (call : RegistryCall) :
    run (calls ++ [call]) = (run calls).step call := by
  rw [run, List.foldl_append]
  rfl

/-- The history of some calls is made of these calls. -/
theorem map_call_run (calls : List RegistryCall) : (run calls).events.map (·.call) = calls := by
  induction calls using List.reverseRecOn with
  | nil => rfl
  | append_singleton calls call ih =>
      rw [run_snoc, step, List.map_append, ih, List.map_singleton, Registry.call_answer]

theorem keyed_run (calls : List RegistryCall) : (run calls).now.Keyed := by
  induction calls using List.reverseRecOn with
  | nil => exact Registry.keyed_empty
  | append_singleton calls call ih =>
      rw [run_snoc]
      exact ih.answer call

/-- **A registry answers by its past.** -/
theorem recounts_run (calls : List RegistryCall) (user : String) :
    (run calls).now.Recounts (run calls).events user := by
  induction calls using List.reverseRecOn with
  | nil => exact Registry.recounts_empty user
  | append_singleton calls call ih =>
      rw [run_snoc]
      exact ih.snoc (Registry.records_answer _ call user)

/-- Every number is new. -/
theorem ids_run (calls : List RegistryCall) :
    ((run calls).events.filterMap RegistryEvent.sessionId?).Nodup ∧
      ∀ id ∈ (run calls).events.filterMap RegistryEvent.sessionId?,
        id < (run calls).now.issued := by
  induction calls using List.reverseRecOn with
  | nil => exact ⟨List.nodup_nil, by simp [run]⟩
  | append_singleton calls call ih =>
      obtain ⟨hnodup, hlt⟩ := ih
      rw [run_snoc, step, List.filterMap_append]
      rcases (run calls).now.issued_answer call with ⟨hid, hissued⟩ | ⟨hid, hissued⟩
      · simp only [List.filterMap_cons, List.filterMap_nil, hid, hissued, List.append_nil]
        exact ⟨hnodup, hlt⟩
      · simp only [List.filterMap_cons, List.filterMap_nil, hid, hissued]
        constructor
        · rw [List.nodup_append]
          refine ⟨hnodup, by simp, fun id hmem new hnew => ?_⟩
          rw [List.mem_singleton.1 hnew]
          exact Nat.ne_of_lt (hlt id hmem)
        · intro id hmem
          rcases List.mem_append.1 hmem with hmem | hmem
          · exact Nat.lt_succ_of_lt (hlt id hmem)
          · rw [List.mem_singleton.1 hmem]
            exact Nat.lt_succ_self _

/-- **The answers of a registry**, after any calls and to any call. -/
theorem accurate_run (calls : List RegistryCall) :
    (run calls).events.map (·.call) = calls ∧ (run calls).Accurate := by
  have hkeyed := keyed_run calls
  refine ⟨map_call_run calls, ?_⟩
  exact
    { recounts := recounts_run calls
      ids := (ids_run calls).1
      online_sorted := hkeyed.online_sorted
      mem_online_iff := fun _ => hkeyed.mem_online_iff
      register_fst := Registry.register_fst _
      session?_register := Registry.session?_register _
      bind_eq_none_iff := fun user _ =>
        Registry.bind_fst_eq_none_iff.trans (recounts_run calls user).lookup_eq_none_iff
      release_eq_true_iff := Registry.release_eq_true_iff _
      release_clears_iff := Registry.release_clears_iff _
      release_of_false := fun _ _ => Registry.release_snd_of_false
      others := fun _ _ hu => hkeyed.sameFor_answer hu }

end RegistryHistory

end LineChat
