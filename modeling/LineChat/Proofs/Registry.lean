/-
**Logging in and out.**

Logging a user in and ending a session of a user replace one record, and of that record only the
session.  So keys stay what they are, nobody is forgotten, and what a user is logged in on depends
on nobody else.

Main definitions:

* `LineChat.Registry.Agrees` — a registry whose records agree with what it answers.

Main results:

* `LineChat.Registry.bind_of_find?`, `LineChat.Registry.session?_bind` — **logging in**;
* `LineChat.Registry.session?_release` — **ending a session**;
* `LineChat.Registry.lookup_bind`, `LineChat.Registry.lookup_release` — neither changes a key;
* `LineChat.Registry.Agrees.online_eq_nil` — **nobody is logged in** if no user is.
-/

import LineChat.Registry

set_option autoImplicit false

namespace LineChat.Registry

variable {r : Registry} {user other : String} {peer : Address} {id : Nat} {record : UserRecord}

/-! ### Replacing a record -/

theorem find?_setRecord_of_find? (h : r.find? user = some record) (record' : UserRecord) :
    (r.setRecord user record').find? other =
      if other = user then some record' else r.find? other := by
  rw [find?_setRecord]
  by_cases ho : other = user
  · rw [if_pos ho, if_pos ho, ho, h]
    rfl
  · rw [if_neg ho, if_neg ho]

/-- A record with another session has the same key. -/
theorem lookup_setRecord (h : r.find? user = some record) (session : Option Session) :
    (r.setRecord user { record with session }).lookup other = r.lookup other := by
  rw [lookup, find?_setRecord_of_find? h, lookup]
  by_cases ho : other = user
  · rw [if_pos ho, ho, h]
    rfl
  · rw [if_neg ho]

theorem session?_setRecord (h : r.find? user = some record) (session : Option Session) :
    (r.setRecord user { record with session }).session? other =
      if other = user then session else r.session? other := by
  rw [session?, find?_setRecord_of_find? h, session?]
  by_cases ho : other = user
  · rw [if_pos ho, if_pos ho]
    rfl
  · rw [if_neg ho, if_neg ho]

/-! ### Logging in -/

/-- **A registered user is logged in** under the next number. -/
theorem bind_of_find? (h : r.find? user = some record) (peer : Address) :
    r.bind user peer = (some r.issued,
      { r.setRecord user { record with session := some ⟨r.issued, peer⟩ } with
        issued := r.issued + 1 }) := by
  rw [bind, h]

theorem bind_of_find?_none (h : r.find? user = none) (peer : Address) :
    r.bind user peer = (none, r) := by
  rw [bind, h]

theorem exists_find?_of_bind (h : (r.bind user peer).1 = some id) :
    ∃ record, r.find? user = some record ∧ id = r.issued := by
  cases hf : r.find? user with
  | none =>
      rw [bind_of_find?_none hf] at h
      cases h
  | some record =>
      rw [bind_of_find? hf] at h
      cases h
      exact ⟨record, rfl, rfl⟩

/-- **What a user is logged in on** after a login. -/
theorem session?_bind (h : (r.bind user peer).1 = some id) (other : String) :
    (r.bind user peer).2.session? other =
      if other = user then some ⟨id, peer⟩ else r.session? other := by
  obtain ⟨record, hf, rfl⟩ := exists_find?_of_bind h
  rw [bind_of_find? hf]
  exact session?_setRecord hf _

theorem issued_bind (h : (r.bind user peer).1 = some id) :
    (r.bind user peer).2.issued = id + 1 ∧ id = r.issued := by
  obtain ⟨record, hf, rfl⟩ := exists_find?_of_bind h
  rw [bind_of_find? hf]
  exact ⟨rfl, rfl⟩

/-- Logging in changes no key. -/
theorem lookup_bind (r : Registry) (user : String) (peer : Address) :
    (r.bind user peer).2.lookup = r.lookup := by
  funext other
  cases hf : r.find? user with
  | none => rw [bind_of_find?_none hf]
  | some record =>
      rw [bind_of_find? hf]
      exact lookup_setRecord hf _

/-- **A user whose key is known can log in.** -/
theorem isSome_bind_of_lookup (h : (r.lookup user).isSome = true) (peer : Address) :
    (r.bind user peer).1.isSome = true := by
  cases hf : r.find? user with
  | none =>
      rw [lookup, hf] at h
      cases h
  | some record =>
      rw [bind_of_find? hf]
      rfl

/-! ### Ending a session -/

/-- What ending a session of a user comes to. -/
theorem release_cases (r : Registry) (user : String) (id : Nat) :
    (∃ record, r.find? user = some record ∧ (r.session? user).any (·.id = id) = true ∧
        r.release user id = (true, r.setRecord user { record with session := none })) ∨
      (r.session? user).any (·.id = id) = false ∧ r.release user id = (false, r) := by
  cases hf : r.find? user with
  | none => exact Or.inr ⟨by rw [session?, hf]; rfl, by rw [release, hf]⟩
  | some record =>
      have hsession : r.session? user = record.session := by rw [session?, hf]; rfl
      rw [hsession]
      cases hown : record.session.any (·.id = id) with
      | true => exact Or.inl ⟨record, rfl, rfl, by simp only [release, hf, hown, if_true]⟩
      | false =>
          refine Or.inr ⟨rfl, ?_⟩
          simp only [release, hf, hown, Bool.false_eq_true, if_false]

/-- **What a user is logged in on** after a session has ended: as before, unless it was that. -/
theorem session?_release (r : Registry) (user : String) (id : Nat) (other : String) :
    (r.release user id).2.session? other =
      if other = user ∧ (r.session? user).any (·.id = id) = true then none
      else r.session? other := by
  rcases release_cases r user id with ⟨record, hf, hown, hrelease⟩ | ⟨hown, hrelease⟩
  · rw [hrelease, session?_setRecord hf]
    simp [hown]
  · rw [hrelease]
    simp [hown]

theorem issued_release (r : Registry) (user : String) (id : Nat) :
    (r.release user id).2.issued = r.issued := by
  rcases release_cases r user id with ⟨record, -, -, hrelease⟩ | ⟨-, hrelease⟩
  · rw [hrelease]
    rfl
  · rw [hrelease]

/-- Ending a session changes no key. -/
theorem lookup_release (r : Registry) (user : String) (id : Nat) :
    (r.release user id).2.lookup = r.lookup := by
  funext other
  rcases release_cases r user id with ⟨record, hf, -, hrelease⟩ | ⟨-, hrelease⟩
  · rw [hrelease]
    exact lookup_setRecord hf _
  · rw [hrelease]

/-! ### Who is logged in -/

/-- **A registry whose records agree** with what it answers, also if it has two of them under one
name. -/
def Agrees (r : Registry) : Prop := ∀ u ∈ r.users, u.2.session = r.session? u.1

theorem online_eq_nil_iff : r.online = [] ↔ ∀ u ∈ r.users, u.2.session = none := by
  have hnil : r.online = [] ↔ (r.users.filter fun u => u.2.session.isSome) = [] := by
    rw [← List.length_eq_zero_iff, online, List.length_mergeSort, List.length_map,
      List.length_eq_zero_iff]
  rw [hnil, List.filter_eq_nil_iff]
  simp

theorem session?_of_online (h : r.online = []) (user : String) : r.session? user = none := by
  rw [session?, find?]
  cases hf : r.users.find? (·.1 == user) with
  | none => rfl
  | some u =>
      have hsession := online_eq_nil_iff.1 h u (List.mem_of_find?_eq_some hf)
      simpa using hsession

theorem agrees_of_online (h : r.online = []) : r.Agrees := by
  intro u hu
  rw [online_eq_nil_iff.1 h u hu, session?_of_online h]

/-- **Nobody is logged in** if no user is. -/
theorem Agrees.online_eq_nil (h : r.Agrees) (hnone : ∀ user, r.session? user = none) :
    r.online = [] := by
  rw [online_eq_nil_iff]
  intro u hu
  rw [h u hu, hnone]

theorem Agrees.setRecord (h : r.Agrees) (hf : r.find? user = some record)
    (session : Option Session) : (r.setRecord user { record with session }).Agrees := by
  intro u hu
  rw [session?_setRecord hf]
  simp only [Registry.setRecord, List.mem_map] at hu
  obtain ⟨u₀, hu₀, rfl⟩ := hu
  by_cases hname : u₀.1 = user
  · simp [hname]
  · simpa [hname] using h u₀ hu₀

theorem Agrees.bind (h : r.Agrees) (user : String) (peer : Address) :
    (r.bind user peer).2.Agrees := by
  cases hf : r.find? user with
  | none =>
      rw [bind_of_find?_none hf]
      exact h
  | some record =>
      rw [bind_of_find? hf]
      exact h.setRecord hf _

theorem Agrees.release (h : r.Agrees) (user : String) (id : Nat) :
    (r.release user id).2.Agrees := by
  rcases release_cases r user id with ⟨record, hf, -, hrelease⟩ | ⟨-, hrelease⟩
  · rw [hrelease]
    exact h.setRecord hf _
  · rw [hrelease]
    exact h

end LineChat.Registry
