/-
**Who is logged in.**

The registry and the handler's memory are what the deeds written down made of them, one after the
other.  So who is logged in can be read off the chronicle: a user is logged in on the session that
was bound to the user last, unless that session has been released.  Sessions have different numbers,
and each releases its own, so one that ends later than it was replaced logs nobody out.

Main definitions:

* `LineChat.Deed.Fits`, `LineChat.Accounts` — **what is shared, accounted for** by deeds;
* `LineChat.lastLogin` — the last login of a user;
* `LineChat.Chronicle.loggedIn` — **on which session a user should be logged in**.

Main results:

* `LineChat.Chronicle.Reachable.accounts` — a chronicle accounts for what is shared;
* `LineChat.Chronicle.Reachable.session?_eq` — **the registry says who is logged in**;
* `LineChat.Chronicle.Reachable.online_eq_nil` — **nobody is, once all sessions are over**.
-/

import LineChat.Proofs.Chat.Lives

set_option autoImplicit false

namespace LineChat

open ChatServer (Does)

variable {σ : Type}

/-! ### Accounting for what is shared -/

/-- **A deed that fits** what it meets: a session is bound under the number that the registry gives
it, and an answer is the handler's. -/
def Deed.Fits (handler : SessionHandler σ) (r : Registry) (memory : σ) : Deed → Prop
  | .bound context => (r.bind context.username context.peer).1 = some context.session
  | .handled context line answer => (handler.handle context line memory).1 = answer
  | _ => True

/-- **What is shared, accounted for**: the deeds, each of them fitting, make of one registry and
memory another. -/
inductive Accounts (handler : SessionHandler σ) (r₀ : Registry) (memory₀ : σ) :
    List (Nat × Deed) → Registry → σ → Prop
  | nil : Accounts handler r₀ memory₀ [] r₀ memory₀
  | snoc {log : List (Nat × Deed)} {r : Registry} {memory : σ}
      (h : Accounts handler r₀ memory₀ log r memory) (i : Nat) {d : Deed}
      (hfits : d.Fits handler r memory) :
      Accounts handler r₀ memory₀ (log ++ [(i, d)]) (d.onRegistry r) (d.onMemory handler memory)

/-- A step of a session is one deed that fits, or none. -/
theorem ChatServer.Does.fits {v : ChatServer σ} {c c' : ServerSession} {done : List Deed}
    (h : Does v c done c') :
    done = [] ∨ ∃ d, done = [d] ∧ d.Fits v.handler v.registry v.memory := by
  cases h with
  | finished | hungUp | shook | waited => exact Or.inl rfl
  | bound hp hb => exact Or.inr ⟨_, rfl, hb⟩
  | ignored hp ha => exact Or.inr ⟨_, rfl, ha⟩
  | answered hp ha => exact Or.inr ⟨_, rfl, ha⟩
  | _ => exact Or.inr ⟨_, rfl, trivial⟩

namespace Chronicle

variable {start : ChatServer σ} {k : Chronicle σ}

/-- **A chronicle accounts for what is shared.** -/
theorem Reachable.accounts (h : Reachable start k) :
    Accounts start.handler start.registry start.memory k.log k.now.registry k.now.memory := by
  induction h with
  | start => exact .nil
  | @step k k' hk hs ih =>
      cases hs with
      | accepted | stopped | heard => exact ih
      | @did i c c' done hc hd =>
          rcases hd.fits with rfl | ⟨d, rfl, hfits⟩
          · simpa [write, ChatServer.setSession, ChatServer.after] using ih
          · rw [hk.coherent.kin.handler] at hfits
            have hsnoc := ih.snoc i hfits
            rw [← hk.coherent.kin.handler] at hsnoc ⊢
            exact hsnoc

end Chronicle

/-! ### Logins -/

/-- The login that an entry of a log is, if it is one of a user. -/
def login? (user : String) : Nat × Deed → Option (Nat × SessionContext)
  | (i, .bound context) => if context.username = user then some (i, context) else none
  | _ => none

/-- **The last login of a user.** -/
def lastLogin (user : String) (log : List (Nat × Deed)) : Option (Nat × SessionContext) :=
  log.reverse.findSome? (login? user)

variable {user : String} {log : List (Nat × Deed)} {i j : Nat} {d : Deed}
  {context context' : SessionContext}

theorem login?_eq_some_iff {x : Nat × Deed} :
    login? user x = some (i, context) ↔ x = (i, .bound context) ∧ context.username = user := by
  obtain ⟨j, d⟩ := x
  cases d with
  | bound context' =>
      by_cases hu : context'.username = user
      · simp only [login?, if_pos hu, Option.some.injEq, Prod.mk.injEq, Deed.bound.injEq]
        constructor
        · rintro ⟨rfl, rfl⟩
          exact ⟨⟨rfl, rfl⟩, hu⟩
        · exact fun h => h.1
      · simp only [login?, if_neg hu, Prod.mk.injEq, Deed.bound.injEq]
        constructor
        · nofun
        · rintro ⟨⟨-, rfl⟩, h⟩
          exact absurd h hu
  | _ => simp [login?]

theorem lastLogin_snoc (user : String) (log : List (Nat × Deed)) (x : Nat × Deed) :
    lastLogin user (log ++ [x]) = (login? user x).or (lastLogin user log) := by
  rw [lastLogin, List.reverse_append]
  cases hx : login? user x <;> simp [lastLogin, hx]

theorem lastLogin_of_isLogin (i : Nat) (context : SessionContext) :
    lastLogin context.username (log ++ [(i, .bound context)]) = some (i, context) := by
  rw [lastLogin_snoc, login?_eq_some_iff.2 ⟨rfl, rfl⟩, Option.some_or]

theorem lastLogin_of_other {x : Nat × Deed} (h : login? user x = none) :
    lastLogin user (log ++ [x]) = lastLogin user log := by
  rw [lastLogin_snoc, h, Option.none_or]

theorem mem_of_lastLogin (h : lastLogin user log = some (i, context)) :
    (i, Deed.bound context) ∈ log ∧ context.username = user := by
  obtain ⟨x, hx, hlogin⟩ := List.exists_of_findSome?_eq_some h
  obtain ⟨rfl, hu⟩ := login?_eq_some_iff.1 hlogin
  exact ⟨List.mem_reverse.1 hx, hu⟩

section

variable {handler : SessionHandler σ} {r₀ r : Registry} {memory₀ memory : σ}

theorem issued_onRegistry (hfits : d.Fits handler r memory) :
    (d.onRegistry r).issued = r.issued ∨
      ∃ context, d = .bound context ∧ context.session = r.issued ∧
        (d.onRegistry r).issued = r.issued + 1 := by
  cases d with
  | bound context =>
      obtain ⟨hissued, hid⟩ := Registry.issued_bind hfits
      exact Or.inr ⟨context, rfl, hid, by rw [Deed.onRegistry, hissued, hid]⟩
  | released context => exact Or.inl (Registry.issued_release ..)
  | _ => exact Or.inl rfl

/-- Every number has been issued. -/
theorem Accounts.session_lt (h : Accounts handler r₀ memory₀ log r memory)
    (hmem : (i, Deed.bound context) ∈ log) : context.session < r.issued := by
  induction h with
  | nil => cases hmem
  | @snoc log r memory h j d hfits ih =>
      have hissued := issued_onRegistry hfits
      rcases List.mem_append.1 hmem with hmem | hmem
      · have hlt := ih hmem
        rcases hissued with hsame | ⟨_, -, -, hnext⟩ <;> omega
      · obtain ⟨rfl, rfl⟩ := Prod.mk.inj (List.mem_singleton.1 hmem)
        rcases hissued with hsame | ⟨context', hd, hid, hnext⟩
        · obtain ⟨hissued, hid⟩ := Registry.issued_bind hfits
          rw [Deed.onRegistry]
          omega
        · cases hd
          omega

/-- **No number is given to two sessions.** -/
theorem Accounts.eq_of_session_eq (h : Accounts handler r₀ memory₀ log r memory)
    (hmem : (i, Deed.bound context) ∈ log) (hmem' : (j, Deed.bound context') ∈ log)
    (heq : context.session = context'.session) : i = j ∧ context = context' := by
  induction h with
  | nil => cases hmem
  | @snoc log r memory h n d hfits ih =>
      rcases List.mem_append.1 hmem with hold | hnew
      · rcases List.mem_append.1 hmem' with hold' | hnew'
        · exact ih hold hold'
        · -- the newer number was not issued when the older one was given
          obtain ⟨rfl, rfl⟩ := Prod.mk.inj (List.mem_singleton.1 hnew')
          have hlt := h.session_lt hold
          have hid := (Registry.issued_bind hfits).2
          omega
      · obtain ⟨rfl, rfl⟩ := Prod.mk.inj (List.mem_singleton.1 hnew)
        rcases List.mem_append.1 hmem' with hold' | hnew'
        · have hlt := h.session_lt hold'
          have hid := (Registry.issued_bind hfits).2
          omega
        · obtain ⟨hj, hd⟩ := Prod.mk.inj (List.mem_singleton.1 hnew')
          cases hd
          exact ⟨hj.symm, rfl⟩

theorem Accounts.agrees (h : Accounts handler r₀ memory₀ log r memory) (hagrees : r₀.Agrees) :
    r.Agrees := by
  induction h with
  | nil => exact hagrees
  | @snoc log r memory _ i d _ ih =>
      cases d with
      | bound context => exact ih.bind _ _
      | released context => exact ih.release _ _
      | _ => exact ih

end

/-! ### Sessions that are released -/

/-- Whether a deed is the release of a session. -/
def Deed.isRelease : Deed → Bool
  | .released _ => true
  | _ => false

theorem bound_mem_served_iff {exchanges : List (String × Option String)} :
    Deed.bound context' ∈ served context exchanges ↔ context' = context := by
  simp [served, lineDeeds]

theorem any_isRelease_served (context : SessionContext)
    (exchanges : List (String × Option String)) :
    (served context exchanges).any Deed.isRelease = false := by
  simp [served, lineDeeds, Deed.isRelease]

section

variable {peer : Address} {phase : SessionPhase} {deeds leaving : List Deed}
  {result : Except ChannelError Unit}

theorem Leaves.bound_notMem (h : Leaves context leaving result) (context' : SessionContext) :
    Deed.bound context' ∉ leaving := by
  cases h <;> simp

theorem Leaves.any_isRelease (h : Leaves context leaving result) :
    leaving.any Deed.isRelease = false := by
  cases h <;> rfl

/-- **A session is bound once.** -/
theorem Lives.eq_of_bound (h : Lives peer phase deeds) (hmem : .bound context ∈ deeds)
    (hmem' : .bound context' ∈ deeds) : context = context' := by
  cases h with
  | handshaking | refused | expired | dismissed | binding => simp at hmem
  | greeting =>
      simp only [List.mem_cons, reduceCtorEq, Deed.bound.injEq, List.not_mem_nil, or_false,
        false_or] at hmem hmem'
      rw [hmem, hmem']
  | serving => rw [bound_mem_served_iff.1 hmem, bound_mem_served_iff.1 hmem']
  | answering | replying =>
      simp only [List.mem_append, bound_mem_served_iff, List.mem_cons, reduceCtorEq,
        List.not_mem_nil, or_false] at hmem hmem'
      rw [hmem, hmem']
  | releasing _ _ _ hleaves =>
      simp only [List.mem_append, bound_mem_served_iff, hleaves.bound_notMem, or_false]
        at hmem hmem'
      rw [hmem, hmem']
  | departing _ _ _ hleaves | ended _ _ _ hleaves =>
      simp only [List.mem_append, bound_mem_served_iff, hleaves.bound_notMem, List.mem_cons,
        reduceCtorEq, List.not_mem_nil, or_false] at hmem hmem'
      rw [hmem, hmem']

/-- A session that is over has been released, if it was bound. -/
theorem Lives.any_isRelease_of_ended (h : Lives peer (.ended result) deeds)
    (hmem : .bound context ∈ deeds) : deeds.any Deed.isRelease = true := by
  cases h with
  | refused | expired | dismissed => simp at hmem
  | ended => simp [Deed.isRelease]

/-- A session that is to be released was bound, and is released for the first time. -/
theorem Lives.of_releasing (h : Lives peer (.releasing context result) deeds) :
    .bound context ∈ deeds ∧ deeds.any Deed.isRelease = false := by
  cases h with
  | releasing _ exchanges _ hleaves =>
      refine ⟨List.mem_append_left _ (bound_mem_served_iff.2 rfl), ?_⟩
      rw [List.any_append, any_isRelease_served, hleaves.any_isRelease]
      rfl

end

/-! ### Who is logged in -/

namespace Chronicle

/-- **On which session a user should be logged in**: the one bound last, unless it has been
released. -/
def loggedIn (k : Chronicle σ) (user : String) : Option Session :=
  (lastLogin user k.log).bind fun (i, context) =>
    if (k.deedsOf i).any Deed.isRelease then none else some ⟨context.session, context.peer⟩

variable {start : ChatServer σ} {k : Chronicle σ} {v : ChatServer σ} {c c' : ServerSession}

theorem loggedIn_of_none (h : lastLogin user k.log = none) : k.loggedIn user = none := by
  rw [loggedIn, h, Option.bind_none]

theorem loggedIn_of_some (h : lastLogin user k.log = some (i, context)) :
    k.loggedIn user =
      if (k.deedsOf i).any Deed.isRelease then none else some ⟨context.session, context.peer⟩ := by
  rw [loggedIn, h, Option.bind_some]

/-- Nobody is logged in or out by other deeds. -/
theorem loggedIn_write_of_other (hlogin : login? user (i, d) = none) (hd : d.isRelease = false)
    (v : ChatServer σ) : (k.write i [d] v).loggedIn user = k.loggedIn user := by
  have hlast : lastLogin user (k.write i [d] v).log = lastLogin user k.log :=
    lastLogin_of_other hlogin
  have hdeeds : ∀ j, ((k.write i [d] v).deedsOf j).any Deed.isRelease =
      (k.deedsOf j).any Deed.isRelease := by
    intro j
    by_cases hj : j = i
    · subst hj
      simp [hd]
    · rw [deedsOf_write_of_ne hj]
  simp only [loggedIn, hlast, hdeeds]

/-- **A login** logs the user in, and nobody else in or out. -/
theorem session?_eq_of_bound (h : Reachable start k) (hstart : start.sessions = [])
    (hc : k.now.sessions[i]? = some c) (hd : Does k.now c [.bound context] c')
    (ih : ∀ user, k.now.registry.session? user = k.loggedIn user) (user : String) :
    ((Deed.bound context).onRegistry k.now.registry).session? user =
      (k.write i [.bound context] v).loggedIn user := by
  cases hd with
  | @bound e id hp hb =>
      rw [Deed.onRegistry, Registry.session?_bind hb]
      by_cases hu : user = e.username
      · have hlives := (h.lives hstart hc).1
        rw [hp] at hlives
        have hunreleased : (k.deedsOf i).any Deed.isRelease = false := by
          generalize k.deedsOf i = deeds at hlives ⊢
          cases hlives
          rfl
        rw [if_pos hu, hu, loggedIn_of_some (lastLogin_of_isLogin i ⟨e.username, id, c.peer⟩)]
        simp [hunreleased, Deed.isRelease]
      · have hother : login? user (i, .bound ⟨e.username, id, c.peer⟩) = none :=
          if_neg (Ne.symm hu)
        rw [if_neg hu, loggedIn_write_of_other hother rfl, ih]

/-- **A release** logs the user of a session out, if that is the one that was bound last. -/
theorem session?_eq_of_released (h : Reachable start k) (hstart : start.sessions = [])
    (hc : k.now.sessions[i]? = some c) (hd : Does k.now c [.released context] c')
    (ih : ∀ user, k.now.registry.session? user = k.loggedIn user) (user : String) :
    ((Deed.released context).onRegistry k.now.registry).session? user =
      (k.write i [.released context] v).loggedIn user := by
  cases hd with
  | released hp =>
      have hlives := (h.lives hstart hc).1
      have hreleasing := hlives
      rw [hp] at hreleasing
      obtain ⟨hbound, hunreleased⟩ := hreleasing.of_releasing
      rw [Deed.onRegistry, Registry.session?_release, ih, ih]
      have hlast : lastLogin user (k.write i [.released context] v).log = lastLogin user k.log :=
        lastLogin_of_other rfl
      rcases hlogin : lastLogin user k.log with _ | ⟨j, context'⟩
      · rw [loggedIn_of_none hlogin, loggedIn_of_none (hlast.trans hlogin)]
        exact ite_self _
      · obtain ⟨hmem, hu⟩ := mem_of_lastLogin hlogin
        rw [loggedIn_of_some (hlast.trans hlogin), loggedIn_of_some hlogin]
        by_cases hj : j = i
        · -- the session releases its own login
          subst hj
          obtain rfl := hlives.eq_of_bound hbound (mem_deedsOf_iff.2 hmem)
          rw [← hu, loggedIn_of_some (hu.symm ▸ hlogin)]
          simp [hunreleased, Deed.isRelease]
        · -- the login of another session has another number
          rw [deedsOf_write_of_ne hj]
          refine if_neg ?_
          rintro ⟨rfl, hany⟩
          rw [loggedIn_of_some hlogin] at hany
          split at hany
          · simp at hany
          · have hid : context'.session = context.session := by simpa using hany
            exact hj (h.accounts.eq_of_session_eq hmem (mem_deedsOf_iff.1 hbound) hid).1

/-- **A server that has no sessions yet**, and nobody logged in. -/
structure Fresh (start : ChatServer σ) : Prop where
  sessions : start.sessions = []
  online : start.registry.online = []

/-- **The registry says who is logged in.** -/
theorem Reachable.session?_eq (h : Reachable start k) (hfresh : Fresh start) (user : String) :
    k.now.registry.session? user = k.loggedIn user := by
  induction h generalizing user with
  | start => exact Registry.session?_of_online hfresh.online user
  | @step k k' hk hs ih =>
      cases hs with
      | accepted | stopped | heard => exact ih user
      | @did i c c' done hc hd =>
          rcases hd.fits with rfl | ⟨d, rfl, -⟩
          · rw [write, List.map_nil, List.append_nil]
            exact ih user
          · -- of all deeds only these two log anybody in or out
            cases d with
            | bound context => exact session?_eq_of_bound hk hfresh.sessions hc hd ih user
            | released context => exact session?_eq_of_released hk hfresh.sessions hc hd ih user
            | _ =>
                rw [loggedIn_write_of_other rfl rfl]
                exact ih user

/-- **Nobody is logged in once all sessions are over.** -/
theorem Reachable.online_eq_nil (h : Reachable start k) (hfresh : Fresh start)
    (hover : ∀ c ∈ k.now.sessions, c.isOver = true) : k.now.registry.online = [] := by
  have hagrees := h.accounts.agrees (Registry.agrees_of_online hfresh.online)
  refine hagrees.online_eq_nil fun user => ?_
  rw [h.session?_eq hfresh]
  rcases hlogin : lastLogin user k.log with _ | ⟨i, context⟩
  · exact loggedIn_of_none hlogin
  · obtain ⟨hmem, -⟩ := mem_of_lastLogin hlogin
    have hc := List.getElem?_eq_getElem (h.coherent.logged _ hmem)
    have hlives := (h.lives hfresh.sessions hc).1
    have hended := hover _ (List.getElem_mem (h.coherent.logged _ hmem))
    rw [ServerSession.isOver] at hended
    split at hended
    next result hp =>
      rw [hp] at hlives
      rw [loggedIn_of_some hlogin,
        if_pos (hlives.any_isRelease_of_ended (mem_deedsOf_iff.2 hmem))]
    next => cases hended

end Chronicle

end LineChat
