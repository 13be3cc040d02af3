/-
**Registered users and their sessions.**

The registry maps the names of users to their public keys and remembers which connection a user is
logged in on.  A user has one session at most: a second login replaces the first, and the first one
ending later does not log the user out, since it releases its own session only.

Sessions are numbered as they are made, so no two have the same number.  Several tasks may use a
registry at once; what is atomic is one access to the record of one user.  Registering is two such
accesses when the user is new, a look and an insertion.

Main definitions:

* `LineChat.Session`, `LineChat.UserRecord` — a login, and what is known of a user;
* `LineChat.Registry` — the records, in the order of registration;
* `LineChat.Registry.replaceKey?`, `LineChat.Registry.insert` — the two accesses of registering;
* `LineChat.Registry.register` — **adding a user, or replacing a key**;
* `LineChat.Registry.bind`, `LineChat.Registry.release` — **logging in and out**;
* `LineChat.Registry.lookup`, `LineChat.Registry.session?`, `LineChat.Registry.online` — what it
  answers.

Main results:

* `LineChat.Registry.find?_setRecord` — what replacing a record changes.
-/

import LineChat.Key.Rsa
import LineChat.Network.Address

set_option autoImplicit false

namespace LineChat

/-- **A login**: its number and where it comes from. -/
structure Session where
  id : Nat
  peer : Address
  deriving DecidableEq, Repr

/-- **What is known of a user**: the key, and the session if the user is logged in. -/
structure UserRecord where
  key : PublicKey
  session : Option Session := none
  deriving DecidableEq, Repr

/-- **The users and their sessions**, with the number of the next session. -/
structure Registry where
  users : List (String × UserRecord) := []
  issued : Nat := 0
  deriving DecidableEq, Repr

namespace Registry

/-! ### What it answers -/

/-- The record of a user. -/
def find? (r : Registry) (user : String) : Option UserRecord :=
  (r.users.find? (·.1 == user)).map (·.2)

/-- The number of users. -/
def size (r : Registry) : Nat := r.users.length

/-- Whether there are no users. -/
def isEmpty (r : Registry) : Bool := r.users.isEmpty

/-- Whether a user is registered. -/
def contains (r : Registry) (user : String) : Bool := (r.find? user).isSome

/-- **The key of a user.** -/
def lookup (r : Registry) (user : String) : Option PublicKey := (r.find? user).map (·.key)

/-- **The session of a user**, if the user is logged in. -/
def session? (r : Registry) (user : String) : Option Session := (r.find? user).bind (·.session)

/-- **The users that are logged in**, sorted. -/
def online (r : Registry) : List String :=
  ((r.users.filter fun u => u.2.session.isSome).map (·.1)).mergeSort fun a b => decide (a ≤ b)

/-! ### Accesses -/

/-- The record of a user replaced. -/
def setRecord (r : Registry) (user : String) (record : UserRecord) : Registry :=
  { r with users := r.users.map fun u => if u.1 = user then (user, record) else u }

/-- **The key of a registered user replaced**; the key it had comes with it. -/
def replaceKey? (r : Registry) (user : String) (key : PublicKey) :
    Option (PublicKey × Registry) :=
  (r.find? user).map fun record => (record.key, r.setRecord user { record with key })

/-- **A fresh record for a user**, whatever record there was. -/
def insert (r : Registry) (user : String) (key : PublicKey) : Registry :=
  if r.contains user then r.setRecord user { key }
  else { r with users := r.users ++ [(user, { key })] }

/-- **Adds a user or replaces the key of one**; the key that was replaced comes with it.  A session
of the user goes on. -/
def register (r : Registry) (user : String) (key : PublicKey) : Option PublicKey × Registry :=
  match r.replaceKey? user key with
  | some (previous, r) => (some previous, r)
  | none => (none, r.insert user key)

/-- A registry of users with their keys. -/
def ofKeys (keys : List (String × PublicKey)) : Registry :=
  keys.foldl (fun r u => (r.register u.1 u.2).2) {}

/-- **Logs a user in**, replacing a session there was; the number of the new session comes with it,
unless the user is not registered. -/
def bind (r : Registry) (user : String) (peer : Address) : Option Nat × Registry :=
  match r.find? user with
  | none => (none, r)
  | some record =>
      let session := { id := r.issued, peer : Session }
      (some r.issued,
        { r.setRecord user { record with session := some session } with issued := r.issued + 1 })

/-- **Ends a session of a user**, if it still is the user's session; whether it was comes with
it. -/
def release (r : Registry) (user : String) (id : Nat) : Bool × Registry :=
  match r.find? user with
  | none => (false, r)
  | some record =>
      if record.session.any (·.id = id) then
        (true, r.setRecord user { record with session := none })
      else (false, r)

/-! ### What replacing a record changes -/

/-- Replacing a record changes that record only. -/
theorem find?_setRecord (r : Registry) (user other : String) (record : UserRecord) :
    (r.setRecord user record).find? other =
      if other = user then (r.find? other).map fun _ => record else r.find? other := by
  unfold find? setRecord
  generalize r.users = us
  induction us with
  | nil => simp
  | cons u us ih =>
      by_cases hu : u.1 = user
      · by_cases ho : other = user
        · simp [hu, ho]
        · have h : ¬user = other := fun h => ho h.symm
          simpa [hu, ho, h] using ih
      · by_cases ho : u.1 = other
        · have h : ¬other = user := fun h => hu (ho.trans h)
          simp [ho, h]
        · simpa [hu, ho] using ih

end Registry

end LineChat
