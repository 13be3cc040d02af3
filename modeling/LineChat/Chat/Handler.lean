/-
**What a server does with the lines of its users.**

A handler is told when a session begins, is given its lines one after the other, and is told when
the session ends.  It may answer a line with another one.  What it remembers is shared by all
sessions.

Main definitions:

* `LineChat.SessionContext` — whose session it is;
* `LineChat.SessionHandler` — **a handler**;
* `LineChat.SessionHandler.echo` — the handler that answers every line with itself.
-/

import LineChat.Network.Address

set_option autoImplicit false

namespace LineChat

/-- **Whose session it is**: the user, the number of the session, and where the user is. -/
structure SessionContext where
  username : String
  session : Nat
  peer : Address
  deriving DecidableEq, Repr

/-- **A handler** with its memory. -/
structure SessionHandler (σ : Type) where
  /-- A line of a session, perhaps answered. -/
  handle : SessionContext → String → σ → Option String × σ
  /-- A session begins. -/
  onConnect : SessionContext → σ → σ := fun _ s => s
  /-- A session ends. -/
  onDisconnect : SessionContext → σ → σ := fun _ s => s

/-- **The handler that answers every line with itself.** -/
def SessionHandler.echo : SessionHandler Unit where
  handle _ line s := (some line, s)

end LineChat
