/-
**A machine by itself.**

A machine that is cut off from every network still has its files.  It reaches no other machine and
not even itself, knows no name but its own, and draws its random bytes from what it started with.
The program runs on it as on any other, and everything it does can be followed.

Main definitions:

* the instances of `LineChat.NetworkAccess` and `LineChat.RandomSource` for `StateM FileTree`.
-/

import LineChat.Files.Tree
import LineChat.Host.Random
import LineChat.Network.Access
import LineChat.Settings.Basic

set_option autoImplicit false

namespace LineChat

/-- A name that nobody knows. -/
def unknownName : IoError :=
  ⟨.other, "failed to lookup address information: Temporary failure in name resolution"⟩

instance : NetworkAccess (StateM FileTree) where
  Socket := Empty
  resolve host port :=
    return match Host.parse? host with
      | some h => .ok [⟨h, port⟩]
      | none => if host = "localhost" then .ok [Settings.loopback port] else .error unknownName
  connect _ := return .error (.ofKind .networkUnreachable)
  send socket := nomatch socket
  receive socket := nomatch socket
  close socket := nomatch socket

/-- The byte at a place of what the machine started with. -/
def startingByte (i : Nat) : UInt8 := (seedsFrom [] (i / 32)).toList.getD (i % 32) 0

instance : RandomSource (StateM FileTree) where
  draw n := return Vector.ofFn fun i : Fin n => startingByte i.val

end LineChat
