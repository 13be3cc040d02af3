/-
**Failures of the operating system.**

Files and connections fail for reasons that the operating system names.  A failure has a kind, which
decides what a program makes of it, and a text, which is shown to its user.  For most kinds the text
follows from the kind and ends with the number of the failure.

Main definitions:

* `LineChat.IoKind` — the kinds of failure, with their names;
* `LineChat.IoError` — **a failure**;
* `LineChat.IoError.ofKind`, `LineChat.IoError.ofNumber` — a failure with the usual text of its
  kind.
-/

set_option autoImplicit false

namespace LineChat

/-- **The kinds of failure.** -/
inductive IoKind where
  | notFound
  | permissionDenied
  | alreadyExists
  | notADirectory
  | isADirectory
  | invalidFilename
  | invalidInput
  | invalidData
  | unexpectedEof
  | timedOut
  | brokenPipe
  | connectionRefused
  | connectionReset
  | connectionAborted
  | networkUnreachable
  | hostUnreachable
  | addrInUse
  | addrNotAvailable
  | other
  deriving DecidableEq, Repr

namespace IoKind

/-- The kinds with their names. -/
def names : List (IoKind × String) :=
  [(notFound, "NotFound"), (permissionDenied, "PermissionDenied"),
   (alreadyExists, "AlreadyExists"), (notADirectory, "NotADirectory"),
   (isADirectory, "IsADirectory"), (invalidFilename, "InvalidFilename"),
   (invalidInput, "InvalidInput"), (invalidData, "InvalidData"),
   (unexpectedEof, "UnexpectedEof"), (timedOut, "TimedOut"), (brokenPipe, "BrokenPipe"),
   (connectionRefused, "ConnectionRefused"), (connectionReset, "ConnectionReset"),
   (connectionAborted, "ConnectionAborted"), (networkUnreachable, "NetworkUnreachable"),
   (hostUnreachable, "HostUnreachable"), (addrInUse, "AddrInUse"),
   (addrNotAvailable, "AddrNotAvailable"), (other, "Other")]

/-- The name of a kind. -/
def name (k : IoKind) : String := ((names.find? (·.1 == k)).map (·.2)).getD "Other"

/-- The kind with a name; a name that is not known stands for some other kind. -/
def ofName (s : String) : IoKind := ((names.find? (·.2 == s)).map (·.1)).getD other

/-- The number of a kind and what it says, for those that have one. -/
def report? : IoKind → Option (Nat × String)
  | notFound => some (2, "No such file or directory")
  | permissionDenied => some (13, "Permission denied")
  | alreadyExists => some (17, "File exists")
  | notADirectory => some (20, "Not a directory")
  | isADirectory => some (21, "Is a directory")
  | invalidFilename => some (36, "File name too long")
  | addrInUse => some (98, "Address already in use")
  | addrNotAvailable => some (99, "Cannot assign requested address")
  | networkUnreachable => some (101, "Network is unreachable")
  | connectionAborted => some (103, "Software caused connection abort")
  | connectionReset => some (104, "Connection reset by peer")
  | timedOut => some (110, "Connection timed out")
  | connectionRefused => some (111, "Connection refused")
  | hostUnreachable => some (113, "No route to host")
  | brokenPipe => some (32, "Broken pipe")
  | invalidInput | invalidData | unexpectedEof | other => none

/-- The kind with a number. -/
def ofNumber? (number : Nat) : Option IoKind :=
  (names.map (·.1)).find? fun k => k.report?.any (·.1 == number)

end IoKind

/-- **A failure**: its kind, and what is shown of it. -/
structure IoError where
  kind : IoKind
  text : String
  deriving DecidableEq, Repr

namespace IoError

/-- **A failure with the usual text of its kind.** -/
def ofKind (kind : IoKind) : IoError :=
  match kind.report? with
  | some (number, said) => ⟨kind, s!"{said} (os error {number})"⟩
  | none => ⟨kind, kind.name⟩

/-- **A failure with a number**; what the operating system says of it is shown for numbers that are
not known. -/
def ofNumber (number : Nat) (said : String) : IoError :=
  match IoKind.ofNumber? number with
  | some kind => ofKind kind
  | none => ⟨.other, s!"{said} (os error {number})"⟩

/-- A file that was to be read as text and is not. -/
def notText : IoError := ⟨.invalidData, "stream did not contain valid UTF-8"⟩

/-- A path that no file can have. -/
def badPath : IoError := ⟨.invalidInput, "file name contained an unexpected NUL byte"⟩

end IoError

end LineChat
