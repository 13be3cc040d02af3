/-
**The machine that the program runs on.**

The operations on files and connections and the random bytes, as the operating system provides
them.  Nothing is decided here: values are passed on, and failures are told apart by their numbers.
Waiting for a connection keeps nothing else from going on.

Main definitions:

* the instances of `LineChat.FileAccess`, `LineChat.NetworkAccess` and `LineChat.RandomSource` for
  `Std.Async.Async`;
* `LineChat.surroundings`, `LineChat.today` — what else the program is told by the machine.
-/

import LineChat.Files.Access
import LineChat.Host.Environment
import LineChat.Host.Random
import LineChat.Network.Access
import Std.Async.DNS
import Std.Async.System
import Std.Async.TCP
import Std.Async.Timer
import Std.Time

set_option autoImplicit false

namespace LineChat

open Std.Async

/-! ### Failures -/

/-- The number of a failure, and what the operating system says of it. -/
def numbered : IO.Error → Option (UInt32 × String)
  | .alreadyExists _ code said | .otherError code said | .resourceBusy code said
  | .resourceVanished code said | .unsupportedOperation code said | .hardwareFault code said
  | .unsatisfiedConstraints code said | .illegalOperation code said | .protocolError code said
  | .timeExpired code said | .interrupted _ code said | .noFileOrDirectory _ code said
  | .invalidArgument _ code said | .permissionDenied _ code said
  | .resourceExhausted _ code said | .inappropriateType _ code said
  | .noSuchThing _ code said => some (code, said)
  | .unexpectedEof | .userError _ => none

/-- A failure that the machine reports.  Some of its parts report numbers below zero. -/
def failureOf (e : IO.Error) : IoError :=
  match numbered e with
  | none => ⟨.other, e.toString⟩
  | some (code, said) =>
      let number := if code < 0x80000000 then code else 0 - code
      .ofNumber number.toNat said

/-- Something done on the machine that may fail. -/
def onMachine {α : Type} (act : Async α) : Async (Except IoError α) := do
  try return .ok (← act) catch e => return .error (failureOf e)

/-! ### Files -/

/-- Something done with a path, which must be one that a file can have. -/
def withPath {α : Type} (path : String) (act : IO α) : Async (Except IoError α) :=
  if '\x00' ∈ path.toList then return .error .badPath else onMachine (liftM act)

/-- The name that is shown as a text.  What is no text in a name is shown as the replacement
character; which bytes it is does not come through, and one that no text has stands for them. -/
def FileName.ofShown (shown : String) : FileName :=
  ⟨shown.toList.flatMap fun c => if c = '\uFFFD' then [0xff] else Text.utf8 (String.singleton c)⟩

/-- Whether an entry of a directory is found under the text that its name is shown as.  A name that
is not text is not. -/
def isFoundAsShown (e : IO.FS.DirEntry) : IO Bool := do
  try discard e.path.symlinkMetadata; return true
  catch | .noFileOrDirectory .. => return false | _ => return true

/-- **The names in a directory.**  Of names that are shown as the same text one at most is text. -/
def namesIn (path : String) : IO (List FileName) := do
  let directory := (IO.FS.DirEntry.mk path "").root
  let shown := (← directory.readDir).toList.map (·.fileName)
  shown.eraseDups.mapM fun name => do
    if '\uFFFD' ∈ name.toList then
      if ← isFoundAsShown ⟨directory, name⟩ then return name else return .ofShown name
    else return name

instance : FileAccess Async where
  read path := return (← withPath path (IO.FS.readBinFile path)).map (·.toList)
  write path bytes := withPath path (IO.FS.writeBinFile path ⟨bytes.toArray⟩)
  exists? path := (IO.FS.DirEntry.mk path "").root.pathExists
  isDirectory path := (IO.FS.DirEntry.mk path "").root.isDir
  makeDirectory path := withPath path (IO.FS.createDir path)
  entries path := withPath path (namesIn path)

/-! ### The network -/

/-- A host and a port as the machine writes them. -/
def Address.toMachine (a : Address) : Std.Net.SocketAddress :=
  match a.host with
  | .v4 octets => .v4 ⟨⟨octets⟩, a.port⟩
  | .v6 groups _ => .v6 ⟨⟨groups⟩, a.port⟩

/-- A host as the machine names it. -/
def Host.ofMachine : Std.Net.IPAddr → Host
  | .v4 a => .v4 a.octets
  | .v6 a => .v6 a.segments 0

/-- A host and a port that the machine names. -/
def Address.ofMachine : Std.Net.SocketAddress → Address
  | .v4 a => ⟨.v4 a.addr.octets, a.port⟩
  | .v6 a => ⟨.v6 a.addr.segments 0, a.port⟩

/-- The number of bytes that are taken from a connection at once. -/
def pieceSize : UInt64 := 65536

/-- A failure to find the addresses of a name. -/
def unresolved (e : IoError) : IoError :=
  ⟨.other, "failed to lookup address information: " ++ e.text⟩

instance : NetworkAccess Async where
  Socket := TCP.Socket.Client
  resolve host port := do
    let found ← onMachine (DNS.getAddrInfo host port.toNat.repr)
    return (found.map fun hosts =>
      hosts.toList.eraseDups.map fun h => ⟨.ofMachine h, port⟩).mapError unresolved
  connect address := onMachine do
    let socket ← TCP.Socket.Client.mk
    socket.connect address.toMachine
    return socket
  send socket bytes :=
    if bytes = [] then return .ok () else onMachine (socket.send ⟨bytes.toArray⟩)
  receive socket limit := do
    let taken : Except IoError (Option (Option ByteArray)) ← onMachine <|
      match limit with
      | none => some <$> socket.recv? pieceSize
      | some seconds => do
          let clock ← Selector.sleep (.ofNat (1000 * seconds))
          Selectable.one #[.case (socket.recvSelector pieceSize) fun b => return some b,
            .case clock fun _ => return none]
    return match taken with
      | .error e => .error e
      | .ok none => .error (.ofKind .timedOut)
      | .ok (some bytes) => .ok ((bytes.map (·.toList)).getD [])
  close socket := discard (onMachine socket.shutdown)

/-! ### The rest -/

instance : RandomSource Async where
  draw n := do
    let bytes ← IO.getRandomBytes (.ofNat n)
    return Vector.ofFn fun i => bytes.data.getD i 0

/-- The variables that the program looks at. -/
def knownVariables : List String :=
  ["HOME", "XDG_CONFIG_HOME", "XDG_DATA_HOME", "CHATLINE_LOG_LEVEL", "CHATLINE_SERVER_ADDR",
    "CHATLINE_USERNAME"]

/-- The home directory of the account, if it is known. -/
def accountHome : IO (Option String) := do
  try return (← System.getCurrentUser).homeDir.map (·.toString) catch _ => return none

/-- **What the program is told by its surroundings.** -/
def surroundings : IO Environment := do
  let assigned ← knownVariables.filterMapM fun name => do
    return (← IO.getEnv name).map ((name, ·))
  return { assigned, accountHome := ← accountHome }

/-- **The date**, in a form that sorts. -/
def today : IO String := do
  let now ← Std.Time.Timestamp.now
  return (Std.Time.DateTime.ofTimestampWithZone now .UTC).date.get.date.toSQLDateString

end LineChat
