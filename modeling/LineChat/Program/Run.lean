/-
**Running the program.**

A run reads the settings, lets the environment override them, checks them, opens the file of reports
if there is to be one, and then does what the command line asks for.  Making keys and sending a
private message end the run.  The other commands go on until they are told to stop: a run then comes
to a task, which is everything that the task needs.

Main definitions:

* `LineChat.Task` — what a run comes to;
* `LineChat.prepare` — **a run up to its task**.
-/

import LineChat.Chat.Client
import LineChat.Chat.Server
import LineChat.CommandLine.Invocation
import LineChat.Program.Failure

set_option autoImplicit false

namespace LineChat

/-- The name and the version of the program. -/
def programVersion : String := "chatd 0.3.0\n"

/-- **What a run comes to.** -/
inductive Task (m : Type → Type) [NetworkAccess m] where
  /-- It is over, and printed this. -/
  | finished (output : String)
  /-- A chat is to be served at an address. -/
  | serve (address : Address) (server : ChatServer Unit)
  /-- Private messages are to be received at an address. -/
  | receive (address : Address) (secret : SharedSecret)
  /-- Lines are to be exchanged with a server. -/
  | chat (wire : Wire m (LineCodec SessionCipher))

section Run

variable {m : Type → Type} [Monad m] [FileAccess m] [NetworkAccess m] [RandomSource m]

/-- Something done whose failure ends the run. -/
def attempt {ε α : Type} (f : ε → ProgramError) (act : m (Except ε α)) :
    ExceptT ProgramError m α :=
  ExceptT.mk do return (← act).mapError f

/-- **The settings of a run.** -/
def settingsOf (env : Environment) (path : Option String) : ExceptT ProgramError m Settings := do
  let defaults := Settings.defaults env.keysPath
  let s ← attempt .settings (loadSettings defaults (path.getD env.settingsPath))
  let s := s.override env
  match s.check with
  | .ok () => return s
  | .error f => throw (.unfit f)

/-- The file of a day's reports in a directory. -/
def logFile (directory today : String) : String := Path.join directory ("chatd.log." ++ today)

/-- Opens the file of reports, if there is to be one. -/
def openLog (today : String) (s : Settings) : ExceptT ProgramError m Unit :=
  match s.log.directory with
  | none => pure ()
  | some directory => do
      attempt (.noLogDirectory directory) (createDirectories directory)
      let path := logFile directory today
      if !(← ExceptT.lift (FileAccess.exists? path)) then
        discard (ExceptT.lift (FileAccess.write path []))

/-- Sends a private message. -/
def runMessage (s : Settings) (destination : String) (words : List String)
    (sender : Option String) : ExceptT ProgramError m String := do
  let sender := sender.getD s.client.username
  if sender = "" then throw .noSender
  let secret ← attempt .keyFile (loadSecret s.receiver.secret)
  let sent := sendPrivateMessage destination sender (Text.unwords words) secret
  match ← attempt (.notSent destination) sent with
  | .acknowledged => return "Delivered.\n"
  | .rejectedAsTampered => throw .tampered
  | .replyTampered => throw .answerTampered
  | .unexpected body => throw (.unexpectedAnswer body)

/-- Makes keys. -/
def runGenerate (directory name : String) (bits : Nat) (isSecret : Bool) :
    ExceptT ProgramError m String := do
  if isSecret then
    let path := Path.join directory (name ++ ".secret")
    let random : Vector UInt8 secretLength ← ExceptT.lift (RandomSource.draw secretLength)
    attempt .keyFile (generateSecret path random.toList)
    return s!"Shared secret written to {path}\n"
  else
    let files ← attempt .keyFile (generatePair directory name bits)
    return s!"Private key: {files.1}\nPublic key:  {files.2}\n"

/-- Gets a chat server ready. -/
def runServe (s : Settings) : ExceptT ProgramError m (ChatServer Unit) := do
  let key ← attempt .keyFile (loadPrivateKey s.server.privateKey)
  let registry ← attempt .keyFile (loadRegistry s.server.users)
  return { key, options := s.channel, handshakeLimit := s.server.handshakeLimit?,
           handler := .echo, registry, memory := () }

/-- Logs in to a chat server. -/
def runConnect (s : Settings) : ExceptT ProgramError m (Wire m (LineCodec SessionCipher)) := do
  if s.client.username = "" then throw .noUsername
  let key ← attempt .keyFile (loadPrivateKey s.client.privateKey)
  let serverKey ← attempt .keyFile (loadPublicKey s.client.serverKey)
  attempt (.notLoggedIn s.client.server)
    (login s.client.server ⟨s.client.username, key, serverKey⟩ s.channel)

/-- **A run up to its task.** -/
def prepare (env : Environment) (today : String) (i : Invocation) :
    m (Except ProgramError (Task m)) := do
  let run : ExceptT ProgramError m (Task m) := do
    let s ← settingsOf env i.settings
    openLog today s
    match i.command with
    | .serve address => return .serve (address.getD s.server.listen) (← runServe s)
    | .connect server username =>
        let client := { s.client with
          server := server.getD s.client.server, username := username.getD s.client.username }
        return .chat (← runConnect { s with client })
    | .listen address =>
        let secret ← attempt .keyFile (loadSecret s.receiver.secret)
        return .receive (address.getD s.receiver.listen) secret
    | .message destination words sender =>
        return .finished (← runMessage s destination words sender)
    | .generate name directory bits isSecret =>
        return .finished (← runGenerate (directory.getD env.keysPath) name bits isSecret)
  run.run

end Run

end LineChat
