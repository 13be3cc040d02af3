/-
**Why the program fails.**

The program tells its user what it could not do, and under it what caused that, from the nearest
cause on.  Several causes are numbered.  A cause of several lines is set in as a whole.

Main definitions:

* `LineChat.ProgramError` — **why the program fails**;
* `LineChat.ProgramError.messages` — what it says, and what caused it;
* `LineChat.renderFailure` — **how that is shown**.
-/

import LineChat.Key.Store
import LineChat.Private.Exchange
import LineChat.Settings.Store

set_option autoImplicit false

namespace LineChat

/-- **Why the program fails.** -/
inductive ProgramError where
  | settings (e : SettingsError)
  | unfit (f : Settings.Fault)
  | noLogDirectory (path : String) (e : IoError)
  | keyFile (e : KeyFileError)
  | noUsername
  | noSender
  | notListening (address : Address) (e : IoError)
  | notLoggedIn (destination : String) (e : ChannelError)
  | notSent (destination : String) (e : PrivateMessageError)
  /-- The receiver of a private message says that it is not authentic. -/
  | tampered
  /-- The receiver's answer is not authentic. -/
  | answerTampered
  | unexpectedAnswer (body : String)
  /-- The connection to the server failed. -/
  | disconnected (e : LineError)
  /-- What the user types cannot be read. -/
  | unreadableInput (e : IoError)
  deriving DecidableEq, Repr

/-- What the program says, and what caused it. -/
def ProgramError.messages : ProgramError → List String
  | settings e => e.messages
  | unfit f => [f.message]
  | noLogDirectory path e => [s!"Failed to create log directory: {path}", e.text]
  | keyFile e => e.message :: e.causes
  | noUsername => ["No username: set client.username or pass --username"]
  | noSender => ["No sender name: set client.username or pass --from"]
  | notListening address e => [s!"Failed to listen on {address.render}", e.text]
  | notLoggedIn destination e =>
      s!"Failed to log in to {destination}" :: e.message :: e.causes.map (·.message)
  | notSent destination e => s!"Failed to send private message to {destination}" :: e.messages
  | tampered => ["Receiver reports the message was tampered with"]
  | answerTampered => ["The receiver's reply failed verification"]
  | unexpectedAnswer body => [s!"Unexpected reply: {body}"]
  | disconnected e => [e.message]
  | unreadableInput e => ["Failed to read stdin", e.text]

/-- A text set in: behind every line break stand blanks. -/
def setIn (blanks : Nat) (s : String) : String :=
  String.ofList (s.toList.flatMap fun c =>
    if c = '\n' then c :: List.replicate blanks ' ' else [c])

/-- A cause by itself. -/
def renderCause (cause : String) : String := "    " ++ setIn 4 cause ++ "\n"

/-- One of several causes, by its number. -/
def renderNumbered (i : Nat) (cause : String) : String :=
  let number := i.repr
  String.ofList (List.replicate (5 - number.length) ' ') ++ number ++ ": " ++ setIn 7 cause ++ "\n"

/-- **How a failure is shown.** -/
def renderFailure : List String → String
  | [] => "Error: \n"
  | message :: causes =>
      let shown := match causes with
        | [] => ""
        | [cause] => "\nCaused by:\n" ++ renderCause cause
        | causes => "\nCaused by:\n" ++ String.join (causes.mapIdx renderNumbered)
      s!"Error: {message}\n" ++ shown

end LineChat
