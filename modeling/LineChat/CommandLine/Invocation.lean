/-
**What a command line asks for.**

A command line that is in order asks for one of five things: serving a chat, taking part in one,
receiving private messages, sending one, or making keys.  It may also name the file of settings and
ask for more detailed reports; of two such words in front of the command and behind it, the latter
counts.

Main definitions:

* `LineChat.Command` — **what is asked for**;
* `LineChat.Invocation` — a command with the settings it runs under;
* `LineChat.Invocation.parse` — **what a command line asks for**.
-/

import LineChat.CommandLine.Reading
import LineChat.Key.Store

set_option autoImplicit false

namespace LineChat

open CommandLine (Refusal Reading Level)

/-- **What is asked for.**  What is not given comes from the settings. -/
inductive Command where
  /-- Serve a chat. -/
  | serve (address : Option Address)
  /-- Take part in a chat. -/
  | connect (server username : Option String)
  /-- Receive private messages. -/
  | listen (address : Option Address)
  /-- Send a private message. -/
  | message (address : String) (words : List String) (sender : Option String)
  /-- Make a key pair or, if `isSecret`, a secret for private messages. -/
  | generate (name : String) (directory : Option String) (bits : Nat) (isSecret : Bool)
  deriving DecidableEq, Repr

/-- **A command with the settings it runs under.** -/
structure Invocation where
  settings : Option String := none
  isVerbose : Bool := false
  command : Command
  deriving DecidableEq, Repr

namespace Command

/-- The operand of a kind, which must be there. -/
def operand (r : Reading) (name : String) : Except Refusal String :=
  match r.value? name with
  | some value => .ok value
  | none => .error .missingOperand

/-- **The command with a name**, from what was read behind it. -/
def ofReading (name : String) (r : Reading) : Except Refusal Command := do
  let address := (r.value? "listen").bind Address.parse?
  match name with
  | "serve" => return .serve address
  | "listen" => return .listen address
  | "connect" => return .connect (r.value? "server") (r.value? "username")
  | "msg" =>
      let destination ← operand r "addr"
      discard (operand r "text")
      return .message destination (r.values "text") (r.value? "from")
  | _ =>
      let name ← operand r "name"
      let bits := ((r.value? "bits").bind CommandLine.number?).getD defaultKeyBits
      return .generate name (r.value? "dir") bits (r.has "secret")

end Command

namespace Invocation

/-- What a command line without a command asks for. -/
def withoutCommand (r : Reading) : Refusal := if r.given = [] then .nothing else .missingCommand

/-- **What a command line asks for.** -/
def parse (words : List String) : Except Refusal Invocation := do
  match ← CommandLine.program.read {} words with
  | (front, none) => throw (withoutCommand front)
  | (front, some (name, words)) =>
      match CommandLine.commandLevel? name with
      | none => throw .unknownCommand
      | some level =>
          let (back, _) ← level.read {} words
          let command ← Command.ofReading name back
          let front ← CommandLine.program.settle front
          return {
            settings := (back.value? "config").or (front.value? "config")
            isVerbose := front.has "verbose" || back.has "verbose"
            command }

end Invocation

end LineChat
