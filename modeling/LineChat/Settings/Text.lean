/-
**Settings as text.**

A configuration document has a section for each group of settings.  The groups and their settings
are listed once; the list says how a document is read, and in which order one is written.

Main definitions:

* `LineChat.Settings.sections` — **the groups of settings**;
* `LineChat.Settings.parse` — **settings read from a document**;
* `LineChat.Settings.render` — **settings written as a document**.
-/

import LineChat.Settings.Field

set_option autoImplicit false

namespace LineChat.Settings

open Toml (Node)

/-- **A group of settings**: its name, how complaints name what is expected there, and its
settings. -/
structure Section where
  name : String
  expected : String
  fields : List (Field Settings)

/-- What to do with lines that cannot be decrypted. -/
def policyKind : Kind BrokenPolicy := .choice [("drop", .drop), ("fail", .fail)]

/-- How the keystream is laid out. -/
def modeKind : Kind KeystreamMode := .choice [("sequenced", .sequenced), ("legacy", .legacy)]

/-- **The groups of settings.** -/
def sections : List Section :=
  [{ name := "logging", expected := "struct LoggingConfig", fields :=
      [.of "level" .text (·.log.level) fun a s => { s with log.level := a },
       .of "log_dir" (.optional .path) (·.log.directory)
        fun a s => { s with log.directory := a }] },
   { name := "server", expected := "struct ServerConfig", fields :=
      [.of "listen_addr" .address (·.server.listen) fun a s => { s with server.listen := a },
       .of "private_key" .path (·.server.privateKey) fun a s => { s with server.privateKey := a },
       .of "users_dir" .path (·.server.users) fun a s => { s with server.users := a },
       .of "handshake_timeout_secs" .count (·.server.handshakeSeconds)
         fun a s => { s with server.handshakeSeconds := a }] },
   { name := "client", expected := "struct ClientConfig", fields :=
      [.of "server_addr" .text (·.client.server) fun a s => { s with client.server := a },
       .of "username" .text (·.client.username) fun a s => { s with client.username := a },
       .of "private_key" .path (·.client.privateKey) fun a s => { s with client.privateKey := a },
       .of "server_public_key" .path (·.client.serverKey)
         fun a s => { s with client.serverKey := a }] },
   { name := "private", expected := "struct PrivateConfig", fields :=
      [.of "listen_addr" .address (·.receiver.listen) fun a s => { s with receiver.listen := a },
       .of "secret_key" .path (·.receiver.secret) fun a s => { s with receiver.secret := a }] },
   { name := "channel", expected := "struct ChannelConfig", fields :=
      [.of "broken_message_policy" policyKind (·.channel.policy)
         fun a s => { s with channel.policy := a },
       .of "keystream_mode" modeKind (·.channel.mode) fun a s => { s with channel.mode := a },
       .of "max_lines_per_key" .count (·.channel.maxLines)
         fun a s => { s with channel.maxLines := a }] }]

/-! ### Reading -/

/-- **What is wrong with a document.** -/
inductive DocumentFault where
  /-- It is no configuration document at all. -/
  | malformed
  /-- One of its values, at these places, is not what it should be. -/
  | misfit (message : String) (place : Option (Nat × Nat))
  deriving DecidableEq, Repr

/-- The wording of a fault. -/
def DocumentFault.message : DocumentFault → String
  | malformed => "Invalid TOML configuration: (syntax)"
  | misfit message place =>
      let suffix := match place with
        | some (start, finish) => s!" (at position {start}..{finish})"
        | none => ""
      s!"Invalid TOML configuration: {message}{suffix}"

/-- Settings with those of a group read. -/
def Section.read (g : Section) (n : Node) (s : Settings) : Except Complaint Settings :=
  readRecord g.expected g.fields s n

/-- The groups as settings of the whole document. -/
def groupFields : List (Field Settings) :=
  sections.map fun g => { name := g.name, read := g.read, write := fun _ => .omitted }

/-- **Settings read from a document**; those that it does not have are the defaults. -/
def parse (defaults : Settings) (document : String) : Except DocumentFault Settings :=
  match Toml.parse? document with
  | none => .error .malformed
  | some table =>
      match readRecord "struct Config" groupFields defaults table.toNode with
      | .ok s => .ok s
      | .error c => .error (.misfit c.message (c.span.map (·.offsets document.toList)))

/-! ### Writing -/

/-- The line of a setting, which is empty for one that is left out.  A document holds numbers up to
its largest integer. -/
def Field.line (f : Field Settings) (s : Settings) : Option String :=
  match f.write s with
  | .text value => some s!"{f.name} = {Toml.renderText value}\n"
  | .number n => if n ≤ Toml.maxInteger then some s!"{f.name} = {n}\n" else none
  | .omitted => some ""

/-- A group with its settings. -/
def Section.render (g : Section) (s : Settings) : Option String := do
  return s!"[{g.name}]\n" ++ String.join (← g.fields.mapM (·.line s))

/-- **Settings written as a document**, unless a number among them is too large for one. -/
def render (s : Settings) : Option String := do
  return "\n".intercalate (← sections.mapM (·.render s))

end LineChat.Settings
