/-
**Settings.**

The settings of the program are in five groups: what it reports and where, the chat server, the chat
client, the receiver of private messages, and the encrypted channels of server and client.  Every
setting has a default; files of keys are looked for in one directory.

Main definitions:

* `LineChat.Settings` — **all settings**;
* `LineChat.Settings.defaults` — their defaults;
* `LineChat.Settings.override` — settings with those that the environment overrides;
* `LineChat.Settings.check` — **whether they make sense together**.

Main results:

* `LineChat.Settings.check_defaults` — the defaults make sense.
-/

import LineChat.Handshake.Session
import LineChat.Host.Environment
import LineChat.Network.Address
import LineChat.Text.Blank
import LineChat.Text.Quoted

set_option autoImplicit false

namespace LineChat

/-- What the program reports, and the directory it writes its reports to if it has one. -/
structure LogSettings where
  level : String := "info"
  directory : Option String := none
  deriving DecidableEq, Repr

/-- The chat server: where it listens, its private key, the directory of its users' public keys, and
the seconds that a client has for the handshake, with 0 for any number. -/
structure ServerSettings where
  listen : Address
  privateKey : String
  users : String
  handshakeSeconds : UInt64 := 30
  deriving DecidableEq, Repr

/-- The chat client: the server it logs in to, the name of its user, the user's private key, and the
server's public key. -/
structure ClientSettings where
  server : String
  username : String := ""
  privateKey : String
  serverKey : String
  deriving DecidableEq, Repr

/-- The receiver of private messages: where it listens, and the file of the shared secret. -/
structure ReceiverSettings where
  listen : Address
  secret : String
  deriving DecidableEq, Repr

/-- **All settings.** -/
structure Settings where
  log : LogSettings := {}
  server : ServerSettings
  client : ClientSettings
  receiver : ReceiverSettings
  channel : SessionOptions := {}
  deriving DecidableEq, Repr

/-- The seconds that a client has for the handshake, if they are limited. -/
def ServerSettings.handshakeLimit? (s : ServerSettings) : Option Nat :=
  if s.handshakeSeconds = 0 then none else some s.handshakeSeconds.toNat

namespace Settings

/-- An address of the machine itself. -/
def loopback (port : UInt16) : Address := ⟨.v4 #v[127, 0, 0, 1], port⟩

/-- **The default settings**, with files of keys in one directory, whose path is text; one that is
not could not be written down as a setting. -/
def defaults (keys : String) : Settings where
  server :=
    { listen := loopback 10110
      privateKey := Path.join keys "server.pem"
      users := Path.join keys "users" }
  client :=
    { server := (loopback 10110).render
      privateKey := Path.join keys "client.pem"
      serverKey := Path.join keys "server.pub.pem" }
  receiver :=
    { listen := loopback 10111
      secret := Path.join keys "private.secret" }

/-- **Settings with those that the environment overrides.**  An empty variable overrides nothing. -/
def override (s : Settings) (env : Environment) : Settings :=
  { s with
    log := { s.log with level := (env.nonempty? "CHATLINE_LOG_LEVEL").getD s.log.level }
    client := { s.client with
      server := (env.nonempty? "CHATLINE_SERVER_ADDR").getD s.client.server
      username := (env.nonempty? "CHATLINE_USERNAME").getD s.client.username } }

/-! ### Settings that make sense -/

/-- **What is wrong with settings.** -/
inductive Fault where
  /-- The level of reports is none of the known ones. -/
  | unknownLevel (level : String)
  /-- A channel may not protect any line. -/
  | noLines
  /-- The username has a blank. -/
  | blankInUsername (username : String)
  /-- There is no server to log in to. -/
  | noServer
  /-- The server and the receiver of private messages would listen on the same address. -/
  | sharedAddress (address : Address)
  deriving DecidableEq, Repr

/-- The levels of reports. -/
def levels : List String := ["trace", "debug", "info", "warn", "error"]

/-- The wording of a fault. -/
def Fault.message : Fault → String
  | unknownLevel level =>
      let known := ", ".intercalate levels
      s!"log_level must be one of: {known}; got {level}"
  | noLines => "max_lines_per_key must be greater than 0"
  | blankInUsername username =>
      s!"username must not contain whitespace, got {Text.quote username}"
  | noServer => "server_addr must not be empty"
  | sharedAddress address =>
      s!"server and private receiver cannot both listen on {address.render}"

/-- The name of a kind of fault. -/
def Fault.name : Fault → String
  | unknownLevel _ => "InvalidLogLevel"
  | noLines => "InvalidMaxLines"
  | blankInUsername _ => "InvalidUsername"
  | noServer => "EmptyServerAddr"
  | sharedAddress _ => "ConflictingListenAddr"

/-- **Whether settings make sense together**; of several faults, the first one counts.  Levels are
known in capitals too, and a port of 0 is no conflict, since it stands for any free one. -/
def check (s : Settings) : Except Fault Unit :=
  if s.log.level.toLower ∉ levels then .error (.unknownLevel s.log.level)
  else if s.channel.maxLines = 0 then .error .noLines
  else if s.client.username.toList.any Text.isBlank then
    .error (.blankInUsername s.client.username)
  else if s.client.server.toList.all Text.isBlank then .error .noServer
  else if s.server.listen = s.receiver.listen ∧ s.server.listen.port ≠ 0 then
    .error (.sharedAddress s.server.listen)
  else .ok ()

/-- The defaults make sense. -/
theorem check_defaults (keys : String) : (defaults keys).check = .ok () := by
  have hlevel : "info".toLower ∈ levels := by decide +kernel
  have hserver : (loopback 10110).render.toList.all Text.isBlank = false := by decide +kernel
  have hlines : SessionCipher.defaultMaxLines ≠ 0 := by decide
  have hlisten : loopback 10110 ≠ loopback 10111 := by decide
  simp only [check, defaults, hserver, hlines, hlisten, hlevel, not_true_eq_false, false_and,
    Bool.false_eq_true, ite_false]
  rfl

end Settings

end LineChat
