/-
**The environment of a program.**

A program finds its own files by variables that its user sets.  Where settings and data are kept can
be named by a variable each, which must hold an absolute path; if it does not, they are kept under
the user's home directory, which a variable names again, or else the account.  Variables and
directories are taken to be text here, which a system need not guarantee.

Main definitions:

* `LineChat.Environment` — variables and the home directory of the account;
* `LineChat.Environment.home?` — **the home directory**;
* `LineChat.Environment.settingsPath`, `LineChat.Environment.keysPath` — **where the program's
  settings and keys are**.
-/

import LineChat.Files.Path

set_option autoImplicit false

namespace LineChat

/-- **What a program is told by its surroundings.** -/
structure Environment where
  /-- The variables that are set. -/
  assigned : List (String × String) := []
  /-- The home directory of the account that the program runs under. -/
  accountHome : Option String := none
  deriving DecidableEq, Repr

namespace Environment

/-- The value of a variable, if it is set. -/
def get? (env : Environment) (name : String) : Option String :=
  (env.assigned.find? (·.1 == name)).map (·.2)

/-- The value of a variable, if it is set and not empty. -/
def nonempty? (env : Environment) (name : String) : Option String :=
  (env.get? name).filter (· ≠ "")

/-- **The home directory**, as a variable says, or else the account. -/
def home? (env : Environment) : Option String :=
  (env.nonempty? "HOME").or env.accountHome

/-- The directory that a variable names by an absolute path, or else one under the home directory;
without a home directory, the current one. -/
def directory (env : Environment) (name underHome : String) : String :=
  match (env.get? name).filter Path.isAbsolute with
  | some path => path
  | none => (env.home?.map fun home => Path.join home underHome).getD "."

/-- **Where the settings are kept.** -/
def settingsPath (env : Environment) : String :=
  Path.join (env.directory "XDG_CONFIG_HOME" ".config") "chatline/config.toml"

/-- **Where keys are kept.** -/
def keysPath (env : Environment) : String :=
  Path.join (env.directory "XDG_DATA_HOME" ".local/share") "chatline/keys"

end Environment

end LineChat
