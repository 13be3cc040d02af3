/-
**Settings in files.**

A file of settings that is not there stands for the defaults.  One that is there must be readable.
Saving makes the directories that the file is in.

Main definitions:

* `LineChat.SettingsError` — what can go wrong;
* `LineChat.loadSettings` — **reading settings**;
* `LineChat.saveSettings` — **saving settings**.
-/

import LineChat.Files.Access
import LineChat.Settings.Text

set_option autoImplicit false

namespace LineChat

/-- **What can go wrong with files of settings.** -/
inductive SettingsError where
  | unreadable (path : String) (source : IoError)
  | misread (path : String) (source : Settings.DocumentFault)
  | noDirectory (path : String) (source : IoError)
  /-- A number is too large to be written. -/
  | outOfRange
  | unwritable (path : String) (source : IoError)
  deriving DecidableEq, Repr

/-- The wording of an error, and of what caused it. -/
def SettingsError.messages : SettingsError → List String
  | unreadable path source => [s!"Failed to read config file: {path}", source.text]
  | misread path source => [s!"Failed to parse config file: {path}", source.message]
  | noDirectory path source => [s!"Failed to create config directory: {path}", source.text]
  | outOfRange =>
      ["Failed to serialize configuration to TOML", "out-of-range value for u64 type"]
  | unwritable path source => [s!"Failed to write config file: {path}", source.text]

variable {m : Type → Type} [Monad m] [FileAccess m]

/-- **Reads settings**; those that a file does not have are the defaults. -/
def loadSettings (defaults : Settings) (path : String) : m (Except SettingsError Settings) := do
  if ← FileAccess.exists? path then
    match ← readText path with
    | .error e => return .error (.unreadable path e)
    | .ok text => return (Settings.parse defaults text).mapError (.misread path)
  else return .ok defaults

/-- The text of settings, or that there is none. -/
def Settings.text (s : Settings) : Except SettingsError String :=
  match s.render with
  | some text => .ok text
  | none => .error .outOfRange

/-- **Saves settings**, making the directories that the file is in. -/
def saveSettings (s : Settings) (path : String) : m (Except SettingsError Unit) := do
  match Path.parent? path with
  | none => finish
  | some parent =>
      match ← createDirectories parent with
      | .error e => return .error (.noDirectory parent e)
      | .ok () => finish
where
  /-- Writes the file into a directory that is there. -/
  finish : m (Except SettingsError Unit) := do
    match s.text with
    | .error e => return .error e
    | .ok text =>
        match ← FileAccess.write path (Text.utf8 text) with
        | .error e => return .error (.unwritable path e)
        | .ok () => return .ok ()

end LineChat
