/-
**The form of command lines.**

A command line names a command, with options in front of it and behind it, and the command takes
options and operands of its own.  An option stands behind two dashes, or behind one by a letter; it
takes one value, or is a switch.  Operands are told apart by their order, and the last kind of them
may take several words.

Main definitions:

* `LineChat.CommandLine.Refusal` — **why a command line is not carried out**;
* `LineChat.CommandLine.ValueKind` — what an option's value must be;
* `LineChat.CommandLine.OptionForm`, `LineChat.CommandLine.OperandForm`,
  `LineChat.CommandLine.Level` — what may stand on a command line;
* `LineChat.CommandLine.program`, `LineChat.CommandLine.commandLevel?` — **what may stand on this
  program's**.
-/

import LineChat.Network.Address

set_option autoImplicit false

namespace LineChat.CommandLine

/-! ### Refusals -/

/-- **Why a command line is not carried out.**  To ask for help or for the version is a reason
too. -/
inductive Refusal where
  | help
  | version
  /-- Nothing was asked for, so help is given. -/
  | nothing
  | missingCommand
  | unknownCommand
  | unknownArgument
  /-- A value is missing, or empty where it may not be. -/
  | missingValue
  /-- A value that an option cannot have. -/
  | unfitValue
  /-- A value for a switch. -/
  | surplusValue
  /-- An option that was given already. -/
  | repeated
  | missingOperand
  deriving DecidableEq, Repr

namespace Refusal

/-- The name of a refusal. -/
def name : Refusal → String
  | help => "DisplayHelp"
  | version => "DisplayVersion"
  | nothing => "DisplayHelpOnMissingArgumentOrSubcommand"
  | missingCommand => "MissingSubcommand"
  | unknownCommand => "InvalidSubcommand"
  | unknownArgument => "UnknownArgument"
  | missingValue => "InvalidValue"
  | unfitValue => "ValueValidation"
  | surplusValue => "TooManyValues"
  | repeated => "ArgumentConflict"
  | missingOperand => "MissingRequiredArgument"

/-- The exit code that a refusal ends the program with. -/
def exitCode : Refusal → Nat
  | help | version => 0
  | _ => 2

end Refusal

/-! ### Options and operands -/

/-- **What an option's value must be.** -/
inductive ValueKind where
  | anything
  /-- A path, which is not empty. -/
  | path
  | address
  /-- A number that fits into a machine word. -/
  | number
  deriving DecidableEq, Repr

/-- A number below two to the power of sixty-four. -/
def number? (s : String) : Option Nat := (Text.natural? s).filter (· < Nat.pow 2 64)

/-- Refuses a value that is not of a kind. -/
def ValueKind.check (kind : ValueKind) (value : String) : Except Refusal Unit :=
  match kind with
  | anything => .ok ()
  | path => if value = "" then .error .missingValue else .ok ()
  | address => if (Address.parse? value).isSome then .ok () else .error .unfitValue
  | number => if (number? value).isSome then .ok () else .error .unfitValue

/-- **What an option does.** -/
inductive OptionEffect where
  | takes (kind : ValueKind)
  | switch
  /-- It ends the reading of the command line. -/
  | ends (reason : Refusal)
  deriving DecidableEq, Repr

/-- **An option**, by its name and perhaps a letter. -/
structure OptionForm where
  name : String
  letter : Option Char := none
  effect : OptionEffect
  deriving DecidableEq, Repr

/-- **An operand**, which may take several words. -/
structure OperandForm where
  name : String
  isMany : Bool := false
  deriving DecidableEq, Repr

/-- **What may stand on a part of a command line.** -/
structure Level where
  options : List OptionForm
  operands : List OperandForm := []
  /-- The commands that may follow. -/
  commands : List String := []
  deriving DecidableEq, Repr

namespace Level

/-- The option with a name. -/
def named? (l : Level) (name : String) : Option OptionForm := l.options.find? (·.name == name)

/-- The option with a letter. -/
def lettered? (l : Level) (letter : Char) : Option OptionForm :=
  l.options.find? (·.letter == some letter)

/-- Whether a word is a command, or asks for help where there are commands. -/
def isCommand (l : Level) (word : String) : Bool :=
  l.commands.contains word || (!l.commands.isEmpty && word == "help")

/-- The operand at a place; one that may take several words stands at all places from its own on. -/
def operand? (l : Level) (place : Nat) : Option OperandForm :=
  match l.operands[place]? with
  | some o => some o
  | none => l.operands.getLast?.filter (·.isMany)

end Level

/-! ### This program's command lines -/

/-- The options that may stand in front of a command and behind it. -/
def everywhere : List OptionForm :=
  [{ name := "config", letter := some 'c', effect := .takes .path },
   { name := "verbose", letter := some 'v', effect := .switch },
   { name := "help", letter := some 'h', effect := .ends .help }]

/-- **The commands** with the options and operands of each. -/
def commands : List (String × Level) :=
  [("serve", { options := [{ name := "listen", effect := .takes .address }] }),
   ("connect", { options :=
      [{ name := "server", effect := .takes .anything },
       { name := "username", letter := some 'u', effect := .takes .anything }] }),
   ("listen", { options := [{ name := "listen", effect := .takes .address }] }),
   ("msg", { options := [{ name := "from", effect := .takes .anything }]
             operands := [{ name := "addr" }, { name := "text", isMany := true }] }),
   ("keygen", { options :=
      [{ name := "dir", effect := .takes .path }, { name := "bits", effect := .takes .number },
       { name := "secret", effect := .switch }]
                operands := [{ name := "name" }] })]

/-- **What may stand in front of a command.** -/
def program : Level where
  options := everywhere ++ [{ name := "version", letter := some 'V', effect := .ends .version }]
  commands := commands.map (·.1)

/-- **What may stand behind a command.** -/
def commandLevel? (name : String) : Option Level :=
  ((commands.find? (·.1 == name)).map (·.2)).map
    fun l => { l with options := everywhere ++ l.options }

end LineChat.CommandLine
