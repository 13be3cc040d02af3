/-
**How the program is used.**

Whoever asks for help is shown the commands with their operands and options, and then the options
that may stand anywhere.  Both come from the form of command lines itself, so that help cannot say
anything else than what is understood.

Main definitions:

* `LineChat.CommandLine.usage` — **what is shown to somebody who asks for help**;
* `LineChat.CommandLine.Refusal.message` — what is said of a command line that is not carried out.
-/

import LineChat.CommandLine.Grammar

set_option autoImplicit false

namespace LineChat.CommandLine

/-- What stands for a value. -/
def ValueKind.placeholder : ValueKind → String
  | anything => " TEXT"
  | path => " PATH"
  | address => " ADDRESS"
  | number => " NUMBER"

/-- How an option is written. -/
def OptionForm.usage (o : OptionForm) : String :=
  let letter := (o.letter.map fun c => s!"-{c}, ").getD ""
  let value := match o.effect with
    | .takes kind => kind.placeholder
    | .switch | .ends _ => ""
  letter ++ "--" ++ o.name ++ value

/-- How an operand is written. -/
def OperandForm.usage (o : OperandForm) : String := o.name ++ if o.isMany then "..." else ""

/-- How a command is written, with its own options. -/
def Level.usage (name : String) (l : Level) : String :=
  " ".intercalate
    (name :: (l.operands.map (·.usage) ++ l.options.map fun o => "[" ++ o.usage ++ "]"))

/-- **What is shown to somebody who asks for help.** -/
def usage : String :=
  let lines := ["Usage: chatd [OPTIONS] COMMAND", "", "Commands:"] ++
    commands.map (fun (name, level) => "  " ++ level.usage name) ++ ["", "Options:"] ++
    program.options.map fun o => "  " ++ o.usage
  String.join (lines.map (· ++ "\n"))

/-- **What is said of a command line that is not carried out.** -/
def Refusal.message : Refusal → String
  | help | version | nothing => ""
  | missingCommand => "a command is missing"
  | unknownCommand => "there is no such command"
  | unknownArgument => "there is no such option, or a word too many"
  | missingValue => "an option needs a value"
  | unfitValue => "an option cannot have this value"
  | surplusValue => "an option takes no value"
  | repeated => "an option is given twice"
  | missingOperand => "a word is missing behind the command"

end LineChat.CommandLine
