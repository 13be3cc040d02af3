/-
**Reading a part of a command line.**

Words are read one after the other.  An option that takes a value holds back until its value is
complete, and a value is looked at only when the next option or operand comes, or the end; a word
that cannot stand where it does is refused before that.  Two dashes by themselves say that no word
behind them is an option or a command.

Main definitions:

* `LineChat.CommandLine.Reading` — what was read, and what is held back;
* `LineChat.CommandLine.Level.settle` — **what was held back looked at**;
* `LineChat.CommandLine.Level.take` — **one word read**;
* `LineChat.CommandLine.Level.read` — **a part of a command line read**, up to a command.
-/

import LineChat.CommandLine.Grammar

set_option autoImplicit false

namespace LineChat.CommandLine

/-- **What was read, and what is held back.** -/
structure Reading where
  /-- The options and operands with their values, in the order in which they were settled. -/
  given : List (String × List String) := []
  /-- An option or an operand whose values were not looked at yet. -/
  held : Option (String × List String) := none
  /-- The place of the next operand. -/
  place : Nat := 0
  /-- Whether no word is an option any more. -/
  onlyOperands : Bool := false
  deriving DecidableEq, Repr

namespace Reading

/-- The values of an option or an operand, none if it was not given. -/
def values (r : Reading) (name : String) : List String :=
  (r.given.filter (·.1 == name)).flatMap (·.2)

/-- The value of an option or an operand. -/
def value? (r : Reading) (name : String) : Option String := (r.values name).head?

/-- Whether an option or an operand was given. -/
def has (r : Reading) (name : String) : Bool := r.given.any (·.1 == name)

/-- Whether an option waits for its value. -/
def isWaiting (r : Reading) : Bool := r.held.any (·.2.isEmpty)

end Reading

namespace Level

variable (l : Level)

/-- Values that are settled for an option, which must not have been given before. -/
def record (o : OptionForm) (values : List String) (r : Reading) : Except Refusal Reading :=
  match o.effect with
  | .ends reason => .error reason
  | .switch =>
      if r.has o.name then .error .repeated
      else .ok { r with given := r.given ++ [(o.name, values)] }
  | .takes kind =>
      if values.isEmpty then .error .missingValue
      else if r.has o.name then .error .repeated
      else do
        values.forM kind.check
        return { r with given := r.given ++ [(o.name, values)] }

/-- **What was held back looked at.** -/
def settle (r : Reading) : Except Refusal Reading :=
  match r.held with
  | none => .ok r
  | some (name, values) =>
      let r := { r with held := none }
      match l.named? name with
      | some o => record o values r
      | none => .ok { r with given := r.given ++ [(name, values)] }

/-- An option read, perhaps with a value attached to it. -/
def takeOption (o : OptionForm) (attached : Option String) (r : Reading) :
    Except Refusal Reading := do
  match o.effect, attached with
  | .takes _, none => return { ← l.settle r with held := some (o.name, []) }
  | _, _ => record o attached.toList (← l.settle r)

/-- A word behind two dashes read: the name of an option, perhaps with a value behind an equals
sign. -/
def takeNamed (body : List Char) (r : Reading) : Except Refusal Reading :=
  let name := String.ofList (body.takeWhile (· ≠ '='))
  let attached := match body.dropWhile (· ≠ '=') with
    | _ :: value => some (String.ofList value)
    | [] => none
  match l.named? name with
  | none => .error .unknownArgument
  | some o =>
      match o.effect, attached with
      | .takes _, _ | _, none => l.takeOption o attached r
      | _, some _ => .error .surplusValue

/-- A word behind one dash read: letters of options, of which one that takes a value has the rest of
the word for its value, less an equals sign in front of it. -/
def takeLetters (r : Reading) : List Char → Except Refusal Reading
  | [] => .ok r
  | c :: rest =>
      match l.lettered? c with
      | none => .error .unknownArgument
      | some o =>
          match o.effect with
          | .takes _ =>
              let attached := match rest with
                | [] => none
                | '=' :: value => some (String.ofList value)
                | value => some (String.ofList value)
              l.takeOption o attached r
          | _ => do takeLetters (← l.takeOption o none r) rest

/-- An operand read. -/
def takeOperand (word : String) (r : Reading) : Except Refusal Reading :=
  match l.operand? r.place with
  | some o => do
      let r ← l.settle r
      return { r with held := some (o.name, [word]), place := r.place + 1 }
  | none =>
      -- a command behind two dashes is a surplus operand
      if l.commands = [] ∨ (r.onlyOperands ∧ l.isCommand word) then .error .unknownArgument
      else .error .unknownCommand

/-- **One word read.** -/
def take (r : Reading) (word : String) : Except Refusal Reading :=
  if r.onlyOperands then l.takeOperand word r
  else match word.toList with
    | ['-', '-'] => .ok { r with onlyOperands := true }
    | '-' :: '-' :: body => l.takeNamed body r
    | '-' :: c :: rest => l.takeLetters r (c :: rest)
    | _ =>
        match r.held with
        | some (name, []) => .ok { r with held := some (name, [word]) }
        | _ => l.takeOperand word r

/-- What asking for help on a command comes to: help, if there is such a command. -/
def helpOn : List String → Refusal
  | [] => .help
  | [name] => if l.isCommand name then .help else .unknownCommand
  | _ => .unknownCommand

/-- **A part of a command line read**, up to a command, which comes with the words behind it.  What
is held back in front of a command is looked at only after those words. -/
def read (r : Reading) : List String → Except Refusal (Reading × Option (String × List String))
  | [] => do return (← l.settle r, none)
  | word :: words =>
      if r.onlyOperands ∨ r.isWaiting ∨ l.commands = [] then do read (← l.take r word) words
      else if word = "help" then .error (l.helpOn words)
      else if word ∈ l.commands then .ok (r, some (word, words))
      else do read (← l.take r word) words

end Level

end LineChat.CommandLine
