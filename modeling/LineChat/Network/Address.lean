/-
**Addresses of the network.**

An address is a host and a port.  A host is four numbers with points between them, or eight groups
of hexadecimal digits with colons between them, in brackets, perhaps with the number of the link
that it belongs to.  In such a host one run of zero groups may be left out, and the last two groups
may be written as four numbers.

Main definitions:

* `LineChat.Host`, `LineChat.Address` — hosts and addresses;
* `LineChat.Host.parse?`, `LineChat.Address.parse?` — **reading a host and an address**;
* `LineChat.Address.render` — **writing one**: the first of the longest runs of zero groups is left
  out, if it has two groups or more.
-/

import LineChat.Text.Digits
import LineChat.Text.Scan

set_option autoImplicit false

namespace LineChat

/-- **A host of the network.** -/
inductive Host where
  /-- Four numbers. -/
  | v4 (octets : Vector UInt8 4)
  /-- Eight groups, and the number of the link, zero for none. -/
  | v6 (groups : Vector UInt16 8) (scope : UInt32)
  deriving DecidableEq, Repr

/-- **An address**: a host and a port. -/
structure Address where
  host : Host
  port : UInt16
  deriving DecidableEq, Repr

/-! ### Reading -/

namespace Host

/-- Takes a number below a bound.  If the number of its digits is limited, more digits are not left
for what follows but make the whole number unreadable. -/
def takeNumber (base bound : Nat) (maxDigits : Option Nat) (leadingZeros : Bool)
    (cs : List Char) : Option (Nat × List Char) :=
  let digits := cs.takeWhile (Text.isDigit base)
  let value := Text.ofDigits base digits
  if digits = [] ∨ maxDigits.any (· < digits.length) ∨
      (!leadingZeros ∧ digits.head? = some '0' ∧ digits ≠ ['0']) ∨ bound ≤ value then none
  else some (value, cs.dropWhile (Text.isDigit base))

/-- Takes one of four numbers. -/
def takeOctet (cs : List Char) : Option (UInt8 × List Char) :=
  (takeNumber 10 256 (some 3) false cs).map fun (n, rest) => (UInt8.ofNat n, rest)

/-- **Takes four numbers with points between them.** -/
def takeOctets (cs : List Char) : Option (Vector UInt8 4 × List Char) := do
  let (a, cs) ← takeOctet cs
  let (b, cs) ← takeOctet (← Text.expect '.' cs)
  let (c, cs) ← takeOctet (← Text.expect '.' cs)
  let (d, cs) ← takeOctet (← Text.expect '.' cs)
  return (#v[a, b, c, d], cs)

/-- Takes one group. -/
def takeGroup (cs : List Char) : Option (UInt16 × List Char) :=
  (takeNumber 16 65536 (some 4) true cs).map fun (n, rest) => (UInt16.ofNat n, rest)

/-- Two numbers as one group. -/
def pair (hi lo : UInt8) : UInt16 := UInt16.ofNat (hi.toNat * 256 + lo.toNat)

/-- Takes at most `count` groups with colons between them, as many as there are, and says whether
the last two of them were written as four numbers. -/
def takeGroups : Nat → Bool → List Char → List UInt16 × Bool × List Char
  | 0, _, cs => ([], false, cs)
  | count + 1, first, cs =>
      let here := if first then some cs else Text.expect ':' cs
      match if 0 < count then here.bind takeOctets else none with
      | some (octets, rest) =>
          ([pair octets[0] octets[1], pair octets[2] octets[3]], true, rest)
      | none =>
          match here.bind takeGroup with
          | none => ([], false, cs)
          | some (group, rest) =>
              let (groups, octets, rest) := takeGroups count false rest
              (group :: groups, octets, rest)

/-- Eight groups from a list of that many. -/
def ofGroups? (groups : List UInt16) : Option (Vector UInt16 8) :=
  if h : groups.toArray.size = 8 then some ⟨groups.toArray, h⟩ else none

/-- **Takes eight groups**, some of which may be left out as zeros. -/
def takeAllGroups (cs : List Char) : Option (Vector UInt16 8 × List Char) := do
  let (front, octets, rest) := takeGroups 8 true cs
  if front.length = 8 then return (← ofGroups? front, rest)
  if octets then none
  let rest ← Text.expect ':' (← Text.expect ':' rest)
  let (back, _, rest) := takeGroups (7 - front.length) true rest
  let zeros := List.replicate (8 - front.length - back.length) 0
  return (← ofGroups? (front ++ zeros ++ back), rest)

/-- Takes the number of a link, if there is one. -/
def takeScope (cs : List Char) : UInt32 × List Char :=
  match (Text.expect '%' cs).bind (takeNumber 10 (Nat.pow 2 32) none true) with
  | some (n, rest) => (UInt32.ofNat n, rest)
  | none => (0, cs)

/-- Takes a host. -/
def take (cs : List Char) : Option (Host × List Char) :=
  match takeOctets cs with
  | some (octets, rest) => some (v4 octets, rest)
  | none => do
      let (groups, cs) ← takeAllGroups (← Text.expect '[' cs)
      let (scope, cs) := takeScope cs
      return (v6 groups scope, ← Text.expect ']' cs)

/-- Reads a host that stands by itself, without brackets. -/
def parse? (s : String) : Option Host :=
  match takeOctets s.toList, takeAllGroups s.toList with
  | some (octets, []), _ => some (v4 octets)
  | _, some (groups, []) => some (v6 groups 0)
  | _, _ => none

end Host

/-- **Reads an address.** -/
def Address.parse? (s : String) : Option Address := do
  let (host, cs) ← Host.take s.toList
  match ← Host.takeNumber 10 65536 none true (← Text.expect ':' cs) with
  | (port, []) => return ⟨host, UInt16.ofNat port⟩
  | _ => none

/-! ### Writing -/

namespace Host

/-- Four numbers with points between them. -/
def renderOctets (octets : List UInt8) : String :=
  ".".intercalate (octets.map fun o => o.toNat.repr)

/-- Groups with colons between them. -/
def renderGroups (groups : List UInt16) : String :=
  ":".intercalate (groups.map fun g => String.ofList (Text.hexDigits g.toNat))

/-- The number of zero groups in a row from a place on. -/
def zerosFrom (groups : List UInt16) (i : Nat) : Nat :=
  ((groups.drop i).takeWhile (· = 0)).length

/-- The place of the longest run of zero groups, the first among equals. -/
def longestZeros (groups : List UInt16) : Nat :=
  (List.range groups.length).foldl
    (fun best i => if zerosFrom groups best < zerosFrom groups i then i else best) 0

/-- Eight groups with a run of zeros left out. -/
def renderShortened (groups : List UInt16) : String :=
  let start := longestZeros groups
  let count := zerosFrom groups start
  if 1 < count then
    renderGroups (groups.take start) ++ "::" ++ renderGroups (groups.drop (start + count))
  else renderGroups groups

/-- The two numbers of a group. -/
def unpair (g : UInt16) : List UInt8 := [UInt8.ofNat (g.toNat / 256), UInt8.ofNat (g.toNat % 256)]

/-- **Eight groups as they are written.**  Those that stand for four numbers show them. -/
def renderAllGroups (groups : List UInt16) : String :=
  match groups with
  | [0, 0, 0, 0, 0, 0xffff, a, b] => "::ffff:" ++ renderOctets (unpair a ++ unpair b)
  | _ => renderShortened groups

/-- A host in an address. -/
def render : Host → String
  | v4 octets => renderOctets octets.toList
  | v6 groups scope =>
      let link := if scope = 0 then "" else "%" ++ scope.toNat.repr
      "[" ++ renderAllGroups groups.toList ++ link ++ "]"

end Host

/-- **Writes an address.** -/
def Address.render (a : Address) : String := a.host.render ++ ":" ++ a.port.toNat.repr

end LineChat
