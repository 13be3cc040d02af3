/-
**Addresses come back from their text.**

A written address is read as the same address, whatever its host, link and port are.  In a host of
eight groups, the groups in front of the zeros that are left out and those behind them are taken
one by one; a group is never mistaken for the first of four numbers, since no point follows it.

Main results:

* `LineChat.Host.takeOctets_append` — four numbers;
* `LineChat.Host.takeGroups_append` — groups with colons between them;
* `LineChat.Host.takeAllGroups_append` — **eight groups, some of which may be left out**;
* `LineChat.Address.parse?_render` — **a whole address**.
-/

import LineChat.Network.Address
import LineChat.Proofs.Text.Digits

set_option autoImplicit false

namespace LineChat

open Text (Stops)

namespace Host

variable {rest : List Char}

/-! ### Numbers -/

theorem takeNumber_digits {base bound : Nat} (h1 : 1 < base) (hbase : base ≤ 16)
    {maxDigits : Option Nat} (leadingZeros : Bool) {n : Nat} (hn : n < bound)
    (hmax : ∀ k, maxDigits = some k → (Nat.toDigits base n).length ≤ k)
    (hrest : Stops (Text.isDigit base) rest) :
    takeNumber base bound maxDigits leadingZeros (Nat.toDigits base n ++ rest) =
      some (n, rest) := by
  have hdigits : maxDigits.any (fun k => decide (k < (Nat.toDigits base n).length)) = false := by
    cases maxDigits with
    | none => rfl
    | some k => simpa using hmax k rfl
  simp only [takeNumber, Text.takeWhile_digits h1 hbase n hrest,
    Text.dropWhile_digits h1 hbase n hrest, Text.ofDigits_toDigits h1 hbase]
  rw [if_neg]
  rintro (h | h | ⟨-, hhead, hne⟩ | h)
  · exact Nat.toDigits_ne_nil h
  · exact absurd h (by simpa using hdigits)
  · exact hne (Text.toDigits_of_head h1 hbase hhead)
  · omega

theorem takeNumber_of_stops {base : Nat} (bound : Nat) (maxDigits : Option Nat)
    (leadingZeros : Bool) (hrest : Stops (Text.isDigit base) rest) :
    takeNumber base bound maxDigits leadingZeros rest = none := by
  simp only [takeNumber, hrest.takeWhile_eq, true_or, if_true]

/-! ### Four numbers -/

theorem takeOctet_append (o : UInt8) (hrest : Stops (Text.isDigit 10) rest) :
    takeOctet (Nat.toDigits 10 o.toNat ++ rest) = some (o, rest) := by
  have hlength : (Nat.toDigits 10 o.toNat).length ≤ 3 :=
    (Nat.length_toDigits_le_iff (by decide) (by decide)).2 (by have := o.toNat_lt; omega)
  rw [takeOctet, takeNumber_digits (by decide) (by decide) false o.toNat_lt
    (by rintro k ⟨⟩; exact hlength) hrest]
  simp

theorem toList_renderOctets (a b c d : UInt8) :
    (renderOctets [a, b, c, d]).toList =
      Nat.toDigits 10 a.toNat ++ '.' :: (Nat.toDigits 10 b.toNat ++ '.' ::
        (Nat.toDigits 10 c.toNat ++ '.' :: Nat.toDigits 10 d.toNat)) := by
  simp [renderOctets, Nat.toList_repr]

/-- Four numbers are read as they are written. -/
theorem takeOctets_append (a b c d : UInt8) (hrest : Stops (Text.isDigit 10) rest) :
    takeOctets ((renderOctets [a, b, c, d]).toList ++ rest) = some (#v[a, b, c, d], rest) := by
  have hpoint : ∀ cs, Stops (Text.isDigit 10) ('.' :: cs) := fun cs => .cons (by decide)
  rw [toList_renderOctets]
  simp only [List.append_assoc, List.cons_append, takeOctets, takeOctet_append _ (hpoint _),
    takeOctet_append _ hrest, Text.expect, if_true, Option.bind_eq_bind, Option.bind_some,
    Option.pure_def]

/-! ### Groups -/

/-- A character that a group goes on with, or a number in place of a group. -/
def goesOn (c : Char) : Bool := Text.isDigit 16 c || c = '.'

theorem stops_ten (h : Stops goesOn rest) : Stops (Text.isDigit 10) rest :=
  h.mono fun _ hc => by simp [goesOn, Text.isDigit_mono (by decide : 10 ≤ 16) hc]

theorem stops_sixteen (h : Stops goesOn rest) : Stops (Text.isDigit 16) rest :=
  h.mono fun _ hc => by simp [goesOn, hc]

theorem takeGroup_append (g : UInt16) (hrest : Stops goesOn rest) :
    takeGroup (Text.hexDigits g.toNat ++ rest) = some (g, rest) := by
  have hlength : (Nat.toDigits 16 g.toNat).length ≤ 4 :=
    (Nat.length_toDigits_le_iff (by decide) (by decide)).2 (by have := g.toNat_lt; omega)
  rw [takeGroup, Text.hexDigits, takeNumber_digits (by decide) (by decide) true g.toNat_lt
    (by rintro k ⟨⟩; exact hlength) (stops_sixteen hrest)]
  simp

/-- What stands behind the first digits of a group does not start with a point. -/
theorem expect_point_eq_none {cs : List Char} (hcs : ∀ c ∈ cs, Text.isDigit 16 c = true)
    (hrest : Stops goesOn rest) :
    Text.expect '.' ((cs ++ rest).dropWhile (Text.isDigit 10)) = none := by
  induction cs with
  | nil =>
      rw [List.nil_append, (stops_ten hrest).dropWhile_eq]
      cases rest with
      | nil => rfl
      | cons c rest =>
          have hc := hrest c rfl
          have hne : c ≠ '.' := by simpa [goesOn] using (Bool.or_eq_false_iff.1 hc).2
          rw [Text.expect, if_neg hne]
  | cons c cs ih =>
      have hc : Text.isDigit 16 c = true := hcs c (List.mem_cons_self ..)
      have hne : c ≠ '.' := by
        rintro rfl
        exact absurd hc (by decide)
      rw [List.cons_append, List.dropWhile_cons]
      split
      · exact ih fun d hd => hcs d (List.mem_cons_of_mem _ hd)
      · rw [Text.expect, if_neg hne]

/-- A group is not the first of four numbers. -/
theorem takeOctets_group {cs : List Char} (hcs : ∀ c ∈ cs, Text.isDigit 16 c = true)
    (hrest : Stops goesOn rest) : takeOctets (cs ++ rest) = none := by
  cases hfirst : takeOctet (cs ++ rest) with
  | none => simp [takeOctets, hfirst]
  | some found =>
      obtain ⟨a, behind⟩ := found
      -- Its first digits may be a number, but then a point would have to follow.
      have hbehind : behind = (cs ++ rest).dropWhile (Text.isDigit 10) := by
        simp only [takeOctet, takeNumber] at hfirst
        split at hfirst
        · simp at hfirst
        · simp only [Option.map_some, Option.some.injEq, Prod.mk.injEq] at hfirst
          exact hfirst.2.symm
      simp [takeOctets, hfirst, hbehind, expect_point_eq_none hcs hrest]

/-- **A text that no group can be taken from.** -/
structure NoGroup (rest : List Char) : Prop where
  stops : Stops goesOn rest
  takeGroups : ∀ count first, takeGroups count first rest = ([], false, rest)

theorem takeOctets_of_stops (hrest : Stops goesOn rest) : takeOctets rest = none := by
  have hnone := takeOctets_group (List.forall_mem_nil _) hrest
  rwa [List.nil_append] at hnone

theorem takeGroup_of_stops (hrest : Stops goesOn rest) : takeGroup rest = none := by
  rw [takeGroup, takeNumber_of_stops _ _ _ (stops_sixteen hrest), Option.map_none]

/-- No group stands in front of two colons. -/
theorem noGroup_gap (rest : List Char) : NoGroup (':' :: ':' :: rest) where
  stops := .cons (by decide)
  takeGroups := by
    have hcolon : ∀ cs, Stops goesOn (':' :: cs) := fun cs => .cons (by decide)
    rintro (_ | count) (_ | _) <;>
      simp [Host.takeGroups, Text.expect, takeOctets_of_stops (hcolon _),
        takeGroup_of_stops (hcolon _)]

/-- No group stands in front of a character that is neither part of one nor a colon. -/
theorem noGroup_end {c : Char} (hc : goesOn c = false) (hcolon : c ≠ ':') (rest : List Char) :
    NoGroup (c :: rest) where
  stops := .cons hc
  takeGroups := by
    have hstops : Stops goesOn (c :: rest) := .cons hc
    rintro (_ | count) (_ | _) <;>
      simp [Host.takeGroups, Text.expect, takeOctets_of_stops hstops, takeGroup_of_stops hstops,
        hcolon]

/-- Groups, each of them behind a colon. -/
def behindColons (groups : List UInt16) : List Char :=
  groups.flatMap fun g => ':' :: Text.hexDigits g.toNat

theorem toList_renderGroups_cons (g : UInt16) (groups : List UInt16) :
    (renderGroups (g :: groups)).toList = Text.hexDigits g.toNat ++ behindColons groups := by
  induction groups generalizing g with
  | nil => simp [renderGroups, behindColons]
  | cons g' groups ih =>
      have hsplit : renderGroups (g :: g' :: groups) =
          String.ofList (Text.hexDigits g.toNat) ++ ":" ++ renderGroups (g' :: groups) := by
        rw [renderGroups, List.map_cons, List.map_cons, String.intercalate_cons_cons]
        rfl
      rw [hsplit]
      simp [ih, behindColons]

theorem stops_behindColons (groups : List UInt16) (hrest : Stops goesOn rest) :
    Stops goesOn (behindColons groups ++ rest) := by
  cases groups with
  | nil => exact hrest
  | cons g groups => exact .cons (by decide)

/-- A group in front of others is taken, and so are they. -/
theorem takeGroups_succ (first : Bool) (g : UInt16) {groups : List UInt16} {count : Nat}
    {octets : Bool} {more : List Char} (hstops : Stops goesOn more)
    (hmore : takeGroups count false more = (groups, octets, rest)) :
    takeGroups (count + 1) first
      ((if first then [] else [':']) ++ (Text.hexDigits g.toNat ++ more)) =
        (g :: groups, octets, rest) := by
  have hoctets : takeOctets (Text.hexDigits g.toNat ++ more) = none :=
    takeOctets_group (fun _ => Text.isDigit_of_mem_toDigits (by decide) (by decide)) hstops
  have hgroup := takeGroup_append g hstops
  cases first <;> simp [takeGroups, Text.expect, hoctets, hgroup, hmore]

/-- Every group behind a colon is taken, up to a text without any. -/
theorem takeGroups_behindColons {groups : List UInt16} {count : Nat}
    (hcount : groups.length ≤ count) (hrest : NoGroup rest) :
    takeGroups count false (behindColons groups ++ rest) = (groups, false, rest) := by
  induction groups generalizing count with
  | nil => exact hrest.takeGroups count false
  | cons g groups ih =>
      rw [List.length_cons] at hcount
      obtain ⟨count, rfl⟩ : ∃ k, count = k + 1 := ⟨count - 1, by omega⟩
      have htext : behindColons (g :: groups) ++ rest =
          ':' :: (Text.hexDigits g.toNat ++ (behindColons groups ++ rest)) := by
        simp [behindColons]
      rw [htext]
      exact takeGroups_succ false g (stops_behindColons groups hrest.stops) (ih (by omega))

/-- **Written groups are taken**, up to a text without any. -/
theorem takeGroups_append {groups : List UInt16} {count : Nat} (hcount : groups.length ≤ count)
    (hrest : NoGroup rest) :
    takeGroups count true ((renderGroups groups).toList ++ rest) = (groups, false, rest) := by
  cases groups with
  | nil => exact hrest.takeGroups count true
  | cons g groups =>
      rw [List.length_cons] at hcount
      obtain ⟨count, rfl⟩ : ∃ k, count = k + 1 := ⟨count - 1, by omega⟩
      rw [toList_renderGroups_cons, List.append_assoc]
      exact takeGroups_succ true g (stops_behindColons groups hrest.stops)
        (takeGroups_behindColons (by omega) hrest)

/-! ### Eight groups -/

theorem ofGroups?_toList (groups : Vector UInt16 8) : ofGroups? groups.toList = some groups := by
  rw [ofGroups?, dif_pos (by simp)]
  simp [Vector.toList]

/-- Groups fall into those in front of a run of zeros, the run, and those behind it. -/
theorem split_zeros (groups : List UInt16) (start : Nat) :
    groups.take start ++ List.replicate (zerosFrom groups start) 0 ++
      groups.drop (start + zerosFrom groups start) = groups := by
  have hzeros : (groups.drop start).takeWhile (· = 0) =
      List.replicate (zerosFrom groups start) 0 := by
    refine List.eq_replicate_iff.2 ⟨rfl, fun g hg => ?_⟩
    simpa using List.mem_takeWhile_imp hg
  have hrun : List.replicate (zerosFrom groups start) 0 ++ (groups.drop start).dropWhile (· = 0) =
      groups.drop start := by
    rw [← hzeros, List.takeWhile_append_dropWhile]
  have hbehind : groups.drop (start + zerosFrom groups start) =
      (groups.drop start).dropWhile (· = 0) := by
    calc groups.drop (start + zerosFrom groups start)
        = (groups.drop start).drop (zerosFrom groups start) := List.drop_drop.symm
      _ = (List.replicate (zerosFrom groups start) 0 ++
            (groups.drop start).dropWhile (· = 0)).drop (zerosFrom groups start) := by rw [hrun]
      _ = (groups.drop start).dropWhile (· = 0) := List.drop_left' List.length_replicate
  rw [hbehind, List.append_assoc, hrun, List.take_append_drop]

/-- The groups in front of the zeros and those behind them make up eight again. -/
theorem takeAllGroups_gap {front back : List UInt16} {groups : Vector UInt16 8} {cs : List Char}
    {octets : Bool} (hfront : front.length < 8)
    (hback : takeGroups (7 - front.length) true cs = (back, octets, rest))
    (height : front ++ List.replicate (8 - front.length - back.length) 0 ++ back = groups.toList) :
    takeAllGroups ((renderGroups front).toList ++ ':' :: ':' :: cs) = some (groups, rest) := by
  have htaken : takeGroups 8 true ((renderGroups front).toList ++ ':' :: ':' :: cs) =
      (front, false, ':' :: ':' :: cs) := takeGroups_append (by omega) (noGroup_gap cs)
  simp only [takeAllGroups, htaken, Text.expect, if_neg (by omega : ¬front.length = 8),
    Bool.false_eq_true, if_false, if_true, Option.bind_eq_bind, Option.bind_some, hback, height,
    ofGroups?_toList, Option.pure_def]

theorem pair_unpair (g : UInt16) :
    pair (UInt8.ofNat (g.toNat / 256)) (UInt8.ofNat (g.toNat % 256)) = g := by
  have hg := g.toNat_lt
  have hhigh : (UInt8.ofNat (g.toNat / 256)).toNat = g.toNat / 256 :=
    UInt8.toNat_ofNat_of_lt' (show _ < 256 by omega)
  have hlow : (UInt8.ofNat (g.toNat % 256)).toNat = g.toNat % 256 :=
    UInt8.toNat_ofNat_of_lt' (show _ < 256 by omega)
  rw [pair, hhigh, hlow, Nat.div_add_mod', UInt16.ofNat_toNat]

/-- Four numbers in place of the last two groups are taken for them. -/
theorem takeGroups_octets (a b : UInt16) (count : Nat) (hrest : NoGroup rest) :
    takeGroups (count + 2) false (':' :: ((renderOctets (unpair a ++ unpair b)).toList ++ rest)) =
      ([a, b], true, rest) := by
  have hoctets := takeOctets_append (UInt8.ofNat (a.toNat / 256)) (UInt8.ofNat (a.toNat % 256))
    (UInt8.ofNat (b.toNat / 256)) (UInt8.ofNat (b.toNat % 256)) (stops_ten hrest.stops)
  simp [takeGroups, Text.expect, unpair, hoctets, pair_unpair]

/-- Eight groups that stand for four numbers are read from those. -/
theorem takeAllGroups_mapped {groups : Vector UInt16 8} {a b : UInt16}
    (hgroups : groups.toList = [0, 0, 0, 0, 0, 0xffff, a, b]) (hrest : NoGroup rest) :
    takeAllGroups (("::ffff:" ++ renderOctets (unpair a ++ unpair b)).toList ++ rest) =
      some (groups, rest) := by
  have htext : ("::ffff:" ++ renderOctets (unpair a ++ unpair b)).toList ++ rest =
      (renderGroups []).toList ++ ':' :: ':' :: (Text.hexDigits (0xffff : UInt16).toNat ++
        ':' :: ((renderOctets (unpair a ++ unpair b)).toList ++ rest)) := by
    rw [String.toList_append, List.append_assoc]
    rfl
  rw [htext]
  refine takeAllGroups_gap (by decide)
    (takeGroups_succ true 0xffff (.cons (by decide)) (takeGroups_octets a b 4 hrest)) ?_
  rw [hgroups]
  rfl

/-- Eight groups are read back with a run of zeros left out, if there is one to leave out. -/
theorem takeAllGroups_shortened (groups : Vector UInt16 8) (hrest : NoGroup rest) :
    takeAllGroups ((renderShortened groups.toList).toList ++ rest) = some (groups, rest) := by
  have height : groups.toList.length = 8 := groups.length_toList
  rw [renderShortened]
  split
  case isTrue hgap =>
    have hsplit := split_zeros groups.toList (longestZeros groups.toList)
    have hlength := congrArg List.length hsplit
    -- Which run of zeros is left out makes no difference.
    generalize longestZeros groups.toList = start at hgap hsplit hlength ⊢
    simp only [List.length_append, List.length_take, List.length_replicate, List.length_drop,
      height] at hlength
    have hfront : (groups.toList.take start).length = start := by
      rw [List.length_take, height]
      omega
    have hback : (groups.toList.drop (start + zerosFrom groups.toList start)).length =
        8 - (start + zerosFrom groups.toList start) := by
      rw [List.length_drop, height]
    rw [String.toList_append, String.toList_append, List.append_assoc, List.append_assoc]
    refine takeAllGroups_gap (by omega) (takeGroups_append (by omega) hrest) ?_
    have hzeros : 8 - (groups.toList.take start).length -
        (groups.toList.drop (start + zerosFrom groups.toList start)).length =
          zerosFrom groups.toList start := by omega
    rw [hzeros, hsplit]
  case isFalse =>
    have htaken : takeGroups 8 true ((renderGroups groups.toList).toList ++ rest) =
        (groups.toList, false, rest) := takeGroups_append (by omega) hrest
    simp only [takeAllGroups, htaken, if_pos height, ofGroups?_toList, Option.bind_eq_bind,
      Option.bind_some, Option.pure_def]

/-- **Eight groups are read as they are written.** -/
theorem takeAllGroups_append (groups : Vector UInt16 8) (hrest : NoGroup rest) :
    takeAllGroups ((renderAllGroups groups.toList).toList ++ rest) = some (groups, rest) := by
  unfold renderAllGroups
  split
  case h_1 a b hgroups => exact takeAllGroups_mapped hgroups hrest
  case h_2 => exact takeAllGroups_shortened groups hrest

/-! ### Whole hosts -/

/-- The number of a link as it is written. -/
def renderScope (scope : UInt32) : String := if scope = 0 then "" else "%" ++ scope.toNat.repr

theorem takeScope_append (scope : UInt32) :
    takeScope ((renderScope scope).toList ++ ']' :: rest) = (scope, ']' :: rest) := by
  unfold renderScope
  split
  case isTrue hzero => simp [takeScope, Text.expect, hzero]
  case isFalse =>
    have hnumber : takeNumber 10 (Nat.pow 2 32) none true
        (Nat.toDigits 10 scope.toNat ++ ']' :: rest) = some (scope.toNat, ']' :: rest) :=
      takeNumber_digits (by decide) (by decide) true scope.toNat_lt (by simp) (.cons (by decide))
    simp [takeScope, Text.expect, hnumber, Nat.toList_repr]

theorem noGroup_scope (scope : UInt32) (rest : List Char) :
    NoGroup ((renderScope scope).toList ++ ']' :: rest) := by
  unfold renderScope
  split
  case isTrue => exact noGroup_end (by decide) (by decide) rest
  case isFalse =>
    rw [String.toList_append, List.append_assoc]
    exact noGroup_end (by decide) (by decide) _

/-- **A host is read as it is written.** -/
theorem take_append (host : Host) (hrest : Stops (Text.isDigit 10) rest) :
    take (host.render.toList ++ rest) = some (host, rest) := by
  cases host with
  | v4 octets =>
      obtain ⟨a, b, c, d, rfl⟩ : ∃ a b c d, octets = #v[a, b, c, d] := by
        refine ⟨octets[0], octets[1], octets[2], octets[3], ?_⟩
        ext i hi
        obtain rfl | rfl | rfl | rfl : i = 0 ∨ i = 1 ∨ i = 2 ∨ i = 3 := by omega
        all_goals rfl
      have htaken : takeOctets ((renderOctets #v[a, b, c, d].toList).toList ++ rest) =
          some (#v[a, b, c, d], rest) := takeOctets_append a b c d hrest
      simp only [take, render, htaken]
  | v6 groups scope =>
      have htext : (v6 groups scope).render.toList ++ rest =
          '[' :: ((renderAllGroups groups.toList).toList ++
            ((renderScope scope).toList ++ ']' :: rest)) := by
        simp [render, renderScope]
      have hgroups := takeAllGroups_append groups (noGroup_scope scope rest)
      rw [htext, take, takeOctets_of_stops (.cons (by decide))]
      simp [Text.expect, hgroups, takeScope_append]

end Host

/-- **An address is read as it is written.** -/
theorem Address.parse?_render (a : Address) : Address.parse? a.render = some a := by
  have hcolon : Stops (Text.isDigit 10) (':' :: Nat.toDigits 10 a.port.toNat) := .cons (by decide)
  have hport : Host.takeNumber 10 65536 none true (Nat.toDigits 10 a.port.toNat ++ []) =
      some (a.port.toNat, []) :=
    Host.takeNumber_digits (by decide) (by decide) true a.port.toNat_lt (by simp) .nil
  rw [List.append_nil] at hport
  have htext : a.render.toList = a.host.render.toList ++ ':' :: Nat.toDigits 10 a.port.toNat := by
    simp [render, Nat.toList_repr]
  simp [parse?, htext, Host.take_append a.host hcolon, Text.expect, hport]

end LineChat
