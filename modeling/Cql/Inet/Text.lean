import Cql.Inet
import Cql.Text.Number
import Cql.Text.Joined

/-!
# Addresses as text

A short address is four decimal octets.  A long one is eight hexadecimal groups without leading
zeros, in which the longest run of at least two zero groups (the first of equals) is written `::`;
only an address that carries a short one, `::ffff:a.b.c.d`, ends in decimal octets.

Reading is strict: no octet has a leading zero, no group more than four digits, `::` stands for at
least one group, octets may end the text where two groups are still free, and nothing may follow.
-/

namespace Cql.Inet

/-! ## writing -/

def shortText (a : BitVec 32) : List Char := Text.joined ['.'] ((octets a).map Text.natural)

def groupText (g : Nat) : List Char := Nat.toDigits 16 g

def groupsText (gs : List Nat) : List Char := Text.joined [':'] (gs.map groupText)

/-- the length of the run of zeros that begins the list -/
def zeroRun (gs : List Nat) : Nat := (gs.takeWhile (· == 0)).length

/-- where the longest run of zeros starts and how long it is, the first of equals -/
def longestRun : List Nat → Nat × Nat
  | [] => (0, 0)
  | g :: gs =>
    let here := zeroRun (g :: gs)
    let later := longestRun gs
    if later.2 ≤ here then (0, here) else (later.1 + 1, later.2)

def longText (a : BitVec 128) : List Char :=
  let gs := groups a
  if gs.take 6 = [0, 0, 0, 0, 0, 65535] then
    [':', ':', 'f', 'f', 'f', 'f', ':'] ++ shortText (a.setWidth 32)
  else
    let run := longestRun gs
    if 2 ≤ run.2 then
      groupsText (gs.take run.1) ++ [':', ':'] ++ groupsText (gs.drop (run.1 + run.2))
    else groupsText gs

def text : Inet → List Char
  | v4 a => shortText a
  | v6 a => longText a

/-! ## reading -/

/-- what a digit to the base `base` stands for -/
def digit? (base : Nat) (c : Char) : Option Nat :=
  (Bytes.hexValue? c).filter (· < base)

/-- the digits that begin a text, and the rest -/
def digitRun (base : Nat) : List Char → List Nat × List Char
  | [] => ([], [])
  | c :: cs =>
    match digit? base c with
    | some d => let (ds, rest) := digitRun base cs; (d :: ds, rest)
    | none => ([], c :: cs)

/-- an octet: at most three digits, no leading zero, at most 255 -/
def octet? (cs : List Char) : Option (Nat × List Char) :=
  let (ds, rest) := digitRun 10 cs
  let n := wordOf 10 ds
  if 1 ≤ ds.length ∧ ds.length ≤ 3 ∧ n < 256 ∧ (ds.head? = some 0 → ds.length = 1)
  then some (n, rest) else none

/-- a group: one to four hexadecimal digits -/
def group? (cs : List Char) : Option (Nat × List Char) :=
  let (ds, rest) := digitRun 16 cs
  if 1 ≤ ds.length ∧ ds.length ≤ 4 then some (wordOf 16 ds, rest) else none

/-- `read` after the character `c` -/
def after? {α : Type} (c : Char) (read : List Char → Option (α × List Char)) :
    List Char → Option (α × List Char)
  | [] => none
  | d :: cs => if d = c then read cs else none

def short? (cs : List Char) : Option (List Nat × List Char) := do
  let (a, cs) ← octet? cs
  let (b, cs) ← after? '.' octet? cs
  let (c, cs) ← after? '.' octet? cs
  let (d, cs) ← after? '.' octet? cs
  return ([a, b, c, d], cs)

def pairUp : List Nat → List Nat
  | a :: b :: rest => (a * 256 + b) :: pairUp rest
  | rest => rest

/-- what a run of groups gave: the groups, whether octets ended it, and the rest -/
structure GroupRun where
  groups : List Nat
  ended : Bool
  rest : List Char

/-- as many groups as there are, at most `room`, a colon before each but the first -/
def groupRun (first : Bool) : Nat → List Char → GroupRun
  | 0, cs => ⟨[], false, cs⟩
  | room + 1, cs =>
    let sep {α : Type} (read : List Char → Option (α × List Char)) :=
      if first then read else after? ':' read
    match (if room = 0 then none else sep short? cs) with
    | some (os, rest) => ⟨pairUp os, true, rest⟩
    | none =>
      match sep group? cs with
      | some (g, rest) =>
        let more := groupRun false room rest
        ⟨g :: more.groups, more.ended, more.rest⟩
      | none => ⟨[], false, cs⟩

/-- eight groups, or fewer with `::` in the place of the missing ones -/
def long? (cs : List Char) : Option (List Nat × List Char) :=
  let head := groupRun true 8 cs
  if head.groups.length = 8 then some (head.groups, head.rest)
  else if head.ended then none
  else
    match head.rest with
    | ':' :: ':' :: rest =>
      let tail := groupRun true (7 - head.groups.length) rest
      let missing := 8 - head.groups.length - tail.groups.length
      some (head.groups ++ List.replicate missing 0 ++ tail.groups, tail.rest)
    | _ => none

/-- an address of either family, the whole text long -/
def parse? (cs : List Char) : Option Inet :=
  match short? cs with
  | some (os, []) => some (v4 (BitVec.ofNat 32 (wordOf 256 os)))
  | some _ => none
  | none =>
    match long? cs with
    | some (gs, []) => some (v6 (BitVec.ofNat 128 (wordOf 65536 gs)))
    | _ => none

/-- an address of one family, the whole text long -/
def Family.parse? : Family → List Char → Option Inet
  | v4, cs =>
    match short? cs with
    | some (os, []) => some (.v4 (BitVec.ofNat 32 (wordOf 256 os)))
    | _ => none
  | v6, cs =>
    match long? cs with
    | some (gs, []) => some (.v6 (BitVec.ofNat 128 (wordOf 65536 gs)))
    | _ => none

end Cql.Inet
