import Cql.FloatFormat
import Cql.Text.Number

/-!
# The shortest decimal that reads back

A decimal reads back as a float when it lies in the interval of reals that round to it; the ends of
the interval belong to it exactly when the significand is even.  The coarsest grid `10 ^ k` with a
point in that interval gives the decimal with the fewest digits.  Of two points of that grid the
nearer one to the float is taken, and the upper one when both are equally near.

Everything is compared in whole numbers: `Band.scaled` and `Band.grid` bring `a * 2 ^ u` and
`d * 10 ^ k` to one denominator.  At the finest grid that is tried the float itself is a point, so
the search ends with a point of the interval whatever happened before.
-/

namespace Cql

/-- the reals that round to a float, in units of a quarter of its last place -/
structure Band where
  low : Nat
  mid : Nat
  high : Nat
  closed : Bool
  /-- the exponent of the unit, base two -/
  exponent : Int

structure Decimal where
  digits : Nat
  exponent : Int

namespace Band

/-- the interval of `m * 2 ^ q`: half a last place to both sides, except that below a power of two
the floats are twice as dense -/
def ofFinite (f : FloatFormat) (m : Nat) (q : Int) : Band where
  low := if m = f.hiddenBit ∧ f.minExponent < q then 4 * m - 1 else 4 * m - 2
  mid := 4 * m
  high := 4 * m + 2
  closed := m % 2 == 0
  exponent := q - 2

section
variable (b : Band) (k : Int)

/-- `a` units, over the common denominator with the grid `10 ^ k` -/
def scaled (a : Nat) : Nat := a <<< b.exponent.toNat * Nat.pow 10 (-k).toNat

/-- the point `d * 10 ^ k`, over the same denominator -/
def grid (d : Nat) : Nat := d <<< (-b.exponent).toNat * Nat.pow 10 k.toNat

/-- the point `d * 10 ^ k` reads back -/
def holds (d : Nat) : Bool :=
  if b.closed then b.scaled k b.low ≤ b.grid k d && b.grid k d ≤ b.scaled k b.high
  else b.scaled k b.low < b.grid k d && b.grid k d < b.scaled k b.high

/-- the last point of the grid that is not above the float -/
def below : Nat := b.scaled k b.mid / b.grid k 1

/-- the point of the grid `10 ^ k` that reads back and is nearest to the float -/
def hit? : Option Nat :=
  let down := b.below k
  match b.holds k down, b.holds k (down + 1) with
  | true, true =>
    if 2 * b.scaled k b.mid < b.grid k down + b.grid k (down + 1) then some down
    else some (down + 1)
  | true, false => some down
  | false, true => some (down + 1)
  | false, false => none

end

/-- a grid on which the float itself lies -/
def finest (b : Band) : Int := if b.exponent < 0 then b.exponent else 0

/-- the first hit on the grids from `finest + n` down to `finest` -/
def search (b : Band) : Nat → Decimal
  | 0 => ⟨b.below b.finest, b.finest⟩
  | n + 1 =>
    match b.hit? (b.finest + (n + 1 : Nat)) with
    | some d => ⟨d, b.finest + (n + 1 : Nat)⟩
    | none => search b n

/-- the decimal with the fewest digits; no double reaches `10 ^ 310` -/
def shortest (b : Band) : Decimal := b.search (310 - b.finest).toNat

end Band

/-- positional notation, always with a point and a digit on both sides of it -/
def Decimal.positional (d : Decimal) : List Char :=
  let ds := Text.natural d.digits
  let places := (-d.exponent).toNat
  if places = 0 then ds ++ List.replicate d.exponent.toNat '0' ++ ['.', '0']
  else if places < ds.length then ds.take (ds.length - places) ++ '.' :: ds.drop (ds.length - places)
  else '0' :: '.' :: Text.zeroFill places ds

/-- the words for what has no digits -/
structure FloatWords where
  nan : List Char
  infinity : List Char

namespace FloatFormat

/-- the shortest text of a float, never with an exponent -/
def text (f : FloatFormat) (words : FloatWords) (bits : Nat) : List Char :=
  match f.datum bits with
  | .nan _ => words.nan
  | .infinite negative => sign negative words.infinity
  | .finite negative m q =>
    sign negative (if m = 0 then ['0', '.', '0'] else (Band.ofFinite f m q).shortest.positional)
where
  sign (negative : Bool) (cs : List Char) : List Char := if negative then '-' :: cs else cs

end FloatFormat

end Cql
