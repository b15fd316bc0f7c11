/-!
# Binary floating point, bit by bit

A float is kept as its bit pattern, because equality, hashing and the wire look at nothing else.
Where its number matters, `FloatFormat.datum` takes the pattern apart: a finite float is
`significand * 2 ^ exponent`, up to its sign.

* `FloatFormat.datum`   what a pattern stands for;
* `FloatFormat.round`   the pattern nearest to `m * 2 ^ q`, a tie going to the even significand and
                        what is too large going to infinity;
* `widen`, `narrow`     the same number as a double, the nearest single.
-/

namespace Cql

/-- the widths of an interchange format: stored bits of the significand, bits of the exponent -/
structure FloatFormat where
  fractionBits : Nat
  exponentBits : Nat

/-- what a bit pattern stands for -/
inductive FloatDatum where
  | nan (negative : Bool)
  | infinite (negative : Bool)
  /-- `significand * 2 ^ exponent` -/
  | finite (negative : Bool) (significand : Nat) (exponent : Int)

namespace FloatFormat

def single : FloatFormat := ⟨23, 8⟩
def double : FloatFormat := ⟨52, 11⟩

section
variable (f : FloatFormat)

/-- the exponent of the last bit of the smallest floats -/
def minExponent : Int := 2 - (1 <<< (f.exponentBits - 1) : Nat) - f.fractionBits

/-- the significand of a power of two: the stored bits are zero, the hidden one is set -/
def hiddenBit : Nat := 1 <<< f.fractionBits

/-- the pattern of infinity: all exponent bits set, a zero fraction -/
def infinityBits : Nat := (1 <<< f.exponentBits - 1) <<< f.fractionBits

def signBits (negative : Bool) : Nat :=
  if negative then 1 <<< (f.fractionBits + f.exponentBits) else 0

def datum (bits : Nat) : FloatDatum :=
  let fraction := bits % f.hiddenBit
  let stored := (bits >>> f.fractionBits) % (1 <<< f.exponentBits)
  let negative := bits.testBit (f.fractionBits + f.exponentBits)
  if stored + 1 = 1 <<< f.exponentBits then
    if fraction = 0 then .infinite negative else .nan negative
  else if stored = 0 then .finite negative fraction f.minExponent
  else .finite negative (f.hiddenBit + fraction) (f.minExponent + (stored - 1 : Nat))

/-- `m / 2 ^ k` to the nearest whole number, a tie to the even one -/
def halfEven (m k : Nat) : Nat :=
  let below := m >>> k
  let twice := 2 * (m - below <<< k)
  if 1 <<< k < twice ∨ (1 <<< k = twice ∧ below % 2 = 1) then below + 1 else below

/-- the pattern nearest to `m * 2 ^ q` -/
def round (negative : Bool) (m : Nat) (q : Int) : Nat :=
  if m = 0 then f.signBits negative
  else
    let wanted := q + (Nat.log2 m : Nat) - f.fractionBits
    let last := if wanted < f.minExponent then f.minExponent else wanted
    let significand := if q < last then halfEven m (last - q).toNat else m <<< (q - last).toNat
    let bits := (last - f.minExponent).toNat <<< f.fractionBits + significand
    f.signBits negative + if bits < f.infinityBits then bits else f.infinityBits

/-- the quiet pattern without payload -/
def nanBits (negative : Bool) : Nat :=
  f.signBits negative + f.infinityBits + 1 <<< (f.fractionBits - 1)

/-- the pattern of a datum of any format -/
def ofDatum : FloatDatum → Nat
  | .nan negative => f.nanBits negative
  | .infinite negative => f.signBits negative + f.infinityBits
  | .finite negative m q => f.round negative m q

def ofInt : Int → Nat
  | .ofNat n => f.round false n 0
  | .negSucc n => f.round true (n + 1) 0

end

def widen (bits : UInt32) : UInt64 := UInt64.ofNat (double.ofDatum (single.datum bits.toNat))

def narrow (bits : UInt64) : UInt32 := UInt32.ofNat (single.ofDatum (double.datum bits.toNat))

end FloatFormat

end Cql
