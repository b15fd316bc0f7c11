/-!
# Numbers as text

Whole numbers are written in base ten without leading zeros, a negative one after a minus sign.
`padded` fills up to a width with zeros between the sign and the digits, the sign counted in the
width, as the years of a calendar are written.
-/

namespace Cql.Text

def natural (n : Nat) : List Char := Nat.toDigits 10 n

/-- a whole number, a negative one after a minus sign -/
def integer : Int → List Char
  | .ofNat n => natural n
  | .negSucc n => '-' :: natural (n + 1)

/-- `ds` with zeros before it up to the width `w` -/
def zeroFill (w : Nat) (ds : List Char) : List Char :=
  List.replicate (w - ds.length) '0' ++ ds

/-- a whole number of at least `w` characters, its sign included -/
def padded (w : Nat) : Int → List Char
  | .ofNat n => zeroFill w (natural n)
  | .negSucc n => '-' :: zeroFill (w - 1) (natural (n + 1))

theorem integer_ofNat (n : Nat) : integer n = natural n := rfl
theorem zeroFill_of_le {w : Nat} {ds : List Char} (h : w ≤ ds.length) : zeroFill w ds = ds := by
  rw [zeroFill, Nat.sub_eq_zero_of_le h]
  rfl

end Cql.Text
