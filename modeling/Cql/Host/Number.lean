/-!
# Whole numbers of the host

Host data knows signed and unsigned whole numbers of several widths.  A `HostInt` is a number
together with its width, and never lies outside of it.
-/

namespace Cql

/-- the widths of whole numbers; those of 128 bits are only read, the last two are those of an
address -/
inductive IntType where
  | i8 | i16 | i32 | i64 | i128
  | u8 | u16 | u32 | u64 | u128
  | isize | usize
deriving DecidableEq

namespace IntType

def name : IntType → String
  | i8 => "i8"
  | i16 => "i16"
  | i32 => "i32"
  | i64 => "i64"
  | i128 => "i128"
  | u8 => "u8"
  | u16 => "u16"
  | u32 => "u32"
  | u64 => "u64"
  | u128 => "u128"
  | isize => "isize"
  | usize => "usize"

def widths : List IntType := [i8, i16, i32, i64, i128, u8, u16, u32, u64, u128, isize, usize]

def ofName? (s : String) : Option IntType := widths.find? fun t => t.name == s

def low : IntType → Int
  | i8 => -128
  | i16 => -32768
  | i32 => -2147483648
  | i64 | isize => -9223372036854775808
  | i128 => -170141183460469231731687303715884105728
  | u8 | u16 | u32 | u64 | u128 | usize => 0

def high : IntType → Int
  | i8 => 127
  | i16 => 32767
  | i32 => 2147483647
  | i64 | isize => 9223372036854775807
  | i128 => 170141183460469231731687303715884105727
  | u8 => 255
  | u16 => 65535
  | u32 => 4294967295
  | u64 | usize => 18446744073709551615
  | u128 => 340282366920938463463374607431768211455

def Holds (t : IntType) (n : Int) : Prop := t.low ≤ n ∧ n ≤ t.high

instance (t : IntType) (n : Int) : Decidable (t.Holds n) := inferInstanceAs (Decidable (_ ∧ _))

end IntType

structure HostInt where
  type : IntType
  val : Int
  holds : type.Holds val
deriving DecidableEq

/-- the number in the width `t`, if it fits -/
def HostInt.ofInt? (t : IntType) (n : Int) : Option HostInt :=
  if h : t.Holds n then some ⟨t, n, h⟩ else none

theorem HostInt.ofInt?_eq_none {t : IntType} {n : Int} : ofInt? t n = none ↔ ¬t.Holds n := by
  unfold ofInt?
  split <;> simp_all

end Cql
