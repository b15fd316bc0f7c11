import Cql.Bytes

/-!
# Internet addresses

An address of either family is one word: four bytes or sixteen.  On the wire the count of bytes
tells the family.
-/

namespace Cql

inductive Inet where
  | v4 (address : BitVec 32)
  | v6 (address : BitVec 128)
deriving DecidableEq

namespace Inet

inductive Family where
  | v4 | v6
deriving DecidableEq

def Family.name : Family → String
  | v4 => "IPv4"
  | v6 => "IPv6"

def family : Inet → Family
  | v4 _ => .v4
  | v6 _ => .v6

/-- the bytes of the address, most significant first -/
def bytes : Inet → Bytes
  | v4 a => Bytes.ofNat 4 a.toNat
  | v6 a => Bytes.ofNat 16 a.toNat

/-- four bytes are an address of the first family, sixteen of the second -/
def ofBytes? (bs : Bytes) : Option Inet :=
  if bs.length = 4 then some (v4 (BitVec.ofNat 32 bs.toNat))
  else if bs.length = 16 then some (v6 (BitVec.ofNat 128 bs.toNat))
  else none

def octets (a : BitVec 32) : List Nat := (Bytes.ofNat 4 a.toNat).map UInt8.toNat

/-- the `n` lowest groups of sixteen bits of a word, the highest of them first -/
def lowGroups : Nat → Nat → List Nat
  | 0, _ => []
  | n + 1, w => w >>> (16 * n) % 65536 :: lowGroups n w

def groups (a : BitVec 128) : List Nat := lowGroups 8 a.toNat

/-- the word whose digits to the base `base` are given, the highest first -/
def wordOf (base : Nat) (digits : List Nat) : Nat := digits.foldl (fun w d => w * base + d) 0

end Inet

end Cql
