import Cql.Bytes

/-!
# Identifiers of 128 bits

An identifier is a word of 128 bits: sixteen bytes on the wire, and in text 32 hexadecimal digits
cut into groups of 8, 4, 4, 4 and 12 by hyphens.  Four spellings are read, in digits of either case:
the bare digits, the hyphenated form, and the hyphenated form in braces or after `urn:uuid:`.
-/

namespace Cql

structure Uuid where
  bits : BitVec 128
deriving DecidableEq

namespace Uuid

/-- the sixteen bytes, most significant first -/
def bytes (u : Uuid) : Bytes := Bytes.ofNat 16 u.bits.toNat

/-- sixteen bytes, and no other count, make an identifier -/
def ofBytes? (bs : Bytes) : Option Uuid :=
  if bs.length = 16 then some ⟨BitVec.ofNat 128 bs.toNat⟩ else none

/-- the hyphenated form in lower case -/
def text (u : Uuid) : List Char :=
  let ds := Bytes.hex u.bytes
  ds.take 8 ++ '-' :: (ds.drop 8).take 4 ++ '-' :: (ds.drop 12).take 4
    ++ '-' :: (ds.drop 16).take 4 ++ '-' :: ds.drop 20

/-- 32 digits without hyphens -/
def ofDigits? (cs : List Char) : Option Uuid := (Bytes.ofHex? cs).bind ofBytes?

/-- hyphens at the four places and nowhere else -/
def ofHyphenated? (cs : List Char) : Option Uuid :=
  let hyphens := [8, 13, 18, 23].all fun i => cs[i]? == some '-'
  if cs.length = 36 ∧ hyphens then ofDigits? (cs.filter (· != '-')) else none

/-- any of the four spellings -/
def parse? (cs : List Char) : Option Uuid :=
  match cs.length with
  | 32 => ofDigits? cs
  | 36 => ofHyphenated? cs
  | 38 => if cs.head? = some '\x7b' ∧ cs.getLast? = some '\x7d'
      then ofHyphenated? ((cs.drop 1).take 36) else none
  | 45 => if cs.take 9 = ['u', 'r', 'n', ':', 'u', 'u', 'i', 'd', ':']
      then ofHyphenated? (cs.drop 9) else none
  | _ => none

@[simp] theorem length_bytes (u : Uuid) : u.bytes.length = 16 := Bytes.length_ofNat 16 _

end Uuid

end Cql
