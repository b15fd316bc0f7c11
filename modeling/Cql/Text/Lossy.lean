import Cql.Bytes

/-!
# Bytes read as text whatever they hold

Bytes that are no UTF-8 are read with one replacement character for every ill-formed part.  Such a
part is as long as it could still have become a character: a lead byte with those of its
continuation bytes that fit, or one byte that begins nothing.
-/

namespace Cql.Text

/-- the character for what cannot be read -/
def replacement : Char := Char.ofNat 0xFFFD

/-- how a lead byte goes on: the bounds of its second byte and the count of bytes after that -/
def followers (lead : Nat) : Option (Nat × Nat × Nat) :=
  if 0xC2 ≤ lead ∧ lead ≤ 0xDF then some (0x80, 0xBF, 0)
  else if lead = 0xE0 then some (0xA0, 0xBF, 1)
  else if lead = 0xED then some (0x80, 0x9F, 1)
  else if 0xE1 ≤ lead ∧ lead ≤ 0xEF then some (0x80, 0xBF, 1)
  else if lead = 0xF0 then some (0x90, 0xBF, 2)
  else if 0xF1 ≤ lead ∧ lead ≤ 0xF3 then some (0x80, 0xBF, 2)
  else if lead = 0xF4 then some (0x80, 0x8F, 2)
  else none

/-- the bits of a lead byte that count, given how many bytes follow the second -/
def leadBits (lead more : Nat) : Nat :=
  if more = 0 then lead % 32 else if more = 1 then lead % 16 else lead % 8

/-- the continuation bytes still wanted, after the bits read so far -/
def finishChar : Nat → Nat → Bytes → Char × Bytes
  | 0, bits, bs => (Char.ofNat bits, bs)
  | _ + 1, _, [] => (replacement, [])
  | n + 1, bits, b :: bs =>
    if 0x80 ≤ b.toNat ∧ b.toNat ≤ 0xBF then finishChar n (bits * 64 + b.toNat % 64) bs
    else (replacement, b :: bs)

/-- the character that begins with the byte `b`, and the rest -/
def firstChar (b : UInt8) (bs : Bytes) : Char × Bytes :=
  if b.toNat < 0x80 then (Char.ofNat b.toNat, bs)
  else
    match followers b.toNat, bs with
    | some (low, high, more), c :: rest =>
      if low ≤ c.toNat ∧ c.toNat ≤ high then
        finishChar more (leadBits b.toNat more * 64 + c.toNat % 64) rest
      else (replacement, bs)
    | _, _ => (replacement, bs)

theorem finishChar_length (n bits : Nat) (bs : Bytes) :
    (finishChar n bits bs).2.length ≤ bs.length := by
  induction n generalizing bits bs with
  | zero => exact Nat.le_refl _
  | succ n ih =>
    cases bs with
    | nil => exact Nat.le_refl _
    | cons b bs =>
      unfold finishChar
      split
      · exact Nat.le_succ_of_le (ih _ _)
      · exact Nat.le_refl _

theorem firstChar_length (b : UInt8) (bs : Bytes) : (firstChar b bs).2.length ≤ bs.length := by
  unfold firstChar
  split
  · exact Nat.le_refl _
  · split
    · split
      · exact Nat.le_succ_of_le (finishChar_length _ _ _)
      · exact Nat.le_refl _
    · exact Nat.le_refl _

/-- every character and every ill-formed part in turn -/
def lossyChars : Bytes → List Char
  | [] => []
  | b :: bs => (firstChar b bs).1 :: lossyChars (firstChar b bs).2
termination_by bs => bs.length
decreasing_by
  have := firstChar_length b bs
  simp only [List.length_cons]
  omega

def lossy (bs : Bytes) : String := String.ofList (lossyChars bs)

end Cql.Text
