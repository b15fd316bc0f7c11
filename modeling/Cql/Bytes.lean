/-!
# Bytes and big-endian words

Every number on the wire is a word of a fixed count of bytes, the most significant byte first.

* `Bytes.ofNat w n`   the `w` bytes of `n` (what lies above them is dropped);
* `Bytes.toNat bs`    the number that the bytes `bs` spell;
* `Bytes.split n bs`  the first `n` bytes and the rest, when there are that many: it looks at no
                      more than `n` bytes, whatever the length of `bs`;
* `Bytes.hex bs`      two lower-case hexadecimal digits a byte.

`toNat_cons` and `ofNat_succ` read a word from its first byte on, which is how every later proof
meets it.
-/

namespace Cql

abbrev Bytes := List UInt8

namespace Bytes

/-! ## words -/

/-- the `w` bytes of `n`, most significant first -/
def ofNat : Nat → Nat → Bytes
  | 0, _ => []
  | w + 1, n => UInt8.ofNat (n >>> (8 * w)) :: ofNat w n

/-- the number spelt by `bs`, after the bytes of `high` -/
def toNatFrom (high : Nat) : Bytes → Nat
  | [] => high
  | b :: bs => toNatFrom (high * 256 + b.toNat) bs

/-- the number spelt by `bs`, most significant byte first -/
def toNat (bs : Bytes) : Nat := toNatFrom 0 bs

theorem ofNat_zero (n : Nat) : ofNat 0 n = [] := rfl
theorem ofNat_succ (w n : Nat) : ofNat (w + 1) n = UInt8.ofNat (n >>> (8 * w)) :: ofNat w n := rfl

@[simp] theorem length_ofNat (w n : Nat) : (ofNat w n).length = w := by
  induction w with
  | zero => rfl
  | succ w ih => rw [ofNat_succ, List.length_cons, ih]

theorem toNatFrom_nil (h : Nat) : toNatFrom h [] = h := rfl
theorem toNatFrom_cons (h : Nat) (b : UInt8) (bs : Bytes) :
    toNatFrom h (b :: bs) = toNatFrom (h * 256 + b.toNat) bs := rfl
theorem toNat_nil : toNat [] = 0 := rfl

/-! ## cutting -/

/-- the first `n` bytes and the rest, or nothing when there are fewer -/
def split (n : Nat) (bs : Bytes) : Option (Bytes × Bytes) :=
  let front := bs.take n
  if front.length = n then some (front, bs.drop n) else none

theorem split_append (xs ys : Bytes) : split xs.length (xs ++ ys) = some (xs, ys) := by
  simp [split]

theorem split_eq_some {n : Nat} {bs xs ys : Bytes} (h : split n bs = some (xs, ys)) :
    bs = xs ++ ys ∧ xs.length = n := by
  unfold split at h
  by_cases hn : (bs.take n).length = n
  · rw [if_pos hn, Option.some.injEq, Prod.mk.injEq] at h
    obtain ⟨rfl, rfl⟩ := h
    exact ⟨(List.take_append_drop n bs).symm, hn⟩
  · rw [if_neg hn] at h
    cases h

theorem split_eq_none {n : Nat} {bs : Bytes} : split n bs = none ↔ bs.length < n := by
  show (if (bs.take n).length = n then some (bs.take n, bs.drop n) else none) = none ↔ _
  rw [List.length_take]
  split <;> simp <;> omega

/-! ## hexadecimal text -/

/-- the lower-case hexadecimal digit of a number below sixteen -/
def hexDigit (n : Nat) : Char :=
  if n < 10 then Char.ofNat (48 + n) else Char.ofNat (87 + n)

/-- what a hexadecimal digit of either case stands for -/
def hexValue? (c : Char) : Option Nat :=
  if '0' ≤ c ∧ c ≤ '9' then some (c.toNat - 48)
  else if 'a' ≤ c ∧ c ≤ 'f' then some (c.toNat - 87)
  else if 'A' ≤ c ∧ c ≤ 'F' then some (c.toNat - 55)
  else none

def hex (bs : Bytes) : List Char :=
  bs.flatMap fun b => [hexDigit (b.toNat / 16), hexDigit (b.toNat % 16)]

/-- the bytes whose digits, of either case, are given two by two -/
def ofHex? : List Char → Option Bytes
  | [] => some []
  | [_] => none
  | a :: b :: cs => do
    let high ← hexValue? a
    let low ← hexValue? b
    return UInt8.ofNat (high * 16 + low) :: (← ofHex? cs)

theorem hex_nil : hex [] = [] := rfl
theorem hex_cons (b : UInt8) (bs : Bytes) :
    hex (b :: bs) = hexDigit (b.toNat / 16) :: hexDigit (b.toNat % 16) :: hex bs := rfl

end Bytes

end Cql
