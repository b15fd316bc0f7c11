import Cql.Bytes
import Mathlib.Tactic.Ring

/-!
# Words there and back

`Bytes.ofNat` and `Bytes.toNat` are each other's inverse: `w` bytes spell exactly the numbers below
`256 ^ w`, and every list of bytes is the word of its own number.

* `toNat_cons`    the first byte is the highest digit;
* `toNat_lt`      a word is below the power of its length;
* `toNat_ofNat`   what is read from `w` bytes of `n` is the rest of `n` by `256 ^ w`;
* `ofNat_toNat`   reading loses nothing.
-/

namespace Cql.Bytes

/-! ## the number of a word -/

theorem toNatFrom_eq (h : Nat) (bs : Bytes) :
    toNatFrom h bs = h * 256 ^ bs.length + toNat bs := by
  induction bs generalizing h with
  | nil =>
    show h = h * 256 ^ 0 + 0
    rw [Nat.pow_zero, Nat.mul_one, Nat.add_zero]
  | cons b bs ih =>
    show toNatFrom (h * 256 + b.toNat) bs = _ + toNatFrom (0 * 256 + b.toNat) bs
    rw [ih, ih (0 * 256 + b.toNat), List.length_cons, Nat.pow_succ]
    ring

theorem toNat_cons (b : UInt8) (bs : Bytes) :
    toNat (b :: bs) = b.toNat * 256 ^ bs.length + toNat bs := by
  show toNatFrom (0 * 256 + b.toNat) bs = _
  rw [toNatFrom_eq, Nat.zero_mul, Nat.zero_add]

theorem toNat_lt (bs : Bytes) : toNat bs < 256 ^ bs.length := by
  induction bs with
  | nil => exact Nat.one_pos
  | cons b bs ih =>
    have hb := UInt8.toNat_lt b
    have hm := Nat.mul_le_mul_right (256 ^ bs.length) (show b.toNat + 1 ≤ 256 by omega)
    rw [toNat_cons, List.length_cons, Nat.pow_succ, Nat.mul_comm (256 ^ bs.length)]
    rw [Nat.succ_mul] at hm
    omega

/-! ## the word of a number -/

theorem ofNat_succ' (w n : Nat) :
    ofNat (w + 1) n = UInt8.ofNat (n / 256 ^ w) :: ofNat w n := by
  rw [ofNat_succ, Nat.shiftRight_eq_div_pow, Nat.pow_mul]

/-- what lies above the word is dropped -/
theorem ofNat_add_mul (w k n : Nat) : ofNat w (k * 256 ^ w + n) = ofNat w n := by
  induction w generalizing k with
  | zero => rfl
  | succ w ih =>
    have he : k * 256 ^ (w + 1) + n = k * 256 * 256 ^ w + n := by ring
    have hd : (k * 256 * 256 ^ w + n) / 256 ^ w = n / 256 ^ w + k * 256 := by
      rw [Nat.add_comm, Nat.add_mul_div_right _ _ (Nat.pow_pos (by decide))]
    have hb : UInt8.ofNat (n / 256 ^ w + k * 256) = UInt8.ofNat (n / 256 ^ w) := by
      apply UInt8.toNat_inj.1
      rw [UInt8.toNat_ofNat', UInt8.toNat_ofNat']
      exact Nat.add_mul_mod_self_right _ _ _
    rw [ofNat_succ', ofNat_succ', he, hd, hb, ih]

theorem toNat_ofNat (w n : Nat) : toNat (ofNat w n) = n % 256 ^ w := by
  induction w with
  | zero => rw [ofNat_zero, toNat_nil, Nat.pow_zero, Nat.mod_one]
  | succ w ih =>
    have hm : n % 256 ^ (w + 1) = n % 256 ^ w + 256 ^ w * (n / 256 ^ w % 256) := Nat.mod_pow_succ
    rw [ofNat_succ', toNat_cons, ih, length_ofNat, UInt8.toNat_ofNat', hm]
    ring

theorem toNat_ofNat_of_lt {w n : Nat} (h : n < 256 ^ w) : toNat (ofNat w n) = n := by
  rw [toNat_ofNat, Nat.mod_eq_of_lt h]

theorem ofNat_toNat (bs : Bytes) : ofNat bs.length (toNat bs) = bs := by
  induction bs with
  | nil => rfl
  | cons b bs ih =>
    have hd : (b.toNat * 256 ^ bs.length + toNat bs) / 256 ^ bs.length = b.toNat := by
      rw [Nat.add_comm, Nat.add_mul_div_right _ _ (Nat.pow_pos (by decide)),
        Nat.div_eq_of_lt (toNat_lt bs), Nat.zero_add]
    rw [List.length_cons, ofNat_succ', toNat_cons, hd, ofNat_add_mul, ih, UInt8.ofNat_toNat]

/-- the word of the number spelt by as many bytes -/
theorem ofNat_toNat_of_length {w : Nat} {bs : Bytes} (h : bs.length = w) :
    ofNat w (toNat bs) = bs := by
  rw [← h, ofNat_toNat]

end Cql.Bytes
