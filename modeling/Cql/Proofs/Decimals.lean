import Mathlib.Algebra.Order.Field.Power
import Mathlib.Tactic.FieldSimp
import Mathlib.Tactic.Linarith
import Mathlib.Tactic.Positivity
import Cql.FloatFormat.Shortest
import Cql.Proofs.Spelling

/-!
# Decimals tell floats apart

The shortest decimal of a float lies in the interval of reals that round to it, and the intervals
of two floats have no point in common: where they touch, one of the two significands is odd and its
interval is open.  So the decimal, and the text that tells the decimal, belong to one float.

* `Band.contains_shortest`     the shortest decimal is in the interval;
* `FloatFormat.band_unique`    a point is in no two intervals;
* `Pointed`                    a text with a point, and the number that it spells;
* `FloatFormat.datum_bits`     a bit pattern from what it stands for;
* `FloatFormat.text_injective` all of it.
-/

namespace Cql

/-- a power with an integer exponent, without its denominator -/
theorem pow_toNat {x : ℚ} (hx : x ≠ 0) (k : Int) : x ^ k.toNat = x ^ k * x ^ (-k).toNat := by
  have hk : (k.toNat : Int) = k + (-k).toNat := by omega
  rw [← zpow_natCast, ← zpow_natCast, ← zpow_add₀ hx, hk]

namespace Band

/-! ## points of the interval -/

/-- the number is in the interval -/
def Contains (b : Band) (x : ℚ) : Prop :=
  if b.closed then b.low * 2 ^ b.exponent ≤ x ∧ x ≤ b.high * 2 ^ b.exponent
  else b.low * 2 ^ b.exponent < x ∧ x < b.high * 2 ^ b.exponent

/-- the common denominator -/
def denominator (b : Band) (k : Int) : ℚ := 2 ^ (-b.exponent).toNat * 10 ^ (-k).toNat

theorem denominator_pos (b : Band) (k : Int) : 0 < b.denominator k := by
  unfold denominator
  positivity

theorem scaled_eq (b : Band) (k : Int) (a : Nat) :
    (b.scaled k a : ℚ) = a * 2 ^ b.exponent * b.denominator k := by
  rw [scaled, Nat.shiftLeft_eq, Nat.pow_eq, denominator]
  push_cast
  rw [pow_toNat two_ne_zero b.exponent]
  ring

theorem grid_eq (b : Band) (k : Int) (d : Nat) :
    (b.grid k d : ℚ) = d * 10 ^ k * b.denominator k := by
  rw [grid, Nat.shiftLeft_eq, Nat.pow_eq, denominator]
  push_cast
  rw [pow_toNat (by norm_num : (10 : ℚ) ≠ 0) k]
  ring

theorem scaled_le_grid {b : Band} {k : Int} {a d : Nat} :
    b.scaled k a ≤ b.grid k d ↔ (a : ℚ) * 2 ^ b.exponent ≤ d * 10 ^ k := by
  rw [← Nat.cast_le (α := ℚ), scaled_eq, grid_eq]
  exact mul_le_mul_iff_left₀ (b.denominator_pos k)

theorem grid_le_scaled {b : Band} {k : Int} {a d : Nat} :
    b.grid k d ≤ b.scaled k a ↔ (d : ℚ) * 10 ^ k ≤ a * 2 ^ b.exponent := by
  rw [← Nat.cast_le (α := ℚ), scaled_eq, grid_eq]
  exact mul_le_mul_iff_left₀ (b.denominator_pos k)

theorem contains_of_holds {b : Band} {k : Int} {d : Nat} (h : b.holds k d = true) :
    b.Contains (d * 10 ^ k) := by
  unfold holds at h
  unfold Contains
  split at h <;> simp only [Bool.and_eq_true, decide_eq_true_eq] at h
  · next hc =>
    rw [if_pos hc]
    exact ⟨scaled_le_grid.1 h.1, grid_le_scaled.1 h.2⟩
  · next hc =>
    rw [if_neg hc, ← not_le, ← not_le, ← grid_le_scaled, ← scaled_le_grid, not_le, not_le]
    exact h

theorem holds_of_hit? {b : Band} {k : Int} {d : Nat} (h : b.hit? k = some d) :
    b.holds k d = true := by
  unfold hit? at h
  dsimp only at h
  split at h
  · split at h <;> cases h <;> assumption
  · cases h
    assumption
  · cases h
    assumption
  · cases h

/-- the float itself is on the finest grid -/
theorem below_finest (b : Band) :
    (b.below b.finest : ℚ) * 10 ^ b.finest = b.mid * 2 ^ b.exponent := by
  have hgrid : b.grid b.finest (b.below b.finest) = b.scaled b.finest b.mid := by
    have hone (d : Nat) : b.grid b.finest d = d * b.grid b.finest 1 := by
      unfold grid
      rw [Nat.shiftLeft_eq, Nat.shiftLeft_eq]
      ring
    rw [hone, below]
    refine Nat.div_mul_cancel ?_
    unfold grid scaled finest
    rw [Nat.shiftLeft_eq, Nat.shiftLeft_eq]
    split
    · next hneg =>
      have hzero : b.exponent.toNat = 0 := by omega
      rw [hzero, Nat.pow_zero, Nat.pow_eq, Nat.pow_eq, Nat.pow_zero]
      have hten : (10 : Nat) ^ (-b.exponent).toNat =
          2 ^ (-b.exponent).toNat * 5 ^ (-b.exponent).toNat := by
        rw [← Nat.mul_pow]
      rw [hten]
      exact ⟨b.mid * 5 ^ (-b.exponent).toNat, by ring⟩
    · next hpos =>
      have hzero : (-b.exponent).toNat = 0 := by omega
      rw [hzero]
      exact ⟨b.mid * 2 ^ b.exponent.toNat, by simp⟩
  have hcast : (b.grid b.finest (b.below b.finest) : ℚ) = b.scaled b.finest b.mid := by rw [hgrid]
  rw [grid_eq, scaled_eq] at hcast
  exact mul_right_cancel₀ (b.denominator_pos _).ne' hcast

theorem contains_mid {b : Band} (hlow : b.low < b.mid) (hhigh : b.mid < b.high) :
    b.Contains (b.mid * 2 ^ b.exponent) := by
  have hpos : (0 : ℚ) < 2 ^ b.exponent := by positivity
  have hl : (b.low : ℚ) * 2 ^ b.exponent < b.mid * 2 ^ b.exponent :=
    mul_lt_mul_of_pos_right (Nat.cast_lt.2 hlow) hpos
  have hh : (b.mid : ℚ) * 2 ^ b.exponent < b.high * 2 ^ b.exponent :=
    mul_lt_mul_of_pos_right (Nat.cast_lt.2 hhigh) hpos
  unfold Contains
  split
  · exact ⟨hl.le, hh.le⟩
  · exact ⟨hl, hh⟩

theorem contains_search {b : Band} (hlow : b.low < b.mid) (hhigh : b.mid < b.high) (n : Nat) :
    b.Contains ((b.search n).digits * 10 ^ (b.search n).exponent) := by
  induction n with
  | zero =>
    rw [search, below_finest]
    exact contains_mid hlow hhigh
  | succ n ih =>
    rw [search]
    split
    · next hd => exact contains_of_holds (holds_of_hit? hd)
    · exact ih

/-- the shortest decimal reads back as the float -/
theorem contains_shortest {b : Band} (hlow : b.low < b.mid) (hhigh : b.mid < b.high) :
    b.Contains (b.shortest.digits * 10 ^ b.shortest.exponent) := contains_search hlow hhigh _

end Band

/-! ## texts with a point -/

open Inet (Spells digit? wordOf)

/-- digits on both sides of a point, and the number that they spell -/
def Pointed (cs : List Char) (x : ℚ) : Prop :=
  ∃ whole fraction ms ns, cs = whole ++ '.' :: fraction ∧ whole ≠ [] ∧
    Spells 10 ms whole ∧ Spells 10 ns fraction ∧ (wordOf 10 (ms ++ ns) : ℚ) = x * 10 ^ ns.length

theorem spells_unique {base : Nat} {ms ns : List Nat} {cs : List Char} (hm : Spells base ms cs)
    (hn : Spells base ns cs) : ms = ns := by
  induction hm generalizing ns with
  | nil =>
    cases hn
    rfl
  | cons hd _ ih =>
    cases hn with
    | cons hd' hns =>
      obtain rfl := Option.some.inj (hd.symm.trans hd')
      rw [ih hns]

theorem not_mem_of_spells {base : Nat} {c : Char} (hc : digit? base c = none) {ms : List Nat}
    {cs : List Char} (h : Spells base ms cs) : c ∉ cs := by
  intro hmem
  obtain ⟨d, hd⟩ := Inet.digit_of_spells h hmem
  rw [hc] at hd
  cases hd

/-- a text spells one number -/
theorem Pointed.unique {cs : List Char} {x y : ℚ} (hx : Pointed cs x) (hy : Pointed cs y) :
    x = y := by
  obtain ⟨whole, fraction, ms, ns, rfl, -, hms, hns, hword⟩ := hx
  obtain ⟨whole', fraction', ms', ns', heq, -, hms', hns', hword'⟩ := hy
  have hdot : digit? 10 '.' = none := rfl
  obtain ⟨rfl, -, rfl⟩ := (List.append_cons_inj_of_notMem (not_mem_of_spells hdot hms)
    (not_mem_of_spells hdot hns)).1 heq
  obtain rfl := spells_unique hms hms'
  obtain rfl := spells_unique hns hns'
  have hpos : (0 : ℚ) < 10 ^ ns.length := by positivity
  exact mul_right_cancel₀ hpos.ne' (hword.symm.trans hword')

/-- the first character is a digit -/
theorem Pointed.head {cs : List Char} {x : ℚ} (h : Pointed cs x) :
    ∃ c rest d, cs = c :: rest ∧ digit? 10 c = some d := by
  obtain ⟨whole, fraction, ms, ns, rfl, hne, hms, -⟩ := h
  cases hms with
  | nil => exact absurd rfl hne
  | cons hd _ => exact ⟨_, _, _, rfl, hd⟩

theorem Pointed.mem {cs : List Char} {x : ℚ} (h : Pointed cs x) {c : Char} (hc : c ∈ cs) :
    c = '.' ∨ ∃ d, digit? 10 c = some d := by
  obtain ⟨whole, fraction, ms, ns, rfl, -, hms, hns, -⟩ := h
  rcases List.mem_append.1 hc with hc | hc
  · exact .inr (Inet.digit_of_spells hms hc)
  · rcases List.mem_cons.1 hc with rfl | hc
    · exact .inl rfl
    · exact .inr (Inet.digit_of_spells hns hc)

theorem pointed_zero : Pointed ['0', '.', '0'] 0 :=
  ⟨['0'], ['0'], [0], [0], rfl, nofun, .cons rfl .nil, .cons rfl .nil, by simp [wordOf]⟩

theorem wordOf_append (base : Nat) (ms ns : List Nat) :
    wordOf base (ms ++ ns) = wordOf base ms * base ^ ns.length + wordOf base ns := by
  rw [wordOf, List.foldl_append, Inet.wordOf_from]
  rfl

theorem wordOf_zeros (base n : Nat) : wordOf base (List.replicate n 0) = 0 := by
  induction n with
  | zero => rfl
  | succ n ih => rw [List.replicate_succ, Inet.wordOf_cons, ih, Nat.zero_mul]

theorem spells_zeros (n : Nat) : Spells 10 (List.replicate n 0) (List.replicate n '0') := by
  induction n with
  | zero => exact .nil
  | succ n ih => exact .cons rfl ih

/-- positional notation spells the decimal -/
theorem pointed_positional (d : Decimal) : Pointed d.positional (d.digits * 10 ^ d.exponent) := by
  obtain ⟨ds, hds, hword, -⟩ : ∃ ds, Spells 10 ds (Text.natural d.digits) ∧ _ :=
    Inet.exists_digits (by decide) (by decide) d.digits
  have hlength : ds.length = (Text.natural d.digits).length := hds.length_eq
  have hne : 0 < (Text.natural d.digits).length := Nat.length_toDigits_pos
  obtain ⟨places, hplaces⟩ : ∃ n, (-d.exponent).toNat = n := ⟨_, rfl⟩
  unfold Decimal.positional
  simp only [hplaces]
  split
  · next hzero =>
    have hpow : (10 : ℚ) ^ d.exponent.toNat = 10 ^ d.exponent := by
      rw [pow_toNat (by norm_num), hplaces, hzero, pow_zero, mul_one]
    refine ⟨_, ['0'], ds ++ List.replicate d.exponent.toNat 0, [0], rfl, ?_,
      List.rel_append hds (spells_zeros _), .cons rfl .nil, ?_⟩
    · exact List.append_ne_nil_of_left_ne_nil (List.ne_nil_of_length_pos hne) _
    · rw [wordOf_append, wordOf_append, hword, wordOf_zeros, List.length_replicate, ← hpow]
      simp [wordOf]
  · next hplaces' =>
    -- as many digits stand behind the point as there are places
    have hshift : (d.digits : ℚ) = d.digits * 10 ^ d.exponent * 10 ^ places := by
      have hexponent : d.exponent.toNat = 0 := by omega
      have hpow := pow_toNat (by norm_num : (10 : ℚ) ≠ 0) d.exponent
      rw [hexponent, hplaces, pow_zero] at hpow
      rw [mul_assoc, ← hpow, mul_one]
    split
    · next hlt =>
      refine ⟨_, _, ds.take (ds.length - places), ds.drop (ds.length - places), rfl, ?_, ?_, ?_, ?_⟩
      · refine List.ne_nil_of_length_pos ?_
        rw [List.length_take]
        omega
      · rw [hlength]
        exact List.forall₂_take _ hds
      · rw [hlength]
        exact List.forall₂_drop _ hds
      · have hcount : ds.length - (ds.length - places) = places := by omega
        rw [List.take_append_drop, hword, List.length_drop, hcount]
        exact hshift
    · next hge =>
      refine ⟨['0'], _, [0], List.replicate (places - (Text.natural d.digits).length) 0 ++ ds, rfl,
        List.cons_ne_nil _ _, .cons rfl .nil, List.rel_append (spells_zeros _) hds, ?_⟩
      have hcount : (List.replicate (places - (Text.natural d.digits).length) 0 ++ ds).length =
          places := by
        rw [List.length_append, List.length_replicate]
        omega
      have hzeros : wordOf 10 [0] = 0 := rfl
      rw [wordOf_append, hzeros, Nat.zero_mul, Nat.zero_add, hcount, wordOf_append, wordOf_zeros,
        Nat.zero_mul, Nat.zero_add, hword]
      exact hshift

namespace FloatFormat

section
variable {f : FloatFormat}

/-! ## intervals of a format -/

/-- a significand and an exponent as the format has them -/
structure Normal (f : FloatFormat) (m : Nat) (q : Int) : Prop where
  least : f.minExponent ≤ q
  short : m < 2 * f.hiddenBit
  hidden : f.minExponent < q → f.hiddenBit ≤ m

theorem hiddenBit_pos (f : FloatFormat) : 0 < f.hiddenBit := by
  rw [hiddenBit, Nat.one_shiftLeft]
  positivity

theorem low_ge (m : Nat) (q : Int) : 4 * m - 2 ≤ (Band.ofFinite f m q).low := by
  show _ ≤ if m = f.hiddenBit ∧ f.minExponent < q then 4 * m - 1 else 4 * m - 2
  split <;> omega

theorem low_of_hidden {m : Nat} {q : Int} (h : f.minExponent < q) (hm : f.hiddenBit ≤ m) :
    4 * f.hiddenBit - 1 ≤ (Band.ofFinite f m q).low := by
  show _ ≤ if m = f.hiddenBit ∧ f.minExponent < q then 4 * m - 1 else 4 * m - 2
  split <;> omega

/-- intervals follow each other, and between two even significands there is something -/
theorem high_le_low {m m' : Nat} {q q' : Int} (h : f.Normal m q) (h' : f.Normal m' q')
    (hlt : q < q' ∨ q = q' ∧ m < m') :
    ((4 * m + 2 : Nat) : ℚ) * 2 ^ (q - 2) ≤ (Band.ofFinite f m' q').low * 2 ^ (q' - 2) ∧
    (m % 2 = 0 → m' % 2 = 0 →
      ((4 * m + 2 : Nat) : ℚ) * 2 ^ (q - 2) < (Band.ofFinite f m' q').low * 2 ^ (q' - 2)) := by
  have hunit : (0 : ℚ) < 2 ^ (q - 2) := by positivity
  -- both ends in the unit of the first, the second end no higher than it is
  obtain ⟨n, hn, hle, heven⟩ : ∃ n : Nat,
      (n : ℚ) * 2 ^ (q - 2) ≤ (Band.ofFinite f m' q').low * 2 ^ (q' - 2) ∧
      4 * m + 2 ≤ n ∧ (m % 2 = 0 → m' % 2 = 0 → 4 * m + 2 < n) := by
    obtain hq | ⟨rfl, hm⟩ := hlt
    · have hmin : f.minExponent < q' := h.least.trans_lt hq
      have hlow := low_of_hidden hmin (h'.hidden hmin)
      have hpos := f.hiddenBit_pos
      have hshort := h.short
      have hdouble : (2 : ℚ) * 2 ^ (q - 2) ≤ 2 ^ (q' - 2) := by
        rw [← zpow_one_add₀ two_ne_zero]
        exact zpow_le_zpow_right₀ one_le_two (by omega)
      refine ⟨2 * (4 * f.hiddenBit - 1), ?_, by omega, fun hm _ => by omega⟩
      calc ((2 * (4 * f.hiddenBit - 1) : Nat) : ℚ) * 2 ^ (q - 2)
          = (4 * f.hiddenBit - 1 : Nat) * (2 * 2 ^ (q - 2)) := by push_cast; ring
        _ ≤ (Band.ofFinite f m' q').low * 2 ^ (q' - 2) :=
            mul_le_mul (Nat.cast_le.2 hlow) hdouble (by positivity) (Nat.cast_nonneg _)
    · have hlow := low_ge (f := f) m' q
      refine ⟨4 * m' - 2, ?_, by omega, fun _ _ => by omega⟩
      exact mul_le_mul_of_nonneg_right (Nat.cast_le.2 hlow) hunit.le
  refine ⟨(mul_le_mul_of_nonneg_right (Nat.cast_le.2 hle) hunit.le).trans hn, fun hm hm' => ?_⟩
  exact (mul_lt_mul_of_pos_right (Nat.cast_lt.2 (heven hm hm')) hunit).trans_le hn

theorem contains_iff {m : Nat} {q : Int} {x : ℚ} : (Band.ofFinite f m q).Contains x ↔
    if m % 2 = 0 then
      (Band.ofFinite f m q).low * 2 ^ (q - 2) ≤ x ∧ x ≤ ((4 * m + 2 : Nat) : ℚ) * 2 ^ (q - 2)
    else
      (Band.ofFinite f m q).low * 2 ^ (q - 2) < x ∧ x < ((4 * m + 2 : Nat) : ℚ) * 2 ^ (q - 2) := by
  unfold Band.Contains
  have hclosed : (Band.ofFinite f m q).closed = (m % 2 == 0) := rfl
  rw [hclosed]
  simp only [beq_iff_eq]
  rfl

theorem not_contains_both {m m' : Nat} {q q' : Int} (h : f.Normal m q) (h' : f.Normal m' q')
    (hlt : q < q' ∨ q = q' ∧ m < m') {x : ℚ} (hx : (Band.ofFinite f m q).Contains x)
    (hx' : (Band.ofFinite f m' q').Contains x) : False := by
  obtain ⟨hle, heven⟩ := high_le_low h h' hlt
  rw [contains_iff] at hx hx'
  split at hx <;> split at hx'
  · next hm hm' => linarith [heven hm hm', hx.2, hx'.1]
  · linarith [hx.2, hx'.1]
  · linarith [hx.2, hx'.1]
  · linarith [hx.2, hx'.1]

/-- a number is in the interval of one float -/
theorem band_unique {m m' : Nat} {q q' : Int} (h : f.Normal m q) (h' : f.Normal m' q') {x : ℚ}
    (hx : (Band.ofFinite f m q).Contains x) (hx' : (Band.ofFinite f m' q').Contains x) :
    m = m' ∧ q = q' := by
  by_contra hne
  obtain hlt | hlt : (q < q' ∨ q = q' ∧ m < m') ∨ (q' < q ∨ q' = q ∧ m' < m) := by omega
  · exact not_contains_both h h' hlt hx hx'
  · exact not_contains_both h' h hlt hx' hx

theorem contains_pos {m : Nat} {q : Int} (hm : m ≠ 0) {x : ℚ}
    (hx : (Band.ofFinite f m q).Contains x) : 0 < x := by
  have hlow : 0 < (Band.ofFinite f m q).low := by
    have := low_ge (f := f) m q
    omega
  have hend : (0 : ℚ) < (Band.ofFinite f m q).low * 2 ^ (q - 2) :=
    mul_pos (Nat.cast_pos.2 hlow) (by positivity)
  rw [contains_iff] at hx
  split at hx
  · exact hend.trans_le hx.1
  · exact hend.trans hx.1

/-! ## bit patterns -/

theorem testBit_of_lt {n k : Nat} (h : n < 2 ^ (k + 1)) :
    n = (if n.testBit k then 2 ^ k else 0) + n % 2 ^ k := by
  rw [Nat.testBit_eq_decide_div_mod_eq]
  have hdiv : n / 2 ^ k < 2 := by
    rw [Nat.div_lt_iff_lt_mul (by positivity), ← Nat.pow_succ']
    exact h
  have hsum := Nat.div_add_mod n (2 ^ k)
  obtain hzero | hone := Nat.le_one_iff_eq_zero_or_eq_one.1 (Nat.lt_succ_iff.1 hdiv)
  · rw [hzero] at hsum ⊢
    simpa using hsum.symm
  · rw [hone] at hsum ⊢
    simpa using hsum.symm

/-- a pattern is put together from its sign, its exponent and its fraction -/
theorem bits_eq {bits : Nat} (h : bits < 2 ^ (f.fractionBits + f.exponentBits + 1)) :
    bits = f.signBits (bits.testBit (f.fractionBits + f.exponentBits)) +
      (((bits >>> f.fractionBits) % (1 <<< f.exponentBits)) <<< f.fractionBits +
        bits % f.hiddenBit) := by
  have hsplit := testBit_of_lt h
  have hmod : bits % 2 ^ (f.fractionBits + f.exponentBits) =
      bits % 2 ^ f.fractionBits +
        2 ^ f.fractionBits * (bits / 2 ^ f.fractionBits % 2 ^ f.exponentBits) := by
    rw [Nat.pow_add, Nat.mod_mul]
  rw [hmod] at hsplit
  simp only [signBits, hiddenBit, Nat.shiftRight_eq_div_pow, Nat.shiftLeft_eq, Nat.one_mul]
  rw [Nat.mul_comm _ (2 ^ f.fractionBits), Nat.add_comm _ (bits % 2 ^ f.fractionBits)]
  exact hsplit

/-- the pattern of a datum that is a number or infinite -/
theorem datum_bits {bits : Nat} (h : bits < 2 ^ (f.fractionBits + f.exponentBits + 1)) :
    match f.datum bits with
    | .nan _ => True
    | .infinite negative => bits = f.signBits negative + f.infinityBits
    | .finite negative m q => f.Normal m q ∧
        bits = f.signBits negative + ((q - f.minExponent).toNat <<< f.fractionBits + m) := by
  have hbits := bits_eq h
  obtain ⟨fraction, hfraction⟩ : ∃ n, bits % f.hiddenBit = n := ⟨_, rfl⟩
  obtain ⟨stored, hstored⟩ : ∃ n, (bits >>> f.fractionBits) % (1 <<< f.exponentBits) = n :=
    ⟨_, rfl⟩
  have hlt : fraction < f.hiddenBit := hfraction ▸ Nat.mod_lt _ f.hiddenBit_pos
  rw [hfraction, hstored] at hbits
  unfold datum
  simp only [hfraction, hstored]
  by_cases hlast : stored + 1 = 1 <<< f.exponentBits
  · rw [if_pos hlast]
    by_cases hzero : fraction = 0
    · rw [if_pos hzero]
      show bits = _ + _
      rw [infinityBits, ← hlast, Nat.add_sub_cancel]
      rw [hzero] at hbits
      exact hbits
    · rw [if_neg hzero]
      trivial
  · rw [if_neg hlast]
    by_cases hzero : stored = 0
    · rw [if_pos hzero]
      refine ⟨⟨le_rfl, by omega, fun h => absurd h (lt_irrefl _)⟩, ?_⟩
      rw [hzero] at hbits
      rw [Int.sub_self]
      exact hbits
    · rw [if_neg hzero]
      refine ⟨⟨by omega, by omega, fun _ => by omega⟩, ?_⟩
      have hexponent : (f.minExponent + (stored - 1 : Nat) - f.minExponent).toNat = stored - 1 := by
        omega
      rw [hexponent]
      have hcarry : stored <<< f.fractionBits =
          (stored - 1) <<< f.fractionBits + f.hiddenBit := by
        rw [hiddenBit, Nat.shiftLeft_eq, Nat.shiftLeft_eq, Nat.one_shiftLeft, ← Nat.succ_mul]
        congr 1
        omega
      rw [hcarry] at hbits
      omega

theorem datum_injective {bits bits' : Nat}
    (h : bits < 2 ^ (f.fractionBits + f.exponentBits + 1))
    (h' : bits' < 2 ^ (f.fractionBits + f.exponentBits + 1))
    (hnan : ∀ negative, f.datum bits ≠ .nan negative) (heq : f.datum bits = f.datum bits') :
    bits = bits' := by
  have hbits := datum_bits h
  have hbits' := datum_bits h'
  rw [← heq] at hbits'
  cases hd : f.datum bits with
  | nan negative => exact absurd hd (hnan negative)
  | infinite negative =>
    rw [hd] at hbits hbits'
    exact hbits.trans hbits'.symm
  | finite negative m q =>
    rw [hd] at hbits hbits'
    exact hbits.2.trans hbits'.2.symm

/-! ## the text -/

open Inet (digit?)

/-- the text of a float without its sign, and its number, which is zero or in the interval -/
theorem pointed_magnitude (f : FloatFormat) (m : Nat) (q : Int) : ∃ x,
    Pointed (if m = 0 then ['0', '.', '0'] else (Band.ofFinite f m q).shortest.positional) x ∧
    (m = 0 → x = 0) ∧ (m ≠ 0 → (Band.ofFinite f m q).Contains x) := by
  by_cases hm : m = 0
  · rw [if_pos hm]
    exact ⟨0, pointed_zero, fun _ => rfl, fun h => absurd hm h⟩
  · rw [if_neg hm]
    refine ⟨_, pointed_positional _, fun h => absurd h hm, fun _ => Band.contains_shortest ?_ ?_⟩
    · show (if m = f.hiddenBit ∧ f.minExponent < q then 4 * m - 1 else 4 * m - 2) < 4 * m
      split <;> omega
    · show 4 * m < 4 * m + 2
      omega

theorem magnitude_injective {m m' : Nat} {q q' : Int} (h : f.Normal m q) (h' : f.Normal m' q')
    (heq : (if m = 0 then ['0', '.', '0'] else (Band.ofFinite f m q).shortest.positional) =
      if m' = 0 then ['0', '.', '0'] else (Band.ofFinite f m' q').shortest.positional) :
    m = m' ∧ q = q' := by
  obtain ⟨x, hx, hzero, hband⟩ := pointed_magnitude f m q
  obtain ⟨x', hx', hzero', hband'⟩ := pointed_magnitude f m' q'
  rw [← heq] at hx'
  obtain rfl := hx.unique hx'
  -- nothing but zero has the exponent of zero and no significand
  have hleast {q : Int} (h : f.Normal 0 q) : q = f.minExponent :=
    le_antisymm (not_lt.1 fun hlt => absurd (h.hidden hlt) f.hiddenBit_pos.not_ge) h.least
  by_cases hm : m = 0 <;> by_cases hm' : m' = 0
  · subst hm hm'
    exact ⟨rfl, (hleast h).trans (hleast h').symm⟩
  · exact absurd (hzero hm) (contains_pos hm' (hband' hm')).ne'
  · exact absurd (hzero' hm') (contains_pos hm (hband hm)).ne'
  · exact band_unique h h' (hband hm) (hband' hm')

theorem sign_injective {negative negative' : Bool} {cs cs' : List Char} (h : cs.head? ≠ some '-')
    (h' : cs'.head? ≠ some '-') (heq : text.sign negative cs = text.sign negative' cs') :
    negative = negative' ∧ cs = cs' := by
  cases negative <;> cases negative'
  · exact ⟨rfl, heq⟩
  · exact absurd (congrArg List.head? heq) h
  · exact absurd (congrArg List.head? heq).symm h'
  · exact ⟨rfl, (List.cons.inj heq).2⟩

variable {words : FloatWords}

/-- the word for infinity begins neither as a number nor with a sign -/
def Worded (words : FloatWords) : Prop :=
  ∃ c rest, words.infinity = c :: rest ∧ c ≠ '-' ∧ digit? 10 c = none

theorem head_of_pointed {cs : List Char} {x : ℚ} (h : Pointed cs x) : cs.head? ≠ some '-' := by
  obtain ⟨c, rest, d, rfl, hd⟩ := h.head
  rintro ⟨⟩
  cases hd

theorem head_of_worded (h : Worded words) : words.infinity.head? ≠ some '-' := by
  obtain ⟨c, rest, hinfinity, hsign, -⟩ := h
  rw [hinfinity]
  exact fun he => hsign (Option.some.inj he)

theorem infinity_ne_pointed (h : Worded words) {cs : List Char} {x : ℚ} (hx : Pointed cs x) :
    words.infinity ≠ cs := by
  obtain ⟨c, rest, hinfinity, -, hnone⟩ := h
  obtain ⟨c', rest', d, rfl, hd⟩ := hx.head
  rw [hinfinity]
  rintro ⟨⟩
  cases hnone.symm.trans hd

/-- the texts of two floats that are numbers or infinite are different -/
theorem text_injective (hwords : Worded words) {bits bits' : Nat}
    (h : bits < 2 ^ (f.fractionBits + f.exponentBits + 1))
    (h' : bits' < 2 ^ (f.fractionBits + f.exponentBits + 1))
    (hnan : ∀ negative, f.datum bits ≠ .nan negative)
    (hnan' : ∀ negative, f.datum bits' ≠ .nan negative)
    (heq : f.text words bits = f.text words bits') : bits = bits' := by
  refine datum_injective h h' hnan ?_
  have hdatum := datum_bits h
  have hdatum' := datum_bits h'
  unfold text at heq
  cases hd : f.datum bits with
  | nan negative => exact absurd hd (hnan negative)
  | infinite negative =>
    cases hd' : f.datum bits' with
    | nan negative => exact absurd hd' (hnan' negative)
    | infinite negative' =>
      rw [hd, hd'] at heq
      obtain ⟨rfl, -⟩ := sign_injective (head_of_worded hwords) (head_of_worded hwords) heq
      rfl
    | finite negative' m' q' =>
      rw [hd, hd'] at heq
      obtain ⟨x, hx, -⟩ := pointed_magnitude f m' q'
      obtain ⟨-, heq⟩ := sign_injective (head_of_worded hwords) (head_of_pointed hx) heq
      exact absurd heq (infinity_ne_pointed hwords hx)
  | finite negative m q =>
    obtain ⟨x, hx, -⟩ := pointed_magnitude f m q
    cases hd' : f.datum bits' with
    | nan negative => exact absurd hd' (hnan' negative)
    | infinite negative' =>
      rw [hd, hd'] at heq
      obtain ⟨-, heq⟩ := sign_injective (head_of_pointed hx) (head_of_worded hwords) heq
      exact absurd heq.symm (infinity_ne_pointed hwords hx)
    | finite negative' m' q' =>
      rw [hd] at hdatum
      rw [hd'] at hdatum'
      rw [hd, hd'] at heq
      obtain ⟨x', hx', -⟩ := pointed_magnitude f m' q'
      obtain ⟨rfl, hmagnitude⟩ :=
        sign_injective (head_of_pointed hx) (head_of_pointed hx') heq
      obtain ⟨rfl, rfl⟩ := magnitude_injective hdatum.1 hdatum'.1 hmagnitude
      rfl

/-- of what a text is made -/
theorem mem_text {bits : Nat} {c : Char} (hc : c ∈ f.text words bits) :
    (∃ negative, f.datum bits = .nan negative) ∧ c ∈ words.nan ∨
      c ∈ words.infinity ∨ c = '-' ∨ c = '.' ∨ ∃ d, digit? 10 c = some d := by
  have hsign {negative : Bool} {cs : List Char} (h : c ∈ text.sign negative cs) :
      c = '-' ∨ c ∈ cs := by
    cases negative with
    | false => exact .inr h
    | true => exact List.mem_cons.1 h
  unfold text at hc
  cases hd : f.datum bits with
  | nan negative =>
    rw [hd] at hc
    exact .inl ⟨⟨negative, rfl⟩, hc⟩
  | infinite negative =>
    rw [hd] at hc
    exact .inr ((hsign hc).elim (fun h => .inr (.inl h)) .inl)
  | finite negative m q =>
    rw [hd] at hc
    obtain ⟨x, hx, -⟩ := pointed_magnitude f m q
    exact .inr (.inr ((hsign hc).imp_right hx.mem))

end

end FloatFormat

end Cql
