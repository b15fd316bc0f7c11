import Cql.Proofs.Calendar
import Cql.Proofs.Decimals
import Cql.Value.Legible

/-!
# What scalars are written with

Numbers, identifiers, addresses and dates are written with digits and a few other characters, none
of which ends a literal, is a quote or begins a `NULL`; and what is written tells what it is.

* `Text.InNumber`              the characters, and where they occur (`inNumber_integer` …);
* `Text.integer_injective`     numbers; floats have a module of their own;
* `Date.text_injective`        dates, whose last six characters are month and day.
-/

namespace Cql

open Inet (Spells digit? wordOf)

namespace Text

/-! ## characters -/

/-- a digit of a number of any kind, a sign, a hyphen or a point -/
def InNumber (c : Char) : Prop := c = '-' ∨ c = '.' ∨ ∃ d, Bytes.hexValue? c = some d

theorem hexValue?_of_digit? {base d : Nat} {c : Char} (h : digit? base c = some d) :
    Bytes.hexValue? c = some d := (Option.filter_eq_some_iff.1 h).1

theorem inNumber_digit {base d : Nat} {c : Char} (h : digit? base c = some d) : InNumber c :=
  .inr (.inr ⟨d, hexValue?_of_digit? h⟩)

theorem InNumber.ne {c : Char} (h : InNumber c) {a : Char} (hminus : a ≠ '-') (hpoint : a ≠ '.')
    (hdigit : Bytes.hexValue? a = none) : c ≠ a := by
  rintro rfl
  rcases h with h | h | ⟨d, hd⟩
  · exact hminus h
  · exact hpoint h
  · cases hdigit.symm.trans hd

theorem InNumber.ne_quote {c : Char} (h : InNumber c) : c ≠ Value.quote :=
  h.ne (by decide) (by decide) rfl

theorem InNumber.plain {c : Char} (h : InNumber c) : isDelimiter c = false ∧ c ≠ 'N' := by
  refine ⟨?_, h.ne (by decide) (by decide) rfl⟩
  rw [Bool.eq_false_iff]
  intro hd
  rw [isDelimiter, decide_eq_true_eq] at hd
  rcases hd with hd | hd | hd | hd | hd
  all_goals exact h.ne (by decide) (by decide) rfl hd

theorem inNumber_natural {n : Nat} {c : Char} (hc : c ∈ natural n) : InNumber c := by
  obtain ⟨ds, hds, -⟩ : ∃ ds, Spells 10 ds (natural n) ∧ _ :=
    Inet.exists_digits (by decide) (by decide) n
  obtain ⟨d, hd⟩ := Inet.digit_of_spells hds hc
  exact inNumber_digit hd

theorem inNumber_integer {n : Int} {c : Char} (hc : c ∈ integer n) : InNumber c := by
  cases n with
  | ofNat n => exact inNumber_natural hc
  | negSucc n =>
    rcases List.mem_cons.1 hc with rfl | hc
    · exact .inl rfl
    · exact inNumber_natural hc

theorem inNumber_zeroFill {w n : Nat} {c : Char} (hc : c ∈ zeroFill w (natural n)) :
    InNumber c := by
  rcases List.mem_append.1 hc with hc | hc
  · rw [List.eq_of_mem_replicate hc]
    exact .inr (.inr ⟨0, rfl⟩)
  · exact inNumber_natural hc

theorem inNumber_padded {w : Nat} {n : Int} {c : Char} (hc : c ∈ padded w n) : InNumber c := by
  cases n with
  | ofNat n => exact inNumber_zeroFill hc
  | negSucc n =>
    rcases List.mem_cons.1 hc with rfl | hc
    · exact .inl rfl
    · exact inNumber_zeroFill hc

theorem inNumber_hex {bs : Bytes} {c : Char} (hc : c ∈ Bytes.hex bs) : InNumber c := by
  obtain ⟨b, -, hb⟩ := List.mem_flatMap.1 hc
  have hlt := UInt8.toNat_lt b
  rcases List.mem_cons.1 hb with rfl | hb
  · exact .inr (.inr ⟨_, Bytes.hexValue?_hexDigit _ (by omega)⟩)
  · rw [List.mem_singleton.1 hb]
    exact .inr (.inr ⟨_, Bytes.hexValue?_hexDigit _ (by omega)⟩)

theorem inNumber_uuid {u : Uuid} {c : Char} (hc : c ∈ u.text) : InNumber c := by
  have htext : c = '-' ∨ c ∈ Bytes.hex u.bytes := by
    unfold Uuid.text at hc
    simp only [List.mem_append, List.mem_cons] at hc
    rcases hc with (((hc | hc | hc) | hc | hc) | hc | hc) | hc | hc
    · exact .inr (List.mem_of_mem_take hc)
    · exact .inl hc
    · exact .inr (List.mem_of_mem_drop (List.mem_of_mem_take hc))
    · exact .inl hc
    · exact .inr (List.mem_of_mem_drop (List.mem_of_mem_take hc))
    · exact .inl hc
    · exact .inr (List.mem_of_mem_drop (List.mem_of_mem_take hc))
    · exact .inl hc
    · exact .inr (List.mem_of_mem_drop hc)
  exact htext.elim .inl inNumber_hex

theorem inNumber_date {d : Date} {c : Char} (hc : c ∈ d.text) : InNumber c := by
  unfold Date.text at hc
  simp only [List.mem_append, List.mem_cons] at hc
  rcases hc with (hc | hc | hc) | hc | hc
  · exact inNumber_padded hc
  · exact .inl hc
  · exact inNumber_padded hc
  · exact .inl hc
  · exact inNumber_padded hc

/-- of neighbours only the characters of the texts and of what separates them are seen -/
theorem mem_joined {sep : List Char} {xs : List (List Char)} {c : Char} (hc : c ∈ joined sep xs) :
    c ∈ sep ∨ ∃ x ∈ xs, c ∈ x := by
  induction xs with
  | nil => cases hc
  | cons x xs ih =>
    cases xs with
    | nil => exact .inr ⟨x, List.mem_cons_self, hc⟩
    | cons y xs =>
      rw [joined_cons_cons, List.mem_append, List.mem_append] at hc
      rcases hc with (hc | hc) | hc
      · exact .inr ⟨x, List.mem_cons_self, hc⟩
      · exact .inl hc
      · exact (ih hc).imp_right fun ⟨z, hz, hcz⟩ => ⟨z, List.mem_cons_of_mem _ hz, hcz⟩

theorem inNumber_shortText {a : BitVec 32} {c : Char} (hc : c ∈ Inet.shortText a) : InNumber c := by
  rcases mem_joined hc with hc | ⟨x, hx, hc⟩
  · exact .inr (.inl (List.mem_singleton.1 hc))
  · obtain ⟨n, -, rfl⟩ := List.mem_map.1 hx
    exact inNumber_natural hc

theorem inNumber_groupsText {gs : List Nat} {c : Char} (hc : c ∈ Inet.groupsText gs) :
    c = ':' ∨ InNumber c := by
  rcases mem_joined hc with hc | ⟨x, hx, hc⟩
  · exact .inl (List.mem_singleton.1 hc)
  · obtain ⟨g, -, rfl⟩ := List.mem_map.1 hx
    obtain ⟨ds, hds, -⟩ : ∃ ds, Spells 16 ds (Inet.groupText g) ∧ _ :=
      Inet.exists_digits (by decide) (by decide) g
    obtain ⟨d, hd⟩ := Inet.digit_of_spells hds hc
    exact .inr (inNumber_digit hd)

theorem inNumber_inet {a : Inet} {c : Char} (hc : c ∈ a.text) : c = ':' ∨ InNumber c := by
  cases a with
  | v4 a => exact .inr (inNumber_shortText hc)
  | v6 a =>
    have hc : c ∈ Inet.longText a := hc
    unfold Inet.longText at hc
    dsimp only at hc
    split at hc
    · rcases List.mem_append.1 hc with hc | hc
      · simp only [List.mem_cons, List.not_mem_nil, or_false] at hc
        rcases hc with rfl | rfl | rfl | rfl | rfl | rfl | rfl
        all_goals first | exact .inl rfl | exact .inr (.inr (.inr ⟨15, rfl⟩))
      · exact .inr (inNumber_shortText hc)
    · split at hc
      · rw [List.mem_append, List.mem_append] at hc
        rcases hc with (hc | hc) | hc
        · exact inNumber_groupsText hc
        · simp only [List.mem_cons, List.not_mem_nil, or_false, or_self] at hc
          exact .inl hc
        · exact inNumber_groupsText hc
      · exact inNumber_groupsText hc

end Text

theorem Date.quote_not_mem_text (d : Date) : Value.quote ∉ d.text :=
  fun h => (Text.inNumber_date h).ne_quote rfl

theorem Inet.quote_not_mem_text (a : Inet) : Value.quote ∉ a.text := by
  intro h
  rcases Text.inNumber_inet h with h | h
  · cases h
  · exact h.ne_quote rfl

namespace Text

/-! ## what is written tells what it is -/

/-- texts without a stop end where a stop stands -/
theorem append_unique {stop : Char → Bool} {cs ds r s : List Char}
    (hcs : ∀ c ∈ cs, stop c = false) (hds : ∀ c ∈ ds, stop c = false)
    (hr : ∀ c, r.head? = some c → stop c = true) (hs : ∀ c, s.head? = some c → stop c = true)
    (h : cs ++ r = ds ++ s) : cs = ds ∧ r = s := by
  induction cs generalizing ds with
  | nil =>
    cases ds with
    | nil => exact ⟨rfl, h⟩
    | cons d ds =>
      obtain rfl : r = d :: (ds ++ s) := h
      cases (hds d List.mem_cons_self).symm.trans (hr d rfl)
  | cons c cs ih =>
    cases ds with
    | nil =>
      obtain rfl : c :: (cs ++ r) = s := h
      cases (hcs c List.mem_cons_self).symm.trans (hs c rfl)
    | cons d ds =>
      obtain ⟨rfl, hrest⟩ := List.cons.inj h
      obtain ⟨-, hcs⟩ := List.forall_mem_cons.1 hcs
      obtain ⟨-, hds⟩ := List.forall_mem_cons.1 hds
      obtain ⟨rfl, hrs⟩ := ih hcs hds hrest
      exact ⟨rfl, hrs⟩

/-- zeros before the digits tell nothing, so the number is told by any count of them -/
theorem zeroFill_injective {w n m : Nat} (h : zeroFill w (natural n) = zeroFill w (natural m)) :
    n = m := by
  have hword (n : Nat) : ∃ ds, Spells 10 ds (zeroFill w (natural n)) ∧ wordOf 10 ds = n := by
    obtain ⟨ds, hds, hn, -⟩ : ∃ ds, Spells 10 ds (natural n) ∧ _ :=
      Inet.exists_digits (by decide) (by decide) n
    refine ⟨_, List.rel_append (spells_zeros _) hds, ?_⟩
    rw [wordOf_append, wordOf_zeros, Nat.zero_mul, Nat.zero_add, hn]
  obtain ⟨ds, hds, hn⟩ := hword n
  obtain ⟨es, hes, hm⟩ := hword m
  rw [← h] at hes
  rw [← hn, ← hm, spells_unique hds hes]

theorem minus_not_mem_zeroFill (w n : Nat) : '-' ∉ zeroFill w (natural n) := by
  intro h
  obtain ⟨ds, hds, -⟩ : ∃ ds, Spells 10 ds (natural n) ∧ _ :=
    Inet.exists_digits (by decide) (by decide) n
  exact not_mem_of_spells rfl (List.rel_append (spells_zeros _) hds) h

/-- a number is told by its text whatever the width it is filled up to -/
theorem padded_injective {w : Nat} {n m : Int} (h : padded w n = padded w m) : n = m := by
  cases n with
  | ofNat n =>
    cases m with
    | ofNat m => exact congrArg _ (zeroFill_injective h)
    | negSucc m =>
      have hminus : zeroFill w (natural n) = '-' :: zeroFill (w - 1) (natural (m + 1)) := h
      exact absurd (hminus ▸ List.mem_cons_self) (minus_not_mem_zeroFill w n)
  | negSucc n =>
    cases m with
    | ofNat m =>
      have hminus : zeroFill w (natural m) = '-' :: zeroFill (w - 1) (natural (n + 1)) := h.symm
      exact absurd (hminus ▸ List.mem_cons_self) (minus_not_mem_zeroFill w m)
    | negSucc m =>
      have hsucc := zeroFill_injective (List.cons.inj h).2
      exact congrArg _ (Nat.succ.inj hsucc)

theorem integer_injective {n m : Int} (h : integer n = integer m) : n = m := by
  have hpadded (n : Int) : integer n = padded 0 n := by
    cases n with
    | ofNat n => exact (zeroFill_of_le (Nat.zero_le _)).symm
    | negSucc n => exact congrArg _ (zeroFill_of_le (Nat.zero_le _)).symm
  rw [hpadded, hpadded] at h
  exact padded_injective h

theorem length_padded {n : Int} (h : 0 ≤ n) (h' : n < 100) : (padded 2 n).length = 2 := by
  obtain ⟨n, rfl⟩ := Int.eq_ofNat_of_zero_le h
  have hle : (natural n).length ≤ 2 := by
    rw [natural, Nat.length_toDigits_le_iff (by decide) (by decide)]
    omega
  show (zeroFill 2 (natural n)).length = 2
  rw [zeroFill, List.length_append, List.length_replicate]
  omega

end Text

theorem monthLength_le (y m : Int) : monthLength y m ≤ 31 := by
  unfold monthLength
  split
  · split <;> decide
  · split <;> decide

theorem Date.text_injective {d e : Date} (h : d.text = e.text) : d = e := by
  have hshort (d : Date) : (Text.padded 2 d.civil.month).length = 2 ∧
      (Text.padded 2 d.civil.day).length = 2 := by
    obtain ⟨hmonth, hmonth', hday, hday'⟩ := d.civil_spec.1
    have hle := monthLength_le d.civil.year d.civil.month
    exact ⟨Text.length_padded (by omega) (by omega), Text.length_padded (by omega) (by omega)⟩
  obtain ⟨hmonth, hday⟩ := hshort d
  obtain ⟨hmonth', hday'⟩ := hshort e
  -- behind the year there are as many characters in both
  obtain ⟨hfront, hd⟩ := List.append_inj' h (by
    rw [List.length_cons, List.length_cons, hday, hday'])
  obtain ⟨hy, hm⟩ := List.append_inj' hfront (by
    rw [List.length_cons, List.length_cons, hmonth, hmonth'])
  apply Date.civil_injective
  have hyear := Text.padded_injective hy
  have hmonth := Text.padded_injective (List.cons.inj hm).2
  have hday := Text.padded_injective (List.cons.inj hd).2
  calc d.civil = ⟨d.civil.year, d.civil.month, d.civil.day⟩ := rfl
    _ = e.civil := by rw [hyear, hmonth, hday]

theorem Uuid.text_injective {u w : Uuid} (h : u.text = w.text) : u = w := by
  have hu := u.parse?_text
  rw [h, w.parse?_text] at hu
  exact (Option.some.inj hu).symm

theorem Inet.text_injective {a b : Inet} (h : a.text = b.text) : a = b := by
  have ha := a.parse?_text
  rw [h, b.parse?_text] at ha
  exact (Option.some.inj ha).symm

theorem Bytes.hex_injective {bs cs : Bytes} (h : hex bs = hex cs) : bs = cs := by
  have hb := ofHex?_hex bs
  rw [h, ofHex?_hex] at hb
  exact (Option.some.inj hb).symm

end Cql
