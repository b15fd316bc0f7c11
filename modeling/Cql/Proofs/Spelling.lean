import Mathlib.Data.List.Forall2
import Mathlib.Tactic.Ring
import Cql.Inet.Text
import Cql.Proofs.Word
import Cql.Uuid

/-!
# What is written as text is read back

Identifiers and addresses have one spelling each in which they are written, and a reader that takes
more than that.  The reader takes digits as long as there are any, so what it does with a number is
settled by the character behind it (`Stops`).  The octets of a short address are told from the
groups of a long one by their dots: a text without a dot has no octets at the front (`short?_none`).

* `Uuid.parse?_text`        identifiers;
* `digitRun_toDigits`       a number with something behind it;
* `groupRun_spelt`          groups as they are written, with something behind them;
* `longestRun_spec`         where `::` stands there is nothing but zeros;
* `short?_shortText`, `long?_longText`   the two families, and `Inet.parse?_text` for both.
-/

namespace Cql

/-! ## identifiers -/

namespace Bytes

theorem hexValue?_hexDigit : ∀ n < 16, hexValue? (hexDigit n) = some n := by decide

theorem hexDigit_ne : ∀ n < 16, hexDigit n ≠ '-' := by decide

theorem ofHex?_hex (bs : Bytes) : ofHex? (hex bs) = some bs := by
  induction bs with
  | nil => rfl
  | cons b bs ih =>
    have hb := UInt8.toNat_lt b
    have hn : b.toNat / 16 * 16 + b.toNat % 16 = b.toNat := Nat.div_add_mod' _ _
    rw [hex_cons, ofHex?, hexValue?_hexDigit _ (by omega), hexValue?_hexDigit _ (by omega), ih]
    show some (UInt8.ofNat (b.toNat / 16 * 16 + b.toNat % 16) :: bs) = _
    rw [hn, UInt8.ofNat_toNat]

theorem length_hex (bs : Bytes) : (hex bs).length = 2 * bs.length := by
  induction bs with
  | nil => rfl
  | cons b bs ih =>
    rw [hex_cons, List.length_cons, List.length_cons, List.length_cons, ih]
    omega

theorem not_mem_hex (bs : Bytes) : '-' ∉ hex bs := by
  intro h
  obtain ⟨b, -, hb⟩ := List.mem_flatMap.1 h
  have hlt := UInt8.toNat_lt b
  rcases List.mem_cons.1 hb with hb | hb
  · exact hexDigit_ne _ (by omega) hb.symm
  · exact hexDigit_ne _ (by omega) (List.mem_singleton.1 hb).symm

end Bytes

namespace Uuid

theorem ofBytes?_bytes (u : Uuid) : ofBytes? u.bytes = some u := by
  have hn : Bytes.toNat u.bytes = u.bits.toNat := Bytes.toNat_ofNat_of_lt u.bits.isLt
  rw [ofBytes?, if_pos u.length_bytes, hn, BitVec.ofNat_toNat, BitVec.setWidth_eq]

theorem ofDigits?_hex (u : Uuid) : ofDigits? (Bytes.hex u.bytes) = some u := by
  rw [ofDigits?, Bytes.ofHex?_hex]
  exact u.ofBytes?_bytes

/-- what stands between hyphens is what is left without them -/
theorem ofHyphenated?_of_parts {a b c d e : List Char} (ha : a.length = 8) (hb : b.length = 4)
    (hc : c.length = 4) (hd : d.length = 4) (he : e.length = 12) (h : '-' ∉ a ++ b ++ c ++ d ++ e) :
    ofHyphenated? (a ++ '-' :: b ++ '-' :: c ++ '-' :: d ++ '-' :: e) =
      ofDigits? (a ++ b ++ c ++ d ++ e) := by
  simp only [List.mem_append, not_or] at h
  obtain ⟨⟨⟨⟨ha', hb'⟩, hc'⟩, hd'⟩, he'⟩ := h
  have keep {l : List Char} (hl : '-' ∉ l) : l.filter (· != '-') = l :=
    List.filter_eq_self.2 fun x hx => by
      have hne : x ≠ '-' := fun e => hl (e ▸ hx)
      simpa using hne
  have hfilter : (a ++ '-' :: b ++ '-' :: c ++ '-' :: d ++ '-' :: e).filter (· != '-') =
      a ++ b ++ c ++ d ++ e := by
    simp [keep ha', keep hb', keep hc', keep hd', keep he']
  have hhyphens : [8, 13, 18, 23].all (fun i =>
      (a ++ '-' :: b ++ '-' :: c ++ '-' :: d ++ '-' :: e)[i]? == some '-') = true := by
    simp [List.getElem?_append, ha, hb, hc, hd]
  have hlength : (a ++ '-' :: b ++ '-' :: c ++ '-' :: d ++ '-' :: e).length = 36 := by
    simp [ha, hb, hc, hd, he]
  rw [ofHyphenated?, if_pos ⟨hlength, hhyphens⟩, hfilter]

theorem parse?_text (u : Uuid) : parse? u.text = some u := by
  let ds := Bytes.hex u.bytes
  have hl : ds.length = 32 := by rw [Bytes.length_hex, u.length_bytes]
  have hparts : ds.take 8 ++ (ds.drop 8).take 4 ++ (ds.drop 12).take 4 ++ (ds.drop 16).take 4 ++
      ds.drop 20 = ds := by
    rw [← List.take_add, ← List.take_add, ← List.take_add, List.take_append_drop]
  have htext : ofHyphenated? u.text = some u := by
    have h := ofHyphenated?_of_parts (a := ds.take 8) (b := (ds.drop 8).take 4)
      (c := (ds.drop 12).take 4) (d := (ds.drop 16).take 4) (e := ds.drop 20)
      (by simp [hl]) (by simp [hl]) (by simp [hl]) (by simp [hl]) (by simp [hl])
      (by rw [hparts]; exact Bytes.not_mem_hex _)
    rw [hparts, ofDigits?_hex] at h
    exact h
  have hlength : u.text.length = 36 := by
    show (ds.take 8 ++ '-' :: (ds.drop 8).take 4 ++ '-' :: (ds.drop 12).take 4
      ++ '-' :: (ds.drop 16).take 4 ++ '-' :: ds.drop 20).length = 36
    simp [hl]
  rw [parse?, hlength]
  exact htext

end Uuid

namespace Inet

/-! ## numbers -/

/-- the characters are the digits -/
def Spells (base : Nat) : List Nat → List Char → Prop :=
  List.Forall₂ fun d c => digit? base c = some d

/-- no digit stands at the front -/
def Stops (base : Nat) (cs : List Char) : Prop := ∀ c, cs.head? = some c → digit? base c = none

theorem digit?_digitChar {base d : Nat} (hb : base ≤ 16) (hd : d < base) :
    digit? base d.digitChar = some d := by
  have h : ∀ d < 16, Bytes.hexValue? d.digitChar = some d := by decide
  rw [digit?, h d (by omega), Option.filter_some, if_pos (by simpa using hd)]

theorem digit_of_spells {base : Nat} {ds : List Nat} {cs : List Char} (h : Spells base ds cs)
    {c : Char} (hc : c ∈ cs) : ∃ d, digit? base c = some d := by
  induction h with
  | nil => cases hc
  | cons hd _ ih =>
    rcases List.mem_cons.1 hc with rfl | hc
    · exact ⟨_, hd⟩
    · exact ih hc

theorem wordOf_concat (base : Nat) (ds : List Nat) (d : Nat) :
    wordOf base (ds ++ [d]) = wordOf base ds * base + d := by
  rw [wordOf, List.foldl_append]
  rfl

/-- the digits of a number as it is written; no zero stands before others -/
theorem exists_digits {base : Nat} (hb : 1 < base) (hb' : base ≤ 16) (n : Nat) :
    ∃ ds, Spells base ds (Nat.toDigits base n) ∧ wordOf base ds = n ∧
      (ds.head? = some 0 → ds.length = 1) := by
  induction n using Nat.strongRecOn with
  | _ n ih =>
    rw [Nat.toDigits_eq_if hb]
    by_cases hn : n < base
    · rw [if_pos hn]
      exact ⟨[n], .cons (digit?_digitChar hb' hn) .nil, by simp [wordOf], fun _ => rfl⟩
    · rw [if_neg hn]
      have hlt : n / base < n := Nat.div_lt_self (by omega) hb
      have hpos : 0 < n / base := Nat.div_pos (by omega) (by omega)
      have hmod : n % base < base := Nat.mod_lt _ (by omega)
      obtain ⟨ds, hds, hw, hz⟩ := ih _ hlt
      refine ⟨ds ++ [n % base], List.rel_append hds (.cons (digit?_digitChar hb' hmod) .nil), ?_, ?_⟩
      · rw [wordOf_concat, hw, Nat.div_add_mod']
      · intro h
        cases ds with
        | nil =>
          rw [← hw] at hpos
          cases hpos
        | cons d ds =>
          obtain rfl : d = 0 := Option.some.inj h
          obtain rfl : ds = [] := List.length_eq_zero_iff.1 (Nat.succ.inj (hz rfl))
          have hzero : wordOf base [0] = 0 := by simp [wordOf]
          omega

theorem digitRun_of_stops {base : Nat} {rest : List Char} (h : Stops base rest) :
    digitRun base rest = ([], rest) := by
  cases rest with
  | nil => rfl
  | cons c cs => rw [digitRun, h c rfl]

theorem digitRun_spells {base : Nat} {ds : List Nat} {cs rest : List Char}
    (h : Spells base ds cs) (hr : Stops base rest) : digitRun base (cs ++ rest) = (ds, rest) := by
  induction h with
  | nil => exact digitRun_of_stops hr
  | cons hc _ ih => rw [List.cons_append, digitRun, hc, ih]

/-- a number is read as it was written, and what stands behind it is left -/
theorem digitRun_toDigits {base : Nat} (hb : 1 < base) (hb' : base ≤ 16) (n : Nat)
    {rest : List Char} (hr : Stops base rest) :
    ∃ ds, digitRun base (Nat.toDigits base n ++ rest) = (ds, rest) ∧ wordOf base ds = n ∧
      ds.length = (Nat.toDigits base n).length ∧ (ds.head? = some 0 → ds.length = 1) := by
  obtain ⟨ds, hds, hw, hz⟩ := exists_digits hb hb' n
  exact ⟨ds, digitRun_spells hds hr, hw, hds.length_eq, hz⟩

theorem octet?_natural {n : Nat} (hn : n < 256) {rest : List Char} (hr : Stops 10 rest) :
    octet? (Text.natural n ++ rest) = some (n, rest) := by
  obtain ⟨ds, hrun, hw, hl, hz⟩ := digitRun_toDigits (by decide) (by decide) n hr
  have hpos : 1 ≤ ds.length := hl ▸ Nat.length_toDigits_pos
  have hle : ds.length ≤ 3 := by
    rw [hl, Nat.length_toDigits_le_iff (by decide) (by decide)]
    omega
  rw [octet?, Text.natural, hrun]
  dsimp only
  rw [hw, if_pos ⟨hpos, hle, hn, hz⟩]

theorem group?_groupText {g : Nat} (hg : g < 65536) {rest : List Char} (hr : Stops 16 rest) :
    group? (groupText g ++ rest) = some (g, rest) := by
  obtain ⟨ds, hrun, hw, hl, -⟩ := digitRun_toDigits (by decide) (by decide) g hr
  have hpos : 1 ≤ ds.length := hl ▸ Nat.length_toDigits_pos
  have hle : ds.length ≤ 4 := by
    rw [hl, Nat.length_toDigits_le_iff (by decide) (by decide)]
    omega
  rw [group?, groupText, hrun]
  dsimp only
  rw [if_pos ⟨hpos, hle⟩, hw]

theorem octet?_of_stops {rest : List Char} (h : Stops 10 rest) : octet? rest = none := by
  rw [octet?, digitRun_of_stops h]
  rfl

theorem group?_of_stops {rest : List Char} (h : Stops 16 rest) : group? rest = none := by
  rw [group?, digitRun_of_stops h]
  rfl

/-! ## short addresses -/

theorem wordOf_from (base h : Nat) (ds : List Nat) :
    ds.foldl (fun w d => w * base + d) h = h * base ^ ds.length + wordOf base ds := by
  induction ds generalizing h with
  | nil => simp [wordOf]
  | cons d ds ih =>
    rw [wordOf, List.foldl_cons, List.foldl_cons, ih, ih (0 * base + d), List.length_cons,
      Nat.pow_succ]
    ring

theorem wordOf_cons (base d : Nat) (ds : List Nat) :
    wordOf base (d :: ds) = d * base ^ ds.length + wordOf base ds := by
  rw [wordOf, List.foldl_cons, Nat.zero_mul, Nat.zero_add, wordOf_from]

theorem wordOf_toNat (bs : Bytes) : wordOf 256 (bs.map UInt8.toNat) = bs.toNat := by
  induction bs with
  | nil => rfl
  | cons b bs ih => rw [List.map_cons, wordOf_cons, ih, List.length_map, Bytes.toNat_cons]

theorem ofNat_octets (a : BitVec 32) : BitVec.ofNat 32 (wordOf 256 (octets a)) = a := by
  have hn : Bytes.toNat (Bytes.ofNat 4 a.toNat) = a.toNat := Bytes.toNat_ofNat_of_lt a.isLt
  rw [octets, wordOf_toNat, hn, BitVec.ofNat_toNat, BitVec.setWidth_eq]

theorem stops_cons {base : Nat} {c : Char} (h : digit? base c = none) (cs : List Char) :
    Stops base (c :: cs) := fun _ he => Option.some.inj he ▸ h

theorem short?_shortText (a : BitVec 32) {rest : List Char} (hr : Stops 10 rest) :
    short? (shortText a ++ rest) = some (octets a, rest) := by
  have hlt (b : UInt8) : b.toNat < 256 := UInt8.toNat_lt b
  have hdot (cs : List Char) : Stops 10 ('.' :: cs) := stops_cons (by decide) cs
  obtain ⟨b₁, b₂, b₃, b₄, ho⟩ :
      ∃ b₁ b₂ b₃ b₄ : UInt8, octets a = [b₁.toNat, b₂.toNat, b₃.toNat, b₄.toNat] :=
    ⟨_, _, _, _, rfl⟩
  have htext : shortText a ++ rest =
      Text.natural b₁.toNat ++ '.' :: (Text.natural b₂.toNat ++ '.' :: (Text.natural b₃.toNat ++
        '.' :: (Text.natural b₄.toNat ++ rest))) := by
    simp [shortText, ho, Text.joined]
  rw [htext, ho, short?]
  simp only [octet?_natural (hlt _) (hdot _), octet?_natural (hlt b₄) hr, after?, if_true,
    Option.bind_eq_bind, Option.bind_some, Option.pure_def]

theorem mem_of_digitRun {base : Nat} {cs : List Char} {c : Char}
    (h : c ∈ (digitRun base cs).2) : c ∈ cs := by
  induction cs with
  | nil => exact h
  | cons d cs ih =>
    rw [digitRun] at h
    split at h
    · exact List.mem_cons_of_mem _ (ih h)
    · exact h

theorem mem_of_octet? {cs rest : List Char} {n : Nat} (h : octet? cs = some (n, rest)) {c : Char}
    (hc : c ∈ rest) : c ∈ cs := by
  rw [octet?] at h
  dsimp only at h
  split at h
  · cases h
    exact mem_of_digitRun hc
  · cases h

/-- a text without a dot does not begin with octets -/
theorem short?_of_dotless {cs : List Char} (h : '.' ∉ cs) : short? cs = none := by
  rw [short?]
  cases ho : octet? cs with
  | none => rfl
  | some o =>
    obtain ⟨n, rest⟩ := o
    cases rest with
    | nil => rfl
    | cons c rest =>
      have hc : c ≠ '.' := fun e => h (mem_of_octet? ho (e ▸ List.mem_cons_self))
      simp [after?, hc]

theorem short?_of_stops {cs : List Char} (h : Stops 10 cs) : short? cs = none := by
  rw [short?, octet?_of_stops h]
  rfl

/-! ## the groups of a long address -/

theorem length_lowGroups (n w : Nat) : (lowGroups n w).length = n := by
  induction n with
  | zero => rfl
  | succ n ih => rw [lowGroups, List.length_cons, ih]

theorem lowGroups_lt (n w : Nat) : ∀ g ∈ lowGroups n w, g < 65536 := by
  induction n with
  | zero => exact fun _ h => nomatch h
  | succ n ih => exact List.forall_mem_cons.2 ⟨Nat.mod_lt _ (by decide), ih⟩

theorem wordOf_lowGroups (n w : Nat) : wordOf 65536 (lowGroups n w) = w % 65536 ^ n := by
  induction n with
  | zero => rw [Nat.pow_zero, Nat.mod_one]; rfl
  | succ n ih =>
    have hm : w % 65536 ^ (n + 1) = w % 65536 ^ n + 65536 ^ n * (w / 65536 ^ n % 65536) :=
      Nat.mod_pow_succ
    rw [lowGroups, wordOf_cons, ih, length_lowGroups, Nat.shiftRight_eq_div_pow, Nat.pow_mul, hm]
    ring

theorem ofNat_groups (a : BitVec 128) : BitVec.ofNat 128 (wordOf 65536 (groups a)) = a := by
  have hlt : a.toNat < 65536 ^ 8 := a.isLt
  rw [groups, wordOf_lowGroups, Nat.mod_eq_of_lt hlt, BitVec.ofNat_toNat, BitVec.setWidth_eq]

/-- the last two groups are the octets of the short address that a long one carries -/
theorem drop_groups (a : BitVec 128) :
    (groups a).drop 6 = pairUp (octets (a.setWidth 32)) := by
  have hl : (groups a).drop 6 = [a.toNat >>> 16 % 65536, a.toNat >>> 0 % 65536] := rfl
  have hr : pairUp (octets (a.setWidth 32)) =
      let n := (a.setWidth 32).toNat
      [(UInt8.ofNat (n >>> 24)).toNat * 256 + (UInt8.ofNat (n >>> 16)).toNat,
        (UInt8.ofNat (n >>> 8)).toNat * 256 + (UInt8.ofNat (n >>> 0)).toNat] := rfl
  rw [hl, hr]
  simp only [UInt8.toNat_ofNat', BitVec.toNat_setWidth, Nat.shiftRight_eq_div_pow]
  congr 1
  · omega
  · congr 1
    omega

/-- groups with a colon before each -/
def behind (gs : List Nat) : List Char := gs.flatMap fun g => ':' :: groupText g

theorem groupsText_cons (g : Nat) (gs : List Nat) :
    groupsText (g :: gs) = groupText g ++ behind gs := by
  induction gs generalizing g with
  | nil => simp [groupsText, behind, Text.joined]
  | cons g' gs ih =>
    have h : groupsText (g :: g' :: gs) = groupText g ++ [':'] ++ groupsText (g' :: gs) := rfl
    rw [h, ih]
    simp [behind]

theorem dot_groupText (g : Nat) : '.' ∉ groupText g := by
  intro h
  obtain ⟨ds, hds, -⟩ : ∃ ds, Spells 16 ds (Nat.toDigits 16 g) ∧ _ :=
    exists_digits (by decide) (by decide) g
  obtain ⟨d, hd⟩ := digit_of_spells hds h
  cases hd

theorem dot_behind (gs : List Nat) : '.' ∉ behind gs := by
  intro h
  obtain ⟨g, -, hg⟩ := List.mem_flatMap.1 h
  rcases List.mem_cons.1 hg with hg | hg
  · exact absurd hg (by decide)
  · exact dot_groupText g hg

theorem dot_groupsText (gs : List Nat) : '.' ∉ groupsText gs := by
  cases gs with
  | nil => exact fun h => nomatch h
  | cons g gs =>
    rw [groupsText_cons]
    exact fun h => (List.mem_append.1 h).elim (dot_groupText g) (dot_behind gs)

theorem dot_spelt (g : Nat) (gs : List Nat) {rest : List Char} (h : '.' ∉ rest) :
    '.' ∉ groupText g ++ (behind gs ++ rest) := by
  simp only [List.mem_append, not_or]
  exact ⟨dot_groupText g, dot_behind gs, h⟩

theorem stops_behind (gs : List Nat) {rest : List Char} (h : Stops 16 rest) :
    Stops 16 (behind gs ++ rest) := by
  cases gs with
  | nil => exact h
  | cons g gs => exact stops_cons (by decide) _

/-- no more groups follow, or there is no room for them -/
def Full (room : Nat) (gs : List Nat) (rest : List Char) : Prop :=
  gs.length = room ∨ gs.length < room ∧ after? ':' group? rest = none

theorem Full.of_cons {room g : Nat} {gs : List Nat} {rest : List Char}
    (h : Full room (g :: gs) rest) : ∃ r, room = r + 1 ∧ Full r gs rest := by
  rcases h with h | ⟨h, hrest⟩
  · exact ⟨gs.length, h.symm, .inl rfl⟩
  · obtain ⟨r, rfl⟩ := Nat.exists_eq_add_one.2 (Nat.zero_lt_of_lt h)
    exact ⟨r, rfl, .inr ⟨Nat.lt_of_succ_lt_succ h, hrest⟩⟩

theorem groupRun_behind {gs : List Nat} (hg : ∀ g ∈ gs, g < 65536) {rest : List Char}
    (hdot : '.' ∉ rest) (hr : Stops 16 rest) {room : Nat} (hfull : Full room gs rest) :
    groupRun false room (behind gs ++ rest) = ⟨gs, false, rest⟩ := by
  induction gs generalizing room with
  | nil =>
    cases room with
    | zero => rfl
    | succ room =>
      have hgroup : after? ':' group? rest = none := by
        rcases hfull with h | h
        · cases h
        · exact h.2
      have hshort : after? ':' short? rest = none := by
        cases rest with
        | nil => rfl
        | cons c cs =>
          rw [after?, short?_of_dotless fun h => hdot (List.mem_cons_of_mem _ h), ite_self]
      show groupRun false (room + 1) rest = _
      simp [groupRun, hshort, hgroup]
  | cons g gs ih =>
    obtain ⟨hg₀, hgs⟩ := List.forall_mem_cons.1 hg
    obtain ⟨room, rfl, hfull'⟩ := hfull.of_cons
    have htext : behind (g :: gs) ++ rest = ':' :: (groupText g ++ (behind gs ++ rest)) := by
      simp [behind]
    rw [htext]
    simp [groupRun, after?, short?_of_dotless (dot_spelt g gs hdot),
      group?_groupText hg₀ (stops_behind gs hr), ih hgs hfull']

/-- groups are read as they are written, up to what stands behind them -/
theorem groupRun_spelt {gs : List Nat} (hg : ∀ g ∈ gs, g < 65536) {rest : List Char}
    (hdot : '.' ∉ rest) (hr : Stops 16 rest) {room : Nat} (hfull : Full room gs rest) :
    groupRun true room (groupsText gs ++ rest) = ⟨gs, false, rest⟩ := by
  cases gs with
  | nil =>
    cases room with
    | zero => rfl
    | succ room =>
      show groupRun true (room + 1) rest = _
      simp [groupRun, short?_of_dotless hdot, group?_of_stops hr]
  | cons g gs =>
    obtain ⟨hg₀, hgs⟩ := List.forall_mem_cons.1 hg
    obtain ⟨room, rfl, hfull'⟩ := hfull.of_cons
    rw [groupsText_cons, List.append_assoc]
    simp [groupRun, short?_of_dotless (dot_spelt g gs hdot),
      group?_groupText hg₀ (stops_behind gs hr), groupRun_behind hgs hdot hr hfull']

/-! ## long addresses -/

theorem take_zeroRun (gs : List Nat) : gs.take (zeroRun gs) = List.replicate (zeroRun gs) 0 := by
  have h : gs.take (zeroRun gs) = gs.takeWhile (· == 0) :=
    (List.prefix_iff_eq_take.1 (List.takeWhile_prefix _)).symm
  rw [h]
  exact List.eq_replicate_iff.2 ⟨rfl, fun g hg => by
    simpa using List.all_eq_true.1 List.all_takeWhile g hg⟩

/-- the longest run is a run of zeros within the list -/
theorem longestRun_spec (gs : List Nat) :
    (longestRun gs).1 + (longestRun gs).2 ≤ gs.length ∧
      (gs.drop (longestRun gs).1).take (longestRun gs).2 =
        List.replicate (longestRun gs).2 0 := by
  induction gs with
  | nil => exact ⟨Nat.le_refl _, rfl⟩
  | cons g gs ih =>
    rw [longestRun]
    split
    · have hle : zeroRun (g :: gs) ≤ (g :: gs).length :=
        (List.takeWhile_prefix (· == 0)).length_le
      exact ⟨by omega, take_zeroRun (g :: gs)⟩
    · refine ⟨?_, ih.2⟩
      rw [List.length_cons]
      omega

/-- a list is put together again from what stands before and behind a run of zeros -/
theorem append_run {gs : List Nat} {i k : Nat} (h : (gs.drop i).take k = List.replicate k 0) :
    gs.take i ++ List.replicate k 0 ++ gs.drop (i + k) = gs := by
  rw [← h, ← List.take_add, List.take_append_drop]

theorem stops_ten {cs : List Char} (h : Stops 16 cs) : Stops 10 cs := by
  intro c hc
  have hd := h c hc
  rw [digit?, Option.filter_eq_none_iff] at hd ⊢
  intro d hd' hlt
  exact hd d hd' (by simp only [decide_eq_true_eq] at hlt ⊢; omega)

/-- groups before `::` and behind it -/
theorem long?_of_runs {cs tail rest : List Char} {gs gs' : List Nat} {ended : Bool}
    (hhead : groupRun true 8 cs = ⟨gs, false, ':' :: ':' :: tail⟩) (hl : gs.length ≠ 8)
    (htail : groupRun true (7 - gs.length) tail = ⟨gs', ended, rest⟩) :
    long? cs = some (gs ++ List.replicate (8 - gs.length - gs'.length) 0 ++ gs', rest) := by
  rw [long?, hhead, if_neg hl, if_neg Bool.false_ne_true]
  simp only [htail]

/-- an address that carries a short one -/
theorem long?_carrying {a : BitVec 128} (h : (groups a).take 6 = [0, 0, 0, 0, 0, 65535]) :
    long? ([':', ':', 'f', 'f', 'f', 'f', ':'] ++ shortText (a.setWidth 32)) =
      some (groups a, []) := by
  let st := shortText (a.setWidth 32)
  have hcolon (cs : List Char) : Stops 16 (':' :: cs) := stops_cons (by decide) cs
  have hhead (cs : List Char) : groupRun true 8 (':' :: cs) = ⟨[], false, ':' :: cs⟩ := by
    simp [groupRun, short?_of_stops (stops_ten (hcolon cs)), group?_of_stops (hcolon cs)]
  have hshort : short? st = some (octets (a.setWidth 32), []) := by
    rw [← List.append_nil st]
    exact short?_shortText (a.setWidth 32) nofun
  have hgroup : group? ('f' :: 'f' :: 'f' :: 'f' :: ':' :: st) = some (65535, ':' :: st) :=
    group?_groupText (g := 65535) (by decide) (hcolon st)
  have hfour : short? ('f' :: 'f' :: 'f' :: 'f' :: ':' :: st) = none :=
    short?_of_stops (stops_cons (by decide) _)
  have htail : groupRun true 7 ('f' :: 'f' :: 'f' :: 'f' :: ':' :: st) =
      ⟨65535 :: pairUp (octets (a.setWidth 32)), true, []⟩ := by
    simp [groupRun, hfour, hgroup, after?, hshort]
  have hgroups : groups a = [0, 0, 0, 0, 0, 65535] ++ pairUp (octets (a.setWidth 32)) := by
    rw [← drop_groups, ← h, List.take_append_drop]
  rw [hgroups]
  exact long?_of_runs (hhead _) (by decide) htail

theorem long?_longText (a : BitVec 128) : long? (longText a) = some (groups a, []) := by
  have hg : ∀ g ∈ groups a, g < 65536 := lowGroups_lt 8 a.toNat
  have hlength : (groups a).length = 8 := length_lowGroups 8 a.toNat
  obtain ⟨hle, hzero⟩ := longestRun_spec (groups a)
  rw [longText]
  dsimp only
  generalize longestRun (groups a) = run at *
  obtain ⟨i, k⟩ := run
  dsimp only at hle hzero
  split
  · next h => exact long?_carrying h
  split
  · next hk =>
    have hcolon (cs : List Char) : Stops 16 (':' :: cs) := stops_cons (by decide) cs
    let tail := groupsText ((groups a).drop (i + k))
    have hi : ((groups a).take i).length = i := by
      rw [List.length_take]
      omega
    have hhead : groupRun true 8 (groupsText ((groups a).take i) ++ ':' :: ':' :: tail) =
        ⟨(groups a).take i, false, ':' :: ':' :: tail⟩ := by
      refine groupRun_spelt (fun g h => hg g (List.mem_of_mem_take h)) ?_ (hcolon _)
        (.inr ⟨by omega, group?_of_stops (hcolon tail)⟩)
      simpa using dot_groupsText _
    have htail : groupRun true (7 - ((groups a).take i).length) tail =
        ⟨(groups a).drop (i + k), false, []⟩ := by
      rw [hi, ← List.append_nil tail]
      refine groupRun_spelt (fun g h => hg g (List.mem_of_mem_drop h)) (by simp) (by simp [Stops])
        (.inr ⟨by rw [List.length_drop]; omega, rfl⟩)
    have hmissing : 8 - i - ((groups a).drop (i + k)).length = k := by
      rw [List.length_drop]
      omega
    have h := long?_of_runs hhead (by omega) htail
    rw [hi, hmissing, append_run hzero] at h
    rw [List.append_assoc]
    exact h
  · have hrun : groupRun true 8 (groupsText (groups a)) = ⟨groups a, false, []⟩ := by
      rw [← List.append_nil (groupsText (groups a))]
      exact groupRun_spelt hg (by simp) (by simp [Stops]) (.inl hlength)
    rw [long?, hrun]
    dsimp only
    rw [if_pos hlength]

/-- nothing that a long address is written as begins with octets -/
theorem short?_longText (a : BitVec 128) : short? (longText a) = none := by
  rw [longText]
  dsimp only
  split
  · exact short?_of_stops (stops_cons (by decide) _)
  split
  · refine short?_of_dotless ?_
    simp only [List.mem_append, not_or]
    exact ⟨⟨dot_groupsText _, by decide⟩, dot_groupsText _⟩
  · exact short?_of_dotless (dot_groupsText _)

/-! ## either family -/

theorem short?_text (a : BitVec 32) : short? (shortText a) = some (octets a, []) := by
  rw [← List.append_nil (shortText a)]
  exact short?_shortText a nofun

theorem parse?_text (a : Inet) : parse? a.text = some a := by
  cases a with
  | v4 a =>
    show parse? (shortText a) = _
    rw [parse?, short?_text]
    dsimp only
    rw [ofNat_octets]
  | v6 a =>
    show parse? (longText a) = _
    rw [parse?, short?_longText]
    dsimp only
    rw [long?_longText]
    dsimp only
    rw [ofNat_groups]

theorem parse?_text_of_family {f : Family} {a : Inet} (h : a.family = f) :
    f.parse? a.text = some a := by
  subst h
  cases a with
  | v4 a =>
    show Family.parse? .v4 (shortText a) = _
    rw [Family.parse?, short?_text]
    dsimp only
    rw [ofNat_octets]
  | v6 a =>
    show Family.parse? .v6 (longText a) = _
    rw [Family.parse?, long?_longText]
    dsimp only
    rw [ofNat_groups]

end Inet

end Cql
