import Cql.Proofs.Alphabets
import Cql.Query.Using

/-!
# The settings of a write are told by their text

A setting is a keyword, a blank and a word, and neither keyword nor word has a blank in it; so the
clause, read from blank to blank, is cut into its settings in one way only, and their keywords tell
which of the three they are.  What is left is that a number is told by its digits, and a span by
its number and its unit.

* `Span.text_eq`            a span is a whole number of the largest unit that leaves no rest;
* `Span.text_injective`     so its text tells it;
* `Using.join_unique`       settings with `AND` between them;
* `Using.clause_tells`      the clause tells all three settings, and is empty if there are none.
-/

namespace Cql

namespace Text

theorem toList_integer (n : Int) : (toString n).toList = integer n := by
  cases n with
  | ofNat n => exact Nat.toList_repr
  | negSucc n =>
    show ("-" ++ Nat.repr (n + 1)).toList = _
    rw [String.toList_append, Nat.toList_repr]
    rfl

theorem integer_unique {m n : Int} (h : toString m = toString n) : m = n := by
  apply integer_injective
  rw [← toList_integer, ← toList_integer, h]

theorem natural_unique {m n : Nat} (h : toString m = toString n) : m = n :=
  Int.ofNat.inj (integer_unique h)

def isBlank (c : Char) : Bool := c = ' '

/-- a text without a blank -/
def Word (s : String) : Prop := ∀ c ∈ s.toList, isBlank c = false

instance (s : String) : Decidable (Word s) :=
  List.decidableBAll (fun c => isBlank c = false) s.toList

theorem InNumber.not_blank {c : Char} (h : InNumber c) : isBlank c = false :=
  decide_eq_false (h.ne (by decide) (by decide) rfl)

theorem word_integer (n : Int) : Word (toString n) := by
  intro c hc
  rw [toList_integer] at hc
  exact (inNumber_integer hc).not_blank

theorem word_natural (n : Nat) : Word (toString n) := word_integer n

theorem join_concat (sep : String) (xs : List String) (x : String) :
    ∃ front, join sep (xs ++ [x]) = front ++ x := by
  induction xs with
  | nil => exact ⟨"", (String.empty_append).symm⟩
  | cons y xs ih =>
    obtain ⟨front, hfront⟩ := ih
    have hcons : join sep (y :: xs ++ [x]) = y ++ sep ++ join sep (xs ++ [x]) := by
      cases xs <;> rfl
    exact ⟨y ++ sep ++ front, by rw [hcons, hfront, ← String.append_assoc]⟩

end Text

namespace Span

open Text (Word)

theorem totalNanos_injective {s t : Span} (h : s.totalNanos = t.totalNanos) : s = t := by
  obtain ⟨seconds, nanos, hlt⟩ := s
  obtain ⟨seconds', nanos', hlt'⟩ := t
  simp only [totalNanos] at h
  simp only [Span.mk.injEq]
  omega

/-- a number of units that is the span, and no larger unit would do -/
theorem text_eq (s : Span) : ∃ (n : Nat) (unit : TimeUnit), s.text = toString n ++ unit.suffix ∧
    n * unit.nanos = s.totalNanos ∧
    ∀ larger : TimeUnit, larger.nanos ∣ s.totalNanos → larger.nanos ≤ unit.nanos := by
  unfold text
  dsimp only
  split
  · next hmilli =>
    refine ⟨_, .milli, rfl, Nat.div_mul_cancel (Nat.dvd_of_mod_eq_zero hmilli), ?_⟩
    rintro (_ | _ | _) - <;> decide
  · next hmilli =>
    split
    · next hmicro =>
      refine ⟨_, .micro, rfl, Nat.div_mul_cancel (Nat.dvd_of_mod_eq_zero hmicro), ?_⟩
      rintro (_ | _ | _) hdvd
      · exact absurd (Nat.mod_eq_zero_of_dvd hdvd) hmilli
      · decide
      · decide
    · next hmicro =>
      refine ⟨_, .nano, rfl, Nat.mul_one _, ?_⟩
      rintro (_ | _ | _) hdvd
      · exact absurd (Nat.mod_eq_zero_of_dvd hdvd) hmilli
      · exact absurd (Nat.mod_eq_zero_of_dvd hdvd) hmicro
      · decide

/-- the unit is the last two characters -/
theorem text_injective {s t : Span} (h : s.text = t.text) : s = t := by
  obtain ⟨m, unit, hs, hm, -⟩ := s.text_eq
  obtain ⟨n, unit', ht, hn, -⟩ := t.text_eq
  have hlength (unit : TimeUnit) : unit.suffix.toList.length = 2 := by cases unit <;> rfl
  have hsuffix : ∀ unit unit' : TimeUnit, unit.suffix = unit'.suffix → unit = unit' := by
    rintro (_ | _ | _) (_ | _ | _) <;> decide
  have hchars : (toString m).toList ++ unit.suffix.toList =
      (toString n).toList ++ unit'.suffix.toList := by
    rw [← String.toList_append, ← String.toList_append, ← hs, ← ht, h]
  obtain ⟨hnumber, hunit⟩ := List.append_inj' hchars (by rw [hlength, hlength])
  apply totalNanos_injective
  rw [← hm, ← hn, Text.natural_unique (String.toList_inj.1 hnumber),
    hsuffix unit unit' (String.toList_inj.1 hunit)]

theorem word_text (s : Span) : Word s.text := by
  obtain ⟨n, unit, hs, -⟩ := s.text_eq
  have hsuffix : Word unit.suffix := by cases unit <;> decide
  intro c hc
  rw [hs, String.toList_append] at hc
  rcases List.mem_append.1 hc with hc | hc
  · exact Text.word_natural n c hc
  · exact hsuffix c hc

end Span

namespace Using

open Text (Word isBlank)

/-! ## cutting at blanks -/

/-- a keyword and what stands behind it -/
def written (p : String × String) : String := p.1 ++ " " ++ p.2

theorem parts_eq (u : Using) : u.parts = u.settings.map written := by
  obtain ⟨timestamp, ttl, timeout⟩ := u
  cases timestamp <;> cases ttl <;> cases timeout <;> rfl

theorem words_settings (u : Using) : ∀ p ∈ u.settings, Word p.1 ∧ Word p.2 := by
  have hkeyword : ∀ k ∈ ["TIMESTAMP", "TTL", "TIMEOUT"], Word k := by decide
  intro p hp
  rw [settings, List.mem_append, List.mem_append] at hp
  simp only [Option.mem_toList, Option.map_eq_some_iff] at hp
  obtain (⟨t, -, rfl⟩ | ⟨n, -, rfl⟩) | ⟨s, -, rfl⟩ := hp
  · exact ⟨hkeyword _ (by simp), Text.word_integer _⟩
  · exact ⟨hkeyword _ (by simp), Text.word_natural _⟩
  · exact ⟨hkeyword _ (by simp), s.word_text⟩

/-- what stands behind the first setting -/
def behindFirst : List (String × String) → List Char
  | [] => []
  | p :: ps => " AND ".toList ++ (Text.join " AND " ((p :: ps).map written)).toList

theorem toList_join (p : String × String) (ps : List (String × String)) :
    (Text.join " AND " ((p :: ps).map written)).toList =
      p.1.toList ++ ' ' :: (p.2.toList ++ behindFirst ps) := by
  have hwritten : (written p).toList = p.1.toList ++ ' ' :: p.2.toList := by
    rw [written, String.toList_append, String.toList_append, List.append_assoc]
    rfl
  cases ps with
  | nil =>
    rw [behindFirst, List.append_nil]
    exact hwritten
  | cons q ps =>
    rw [List.map_cons, List.map_cons, Text.join_cons_cons, String.toList_append,
      String.toList_append, hwritten, List.append_assoc, List.append_assoc]
    rfl

theorem blank_behindFirst (ps : List (String × String)) :
    ∀ c, (behindFirst ps).head? = some c → isBlank c = true := by
  intro c hc
  cases ps with
  | nil => cases hc
  | cons p ps =>
    obtain rfl : ' ' = c := Option.some.inj hc
    rfl

/-- settings are told one by one, from blank to blank -/
theorem join_unique {ps qs : List (String × String)} (hp : ∀ p ∈ ps, Word p.1 ∧ Word p.2)
    (hq : ∀ q ∈ qs, Word q.1 ∧ Word q.2) (hempty : ps = [] ↔ qs = [])
    (h : Text.join " AND " (ps.map written) = Text.join " AND " (qs.map written)) : ps = qs := by
  induction ps generalizing qs with
  | nil => exact (hempty.1 rfl).symm
  | cons p ps ih =>
    cases qs with
    | nil => cases hempty.2 rfl
    | cons q qs =>
      obtain ⟨⟨hp1, hp2⟩, hps⟩ := List.forall_mem_cons.1 hp
      obtain ⟨⟨hq1, hq2⟩, hqs⟩ := List.forall_mem_cons.1 hq
      have hblank (r : List Char) : ∀ c, (' ' :: r).head? = some c → isBlank c = true := by
        intro c hc
        obtain rfl : ' ' = c := Option.some.inj hc
        rfl
      have hchars := congrArg String.toList h
      rw [toList_join, toList_join] at hchars
      obtain ⟨hkeyword, hrest⟩ := Text.append_unique hp1 hq1 (hblank _) (hblank _) hchars
      obtain ⟨hword, hbehind⟩ := Text.append_unique hp2 hq2 (blank_behindFirst ps)
        (blank_behindFirst qs) (List.cons.inj hrest).2
      have hpq : p = q := Prod.ext (String.toList_inj.1 hkeyword) (String.toList_inj.1 hword)
      rw [hpq]
      cases ps with
      | nil =>
        cases qs with
        | nil => rfl
        | cons q' qs => cases hbehind
      | cons p' ps =>
        cases qs with
        | nil => cases hbehind
        | cons q' qs =>
          have hnext := String.toList_inj.1 (List.append_cancel_left hbehind)
          rw [ih hps hqs (iff_of_false nofun nofun) hnext]

/-! ## the clause -/

theorem clause_eq (u : Using) : u.clause =
    if u.settings.isEmpty then "" else "USING " ++ Text.join " AND " (u.settings.map written) := by
  rw [clause, parts_eq, List.isEmpty_map]

theorem clause_eq_empty {u : Using} : u.clause = "" ↔ u.settings = [] := by
  rw [clause_eq]
  split
  · next h => exact iff_of_true rfl (List.isEmpty_iff.1 h)
  · next h =>
    refine iff_of_false (fun he => ?_) (fun he => h (List.isEmpty_iff.2 he))
    have hchars := congrArg String.toList he
    rw [String.toList_append] at hchars
    cases hchars

theorem settings_of_clause {u w : Using} (h : u.clause = w.clause) : u.settings = w.settings := by
  have hempty : u.settings = [] ↔ w.settings = [] := by
    rw [← clause_eq_empty, ← clause_eq_empty, h]
  refine join_unique u.words_settings w.words_settings hempty ?_
  by_cases hu : u.settings = []
  · rw [hu, hempty.1 hu]
  · have hw : w.settings ≠ [] := mt hempty.2 hu
    rw [clause_eq, clause_eq, if_neg (mt List.isEmpty_iff.1 hu), if_neg (mt List.isEmpty_iff.1 hw)]
      at h
    exact (String.append_right_inj _).1 h

/-- a setting is found by its keyword -/
theorem lookup_settings (u : Using) :
    u.settings.lookup "TIMESTAMP" = u.timestamp.map (fun t => toString t.toInt) ∧
    u.settings.lookup "TTL" = u.ttl.map (fun n => toString n.toNat) ∧
    u.settings.lookup "TIMEOUT" = u.timeout.map Span.text := by
  obtain ⟨timestamp, ttl, timeout⟩ := u
  cases timestamp <;> cases ttl <;> cases timeout <;> exact ⟨rfl, rfl, rfl⟩

theorem eq_of_settings {u w : Using} (h : u.settings = w.settings) : u = w := by
  obtain ⟨htimestamp, httl, htimeout⟩ := u.lookup_settings
  obtain ⟨htimestamp', httl', htimeout'⟩ := w.lookup_settings
  rw [h] at htimestamp httl htimeout
  have htimestamps : Function.Injective fun t : Int64 => toString t.toInt :=
    fun _ _ he => Int64.toInt_inj.1 (Text.integer_unique he)
  have httls : Function.Injective fun n : UInt32 => toString n.toNat :=
    fun _ _ he => UInt32.toNat_inj.1 (Text.natural_unique he)
  have htimeouts : Function.Injective Span.text := fun _ _ he => Span.text_injective he
  have h1 := Option.map_injective htimestamps (htimestamp.symm.trans htimestamp')
  have h2 := Option.map_injective httls (httl.symm.trans httl')
  have h3 := Option.map_injective htimeouts (htimeout.symm.trans htimeout')
  calc u = ⟨u.timestamp, u.ttl, u.timeout⟩ := rfl
    _ = w := by rw [h1, h2, h3]

/-- the timeout is written last -/
theorem clause_timeout {u : Using} {s : Span} (h : u.timeout = some s) :
    ∃ front, u.clause = front ++ "TIMEOUT " ++ s.text := by
  have hparts : ∃ ps, u.parts = ps ++ ["TIMEOUT " ++ s.text] := by
    rw [parts, h]
    exact ⟨_, rfl⟩
  obtain ⟨ps, hps⟩ := hparts
  obtain ⟨front, hjoin⟩ := Text.join_concat " AND " ps ("TIMEOUT " ++ s.text)
  refine ⟨"USING " ++ front, ?_⟩
  have hne : u.parts.isEmpty = false := by simp [hps]
  rw [clause, hne, hps, hjoin]
  simp only [String.append_assoc]
  rfl

/-- The clause is empty if there are no settings, and otherwise tells all of them.  A timeout is
written as a whole number of milliseconds, microseconds or nanoseconds, nothing is rounded, and a
larger unit would leave a rest. -/
theorem clause_tells (u w : Using) :
    (u.clause = "" ↔ u.timestamp = .none ∧ u.ttl = .none ∧ u.timeout = .none) ∧
    (u.clause = w.clause ↔ u = w) ∧
    ∀ s, u.timeout = some s → ∃ (front : String) (n : Nat) (unit : TimeUnit),
      u.clause = front ++ "TIMEOUT " ++ (toString n ++ unit.suffix) ∧
      n * unit.nanos = s.totalNanos ∧
      ∀ larger : TimeUnit, larger.nanos ∣ s.totalNanos → larger.nanos ≤ unit.nanos := by
  refine ⟨?_, ⟨fun h => eq_of_settings (settings_of_clause h), fun h => h ▸ rfl⟩, fun s hs => ?_⟩
  · rw [clause_eq_empty, settings, List.append_eq_nil_iff, List.append_eq_nil_iff]
    simp only [Option.toList_eq_nil_iff, Option.map_eq_none_iff, and_assoc]
  · obtain ⟨front, hclause⟩ := clause_timeout hs
    obtain ⟨n, unit, htext, hwhole, hlargest⟩ := s.text_eq
    exact ⟨front, n, unit, htext ▸ hclause, hwhole, hlargest⟩

/-- one second, and one and a half of its thousandths -/
theorem clause_tells_micro :
    let s : Span := ⟨1, 1500000, by decide⟩
    let u : Using := ⟨some (-1), some 0, some s⟩
    u.clause = "USING TIMESTAMP -1 AND TTL 0 AND TIMEOUT 1001500us" ∧ u.timeout = some s ∧
      ∃ (front : String) (n : Nat) (unit : TimeUnit),
        u.clause = front ++ "TIMEOUT " ++ (toString n ++ unit.suffix) ∧
        n * unit.nanos = s.totalNanos ∧
        ∀ larger : TimeUnit, larger.nanos ∣ s.totalNanos → larger.nanos ≤ unit.nanos := by
  intro s u
  have hs : u.timeout = some s := rfl
  obtain ⟨-, -, htimeout⟩ := clause_tells u u
  exact ⟨by decide, hs, htimeout s hs⟩

end Using

end Cql
