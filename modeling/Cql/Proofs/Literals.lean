import Cql.ColumnType.Holds
import Cql.ColumnType.Induction
import Cql.ColumnType.Parts
import Cql.Proofs.Alphabets
import Cql.Value.Legible

/-!
# Literals tell values apart

A literal is not made to be read back without its type: a list of numbers may be of any width, and a
tuple and a record are of as many fields as their type says.  With the type it is read from the
left, and where the literal of a part ends is told by the part: a number at the first delimiter, a
text at the first quote that is not doubled, a collection at its closing bracket.  So the induction
is on the type, and what it carries is that literals with anything behind them that begins with a
delimiter are the same only if the values are, and what is behind them (`Legible`).

* `Text.joined_unique`            neighbours with commas between them;
* `doubled_unique`                texts between quotes;
* `apart_plain`, `apart_quoted`   scalars;
* `legible_list` …                one kind of type at a time;
* `literal_injective`             all of them.
-/

namespace Cql

open Text (Ends Apart isDelimiter ends_nil ends_cons)

namespace Text

/-! ## texts and what follows them -/

section
variable {α : Type} {text : α → List Char} {closing : Char}

/-- what stands behind the first of several texts -/
def behindFirst (closing : Char) (r : List Char) : List (List Char) → List Char
  | [] => closing :: r
  | x :: xs => ',' :: ' ' :: (joined [',', ' '] (x :: xs) ++ closing :: r)

theorem joined_behindFirst (closing : Char) (r x : List Char) (xs : List (List Char)) :
    joined [',', ' '] (x :: xs) ++ closing :: r = x ++ behindFirst closing r xs := by
  cases xs with
  | nil => rfl
  | cons y xs =>
    rw [joined_cons_cons, List.append_assoc, List.append_assoc]
    rfl

theorem ends_behindFirst (hclosing : isDelimiter closing = true) (r : List Char)
    (xs : List (List Char)) : Ends (behindFirst closing r xs) := by
  cases xs with
  | nil => exact ends_cons hclosing r
  | cons x xs => exact ends_cons rfl _

/-- neighbours are told apart one by one, and their end by the closing bracket -/
theorem joined_unique {xs ys : List α} (hapart : ∀ p ∈ xs.zip ys, Apart text p.1 p.2)
    (hempty : xs = [] ↔ ys = []) (hclosing : isDelimiter closing = true) (hcomma : closing ≠ ',')
    {r s : List Char} (h : joined [',', ' '] (xs.map text) ++ closing :: r =
      joined [',', ' '] (ys.map text) ++ closing :: s) : xs = ys ∧ r = s := by
  induction xs generalizing ys with
  | nil =>
    obtain rfl := hempty.1 rfl
    exact ⟨rfl, (List.cons.inj h).2⟩
  | cons x xs ih =>
    cases ys with
    | nil => cases hempty.2 rfl
    | cons y ys =>
      rw [List.zip_cons_cons, List.forall_mem_cons] at hapart
      have hhead : Apart text x y := hapart.1
      have hrest := hapart.2
      rw [List.map_cons, List.map_cons, joined_behindFirst, joined_behindFirst] at h
      obtain ⟨rfl, hbehind⟩ :=
        hhead _ _ (ends_behindFirst hclosing _ _) (ends_behindFirst hclosing _ _) h
      cases xs with
      | nil =>
        cases ys with
        | nil => exact ⟨rfl, (List.cons.inj hbehind).2⟩
        | cons y' ys => exact absurd (List.cons.inj hbehind).1 hcomma
      | cons x' xs =>
        cases ys with
        | nil => exact absurd (List.cons.inj hbehind).1.symm hcomma
        | cons y' ys =>
          have hnext := (List.cons.inj (List.cons.inj hbehind).2).2
          obtain ⟨heq, hrs⟩ := ih hrest (iff_of_false nofun nofun) hnext
          exact ⟨congrArg _ heq, hrs⟩

/-- texts that begin with something else than the closing bracket -/
theorem empty_iff {xs ys : List α}
    (hstart : ∀ a, ∃ c cs, text a = c :: cs ∧ isDelimiter c = false)
    (hclosing : isDelimiter closing = true) {r s : List Char}
    (h : joined [',', ' '] (xs.map text) ++ closing :: r =
      joined [',', ' '] (ys.map text) ++ closing :: s) : xs = [] ↔ ys = [] := by
  have hne (x : α) (xs : List α) (r s : List Char) :
      closing :: r ≠ joined [',', ' '] ((x :: xs).map text) ++ closing :: s := by
    obtain ⟨c, cs, hx, hc⟩ := hstart x
    rw [List.map_cons, joined_behindFirst, hx]
    intro he
    rw [← (List.cons.inj he).1, hclosing] at hc
    cases hc
  cases xs with
  | nil =>
    cases ys with
    | nil => exact Iff.rfl
    | cons y ys => exact absurd h (hne y ys r s)
  | cons x xs =>
    cases ys with
    | nil => exact absurd h.symm (hne x xs s r)
    | cons y ys => exact iff_of_false nofun nofun

end

end Text

namespace Value

open ColumnType (Holds HoldsFields HoldsNamed)

/-! ## scalars -/

theorem isDelimiter_quote : isDelimiter quote = false := rfl

/-- a word without delimiters that could not be taken for `null` -/
theorem plain_word {cs : List Char} (h : cs.all (fun c => !isDelimiter c && c != 'N') = true) :
    ∀ c ∈ cs, isDelimiter c = false ∧ c ≠ 'N' := by
  simpa using h

/-- the quote that closes a text is the first that is not followed by another -/
theorem doubled_unique {cs ds r s : List Char} (hr : r.head? ≠ some quote)
    (hs : s.head? ≠ some quote) (h : doubled cs ++ quote :: r = doubled ds ++ quote :: s) :
    cs = ds ∧ r = s := by
  induction cs generalizing ds with
  | nil =>
    cases ds with
    | nil => exact ⟨rfl, (List.cons.inj h).2⟩
    | cons d ds =>
      rw [doubled_cons] at h
      split at h
      · exact absurd (congrArg List.head? (List.cons.inj h).2) hr
      · next hd => exact absurd (List.cons.inj h).1.symm hd
  | cons c cs ih =>
    cases ds with
    | nil =>
      rw [doubled_cons] at h
      split at h
      · exact absurd (congrArg List.head? (List.cons.inj h).2).symm hs
      · next hc => exact absurd (List.cons.inj h).1 hc
    | cons d ds =>
      rw [doubled_cons, doubled_cons] at h
      split at h <;> split at h
      · next hc hd =>
        obtain ⟨rfl, hrs⟩ := ih (List.cons.inj (List.cons.inj h).2).2
        exact ⟨by rw [hc, hd], hrs⟩
      · next hd => exact absurd (List.cons.inj h).1.symm hd
      · next hc _ => exact absurd (List.cons.inj h).1 hc
      · obtain ⟨rfl, hrest⟩ := List.cons.inj h
        obtain ⟨rfl, hrs⟩ := ih hrest
        exact ⟨rfl, hrs⟩

section
variable {α : Type} {mk : α → Value} {u v : Value}

/-- scalars that are written without delimiters, or `null` -/
theorem apart_plain
    (hplain : ∀ a, (mk a).isNan = false →
      ∀ c ∈ literalChars (mk a), isDelimiter c = false ∧ c ≠ 'N')
    (hinj : ∀ a b, (mk a).isNan = false → (mk b).isNan = false →
      literalChars (mk a) = literalChars (mk b) → a = b)
    (hu : u = null ∨ ∃ a, u = mk a) (hv : v = null ∨ ∃ a, v = mk a) (nu : u.isNan = false)
    (nv : v.isNan = false) : Apart literalChars u v := by
  have hends {w : Value} (hw : w = null ∨ ∃ a, w = mk a) (nw : w.isNan = false) :
      ∀ c ∈ literalChars w, isDelimiter c = false := by
    obtain rfl | ⟨a, rfl⟩ := hw
    · rw [literalChars]
      simp only [List.forall_mem_cons]
      exact ⟨rfl, rfl, rfl, rfl, nofun⟩
    · exact fun c hc => (hplain a nw c hc).1
  have hnull {a : α} (ha : (mk a).isNan = false) : literalChars null ≠ literalChars (mk a) := by
    intro he
    have hmem : 'N' ∈ literalChars (mk a) := he ▸ List.mem_cons_self
    exact (hplain a ha 'N' hmem).2 rfl
  intro r s hr hs h
  obtain ⟨heq, hrs⟩ := Text.append_unique (hends hu nu) (hends hv nv) hr hs h
  refine ⟨?_, hrs⟩
  obtain rfl | ⟨a, rfl⟩ := hu <;> obtain rfl | ⟨b, rfl⟩ := hv
  · rfl
  · exact absurd heq (hnull nv)
  · exact absurd heq.symm (hnull nu)
  · rw [hinj a b nu nv heq]

/-- values that begin otherwise than `null` does, or `null` -/
theorem apart_or_null {p : Value → Prop}
    (hbegins : ∀ w, p w → ∃ c cs, literalChars w = c :: cs ∧ c ≠ 'N')
    (hapart : p u → p v → Apart literalChars u v) (hu : u = null ∨ p u) (hv : v = null ∨ p v) :
    Apart literalChars u v := by
  have hnull {w : Value} (hw : p w) (r s : List Char) :
      literalChars null ++ r ≠ literalChars w ++ s := by
    obtain ⟨c, cs, hchars, hc⟩ := hbegins w hw
    rw [hchars]
    exact fun h => hc (List.cons.inj h).1.symm
  obtain rfl | hu := hu <;> obtain rfl | hv := hv
  · exact fun r s _ _ h => ⟨rfl, List.append_cancel_left h⟩
  · exact fun r s _ _ h => absurd h (hnull hv r s)
  · exact fun r s _ _ h => absurd h.symm (hnull hu s r)
  · exact hapart hu hv

/-- scalars that are written between quotes, or `null` -/
theorem apart_quoted {text : α → List Char}
    (hquoted : ∀ a, literalChars (mk a) = quoted (doubled (text a)))
    (hinj : ∀ a b, text a = text b → a = b) (hu : u = null ∨ ∃ a, u = mk a)
    (hv : v = null ∨ ∃ a, v = mk a) : Apart literalChars u v := by
  have hends {r : List Char} (hr : Ends r) : r.head? ≠ some quote := by
    intro he
    cases (hr _ he).symm.trans isDelimiter_quote
  refine apart_or_null (p := fun w => ∃ a, w = mk a) ?_ ?_ hu hv
  · rintro _ ⟨a, rfl⟩
    exact ⟨quote, _, hquoted a, by decide⟩
  · rintro ⟨a, rfl⟩ ⟨b, rfl⟩ r s hr hs h
    rw [hquoted, hquoted, quoted, quoted, List.cons_append, List.cons_append, List.append_assoc,
      List.append_assoc] at h
    obtain ⟨htext, hrs⟩ := doubled_unique (hends hr) (hends hs) (List.cons.inj h).2
    exact ⟨by rw [hinj a b htext], hrs⟩

end

/-! ## numbers -/

theorem worded_floatWords : FloatFormat.Worded floatWords :=
  ⟨'I', _, rfl, by decide, rfl⟩

theorem datum_ne_nan {f : FloatFormat} {bits : Nat} (h : f.isNan bits = false) (negative : Bool) :
    f.datum bits ≠ .nan negative := by
  intro hd
  rw [FloatFormat.isNan, hd] at h
  cases h

theorem plain_float {f : FloatFormat} {bits : Nat} (h : f.isNan bits = false) :
    ∀ c ∈ f.text floatWords bits, isDelimiter c = false ∧ c ≠ 'N' := by
  intro c hc
  rcases FloatFormat.mem_text hc with ⟨⟨negative, hd⟩, -⟩ | hc | hc | hc | ⟨d, hd⟩
  · exact absurd hd (datum_ne_nan h negative)
  · exact plain_word rfl c hc
  · exact Text.InNumber.plain (.inl hc)
  · exact Text.InNumber.plain (.inr (.inl hc))
  · exact (Text.inNumber_digit hd).plain

theorem float_injective {b c : UInt32} (hb : FloatFormat.single.isNan b.toNat = false)
    (hc : FloatFormat.single.isNan c.toNat = false)
    (h : literalChars (.float b) = literalChars (.float c)) : b = c := by
  have hlt (b : UInt32) : b.toNat < 2 ^ (FloatFormat.single.fractionBits +
      FloatFormat.single.exponentBits + 1) := b.toNat_lt
  exact UInt32.toNat_inj.1 (FloatFormat.text_injective worded_floatWords (hlt b) (hlt c)
    (datum_ne_nan hb) (datum_ne_nan hc) h)

theorem double_injective {b c : UInt64} (hb : FloatFormat.double.isNan b.toNat = false)
    (hc : FloatFormat.double.isNan c.toNat = false)
    (h : literalChars (.double b) = literalChars (.double c)) : b = c := by
  have hlt (b : UInt64) : b.toNat < 2 ^ (FloatFormat.double.fractionBits +
      FloatFormat.double.exponentBits + 1) := b.toNat_lt
  exact UInt64.toNat_inj.1 (FloatFormat.text_injective worded_floatWords (hlt b) (hlt c)
    (datum_ne_nan hb) (datum_ne_nan hc) h)

theorem plain_blob (bs : Bytes) :
    ∀ c ∈ literalChars (.blob bs), isDelimiter c = false ∧ c ≠ 'N' := by
  intro c hc
  rcases List.mem_cons.1 hc with rfl | hc
  · decide
  · rcases List.mem_cons.1 hc with rfl | hc
    · decide
    · exact (Text.inNumber_hex hc).plain

/-- whole numbers of one kind, or `null` -/
theorem apart_integer {α : Type} {mk : α → Value} {number : α → Int} {u v : Value}
    (htext : ∀ a, literalChars (mk a) = Text.integer (number a))
    (hinj : ∀ a b, number a = number b → a = b)
    (hu : u = null ∨ ∃ a, u = mk a) (hv : v = null ∨ ∃ a, v = mk a) (nu : u.isNan = false)
    (nv : v.isNan = false) : Apart literalChars u v := by
  refine apart_plain (fun a _ => ?_) (fun a b _ _ h => ?_) hu hv nu nv
  · rw [htext]
    exact fun _ hc => (Text.inNumber_integer hc).plain
  · rw [htext, htext] at h
    exact hinj a b (Text.integer_injective h)

/-! ## values with parts -/

/-- no literal is empty, and none begins as it could end -/
theorem literal_starts (v : Value) :
    ∃ c cs, literalChars v = c :: cs ∧ isDelimiter c = false := by
  have hplain {cs : List Char} (hne : cs ≠ []) (h : ∀ c ∈ cs, Text.InNumber c) :
      ∃ c rest, cs = c :: rest ∧ isDelimiter c = false := by
    cases cs with
    | nil => exact absurd rfl hne
    | cons c rest => exact ⟨c, rest, rfl, (h c List.mem_cons_self).plain.1⟩
  have hnatural (n : Nat) : Text.natural n ≠ [] :=
    List.ne_nil_of_length_pos Nat.length_toDigits_pos
  have hinteger (n : Int) : ∃ c rest, Text.integer n = c :: rest ∧ isDelimiter c = false := by
    refine hplain ?_ fun c => Text.inNumber_integer
    cases n with
    | ofNat n => exact hnatural n
    | negSucc n => exact List.cons_ne_nil _ _
  have huuid (u : Uuid) : ∃ c rest, u.text = c :: rest ∧ isDelimiter c = false := by
    refine hplain ?_ fun c => Text.inNumber_uuid
    intro h
    have hu := u.parse?_text
    rw [h] at hu
    cases hu
  have hfloat (f : FloatFormat) (bits : Nat) :
      ∃ c rest, f.text floatWords bits = c :: rest ∧ isDelimiter c = false := by
    unfold FloatFormat.text
    cases f.datum bits with
    | nan negative => exact ⟨_, _, rfl, rfl⟩
    | infinite negative => cases negative <;> exact ⟨_, _, rfl, rfl⟩
    | finite negative m q =>
      cases negative with
      | false =>
        obtain ⟨x, hx, -⟩ := FloatFormat.pointed_magnitude f m q
        obtain ⟨c, rest, d, htext, hd⟩ := hx.head
        exact ⟨c, rest, htext, (Text.inNumber_digit hd).plain.1⟩
      | true => exact ⟨_, _, rfl, rfl⟩
  cases v with
  | bool b => cases b <;> exact ⟨_, _, rfl, rfl⟩
  | tinyInt n => exact hinteger _
  | smallInt n => exact hinteger _
  | int n => exact hinteger _
  | bigInt n => exact hinteger _
  | counter n => exact hinteger _
  | time t => exact hinteger _
  | timestamp t => exact hinteger _
  | float bits => exact hfloat _ _
  | double bits => exact hfloat _ _
  | uuid u => exact huuid u
  | timeUuid u => exact huuid u
  | _ => exact ⟨_, _, rfl, rfl⟩

section
variable {α : Type} {text : α → List Char} {opening closing : Char}

theorem bracketed_append (opening closing : Char) (parts : List (List Char)) (r : List Char) :
    bracketed opening closing parts ++ r =
      opening :: (Text.joined [',', ' '] parts ++ closing :: r) := by
  rw [bracketed, List.cons_append, List.cons_append, List.append_assoc]
  rfl

/-- as many parts, which are told apart one by one -/
theorem bracketed_unique {xs ys : List α} (hapart : ∀ p ∈ xs.zip ys, Apart text p.1 p.2)
    (hempty : xs = [] ↔ ys = []) (hclosing : isDelimiter closing = true) (hcomma : closing ≠ ',')
    {r s : List Char} (h : bracketed opening closing (xs.map text) ++ r =
      bracketed opening closing (ys.map text) ++ s) : xs = ys ∧ r = s := by
  rw [bracketed_append, bracketed_append] at h
  exact Text.joined_unique hapart hempty hclosing hcomma (List.cons.inj h).2

/-- any count of parts, none of which begins with the closing bracket -/
theorem bracketed_unique_of_starts {xs ys : List α}
    (hapart : ∀ p ∈ xs.zip ys, Apart text p.1 p.2)
    (hstart : ∀ a, ∃ c cs, text a = c :: cs ∧ isDelimiter c = false)
    (hclosing : isDelimiter closing = true) (hcomma : closing ≠ ',')
    {r s : List Char} (h : bracketed opening closing (xs.map text) ++ r =
      bracketed opening closing (ys.map text) ++ s) : xs = ys ∧ r = s := by
  refine bracketed_unique hapart ?_ hclosing hcomma h
  rw [bracketed_append, bracketed_append] at h
  exact Text.empty_iff hstart hclosing (List.cons.inj h).2

end

theorem apart_entry {e f : Value × Value} (hk : Apart literalChars e.1 f.1)
    (hv : Apart literalChars e.2 f.2) : Apart entryChars e f := by
  intro r s hr hs h
  rw [entryChars, entryChars, List.append_assoc, List.append_assoc] at h
  obtain ⟨hkey, hrest⟩ := hk _ _ (ends_cons rfl _) (ends_cons rfl _) h
  obtain ⟨hvalue, hrs⟩ := hv _ _ hr hs (List.cons.inj (List.cons.inj hrest).2).2
  exact ⟨Prod.ext hkey hvalue, hrs⟩

/-- fields of one name, which may be of any characters -/
theorem apart_field {e f : String × Value} (hname : e.1 = f.1)
    (hv : Apart literalChars e.2 f.2) : Apart fieldChars e f := by
  intro r s hr hs h
  rw [fieldChars, fieldChars, List.append_assoc, List.append_assoc, hname] at h
  have hrest := List.append_cancel_left h
  obtain ⟨hvalue, hrs⟩ := hv _ _ hr hs (List.cons.inj (List.cons.inj hrest).2).2
  exact ⟨Prod.ext hname hvalue, hrs⟩

/-- the fields that one type has in two values -/
theorem zip_holdsFields {ts : List ColumnType} {xs ys : List Value} (hx : HoldsFields ts xs)
    (hy : HoldsFields ts ys) : ∀ p ∈ xs.zip ys, ∃ t ∈ ts, t.Holds p.1 ∧ t.Holds p.2 := by
  induction ts generalizing xs ys with
  | nil =>
    obtain rfl : xs = [] := hx
    exact nofun
  | cons t ts ih =>
    obtain ⟨x, xs, rfl, hx, hxs⟩ := hx
    obtain ⟨y, ys, rfl, hy, hys⟩ := hy
    rw [List.zip_cons_cons]
    refine List.forall_mem_cons.2 ⟨⟨t, List.mem_cons_self, hx, hy⟩, fun p hp => ?_⟩
    obtain ⟨t', ht', hp⟩ := ih hxs hys p hp
    exact ⟨t', List.mem_cons_of_mem _ ht', hp⟩

theorem zip_holdsNamed {fs : List (String × ColumnType)} {xs ys : List (String × Value)}
    (hx : HoldsNamed fs xs) (hy : HoldsNamed fs ys) : ∀ p ∈ xs.zip ys, ∃ f ∈ fs,
      p.1.1 = p.2.1 ∧ f.2.Holds p.1.2 ∧ f.2.Holds p.2.2 := by
  induction fs generalizing xs ys with
  | nil =>
    obtain rfl : xs = [] := hx
    exact nofun
  | cons f fs ih =>
    obtain ⟨x, xs, rfl, hx, hxs⟩ := hx
    obtain ⟨y, ys, rfl, hy, hys⟩ := hy
    rw [List.zip_cons_cons]
    refine List.forall_mem_cons.2 ⟨⟨f, List.mem_cons_self, rfl, hx, hy⟩, fun p hp => ?_⟩
    obtain ⟨f', hf', hp⟩ := ih hxs hys p hp
    exact ⟨f', List.mem_cons_of_mem _ hf', hp⟩

/-- as many or none on both sides -/
theorem empty_iff_of_length {α β : Type} {xs : List α} {ys : List β} (h : xs.length = ys.length) :
    xs = [] ↔ ys = [] := by
  rw [← List.length_eq_zero_iff, ← List.length_eq_zero_iff, h]

/-! ## one kind of type at a time -/

/-- the literals of the values of a type tell where they end and which value it is -/
def Legible (t : ColumnType) : Prop :=
  ∀ u v, t.Holds u → t.Holds v → u.NanFree → v.NanFree → Apart literalChars u v

theorem legible_scalar {t : ColumnType} (h : t.hasParts = false) : Legible t := by
  intro u v hu hv nu nv
  cases t with
  | ascii | text => exact apart_quoted (fun s => rfl) (fun s s' h => String.toList_inj.1 h) hu hv
  | date =>
    refine apart_quoted (fun d => ?_) (fun _ _ => Date.text_injective) hu hv
    exact congrArg quoted (doubled_of_not_mem d.quote_not_mem_text).symm
  | inet =>
    refine apart_quoted (fun a => ?_) (fun _ _ => Inet.text_injective) hu hv
    exact congrArg quoted (doubled_of_not_mem a.quote_not_mem_text).symm
  | bool =>
    refine apart_plain (fun b _ => ?_) (fun b b' _ _ h => ?_) hu hv nu.1 nv.1
    · cases b <;> exact plain_word rfl
    · cases b <;> cases b' <;> first | rfl | cases h
  | blob =>
    refine apart_plain (fun bs _ => plain_blob bs) (fun bs bs' _ _ h => ?_) hu hv nu.1 nv.1
    exact Bytes.hex_injective (List.cons.inj (List.cons.inj h).2).2
  | uuid | timeUuid =>
    refine apart_plain (fun u _ c hc => ?_) (fun u w _ _ h => ?_) hu hv nu.1 nv.1
    · exact (Text.inNumber_uuid hc).plain
    · exact Uuid.text_injective h
  | float =>
    refine apart_plain (fun bits h => ?_) (fun b c h h' heq => ?_) hu hv nu.1 nv.1
    · exact plain_float h
    · exact float_injective h h' heq
  | double =>
    refine apart_plain (fun bits h => ?_) (fun b c h h' heq => ?_) hu hv nu.1 nv.1
    · exact plain_float h
    · exact double_injective h h' heq
  | tinyInt => exact apart_integer (fun _ => rfl) (fun _ _ h => Int8.toInt_inj.1 h) hu hv nu.1 nv.1
  | smallInt =>
    exact apart_integer (fun _ => rfl) (fun _ _ h => Int16.toInt_inj.1 h) hu hv nu.1 nv.1
  | int => exact apart_integer (fun _ => rfl) (fun _ _ h => Int32.toInt_inj.1 h) hu hv nu.1 nv.1
  | bigInt | counter =>
    exact apart_integer (fun _ => rfl) (fun _ _ h => Int64.toInt_inj.1 h) hu hv nu.1 nv.1
  | time =>
    exact apart_integer (fun _ => rfl) (fun _ _ h => Time.ext (Int64.toInt_inj.1 h)) hu hv nu.1 nv.1
  | timestamp =>
    exact apart_integer (fun _ => rfl) (fun _ _ h => Timestamp.ext (Int64.toInt_inj.1 h)) hu hv
      nu.1 nv.1
  | decimal | duration | varint | custom _ =>
    obtain rfl : u = null := hu
    obtain rfl : v = null := hv
    exact fun r s _ _ h => ⟨rfl, List.append_cancel_left h⟩
  | list _ | set _ | map _ _ | tuple _ | udt _ _ _ => cases h

/-- elements of one type, any count of them -/
theorem items_unique {t : ColumnType} (ht : Legible t) {xs ys : List Value}
    (hx : ∀ x ∈ xs, t.Holds x ∧ x.NanFree) (hy : ∀ y ∈ ys, t.Holds y ∧ y.NanFree)
    {opening closing : Char} (hclosing : isDelimiter closing = true) (hcomma : closing ≠ ',')
    {r s : List Char}
    (h : bracketed opening closing (literals xs) ++ r =
      bracketed opening closing (literals ys) ++ s) : xs = ys ∧ r = s := by
  rw [literals_eq_map, literals_eq_map] at h
  refine bracketed_unique_of_starts (fun p hp => ?_) literal_starts hclosing hcomma h
  obtain ⟨hpx, hpy⟩ := List.of_mem_zip hp
  exact ht _ _ (hx _ hpx).1 (hy _ hpy).1 (hx _ hpx).2 (hy _ hpy).2

theorem legible_list {t : ColumnType} (ht : Legible t) : Legible (.list t) := by
  rintro _ _ ⟨xs, rfl, hx⟩ ⟨ys, rfl, hy⟩ nu nv r s _ _ h
  obtain ⟨rfl, hrs⟩ := items_unique ht
    (fun x hm => ⟨hx x hm, nu.part (List.mem_map_of_mem hm)⟩)
    (fun y hm => ⟨hy y hm, nv.part (List.mem_map_of_mem hm)⟩) rfl (by decide) h
  exact ⟨rfl, hrs⟩

theorem legible_set {t : ColumnType} (ht : Legible t) : Legible (.set t) := by
  rintro _ _ ⟨xs, rfl, hx⟩ ⟨ys, rfl, hy⟩ nu nv r s _ _ h
  obtain ⟨rfl, hrs⟩ := items_unique ht
    (fun x hm => ⟨hx x hm, nu.part (List.mem_map_of_mem hm)⟩)
    (fun y hm => ⟨hy y hm, nv.part (List.mem_map_of_mem hm)⟩) rfl (by decide) h
  exact ⟨rfl, hrs⟩

theorem legible_map {k w : ColumnType} (hk : Legible k) (hw : Legible w) :
    Legible (.map k w) := by
  rintro _ _ ⟨es, rfl, he⟩ ⟨fs, rfl, hf⟩ nu nv r s _ _ h
  rw [literalChars, literalChars, entryLiterals_eq_map, entryLiterals_eq_map] at h
  have hparts {es : List (Value × Value)} (n : (map es).NanFree) {e : Value × Value}
      (hm : e ∈ es) : e.1.NanFree ∧ e.2.NanFree :=
    ⟨n.part (entry_mem_parts hm).1, n.part (entry_mem_parts hm).2⟩
  have hapart : ∀ p ∈ es.zip fs, Apart entryChars p.1 p.2 := by
    intro p hp
    obtain ⟨hpe, hpf⟩ := List.of_mem_zip hp
    exact apart_entry
      (hk _ _ (he _ hpe).1 (hf _ hpf).1 (hparts nu hpe).1 (hparts nv hpf).1)
      (hw _ _ (he _ hpe).2 (hf _ hpf).2 (hparts nu hpe).2 (hparts nv hpf).2)
  have hstart (e : Value × Value) : ∃ c cs, entryChars e = c :: cs ∧ isDelimiter c = false := by
    obtain ⟨c, cs, hkey, hc⟩ := literal_starts e.1
    exact ⟨c, _, by rw [entryChars, hkey]; rfl, hc⟩
  obtain ⟨rfl, hrs⟩ := bracketed_unique_of_starts hapart hstart rfl (by decide) h
  exact ⟨rfl, hrs⟩

theorem legible_tuple {ts : List ColumnType} (hts : ∀ t ∈ ts, Legible t) :
    Legible (.tuple ts) := by
  intro u v hu hv nu nv
  refine apart_or_null (p := fun w => ∃ xs, w = tuple xs ∧ HoldsFields ts xs) ?_ ?_ hu hv
  · rintro _ ⟨xs, rfl, -⟩
    exact ⟨_, _, rfl, by decide⟩
  · rintro ⟨xs, rfl, hx⟩ ⟨ys, rfl, hy⟩ r s _ _ h
    rw [literalChars, literalChars, literals_eq_map, literals_eq_map] at h
    have hapart : ∀ p ∈ xs.zip ys, Apart literalChars p.1 p.2 := by
      intro p hp
      obtain ⟨hpx, hpy⟩ := List.of_mem_zip hp
      obtain ⟨t, ht, hxt, hyt⟩ := zip_holdsFields hx hy p hp
      exact hts t ht _ _ hxt hyt (nu.part (List.mem_map_of_mem hpx))
        (nv.part (List.mem_map_of_mem hpy))
    have hlength := (ColumnType.length_of_holdsFields hx).trans
      (ColumnType.length_of_holdsFields hy).symm
    obtain ⟨rfl, hrs⟩ := bracketed_unique hapart (empty_iff_of_length hlength) rfl (by decide) h
    exact ⟨rfl, hrs⟩

theorem legible_udt {keyspace name : String} {fs : List (String × ColumnType)}
    (hfs : ∀ f ∈ fs, Legible f.2) : Legible (.udt keyspace name fs) := by
  intro u v hu hv nu nv
  refine apart_or_null (p := fun w => ∃ xs, w = udt name xs ∧ HoldsNamed fs xs) ?_ ?_ hu hv
  · rintro _ ⟨xs, rfl, -⟩
    exact ⟨_, _, rfl, by decide⟩
  · rintro ⟨xs, rfl, hx⟩ ⟨ys, rfl, hy⟩ r s _ _ h
    rw [literalChars, literalChars, fieldLiterals_eq_map, fieldLiterals_eq_map] at h
    have hapart : ∀ p ∈ xs.zip ys, Apart fieldChars p.1 p.2 := by
      intro p hp
      obtain ⟨hpx, hpy⟩ := List.of_mem_zip hp
      obtain ⟨f, hf, hname, hxf, hyf⟩ := zip_holdsNamed hx hy p hp
      exact apart_field hname (hfs f hf _ _ hxf hyf (nu.part (List.mem_map_of_mem hpx))
        (nv.part (List.mem_map_of_mem hpy)))
    have hnames := (ColumnType.names_of_holdsNamed hx).trans
      (ColumnType.names_of_holdsNamed hy).symm
    have hlength : xs.length = ys.length := by simpa using congrArg List.length hnames
    obtain ⟨rfl, hrs⟩ := bracketed_unique hapart (empty_iff_of_length hlength) rfl (by decide) h
    exact ⟨rfl, hrs⟩

theorem legible (t : ColumnType) : Legible t := by
  induction t with
  | list t ih => exact legible_list ih
  | set t ih => exact legible_set ih
  | map k w ihk ihw => exact legible_map ihk ihw
  | tuple ts ih => exact legible_tuple ih
  | udt keyspace name fs ih => exact legible_udt ih
  | _ => exact legible_scalar rfl

/-- Two values of one type with the same literal are the same value, with the elements of sets and
the entries of maps in the same order, whatever the characters of the texts and of the names of
fields are.  Nothing but `NaN` is the literal of several bit patterns. -/
theorem literal_injective {t : ColumnType} {u v : Value} (hu : t.Holds u) (hv : t.Holds v)
    (nu : u.NanFree) (nv : v.NanFree) (h : u.literal = v.literal) : u = v := by
  have hchars : literalChars u ++ [] = literalChars v ++ [] := by
    rw [← toList_literal, ← toList_literal, h]
  exact (legible t u v hu hv nu nv [] [] ends_nil ends_nil hchars).1

/-- a record of odd names with a map from texts to lists, whose quotes and commas do not end them;
in the second value the map is put together entry by entry, and one entry is overwritten -/
theorem literal_injective_odd :
    let t : ColumnType := .udt "ks" "odd" [("a: '", .map .text (.list .double)), ("\x7d, ", .date)]
    let value (m : Value) : Value := .udt "odd" [("a: '", m), ("\x7d, ", .date ⟨0⟩)]
    let u := value (.map [(.text "', '", .list [.double 0x8000000000000000, .double 1]),
      (.text "]\x7d", .list [])])
    let v := value (.mapOf [(.text "', '", .null), (.text "]\x7d", .list []),
      (.text "', '", .list [.double 0x8000000000000000, .double 1])])
    t.Holds u ∧ t.Holds v ∧ u.NanFree ∧ v.NanFree ∧ u.literal = v.literal ∧ u = v := by
  intro t value u v
  have hu : t.Holds u := by
    refine .inr ⟨_, rfl, _, _, rfl, ⟨_, rfl, ?_⟩, _, _, rfl, .inr ⟨_, rfl⟩, rfl⟩
    simp only [List.forall_mem_cons]
    refine ⟨⟨.inr ⟨_, rfl⟩, _, rfl, ?_⟩, ⟨.inr ⟨_, rfl⟩, _, rfl, nofun⟩, nofun⟩
    exact List.forall_mem_cons.2 ⟨.inr ⟨_, rfl⟩, List.forall_mem_singleton.2 (.inr ⟨_, rfl⟩)⟩
  have nu : u.NanFree := ⟨rfl, by decide⟩
  have hsame : v = u := rfl
  have hv : t.Holds v := hsame ▸ hu
  have nv : v.NanFree := hsame ▸ nu
  have h : u.literal = v.literal := congrArg literal hsame.symm
  exact ⟨hu, hv, nu, nv, h, literal_injective hu hv nu nv h⟩

end Value

end Cql
