import Cql.Cell.Growth
import Cql.Proofs.Framing
import Cql.Proofs.RoundTrip
import Cql.Value.Within

/-!
# Old cells under a type that gained fields

A reader takes the fields that are not there as null, so the bytes that were written when a type had
fewer fields are read under the grown type, and stand for the padded value.  This holds of all bytes
that the old type accepts, not only of those a writer makes (`Carries`).

Where padded values are the elements of a set or the keys of a map, no two of them may fall
together: padding adds the same to all values of one type, so it keeps equal what was equal and
apart what was not (`Keeps`), and the reader leaves out the same elements as before.

The other way about there is no reading: cells that a type has no fields for are trailing.

* `carries`             a body of the old type is one of the grown type, and denotes the padded value;
* `length_le_of_body`   fields are no fewer than the cells of their body;
* `decode_grown`        old cells under the grown type, and a grown value under a shorter type.
-/

namespace Cql

namespace Value

/-! ## values that go through a function one by one -/

section
variable {f g : Value → Value} {xs ys : List Value}

theorem eqvItems_map (h : ∀ x ∈ xs, ∀ y ∈ ys, eqv (f x) (f y) = eqv x y) :
    eqvItems (xs.map f) (ys.map f) = eqvItems xs ys := by
  induction xs generalizing ys with
  | nil => cases ys <;> rfl
  | cons x xs ih =>
    cases ys with
    | nil => rfl
    | cons y ys =>
      have hrest : ∀ a ∈ xs, ∀ b ∈ ys, eqv (f a) (f b) = eqv a b := fun a ha b hb =>
        h a (List.mem_cons_of_mem _ ha) b (List.mem_cons_of_mem _ hb)
      rw [List.map_cons, List.map_cons, eqvItems, eqvItems, ih hrest,
        h x List.mem_cons_self y List.mem_cons_self]

theorem any_map {x : Value} (h : ∀ y ∈ ys, eqv (f x) (f y) = eqv x y) :
    (ys.map f).any (fun y => eqv (f x) y) = ys.any fun y => eqv x y := by
  induction ys with
  | nil => rfl
  | cons y ys ih =>
    obtain ⟨hy, hys⟩ := List.forall_mem_cons.1 h
    rw [List.map_cons, List.any_cons, List.any_cons, hy, ih hys]

theorem eqvWithin_map (h : ∀ x ∈ xs, ∀ y ∈ ys, eqv (f x) (f y) = eqv x y) :
    eqvWithin (xs.map f) (ys.map f) = eqvWithin xs ys := by
  induction xs with
  | nil => rfl
  | cons x xs ih =>
    obtain ⟨hx, hxs⟩ := List.forall_mem_cons.1 h
    rw [List.map_cons, eqvWithin, eqvWithin, any_map hx, ih hxs]

/-- the elements that stay are the same ones -/
theorem firsts_map (h : ∀ x ∈ xs, ∀ y ∈ xs, eqv (f x) (f y) = eqv x y) :
    firsts (xs.map f) = (firsts xs).map f := by
  induction xs using List.reverseRecOn with
  | nil => rfl
  | append_singleton xs x ih =>
    have hmem : ∀ {y}, y ∈ xs → y ∈ xs ++ [x] := List.mem_append_left [x]
    have hlast : x ∈ xs ++ [x] := List.mem_append_right xs (List.mem_singleton_self x)
    have hany : ((firsts xs).map f).any (fun y => f x == y) = (firsts xs).any fun y => x == y :=
      any_map fun y hy => h x hlast y (hmem ((firsts_sublist xs).subset hy))
    rw [List.map_append, List.map_singleton, firsts_concat, firsts_concat,
      ih fun a ha b hb => h a (hmem ha) b (hmem hb), addElement, addElement, hany]
    split
    · rfl
    · rw [List.map_append, List.map_singleton]

/-! ## entries whose keys and values do -/

theorem entryOf?_map {k : Value} {fs : List (Value × Value)}
    (h : ∀ e ∈ fs, eqv (f k) (f e.1) = eqv k e.1) :
    entryOf? (f k) (fs.map (Prod.map f g)) = (entryOf? k fs).map (Prod.map f g) := by
  unfold entryOf?
  induction fs with
  | nil => rfl
  | cons e fs ih =>
    obtain ⟨he, hfs⟩ := List.forall_mem_cons.1 h
    have hkey : eqv (f k) (Prod.map f g e).1 = eqv k e.1 := he
    rw [List.map_cons, List.find?_cons, List.find?_cons, hkey, ih hfs]
    cases eqv k e.1 <;> rfl

theorem eqvLookup_map {es fs : List (Value × Value)}
    (hf : ∀ e ∈ es, ∀ e' ∈ fs, eqv (f e.1) (f e'.1) = eqv e.1 e'.1)
    (hg : ∀ e ∈ es, ∀ e' ∈ fs, eqv (g e.2) (g e'.2) = eqv e.2 e'.2) :
    eqvLookup (es.map (Prod.map f g)) (fs.map (Prod.map f g)) = eqvLookup es fs := by
  induction es with
  | nil => rfl
  | cons e es ih =>
    obtain ⟨hk, hks⟩ := List.forall_mem_cons.1 hf
    obtain ⟨hv, hvs⟩ := List.forall_mem_cons.1 hg
    obtain ⟨k, v⟩ := e
    have hfind := entryOf?_map (g := g) hk
    unfold entryOf? at hfind
    rw [List.map_cons, Prod.map, eqvLookup, eqvLookup, ih hks hvs, hfind]
    cases hw : fs.find? fun e' => eqv k e'.1 with
    | none => rfl
    | some e' =>
      have hvalue := hv e' (List.mem_of_find?_eq_some hw)
      exact congrArg (· && eqvLookup es fs) hvalue

/-- the keys that stay are the same ones, and have the same values -/
theorem ofList_map {es : List (Value × Value)}
    (h : ∀ e ∈ es, ∀ e' ∈ es, eqv (f e.1) (f e'.1) = eqv e.1 e'.1) :
    Entries.ofList (es.map (Prod.map f g)) = (Entries.ofList es).map (Prod.map f g) := by
  induction es using List.reverseRecOn with
  | nil => rfl
  | append_singleton es e ih =>
    have hmem : ∀ {a}, a ∈ es → a ∈ es ++ [e] := List.mem_append_left [e]
    have hlast : e ∈ es ++ [e] := List.mem_append_right es (List.mem_singleton_self e)
    have hkeys : ∀ a ∈ Entries.ofList es, eqv (f e.1) (f a.1) = eqv e.1 a.1 ∧ True :=
      Entries.forall_ofList (p := fun k => eqv (f e.1) (f k) = eqv e.1 k) (q := fun _ => True)
        fun b hb => ⟨h e hlast b (hmem hb), trivial⟩
    rw [List.map_append, List.map_singleton, Entries.ofList_concat, Entries.ofList_concat,
      ih fun a ha b hb => h a (hmem ha) b (hmem hb)]
    exact Entries.put_map (fun a ha => (hkeys a ha).1) g e.2

end

theorem eqvFields_zip {names : List String} {xs ys : List Value}
    (hx : xs.length = names.length) (hy : ys.length = names.length) :
    eqvFields (names.zip xs) (names.zip ys) = eqvItems xs ys := by
  induction names generalizing xs ys with
  | nil =>
    rw [List.length_eq_zero_iff.1 hx, List.length_eq_zero_iff.1 hy]
    rfl
  | cons name names ih =>
    cases xs with
    | nil => cases hx
    | cons x xs =>
      cases ys with
      | nil => cases hy
      | cons y ys =>
        have hrest := ih (Nat.succ.inj hx) (Nat.succ.inj hy)
        show (name == name && eqv x y && eqvFields (names.zip xs) (names.zip ys)) = _
        rw [hrest, beq_self_eq_true, Bool.true_and, eqvItems]

end Value

namespace Cell

open ColumnType (Holds HoldsFields HoldsNamed Grown GrownFields)
open Value (eqv eqvItems eqvFields)

/-! ## padding keeps what is equal and what is not -/

/-- two values that a column of type `t` holds are equal just if the padded ones are -/
def Keeps (t : ColumnType) : Prop :=
  ∀ t' x y, Grown t t' → t.Holds x → t.Holds y → eqv (pad t' x) (pad t' y) = eqv x y

theorem eqvItems_padFields {ts ts' : List ColumnType} (hk : ∀ t ∈ ts, Keeps t)
    (hg : GrownFields ts ts') {xs ys : List Value} (hx : HoldsFields ts xs)
    (hy : HoldsFields ts ys) :
    eqvItems (padFields ts' xs) (padFields ts' ys) = eqvItems xs ys := by
  induction ts generalizing ts' xs ys with
  | nil =>
    obtain rfl : xs = [] := hx
    obtain rfl : ys = [] := hy
    -- the same is added to both
    have hsame : List.Forall₂ Value.Same (padFields ts' []) (padFields ts' []) := by
      rw [padFields_nil]
      refine List.forall₂_same.2 fun v hv => ?_
      obtain ⟨t, _, rfl⟩ := List.mem_map.1 hv
      exact Value.beq_refl (distinct_nullValue t)
    exact Value.eqvItems_iff.2 hsame
  | cons t ts ih =>
    obtain ⟨ht, hts⟩ := List.forall_mem_cons.1 hk
    obtain ⟨x, xs, rfl, hx, hxs⟩ := hx
    obtain ⟨y, ys, rfl, hy, hys⟩ := hy
    cases hg with
    | cons hg hgs =>
      rw [padFields, padFields, eqvItems, eqvItems, ht _ x y hg hx hy, ih hts hgs hxs hys]

/-- so it is of the fields with their names, which both have from the type -/
theorem eqvFields_padNamed {fs fs' : List (String × ColumnType)} (hk : ∀ f ∈ fs, Keeps f.2)
    (hn : fs.map Prod.fst <+: fs'.map Prod.fst)
    (hg : GrownFields (fs.map Prod.snd) (fs'.map Prod.snd)) {xs ys : List (String × Value)}
    (hx : HoldsNamed fs xs) (hy : HoldsNamed fs ys) :
    eqvFields (padNamed fs' xs) (padNamed fs' ys) = eqvFields xs ys := by
  obtain ⟨us, rfl, hu⟩ := holdsNamed_iff.1 hx
  obtain ⟨vs, rfl, hv⟩ := holdsNamed_iff.1 hy
  have hlen : ∀ {zs : List Value}, HoldsFields (fs.map Prod.snd) zs →
      zs.length = (fs.map Prod.fst).length := by
    intro zs hz
    rw [ColumnType.length_of_holdsFields hz, List.length_map, List.length_map]
  have hpad : ∀ {zs : List Value}, HoldsFields (fs.map Prod.snd) zs →
      (padFields (fs'.map Prod.snd) zs).length = (fs'.map Prod.fst).length := by
    intro zs hz
    have hle : zs.length ≤ (fs'.map Prod.snd).length := by
      rw [ColumnType.length_of_holdsFields hz]
      exact hg.length_le
    rw [length_padFields hle, List.length_map, List.length_map]
  have hfields := eqvItems_padFields (List.forall_mem_map.2 hk) hg hu hv
  rw [padNamed_zip hn (hlen hu), padNamed_zip hn (hlen hv),
    Value.eqvFields_zip (hlen hu) (hlen hv), Value.eqvFields_zip (hpad hu) (hpad hv), hfields]

theorem keeps_tuple {ts : List ColumnType} (hk : ∀ t ∈ ts, Keeps t) : Keeps (.tuple ts) := by
  intro t' x y hu hx hy
  obtain ⟨ts', rfl, hg⟩ := hu.of_tuple
  rcases hx with rfl | ⟨xs, rfl, hx⟩ <;> rcases hy with rfl | ⟨ys, rfl, hy⟩
  · rfl
  · rfl
  · rfl
  · exact eqvItems_padFields hk hg hx hy

theorem keeps_udt {keyspace name : String} {fs : List (String × ColumnType)}
    (hk : ∀ f ∈ fs, Keeps f.2) : Keeps (.udt keyspace name fs) := by
  intro t' x y hu hx hy
  obtain ⟨fs', rfl, hn, hg⟩ := hu.of_udt
  rcases hx with rfl | ⟨xs, rfl, hx⟩ <;> rcases hy with rfl | ⟨ys, rfl, hy⟩
  · rfl
  · rfl
  · rfl
  · exact congrArg (name == name && ·) (eqvFields_padNamed hk hn hg hx hy)

theorem keeps (t : ColumnType) : Keeps t := by
  induction t with
  | list t ih =>
    intro t' x y hu hx hy
    obtain ⟨t', rfl, hg⟩ := hu.of_list
    obtain ⟨xs, rfl, hx⟩ := hx
    obtain ⟨ys, rfl, hy⟩ := hy
    exact Value.eqvItems_map fun x hxm y hym => ih t' x y hg (hx x hxm) (hy y hym)
  | set t ih =>
    intro t' x y hu hx hy
    obtain ⟨t', rfl, hg⟩ := hu.of_set
    obtain ⟨xs, rfl, hx⟩ := hx
    obtain ⟨ys, rfl, hy⟩ := hy
    have hwithin : Value.eqvWithin (xs.map (pad t')) (ys.map (pad t')) = _ :=
      Value.eqvWithin_map fun x hxm y hym => ih t' x y hg (hx x hxm) (hy y hym)
    show ((xs.map (pad t')).length == (ys.map (pad t')).length && _) = _
    rw [hwithin, List.length_map, List.length_map]
    rfl
  | map k w ihk ihw =>
    intro t' x y hu hx hy
    obtain ⟨k', w', rfl, hk, hw⟩ := hu.of_map
    obtain ⟨es, rfl, hx⟩ := hx
    obtain ⟨fs, rfl, hy⟩ := hy
    have hlookup : Value.eqvLookup (es.map (Prod.map (pad k') (pad w')))
        (fs.map (Prod.map (pad k') (pad w'))) = _ :=
      Value.eqvLookup_map
        (fun e he f hf => ihk k' e.1 f.1 hk (hx e he).1 (hy f hf).1)
        (fun e he f hf => ihw w' e.2 f.2 hw (hx e he).2 (hy f hf).2)
    show ((es.map (Prod.map (pad k') (pad w'))).length ==
      (fs.map (Prod.map (pad k') (pad w'))).length && _) = _
    rw [hlookup, List.length_map, List.length_map]
    rfl
  | tuple ts ih => exact keeps_tuple ih
  | udt keyspace name fs ih => exact keeps_udt ih
  | _ =>
    intro t' x y hg _ _
    cases hg
    rfl

/-! ## the same bytes under the grown type -/

/-- a body of type `t` denotes the padded value under every type that came from `t` -/
def Carries (t : ColumnType) : Prop :=
  ∀ t' bs v, Grown t t' → Denotes t bs v → Denotes t' bs (pad t' v)

theorem pad_nullValue {t t' : ColumnType} (hg : Grown t t') :
    pad t' (nullValue t) = nullValue t' := by
  cases hg with
  | same h => cases t <;> rfl
  | _ => rfl

theorem carries_cell {t t' : ColumnType} (ht : Carries t) (hg : Grown t t') {cell : Bytes}
    {v : Value} (h : DenotesCell t cell v) : DenotesCell t' cell (pad t' v) := by
  cases h with
  | null =>
    rw [pad_nullValue hg]
    exact .null t'
  | body hb hl => exact .body (ht t' _ v hg hb) hl

theorem carries_parts {t t' : ColumnType} (ht : Carries t) (hg : Grown t t') {bs : Bytes}
    {xs : List Value} (h : Parts t bs xs) : Parts t' bs (xs.map (pad t')) := by
  induction xs generalizing bs with
  | nil =>
    cases h
    exact .nil t'
  | cons x xs ih =>
    cases h with
    | cons hc hs => exact .cons (carries_cell ht hg hc) (ih hs)

theorem carries_pairs {k k' w w' : ColumnType} (hk : Carries k) (hw : Carries w)
    (hgk : Grown k k') (hgw : Grown w w') {bs : Bytes} {es : List (Value × Value)}
    (h : Pairs k w bs es) : Pairs k' w' bs (es.map (Prod.map (pad k') (pad w'))) := by
  induction es generalizing bs with
  | nil =>
    cases h
    exact .nil k' w'
  | cons e es ih =>
    cases h with
    | cons hx hy hs => exact .cons (carries_cell hk hgk hx) (carries_cell hw hgw hy) (ih hs)

theorem padFields_nullValue {ts ts' : List ColumnType} (hg : GrownFields ts ts') :
    padFields ts' (ts.map nullValue) = ts'.map nullValue := by
  induction ts generalizing ts' with
  | nil => exact padFields_nil ts'
  | cons t ts ih =>
    cases hg with
    | cons hg hgs => rw [List.map_cons, padFields, pad_nullValue hg, ih hgs, List.map_cons]

/-- where the cells stop, the rest is null under both types -/
theorem carries_fields {ts ts' : List ColumnType} (ht : ∀ t ∈ ts, Carries t)
    (hg : GrownFields ts ts') {bs : Bytes} {xs : List Value} (h : Fields ts bs xs) :
    Fields ts' bs (padFields ts' xs) := by
  induction ts generalizing ts' bs xs with
  | nil =>
    cases h
    rw [List.map_nil, padFields_nil]
    exact .absent ts'
  | cons t ts ih =>
    cases h with
    | absent =>
      rw [padFields_nullValue hg]
      exact .absent ts'
    | cons hc hs =>
      obtain ⟨ht, hts⟩ := List.forall_mem_cons.1 ht
      cases hg with
      | cons hg hgs => exact .cons (carries_cell ht hg hc) (ih hts hgs hs)

theorem carries_list {t : ColumnType} (ht : Carries t) : Carries (.list t) := by
  intro t' _ _ hu hd
  obtain ⟨t', rfl, hg⟩ := hu.of_list
  cases hd with
  | @list _ _ xs hs hl =>
    have hlen : (xs.map (pad t')).length = xs.length := List.length_map _
    have hpad := Denotes.list (carries_parts ht hg hs) (hlen ▸ hl)
    rwa [hlen] at hpad

theorem carries_set {t : ColumnType} (ht : Carries t) : Carries (.set t) := by
  intro t' _ _ hu hd
  obtain ⟨t', rfl, hg⟩ := hu.of_set
  cases hd with
  | @set _ _ xs hs hl =>
    have hx := held_of_parts (sound t) hs
    have hmade : Value.setOf (xs.map (pad t')) = .set ((Value.firsts xs).map (pad t')) :=
      congrArg Value.set (Value.firsts_map fun x hxm y hym =>
        keeps t t' x y hg (hx x hxm).1 (hx y hym).1)
    have hlen : (xs.map (pad t')).length = xs.length := List.length_map _
    have hpad := Denotes.set (carries_parts ht hg hs) (hlen ▸ hl)
    rwa [hmade, hlen] at hpad

theorem carries_map {k w : ColumnType} (hk : Carries k) (hw : Carries w) :
    Carries (.map k w) := by
  intro t' _ _ hu hd
  obtain ⟨k', w', rfl, hgk, hgw⟩ := hu.of_map
  cases hd with
  | @map _ _ _ es hs hl =>
    have he := held_of_pairs (sound k) (sound w) hs
    have hmade : Value.mapOf (es.map (Prod.map (pad k') (pad w'))) =
        .map ((Entries.ofList es).map (Prod.map (pad k') (pad w'))) :=
      congrArg Value.map (Value.ofList_map fun e hem f hfm =>
        keeps k k' e.1 f.1 hgk (he e hem).1.1 (he f hfm).1.1)
    have hlen : (es.map (Prod.map (pad k') (pad w'))).length = es.length := List.length_map _
    have hpad := Denotes.map (carries_pairs hk hw hgk hgw hs) (hlen ▸ hl)
    rwa [hmade, hlen] at hpad

theorem carries_tuple {ts : List ColumnType} (ht : ∀ t ∈ ts, Carries t) :
    Carries (.tuple ts) := by
  intro t' _ _ hu hd
  obtain ⟨ts', rfl, hg⟩ := hu.of_tuple
  cases hd with
  | tuple hs => exact .tuple (carries_fields ht hg hs)

theorem carries_udt {keyspace name : String} {fs : List (String × ColumnType)}
    (ht : ∀ f ∈ fs, Carries f.2) : Carries (.udt keyspace name fs) := by
  intro t' _ _ hu hd
  obtain ⟨fs', rfl, hn, hg⟩ := hu.of_udt
  cases hd with
  | @udt _ _ _ _ xs hs =>
    have hlen : xs.length = (fs.map Prod.fst).length := by
      rw [length_of_fields hs, List.length_map, List.length_map]
    have hpad := carries_fields (List.forall_mem_map.2 ht) hg hs
    show Denotes _ _ (.udt name (padNamed fs' ((fs.map Prod.fst).zip xs)))
    rw [padNamed_zip hn hlen]
    exact .udt hpad

theorem carries (t : ColumnType) : Carries t := by
  induction t with
  | list t ih => exact carries_list ih
  | set t ih => exact carries_set ih
  | map k w ihk ihw => exact carries_map ihk ihw
  | tuple ts ih => exact carries_tuple ih
  | udt keyspace name fs ih => exact carries_udt ih
  | _ =>
    intro t' bs v hg hd
    cases hg
    exact hd

/-- whatever bytes are read under a type are read under the grown type, as the padded value -/
theorem decode_pad {t t' : ColumnType} (hg : Grown t t') {cell : Option Bytes} {v : Value}
    (h : decode t cell = .ok v) : decode t' cell = .ok (pad t' v) := by
  cases cell with
  | none =>
    cases Except.ok.inj h
    rw [pad_nullValue hg]
    rfl
  | some bs =>
    have hd : Denotes t bs v := (decodeBody_iff t bs v).1 h
    exact (decodeBody_iff t' bs (pad t' v)).2 (carries t t' bs v hg hd)

/-! ## cells that a type has no fields for -/

theorem faultless_parts (holder : Holder) {xs : List Value} (h : faultInParts? holder xs = none) :
    ∀ x ∈ xs, x ≠ .unset ∧ Fits x := by
  induction xs with
  | nil => exact fun _ hx => nomatch hx
  | cons x xs ih =>
    rw [faultInParts?] at h
    obtain ⟨hx, hxs⟩ := Option.or_eq_none_iff.1 h
    have hu : x ≠ .unset := by
      rintro rfl
      cases hx
    rw [faultOfPart_of_ne holder hu] at hx
    exact List.forall_mem_cons.2 ⟨⟨hu, fits_of_fault? hx⟩, ih hxs⟩

/-- fields are no fewer than the cells of their body -/
theorem length_le_of_body {ts : List ColumnType} {xs ys : List Value}
    (hx : ∀ x ∈ xs, x ≠ .unset ∧ Fits x) (h : Fields ts (bodyOfParts xs) ys) :
    xs.length ≤ ts.length := by
  induction ts generalizing xs ys with
  | nil =>
    have hb := length_bodyOfParts xs
    generalize hw : bodyOfParts xs = bs at h hb
    cases h
    exact hb
  | cons t ts ih =>
    cases xs with
    | nil => exact Nat.zero_le _
    | cons x xs =>
      obtain ⟨⟨hu, hf⟩, hxs⟩ := List.forall_mem_cons.1 hx
      have hcell := framed_encode hu hf
      have hne : bodyOfParts (x :: xs) ≠ [] := by
        intro he
        have hl := hcell.length_le
        rw [bodyOfParts_cons] at he
        rw [(List.append_eq_nil_iff.1 he).1] at hl
        cases hl
      obtain ⟨cell, rest, y, zs, hb, _, hc, hs⟩ := (fields_cons_iff hne).1 h
      rw [bodyOfParts_cons] at hb
      -- both cells end in the same place
      rw [← hcell.rest_eq hc.framed hb] at hs
      exact Nat.succ_le_succ (ih hxs hs)

/-- what is written of a value with fields are the cells of the fields, and these are faultless -/
theorem body?_of_fields {v : Value} {xs : List Value} (hv : v.fields? = some xs)
    {cell : Option Bytes} (h : body? v = .ok cell) :
    cell = some (bodyOfParts xs) ∧ ∀ x ∈ xs, x ≠ .unset ∧ Fits x := by
  have hwritten : ∀ holder : Holder, v ≠ .null → v ≠ .unset →
      faultWithin? v = faultInParts? holder xs → body v = bodyOfParts xs →
      cell = some (bodyOfParts xs) ∧ ∀ x ∈ xs, x ≠ .unset ∧ Fits x := by
    intro holder hn hu hfault hbody
    rw [body?_eq hn hu, hfault, hbody] at h
    cases hw : faultInParts? holder xs with
    | some e =>
      rw [hw] at h
      cases h
    | none =>
      rw [hw] at h
      exact ⟨(Except.ok.inj h).symm, faultless_parts holder hw⟩
  cases v with
  | tuple ys =>
    cases Option.some.inj hv
    exact hwritten .tuple nofun nofun rfl rfl
  | udt name fs =>
    cases Option.some.inj hv
    exact hwritten .udt nofun nofun (faultInFields?_eq fs) (bodyOfFields_eq fs)
  | _ => cases hv

theorem fields_of_denotes {t : ColumnType} {ts : List ColumnType} (ht : t.fields? = some ts)
    {bs : Bytes} {v : Value} (h : Denotes t bs v) : ∃ xs, Fields ts bs xs := by
  cases h with
  | tuple hs =>
    cases Option.some.inj ht
    exact ⟨_, hs⟩
  | udt hs =>
    cases Option.some.inj ht
    exact ⟨_, hs⟩
  | _ => cases ht

theorem decode_of_fewer {t : ColumnType} {ts : List ColumnType} {v : Value} {xs : List Value}
    {cell : Option Bytes} (ht : t.fields? = some ts) (hv : v.fields? = some xs)
    (hlt : ts.length < xs.length) (h : body? v = .ok cell) : ∃ e, decode t cell = .error e := by
  obtain ⟨rfl, hx⟩ := body?_of_fields hv h
  cases hd : decode t (some (bodyOfParts xs)) with
  | error e => exact ⟨e, rfl⟩
  | ok w =>
    obtain ⟨ys, hs⟩ := fields_of_denotes ht ((decodeBody_iff t _ w).1 hd)
    have hle := length_le_of_body hx hs
    exact absurd hlt (Nat.not_lt.2 hle)

/-! ## old cells -/

/-- What was written of a value is read under every type that came from its own by further fields:
it is the value with null for what was added, held by the new type, and still of distinct elements.
Nothing is read of a value that has more fields than the type. -/
theorem decode_grown :
    (∀ {t t' : ColumnType} {v : Value}, Grown t t' → t.Holds v → v.Distinct → PartsFit v →
      ∃ cell, body? v = .ok cell ∧ decode t' cell = .ok (pad t' v) ∧
        t'.Holds (pad t' v) ∧ (pad t' v).Distinct) ∧
    ∀ {t : ColumnType} {ts : List ColumnType} {v : Value} {xs : List Value} {cell : Option Bytes},
      t.fields? = some ts → v.fields? = some xs → ts.length < xs.length → body? v = .ok cell →
      ∃ e, decode t cell = .error e := by
  refine ⟨?_, decode_of_fewer⟩
  intro t t' v hg hh hd hf
  by_cases hn : v = .null
  · subst hn
    have hnull : pad t' .null = nullValue t' := by
      rw [← pad_nullValue hg, nullValue_of_holds hh]
    rw [hnull]
    exact ⟨none, rfl, rfl, holds_nullValue t', distinct_nullValue t'⟩
  · have hread := decode_pad hg (decode_body hh hd hf hn)
    have hdenoted := (decodeBody_iff t' _ _).1 hread
    obtain ⟨_, hheld, hdistinct⟩ := sound t' _ _ hdenoted
    exact ⟨some (body v), body?_of_holds hh hf hn, hread, hheld, hdistinct⟩

/-- a map whose keys are tuples and whose values are lists of records, all with one field more; and a
tuple of two fields under a type of one -/
theorem decode_grown_nested :
    let t : ColumnType := .map (.tuple [.int]) (.list (.udt "ks" "p" [("a", .bool)]))
    let t' : ColumnType :=
      .map (.tuple [.int, .set .int]) (.list (.udt "ks" "p" [("a", .bool), ("b", .text)]))
    let v : Value :=
      .map [(.tuple [.int 1], .list [.udt "p" [("a", .bool true)], .null]), (.null, .list [])]
    let v' : Value :=
      .map [(.tuple [.int 1, .set []], .list [.udt "p" [("a", .bool true), ("b", .null)], .null]),
        (.null, .list [])]
    let longer : Bytes := [0, 0, 0, 4, 0, 0, 0, 1, 255, 255, 255, 255]
    ((Grown t t' ∧ t.Holds v ∧ v.Distinct ∧ PartsFit v) ∧
      ∃ cell, body? v = .ok cell ∧ decode t' cell = .ok v' ∧ t'.Holds v' ∧ v'.Distinct) ∧
    body? (.tuple [.int 1, .null]) = .ok (some longer) ∧
      ∃ e, decode (.tuple [.int]) (some longer) = .error e := by
  intro t t' v v' longer
  have hgk : Grown (.tuple [.int]) (.tuple [.int, .set .int]) :=
    .tuple (.cons (.same rfl) (.added [.set .int]))
  have hgw : Grown (.udt "ks" "p" [("a", .bool)]) (.udt "ks" "p" [("a", .bool), ("b", .text)]) :=
    .udt ⟨["b"], rfl⟩ (.cons (.same rfl) (.added [.text]))
  have hg : Grown t t' := .map hgk (.list hgw)
  have hp : (ColumnType.udt "ks" "p" [("a", .bool)]).Holds (.udt "p" [("a", .bool true)]) :=
    .inr ⟨_, rfl, _, _, rfl, .inr ⟨_, rfl⟩, rfl⟩
  have hh : t.Holds v := by
    refine ⟨_, rfl, List.forall_mem_cons.2 ⟨⟨?_, ?_⟩, List.forall_mem_singleton.2 ⟨.inl rfl, ?_⟩⟩⟩
    · exact .inr ⟨_, rfl, _, _, rfl, .inr ⟨_, rfl⟩, rfl⟩
    · exact ⟨_, rfl, List.forall_mem_cons.2 ⟨hp, List.forall_mem_singleton.2 (.inl rfl)⟩⟩
    · exact ⟨_, rfl, fun _ hx => nomatch hx⟩
  have hd : v.Distinct := by decide
  have hf : PartsFit v := ⟨by decide, by decide⟩
  have hb : body? (.tuple [.int 1, .null]) = .ok (some longer) := rfl
  exact ⟨⟨⟨hg, hh, hd, hf⟩, decode_grown.1 hg hh hd hf⟩, hb,
    decode_grown.2 (t := .tuple [.int]) rfl rfl (by decide) hb⟩

end Cell

end Cql
