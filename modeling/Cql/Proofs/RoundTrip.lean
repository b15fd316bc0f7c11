import Cql.ColumnType.Holds
import Cql.Proofs.Collections
import Cql.Proofs.Grammar
import Cql.Proofs.Writer

/-!
# Reading what was written

Reader and writer meet in the grammar.  What is written of a value that a column of the type holds
is a body that denotes the value, and what a body denotes a column of the type holds.  So a value is
read back as it was written; and bytes that are read, however they are made up, are written as a
body that is read the same and written the same from then on.

* `denotes_body`             the body of a held value denotes it;
* `holds_of_denotes`         a denoted value is held, and of distinct elements;
* `decode_body?`             reading undoes writing;
* `decode_body?_of_decode`   reading, writing and reading again.

The lengths must be such as can be told (`PartsFit`): a field that is left out takes no bytes when
read and four when written, so a body may be longer than the one it comes from.
-/

namespace Cql.Cell

open ColumnType (Holds HoldsFields HoldsNamed)
open Value (distinctItems_iff distinctEntries_iff distinctFields_iff)

/-! ## what a column holds -/

theorem ne_unset_of_holds {t : ColumnType} {v : Value} (h : t.Holds v) : v ≠ .unset := by
  intro he
  subst he
  cases t <;> simp [Holds] at h

theorem nullValue_of_holds {t : ColumnType} (h : t.Holds .null) : nullValue t = .null := by
  cases t with
  | list t =>
    obtain ⟨xs, hx, _⟩ := h
    cases hx
  | set t =>
    obtain ⟨xs, hx, _⟩ := h
    cases hx
  | map k w =>
    obtain ⟨es, he, _⟩ := h
    cases he
  | _ => rfl

theorem holds_nullValue (t : ColumnType) : t.Holds (nullValue t) := by
  cases t <;> simp [Holds, nullValue]

theorem distinct_nullValue (t : ColumnType) : (nullValue t).Distinct := by
  cases t <;> simp [nullValue, Value.Distinct, Value.DistinctItems, Value.DistinctEntries,
    Value.Pairwise]

/-- the names of a record stand beside the fields of a tuple -/
theorem holdsNamed_iff {fs : List (String × ColumnType)} {ys : List (String × Value)} :
    HoldsNamed fs ys ↔
      ∃ xs, ys = (fs.map Prod.fst).zip xs ∧ HoldsFields (fs.map Prod.snd) xs := by
  induction fs generalizing ys with
  | nil =>
    refine ⟨?_, ?_⟩
    · intro h
      exact ⟨[], h, rfl⟩
    · intro he
      obtain ⟨xs, rfl, _⟩ := he
      rfl
  | cons f fs ih =>
    obtain ⟨name, t⟩ := f
    refine ⟨?_, ?_⟩
    · intro he
      obtain ⟨y, zs, rfl, hy, hs⟩ := he
      obtain ⟨xs, rfl, hx⟩ := ih.1 hs
      exact ⟨y :: xs, rfl, y, xs, rfl, hy, hx⟩
    · intro he
      obtain ⟨xs, rfl, y, ys, rfl, hy, hs⟩ := he
      exact ⟨y, _, rfl, hy, ih.2 ⟨ys, rfl, hs⟩⟩

/-- the fields of a record, without the names that stand beside them -/
theorem map_snd_zip {fs : List (String × ColumnType)} {xs : List Value}
    (h : HoldsFields (fs.map Prod.snd) xs) : ((fs.map Prod.fst).zip xs).map Prod.snd = xs := by
  have hl := ColumnType.length_of_holdsFields h
  rw [List.length_map] at hl
  refine List.map_snd_zip ?_
  rw [List.length_map, hl]

/-! ## no `unset` in what a column holds -/

theorem unsetInParts?_eq_none (holder : Holder) {xs : List Value}
    (h : ∀ x ∈ xs, x ≠ .unset ∧ unsetWithin? x = none) : unsetInParts? holder xs = none := by
  induction xs with
  | nil => rfl
  | cons x xs ih =>
    obtain ⟨hx, hxs⟩ := List.forall_mem_cons.1 h
    rw [unsetInParts?, inPart_of_ne holder hx.1, hx.2, ih hxs, Option.none_or]

theorem unsetInEntries?_eq_none {es : List (Value × Value)}
    (h : ∀ e ∈ es, (e.1 ≠ .unset ∧ unsetWithin? e.1 = none) ∧
      (e.2 ≠ .unset ∧ unsetWithin? e.2 = none)) : unsetInEntries? es = none := by
  induction es with
  | nil => rfl
  | cons e es ih =>
    obtain ⟨k, v⟩ := e
    obtain ⟨⟨hk, hv⟩, hes⟩ := List.forall_mem_cons.1 h
    rw [unsetInEntries?, inPart_of_ne .map hk.1, hk.2, inPart_of_ne .map hv.1, hv.2, ih hes]
    rfl

theorem forall_of_holdsFields {p : Value → Prop} {ts : List ColumnType} {xs : List Value}
    (hp : ∀ t ∈ ts, ∀ v, t.Holds v → p v) (h : HoldsFields ts xs) : ∀ x ∈ xs, p x := by
  induction ts generalizing xs with
  | nil =>
    have he : xs = [] := h
    rw [he]
    exact fun _ hx => nomatch hx
  | cons t ts ih =>
    obtain ⟨y, ys, rfl, hy, hs⟩ := h
    obtain ⟨ht, hts⟩ := List.forall_mem_cons.1 hp
    exact List.forall_mem_cons.2 ⟨ht y hy, ih hts hs⟩

theorem unsetWithin?_of_holds {t : ColumnType} {v : Value} (h : t.Holds v) :
    unsetWithin? v = none := by
  induction t generalizing v with
  | list t ih =>
    obtain ⟨xs, rfl, hx⟩ := h
    exact unsetInParts?_eq_none .list fun x hm => ⟨ne_unset_of_holds (hx x hm), ih (hx x hm)⟩
  | set t ih =>
    obtain ⟨xs, rfl, hx⟩ := h
    exact unsetInParts?_eq_none .set fun x hm => ⟨ne_unset_of_holds (hx x hm), ih (hx x hm)⟩
  | map k w ihk ihw =>
    obtain ⟨es, rfl, he⟩ := h
    exact unsetInEntries?_eq_none fun e hm =>
      ⟨⟨ne_unset_of_holds (he e hm).1, ihk (he e hm).1⟩,
        ⟨ne_unset_of_holds (he e hm).2, ihw (he e hm).2⟩⟩
  | tuple ts ih =>
    obtain rfl | ⟨xs, rfl, hs⟩ := h
    · rfl
    · refine unsetInParts?_eq_none .tuple (forall_of_holdsFields ?_ hs)
      exact fun t ht v hv => ⟨ne_unset_of_holds hv, ih t ht hv⟩
  | udt keyspace name fs ih =>
    obtain rfl | ⟨ys, rfl, hs⟩ := h
    · rfl
    · obtain ⟨xs, rfl, hx⟩ := holdsNamed_iff.1 hs
      rw [unsetWithin?, unsetInFields?_eq, map_snd_zip hx]
      refine unsetInParts?_eq_none .udt (forall_of_holdsFields ?_ hx)
      exact List.forall_mem_map.2 fun f hf v hv => ⟨ne_unset_of_holds hv, ih f hf hv⟩
  | _ => obtain rfl | ⟨_, rfl⟩ := h <;> rfl

/-! ## what is written denotes what is held -/

/-- what is written of the values that a column of type `t` holds denotes them -/
def Writes (t : ColumnType) : Prop :=
  ∀ v, t.Holds v → v.Distinct → PartsFit v → v ≠ .null → Denotes t (body v) v

theorem writes_of {t : ColumnType} {α : Type} {make : α → Value}
    (hd : ∀ a, Denotes t (body (make a)) (make a))
    (hh : ∀ v, t.Holds v → v = .null ∨ ∃ a, v = make a := by exact fun _ h => h) : Writes t := by
  intro v h _ _ hn
  obtain ⟨a, rfl⟩ := (hh v h).resolve_left hn
  exact hd a

theorem writes_of_unsupported {t : ColumnType}
    (hh : ∀ v, t.Holds v → v = .null := by exact fun _ h => h) : Writes t :=
  fun v h _ _ hn => absurd (hh v h) hn

theorem denotesCell_encode {t : ColumnType} (ht : Writes t) {v : Value} (h : t.Holds v)
    (hd : v.Distinct) (hf : Fits v) : DenotesCell t (encode v) v := by
  by_cases hn : v = .null
  · subst hn
    have hc := DenotesCell.null t
    rwa [nullValue_of_holds h] at hc
  · rw [encode, cellWith_of_ne hn (ne_unset_of_holds h)]
    exact .body (ht v h hd (partsFit_of_fits hf) hn) hf

theorem parts_bodyOfParts {t : ColumnType} {xs : List Value}
    (h : ∀ x ∈ xs, DenotesCell t (encode x) x) : Parts t (bodyOfParts xs) xs := by
  induction xs with
  | nil => exact .nil t
  | cons x xs ih =>
    obtain ⟨hx, hxs⟩ := List.forall_mem_cons.1 h
    exact .cons hx (ih hxs)

theorem pairs_bodyOfEntries {k w : ColumnType} {es : List (Value × Value)}
    (h : ∀ e ∈ es, DenotesCell k (encode e.1) e.1 ∧ DenotesCell w (encode e.2) e.2) :
    Pairs k w (bodyOfEntries es) es := by
  induction es with
  | nil => exact .nil k w
  | cons e es ih =>
    obtain ⟨he, hes⟩ := List.forall_mem_cons.1 h
    exact .cons he.1 he.2 (ih hes)

theorem fields_bodyOfParts {ts : List ColumnType} (ht : ∀ t ∈ ts, Writes t) {xs : List Value}
    (h : HoldsFields ts xs) (hd : ∀ x ∈ xs, x.Distinct) (hf : ∀ x ∈ xs, Fits x) :
    Fields ts (bodyOfParts xs) xs := by
  induction ts generalizing xs with
  | nil =>
    have he : xs = [] := h
    rw [he]
    exact .absent []
  | cons t ts ih =>
    obtain ⟨y, ys, rfl, hy, hs⟩ := h
    obtain ⟨ht, hts⟩ := List.forall_mem_cons.1 ht
    obtain ⟨hd, hds⟩ := List.forall_mem_cons.1 hd
    obtain ⟨hf, hfs⟩ := List.forall_mem_cons.1 hf
    exact .cons (denotesCell_encode ht hy hd hf) (ih hts hs hds hfs)

theorem writes_list {t : ColumnType} (ht : Writes t) : Writes (.list t) := by
  intro v he hd hw _
  obtain ⟨xs, rfl, h⟩ := he
  obtain ⟨hn, hf⟩ := hw
  have hds := distinctItems_iff.1 hd
  refine .list (parts_bodyOfParts fun x hx => ?_) hn
  exact denotesCell_encode ht (h x hx) (hds x hx) (hf x hx)

theorem writes_set {t : ColumnType} (ht : Writes t) : Writes (.set t) := by
  intro v he hd hw _
  obtain ⟨xs, rfl, h⟩ := he
  obtain ⟨hn, hf⟩ := hw
  have hds := distinctItems_iff.1 hd.2
  have hp : Parts t (bodyOfParts xs) xs := parts_bodyOfParts fun x hx =>
    denotesCell_encode ht (h x hx) (hds x hx) (hf x hx)
  have hs := Denotes.set hp hn
  rwa [Value.setOf_eq hd] at hs

theorem writes_map {k w : ColumnType} (hk : Writes k) (hw : Writes w) : Writes (.map k w) := by
  intro v hx hd hq _
  obtain ⟨es, rfl, h⟩ := hx
  obtain ⟨hn, hf⟩ := hq
  have hds := distinctEntries_iff.1 hd.2
  have hp : Pairs k w (bodyOfEntries es) es := pairs_bodyOfEntries fun e he =>
    ⟨denotesCell_encode hk (h e he).1 (hds e he).1 (hf e he).1,
      denotesCell_encode hw (h e he).2 (hds e he).2 (hf e he).2⟩
  have hm := Denotes.map hp hn
  rwa [Value.mapOf_eq hd] at hm

theorem writes_tuple {ts : List ColumnType} (ht : ∀ t ∈ ts, Writes t) : Writes (.tuple ts) := by
  intro v h hd hf hn
  obtain ⟨xs, rfl, hs⟩ := h.resolve_left hn
  exact .tuple (fields_bodyOfParts ht hs (distinctItems_iff.1 hd) hf)

theorem writes_udt {keyspace name : String} {fs : List (String × ColumnType)}
    (ht : ∀ f ∈ fs, Writes f.2) : Writes (.udt keyspace name fs) := by
  intro v h hd hf hn
  obtain ⟨ys, rfl, hs⟩ := h.resolve_left hn
  obtain ⟨xs, rfl, hx⟩ := holdsNamed_iff.1 hs
  have hsnd := map_snd_zip hx
  have hd : ∀ x ∈ xs, x.Distinct := by
    rw [← hsnd]
    exact List.forall_mem_map.2 (distinctFields_iff.1 hd)
  have hf : ∀ x ∈ xs, Fits x := by
    rw [← hsnd]
    exact List.forall_mem_map.2 hf
  have hb : bodyOfFields ((fs.map Prod.fst).zip xs) = bodyOfParts xs := by
    rw [bodyOfFields_eq, hsnd]
  rw [body, hb]
  exact .udt (fields_bodyOfParts (List.forall_mem_map.2 ht) hx hd hf)

theorem denotes_bool (b : Bool) : Denotes .bool (body (.bool b)) (.bool b) := by
  cases b with
  | false => exact .bool 0
  | true => exact .bool 1

theorem denotes_body (t : ColumnType) : Writes t := by
  induction t with
  | bool => exact writes_of denotes_bool
  | tinyInt => exact writes_of .tinyInt
  | smallInt => exact writes_of .smallInt
  | int => exact writes_of .int
  | bigInt => exact writes_of .bigInt
  | counter => exact writes_of .counter
  | float => exact writes_of .float
  | double => exact writes_of .double
  | ascii => exact writes_of .ascii
  | text => exact writes_of .text
  | blob => exact writes_of .blob
  | uuid => exact writes_of .uuid
  | timeUuid => exact writes_of .timeUuid
  | date => exact writes_of .date
  | time => exact writes_of .time
  | timestamp => exact writes_of .timestamp
  | inet => exact writes_of .inet
  | list t h => exact writes_list h
  | set t h => exact writes_set h
  | map k w hk hw => exact writes_map hk hw
  | tuple ts h => exact writes_tuple h
  | udt keyspace name fs h => exact writes_udt h
  | _ => exact writes_of_unsupported

/-! ## what is denoted is held -/

/-- a value that a column of type `t` holds, of distinct elements -/
def Held (t : ColumnType) (v : Value) : Prop := t.Holds v ∧ v.Distinct

/-- what a body of type `t` denotes a column of the type holds, and it is not `null` -/
def Sound (t : ColumnType) : Prop := ∀ bs v, Denotes t bs v → v ≠ .null ∧ Held t v

theorem held_of_denotesCell {t : ColumnType} (ht : Sound t) {cell : Bytes} {v : Value}
    (h : DenotesCell t cell v) : Held t v := by
  rcases denotesCell_iff.1 h with ⟨_, rfl⟩ | ⟨bs, _, _, hb⟩
  · exact ⟨holds_nullValue t, distinct_nullValue t⟩
  · exact (ht bs v hb).2

theorem held_of_parts {t : ColumnType} (ht : Sound t) {bs : Bytes} {xs : List Value}
    (h : Parts t bs xs) : ∀ x ∈ xs, Held t x := by
  induction xs generalizing bs with
  | nil => exact fun _ hx => nomatch hx
  | cons x xs ih =>
    cases h with
    | cons hc hs => exact List.forall_mem_cons.2 ⟨held_of_denotesCell ht hc, ih hs⟩

theorem held_of_pairs {k w : ColumnType} (hk : Sound k) (hw : Sound w) {bs : Bytes}
    {es : List (Value × Value)} (h : Pairs k w bs es) : ∀ e ∈ es, Held k e.1 ∧ Held w e.2 := by
  induction es generalizing bs with
  | nil => exact fun _ he => nomatch he
  | cons e es ih =>
    cases h with
    | cons hx hy hs =>
      exact List.forall_mem_cons.2 ⟨⟨held_of_denotesCell hk hx, held_of_denotesCell hw hy⟩, ih hs⟩

theorem holdsFields_nullValue (ts : List ColumnType) : HoldsFields ts (ts.map nullValue) := by
  induction ts with
  | nil => rfl
  | cons t ts ih => exact ⟨_, _, rfl, holds_nullValue t, ih⟩

/-- fields that are left out are held as null, so there are as many as the type has -/
theorem held_of_fields {ts : List ColumnType} (ht : ∀ t ∈ ts, Sound t) {bs : Bytes}
    {xs : List Value} (h : Fields ts bs xs) :
    HoldsFields ts xs ∧ ∀ x ∈ xs, x.Distinct := by
  induction ts generalizing bs xs with
  | nil =>
    cases h with
    | absent => exact ⟨rfl, fun _ hx => nomatch hx⟩
  | cons t ts ih =>
    cases h with
    | absent =>
      exact ⟨holdsFields_nullValue _, List.forall_mem_map.2 fun t _ => distinct_nullValue t⟩
    | cons hc hs =>
      obtain ⟨ht, hts⟩ := List.forall_mem_cons.1 ht
      obtain ⟨hx, hd⟩ := held_of_denotesCell ht hc
      obtain ⟨hxs, hds⟩ := ih hts hs
      exact ⟨⟨_, _, rfl, hx, hxs⟩, List.forall_mem_cons.2 ⟨hd, hds⟩⟩

theorem sound_list {t : ColumnType} (ht : Sound t) : Sound (.list t) := by
  intro _ _ hd
  cases hd with
  | list h hl =>
    have hx := held_of_parts ht h
    exact ⟨nofun, ⟨_, rfl, fun x hm => (hx x hm).1⟩, distinctItems_iff.2 fun x hm => (hx x hm).2⟩

theorem sound_set {t : ColumnType} (ht : Sound t) : Sound (.set t) := by
  intro _ _ hd
  cases hd with
  | set h hl =>
    have hx := held_of_parts ht h
    refine ⟨nofun, ⟨_, rfl, fun x hm => ?_⟩, Value.distinct_setOf fun x hm => (hx x hm).2⟩
    exact (hx x ((Value.firsts_sublist _).subset hm)).1

theorem sound_map {k w : ColumnType} (hk : Sound k) (hw : Sound w) : Sound (.map k w) := by
  intro _ _ hd
  cases hd with
  | map h hl =>
    have he := held_of_pairs hk hw h
    refine ⟨nofun, ⟨_, rfl, ?_⟩, Value.distinct_mapOf fun e hm => ⟨(he e hm).1.2, (he e hm).2.2⟩⟩
    exact Entries.forall_ofList fun e hm => ⟨(he e hm).1.1, (he e hm).2.1⟩

theorem sound_tuple {ts : List ColumnType} (ht : ∀ t ∈ ts, Sound t) : Sound (.tuple ts) := by
  intro _ _ hd
  cases hd with
  | tuple h =>
    obtain ⟨hs, hds⟩ := held_of_fields ht h
    exact ⟨nofun, .inr ⟨_, rfl, hs⟩, distinctItems_iff.2 hds⟩

theorem sound_udt {keyspace name : String} {fs : List (String × ColumnType)}
    (ht : ∀ f ∈ fs, Sound f.2) : Sound (.udt keyspace name fs) := by
  intro _ _ hd
  cases hd with
  | udt h =>
    obtain ⟨hs, hds⟩ := held_of_fields (List.forall_mem_map.2 ht) h
    refine ⟨nofun, .inr ⟨_, rfl, holdsNamed_iff.2 ⟨_, rfl, hs⟩⟩, distinctFields_iff.2 ?_⟩
    intro f hf
    exact hds f.2 (List.of_mem_zip hf).2

theorem sound (t : ColumnType) : Sound t := by
  induction t with
  | list t h => exact sound_list h
  | set t h => exact sound_set h
  | map k w hk hw => exact sound_map hk hw
  | tuple ts h => exact sound_tuple h
  | udt keyspace name fs h => exact sound_udt h
  | _ => rintro _ _ ⟨⟩ <;> exact ⟨nofun, .inr ⟨_, rfl⟩, trivial⟩

/-! ## reading and writing -/

theorem body?_of_holds {t : ColumnType} {v : Value} (h : t.Holds v) (hf : PartsFit v)
    (hn : v ≠ .null) : body? v = .ok (some (body v)) := by
  rw [body?_eq hn (ne_unset_of_holds h), faultWithin?_of_partsFit hf, unsetWithin?_of_holds h]
  rfl

theorem decode_body {t : ColumnType} {v : Value} (h : t.Holds v) (hd : v.Distinct)
    (hf : PartsFit v) (hn : v ≠ .null) : decode t (some (body v)) = .ok v :=
  (decodeBody_iff t (body v) v).2 (denotes_body t v h hd hf hn)

/-- every value that a column holds is written, and read back as it is -/
theorem decode_body? {t : ColumnType} {v : Value} (h : t.Holds v) (hd : v.Distinct)
    (hf : PartsFit v) : ∃ cell, body? v = .ok cell ∧ decode t cell = .ok v := by
  by_cases hn : v = .null
  · subst hn
    exact ⟨none, rfl, congrArg Except.ok (nullValue_of_holds h)⟩
  · exact ⟨some (body v), body?_of_holds h hf hn, decode_body h hd hf hn⟩

/-- a list of a tuple with a set and an address, and of a tuple that is null -/
theorem decode_body?_nested :
    let t : ColumnType := .list (.tuple [.set .blob, .inet])
    let v : Value := .list [.tuple [.set [.blob [7], .blob []], .inet (.v6 1)], .null]
    (t.Holds v ∧ v.Distinct ∧ PartsFit v) ∧
      ∃ cell, body? v = .ok cell ∧ decode t cell = .ok v := by
  intro t v
  have hs : (ColumnType.set .blob).Holds (.set [.blob [7], .blob []]) :=
    ⟨_, rfl, List.forall_mem_cons.2
      ⟨.inr ⟨_, rfl⟩, List.forall_mem_singleton.2 (.inr ⟨_, rfl⟩)⟩⟩
  have hf : HoldsFields [.set .blob, .inet] [.set [.blob [7], .blob []], .inet (.v6 1)] :=
    ⟨_, _, rfl, hs, _, _, rfl, .inr ⟨_, rfl⟩, rfl⟩
  have hh : t.Holds v :=
    ⟨_, rfl, List.forall_mem_cons.2
      ⟨.inr ⟨_, rfl, hf⟩, List.forall_mem_singleton.2 (.inl rfl)⟩⟩
  have hd : v.Distinct :=
    ⟨⟨⟨by decide, trivial, trivial, trivial⟩, trivial, trivial⟩, trivial, trivial⟩
  have hp : PartsFit v := ⟨by decide, by decide⟩
  exact ⟨⟨hh, hd, hp⟩, decode_body? hh hd hp⟩

/-- whatever bytes are read, the value is one that a column holds; it is written as a body that is
read the same, and from then on written the same -/
theorem decode_body?_of_decode {t : ColumnType} {bs : Bytes} {v : Value}
    (h : decode t (some bs) = .ok v) (hf : PartsFit v) :
    t.Holds v ∧ v.Distinct ∧ ∃ bs', body? v = .ok (some bs') ∧ decode t (some bs') = .ok v ∧
      ∀ w, decode t (some bs') = .ok w → body? w = .ok (some bs') := by
  obtain ⟨hn, hh, hd⟩ := sound t bs v ((decodeBody_iff t bs v).1 h)
  have hb := body?_of_holds hh hf hn
  have hr := decode_body hh hd hf hn
  refine ⟨hh, hd, body v, hb, hr, ?_⟩
  intro w hw
  rw [hr] at hw
  cases Except.ok.inj hw
  exact hb

/-- a set with an element twice, and a field that is left out -/
theorem decode_body?_of_decode_left_out :
    let t : ColumnType := .tuple [.set .bool, .list .int]
    let bs : Bytes := [0, 0, 0, 14, 0, 0, 0, 2, 0, 0, 0, 1, 7, 0, 0, 0, 1, 1]
    let v : Value := .tuple [.set [.bool true], .list []]
    (decode t (some bs) = .ok v ∧ PartsFit v) ∧
      t.Holds v ∧ v.Distinct ∧ ∃ bs', body? v = .ok (some bs') ∧ decode t (some bs') = .ok v ∧
        ∀ w, decode t (some bs') = .ok w → body? w = .ok (some bs') := by
  intro t bs v
  have hp : Parts .bool [0, 0, 0, 1, 7, 0, 0, 0, 1, 1] [.bool true, .bool true] :=
    .cons (.body (.bool 7) (by decide)) (.cons (.body (.bool 1) (by decide)) (.nil .bool))
  have hs : Denotes (.set .bool) [0, 0, 0, 2, 0, 0, 0, 1, 7, 0, 0, 0, 1, 1] (.set [.bool true]) :=
    .set hp (by decide)
  have hd : Denotes t bs v := .tuple (.cons (.body hs (by decide)) (.absent [.list .int]))
  have h : decode t (some bs) = .ok v := (decodeBody_iff t bs v).2 hd
  have hf : PartsFit v := show ∀ x ∈ [Value.set [.bool true], .list []], Fits x by decide
  exact ⟨⟨h, hf⟩, decode_body?_of_decode h hf⟩

/-- the bytes that are written are not those that were read -/
example : body? (.tuple [.set [.bool true], .list []]) =
    .ok (some [0, 0, 0, 9, 0, 0, 0, 1, 0, 0, 0, 1, 1, 0, 0, 0, 4, 0, 0, 0, 0]) :=
  rfl

end Cql.Cell
