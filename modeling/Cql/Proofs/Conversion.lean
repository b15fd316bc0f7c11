import Cql.Host.Conversion
import Cql.Proofs.Extensional

/-!
# Binding keeps the shape, or tells the first fault

Data is gone through from the left, the parts before the whole, and the first that is wrong by
itself ends it (`failure?_bind`).  If nothing is wrong the value has the shape of the data, down to
the last part (`bind_mirrors`).

* `bindInt_ok_iff`     a number keeps its size;
* `ofList_eq_settled`  a repeated key has its first place and its last value;
* `failure?_bindItems`, `failure?_bindEntries`   the parts come before the whole;
* `bind_mirrors_or_firstFault`                   any data, any list of parameters.
-/

namespace Cql

/-! ## sets and maps in one go -/

theorem Value.firsts_eq_eraseDups (vs : List Value) : firsts vs = vs.eraseDups := by
  -- the elements that stay are gathered in reverse
  have hloop (vs kept : List Value) :
      List.eraseDupsBy.loop (· == ·) vs kept = vs.foldl addElement kept.reverse := by
    induction vs generalizing kept with
    | nil => rfl
    | cons v vs ih =>
      rw [List.eraseDupsBy.loop, List.foldl_cons]
      have hany : kept.reverse.any (v == ·) = kept.any (v == ·) := List.any_reverse
      cases h : kept.any (v == ·) with
      | true => rw [ih, addElement_of_any (hany.trans h)]
      | false =>
        rw [addElement_of_new (hany.trans h), ← List.reverse_cons]
        exact ih (v :: kept)
  exact (hloop vs []).symm

/-- entries can be looked up one key after the other -/
theorem Entries.filterMap_get? {es : List (Value × Value)}
    (h : ∀ e ∈ es, get? e.1 es = some e.2) :
    (keys es).filterMap (fun k => (get? k es).map fun v => (k, v)) = es := by
  have hsome : ∀ e ∈ es, ((get? e.1 es).map fun v => (e.1, v)) = some e :=
    fun e he => by rw [h e he]; rfl
  rw [keys, List.filterMap_map]
  exact (List.filterMap_congr hsome).trans List.filterMap_some

theorem Value.ofList_eq_settled {us : List (Value × Value)} (h : DistinctAll us) :
    Entries.ofList us = Entries.settled us := by
  have hd : DistinctAll (Entries.ofList us) := distinct_ofList h
  have hlookup : ∀ k ∈ Entries.keys (Entries.ofList us),
      ((Entries.get? k (Entries.ofList us)).map fun v => (k, v)) =
        (Entries.last? k us).map fun v => (k, v) :=
    fun k hk => by rw [get?_ofList (distinct_keys hd k hk) h]
  calc Entries.ofList us
      = (Entries.keys (Entries.ofList us)).filterMap fun k =>
          (Entries.get? k (Entries.ofList us)).map fun v => (k, v) :=
        (Entries.filterMap_get? fun _ he => get?_of_mem (distinct_mapOf h) he).symm
    _ = (Entries.keys (Entries.ofList us)).filterMap fun k =>
          (Entries.last? k us).map fun v => (k, v) := List.filterMap_congr hlookup
    _ = Entries.settled us := by
        rw [keys_ofList, firsts_eq_eraseDups]
        rfl

theorem forall₂_congr_mem {α β : Type} {r s : α → β → Prop} {xs : List α} {ys : List β}
    (h : ∀ x ∈ xs, ∀ y, r x y ↔ s x y) : List.Forall₂ r xs ys ↔ List.Forall₂ s xs ys := by
  induction xs generalizing ys with
  | nil => rw [List.forall₂_nil_left_iff, List.forall₂_nil_left_iff]
  | cons x xs ih =>
    obtain ⟨hx, hxs⟩ := List.forall_mem_cons.1 h
    simp only [List.forall₂_cons_left_iff, hx, ih hxs]

namespace Host

/-! ## whole numbers -/

theorem bindDefault_of_holds {n : Int} (h : IntType.i32.Holds n) :
    bindDefault n = .ok (.int (Int32.ofInt n)) := if_pos h

theorem holds_toInt (m : Int32) : IntType.i32.Holds m.toInt :=
  ⟨m.le_toInt, Int.le_of_lt_add_one m.toInt_lt⟩

theorem toInt_ofInt {n : Int} (h : IntType.i32.Holds n) : (Int32.ofInt n).toInt = n :=
  Int32.toInt_ofInt_of_le h.1 (Int.lt_add_one_of_le h.2)

theorem bindInt_of_unknown {n : HostInt} (h : n.type.isKnown = false) :
    bindInt n = bindDefault n.val := by
  obtain ⟨t, m, hm⟩ := n
  cases t <;> first | rfl | cases h

theorem bindInt_ok_iff {n : HostInt} {v : Value} : bindInt n = .ok v ↔ n.Kept v := by
  constructor
  · intro h
    obtain ⟨t, m, hm⟩ := n
    have hdefault (ht : t.isKnown = false) : HostInt.Kept ⟨t, m, hm⟩ v := by
      rw [bindInt_of_unknown ht, bindDefault] at h
      split at h
      · next hr =>
        cases h
        exact .byDefault ht (toInt_ofInt hr)
      · cases h
    cases t with
    | i8 =>
      cases h
      exact .tinyInt rfl (Int8.toInt_ofInt_of_le hm.1 (Int.lt_add_one_of_le hm.2))
    | i16 =>
      cases h
      exact .smallInt rfl (Int16.toInt_ofInt_of_le hm.1 (Int.lt_add_one_of_le hm.2))
    | i32 =>
      cases h
      exact .int rfl (toInt_ofInt hm)
    | i64 =>
      cases h
      exact .bigInt rfl (Int64.toInt_ofInt_of_le hm.1 (Int.lt_add_one_of_le hm.2))
    | i128 | u8 | u16 | u32 | u64 | u128 | isize | usize => exact hdefault rfl
  · intro h
    cases h with
    | tinyInt width same => rw [bindInt, width, ← same, Int8.ofInt_toInt]
    | smallInt width same => rw [bindInt, width, ← same, Int16.ofInt_toInt]
    | int width same => rw [bindInt, width, ← same, Int32.ofInt_toInt]
    | bigInt width same => rw [bindInt, width, ← same, Int64.ofInt_toInt]
    | @byDefault m width same =>
      rw [bindInt_of_unknown width, ← same, bindDefault_of_holds (holds_toInt m), Int32.ofInt_toInt]

/-! ## the first fault -/

/-- why something fails, nothing if it does not -/
def failure? {α : Type} : Except BindingError α → Option BindingError
  | .ok _ => Option.none
  | .error e => Option.some e

section
variable {α β : Type}

theorem failure?_eq_some {r : Except BindingError α} {e : BindingError} :
    failure? r = Option.some e ↔ r = .error e := by
  cases r with
  | ok a => exact iff_of_false nofun nofun
  | error f => exact ⟨fun h => by cases h; rfl, fun h => by cases h; rfl⟩

theorem failure?_andThen (r : Except BindingError α) (f : α → Except BindingError β) :
    failure? (r >>= f) = (failure? r).or (r.toOption.bind fun a => failure? (f a)) := by
  cases r <;> rfl

/-- what cannot fail does not matter -/
theorem failure?_made (r : Except BindingError α) (f : α → β) :
    failure? (r >>= fun a => pure (f a)) = failure? r := by
  cases r <;> rfl

end

theorem failure?_bindInt (n : HostInt) : failure? (bindInt n) = fault? (int n) := by
  obtain ⟨t, m, hm⟩ := n
  have hdefault : failure? (bindDefault m) =
      if IntType.i32.Holds m then Option.none else Option.some (.integerOutOfRange m) := by
    unfold bindDefault
    split <;> rfl
  cases t with
  | i8 | i16 | i32 | i64 => rfl
  | i128 | u8 | u16 | u32 | u64 | u128 | isize | usize =>
    refine hdefault.trans ?_
    simp [fault?, IntType.isKnown]

/-- a record is bound when all its fields are, and then they are as many -/
theorem failure?_bindRecord {typeName : String} {names : List String} {xs : List Host}
    {vs : List Value} (h : vs.length = xs.length) :
    failure? (bindRecord typeName names vs) = fault? (record typeName names xs) := by
  rw [bindRecord, fault?, h]
  split <;> rfl

/-- whatever is in order by itself has the faults of its parts -/
theorem findSome?_whole {xs : List Host} {x : Host} (h : x.fault? = Option.none) :
    (xs ++ [x]).findSome? fault? = xs.findSome? fault? := by
  rw [List.findSome?_append, List.findSome?_singleton, h, Option.or_none]

section
variable {xs : List Host} {es : List (Host × Host)}

theorem failure?_bindItems (ih : ∀ x ∈ xs, failure? x.bind = x.visits.findSome? fault?) :
    failure? (bindItems xs) = (visitsOfItems xs).findSome? fault? := by
  induction xs with
  | nil => rfl
  | cons x xs ihxs =>
    obtain ⟨hx, hxs⟩ := List.forall_mem_cons.1 ih
    rw [bindItems, visitsOfItems, List.findSome?_append, ← hx, ← ihxs hxs]
    cases x.bind with
    | error e => rfl
    | ok v => exact failure?_made (bindItems xs) _

/-- a key comes before its value -/
theorem failure?_bindEntries
    (ih : ∀ e ∈ es, failure? e.1.bind = e.1.visits.findSome? fault? ∧
      failure? e.2.bind = e.2.visits.findSome? fault?) :
    failure? (bindEntries es) = (visitsOfEntries es).findSome? fault? := by
  induction es with
  | nil => rfl
  | cons e es ihes =>
    obtain ⟨⟨hk, hx⟩, hes⟩ := List.forall_mem_cons.1 ih
    rw [bindEntries, visitsOfEntries, List.findSome?_append, List.findSome?_append, ← hk, ← hx,
      ← ihes hes]
    cases e.1.bind with
    | error f => rfl
    | ok k =>
      cases e.2.bind with
      | error f => rfl
      | ok v => exact failure?_made (bindEntries es) _

end

/-- binding fails with the first fault on the way -/
theorem failure?_bind (x : Host) : failure? x.bind = x.visits.findSome? fault? := by
  induction x with
  | int n => exact (failure?_bindInt n).trans List.findSome?_singleton.symm
  | some x ih => exact ih.trans (findSome?_whole rfl).symm
  | list xs ih =>
    exact (failure?_made _ _).trans ((failure?_bindItems ih).trans (findSome?_whole rfl).symm)
  | set xs ih =>
    exact (failure?_made _ _).trans ((failure?_bindItems ih).trans (findSome?_whole rfl).symm)
  | map es ih =>
    exact (failure?_made _ _).trans ((failure?_bindEntries ih).trans (findSome?_whole rfl).symm)
  | tuple xs ih =>
    exact (failure?_made _ _).trans ((failure?_bindItems ih).trans (findSome?_whole rfl).symm)
  | record typeName names xs ih =>
    rw [visits, List.findSome?_append, List.findSome?_singleton, ← failure?_bindItems ih, bind,
      failure?_andThen]
    cases hb : bindItems xs with
    | error e => rfl
    | ok vs =>
      exact failure?_bindRecord (bindItems_iff.1 hb).length_eq.symm
  | _ => rfl

theorem findSome?_fault? {xs : List Host} {e : BindingError} :
    xs.findSome? fault? = Option.some e ↔ FirstFault xs e := List.findSome?_eq_some_iff

theorem bind_error_iff {x : Host} {e : BindingError} :
    x.bind = .error e ↔ FirstFault x.visits e := by
  rw [← failure?_eq_some, failure?_bind, findSome?_fault?]

theorem bindAll_error_iff {xs : List Host} {e : BindingError} :
    bindAll xs = .error e ↔ FirstFault (xs.flatMap visits) e := by
  rw [bindAll, ← failure?_eq_some, failure?_bindItems fun x _ => failure?_bind x,
    findSome?_fault?, visitsOfItems_eq]

/-- what is wrong with data is a number or a count of fields -/
theorem exists_fault?_iff {xs : List Host} : (∃ y ∈ xs, ∃ e, y.fault? = Option.some e) ↔
    (∃ n, int n ∈ xs ∧ n.type.isKnown = false ∧ ¬IntType.i32.Holds n.val) ∨
    ∃ typeName names fields, record typeName names fields ∈ xs ∧
      names.length ≠ fields.length := by
  constructor
  · rintro ⟨y, hy, e, he⟩
    cases y with
    | int n =>
      rw [fault?] at he
      split at he
      · cases he
      · next hn =>
        obtain ⟨hk, hr⟩ := not_or.1 hn
        exact .inl ⟨n, hy, Bool.eq_false_iff.2 hk, hr⟩
    | record typeName names fields =>
      rw [fault?] at he
      split at he
      · cases he
      · next hn => exact .inr ⟨typeName, names, fields, hy, hn⟩
    | _ => cases he
  · rintro (⟨n, hn, hk, hr⟩ | ⟨typeName, names, fields, hm, hc⟩)
    · refine ⟨int n, hn, _, if_neg ?_⟩
      rintro (h | h)
      · rw [hk] at h
        cases h
      · exact hr h
    · exact ⟨_, hm, _, if_neg hc⟩

theorem exists_firstFault_iff {xs : List Host} :
    (∃ e, FirstFault xs e) ↔ ∃ y ∈ xs, ∃ e, y.fault? = Option.some e := by
  simp only [← findSome?_fault?, ← Option.isSome_iff_exists, List.findSome?_isSome_iff]

/-! ## the shape -/

section
variable {xs : List Host} {es : List (Host × Host)} {v : Value}

theorem mirrors_plain_iff {x : Host} {w : Value} (h : x.plain? = Option.some w) :
    Mirrors x v ↔ v = w := by
  constructor
  · intro hm
    cases hm with
    | plain hv =>
      rw [h] at hv
      cases hv
      rfl
    | _ => cases h
  · rintro rfl
    exact .plain h

theorem mirrors_number_iff {n : HostInt} : Mirrors (int n) v ↔ n.Kept v := by
  constructor
  · intro hm
    cases hm with
    | plain h => cases h
    | number h => exact h
  · exact .number

theorem mirrors_absent_iff : Mirrors none v ↔ v = .null := by
  constructor
  · intro hm
    cases hm with
    | plain h => cases h
    | absent => rfl
  · rintro rfl
    exact .absent

theorem mirrors_present_iff {x : Host} : Mirrors (some x) v ↔ Mirrors x v := by
  constructor
  · intro hm
    cases hm with
    | plain h => cases h
    | present h => exact h
  · exact .present

theorem mirrors_list_iff :
    Mirrors (list xs) v ↔ ∃ vs, List.Forall₂ Mirrors xs vs ∧ v = .list vs := by
  constructor
  · intro hm
    cases hm with
    | plain h => cases h
    | list h => exact ⟨_, h, rfl⟩
  · rintro ⟨vs, h, rfl⟩
    exact .list h

theorem mirrors_set_iff :
    Mirrors (set xs) v ↔ ∃ vs, List.Forall₂ Mirrors xs vs ∧ v = .set vs.eraseDups := by
  constructor
  · intro hm
    cases hm with
    | plain h => cases h
    | set h => exact ⟨_, h, rfl⟩
  · rintro ⟨vs, h, rfl⟩
    exact .set h

theorem mirrors_map_iff : Mirrors (map es) v ↔ ∃ us : List (Value × Value),
    List.Forall₂ (fun e u => Mirrors e.1 u.1 ∧ Mirrors e.2 u.2) es us ∧
      v = .map (Entries.settled us) := by
  constructor
  · intro hm
    cases hm with
    | plain h => cases h
    | map keys values => exact ⟨_, forall₂_entries_iff.2 ⟨keys, values⟩, rfl⟩
  · rintro ⟨us, h, rfl⟩
    obtain ⟨keys, values⟩ := forall₂_entries_iff.1 h
    exact .map keys values

theorem mirrors_tuple_iff :
    Mirrors (tuple xs) v ↔ ∃ vs, List.Forall₂ Mirrors xs vs ∧ v = .tuple vs := by
  constructor
  · intro hm
    cases hm with
    | plain h => cases h
    | tuple h => exact ⟨_, h, rfl⟩
  · rintro ⟨vs, h, rfl⟩
    exact .tuple h

theorem mirrors_record_iff {typeName : String} {names : List String} :
    Mirrors (record typeName names xs) v ↔ ∃ vs, List.Forall₂ Mirrors xs vs ∧
      names.length = vs.length ∧ v = .udt typeName (names.zip vs) := by
  constructor
  · intro hm
    cases hm with
    | plain h => cases h
    | record count h => exact ⟨_, h, count, rfl⟩
  · rintro ⟨vs, h, count, rfl⟩
    exact .record count h

end

theorem bind_of_plain {x : Host} {w : Value} (h : x.plain? = Option.some w) : x.bind = .ok w := by
  cases x <;> cases h <;> rfl

theorem bind_plain_iff {x : Host} {v w : Value} (h : x.plain? = Option.some w) :
    Binds x v ↔ Mirrors x v := by
  rw [mirrors_plain_iff h, Binds, bind_of_plain h]
  exact ⟨fun hv => by cases hv; rfl, fun hv => by rw [hv]⟩

theorem bindItems_mirrors {xs : List Host} (hx : ∀ w ∈ valuesOfItems xs, w.Distinct)
    (ih : ∀ x ∈ xs, (∀ w ∈ x.values, w.Distinct) → ∀ v, Binds x v ↔ Mirrors x v)
    (vs : List Value) : List.Forall₂ Binds xs vs ↔ List.Forall₂ Mirrors xs vs :=
  forall₂_congr_mem fun x hm => ih x hm (distinct_item hx x hm)

/-- bound data has its shape, and only a value of its shape is bound -/
theorem bind_mirrors {x : Host} (hx : ∀ w ∈ x.values, w.Distinct) (v : Value) :
    Binds x v ↔ Mirrors x v := by
  induction x generalizing v with
  | int n => exact bindInt_ok_iff.trans mirrors_number_iff.symm
  | none =>
    rw [mirrors_absent_iff]
    exact ⟨fun h => by cases h; rfl, fun h => by cases h; rfl⟩
  | some x ih => exact (ih hx v).trans mirrors_present_iff.symm
  | list xs ih =>
    simp only [bind_list_iff, mirrors_list_iff, bindItems_mirrors hx ih]
  | set xs ih =>
    simp only [bind_set_iff, mirrors_set_iff, bindItems_mirrors hx ih, Value.setOf,
      Value.firsts_eq_eraseDups]
  | map es ih =>
    have hes (us : List (Value × Value)) : List.Forall₂ BindsEntry es us ↔
        List.Forall₂ (fun e u => Mirrors e.1 u.1 ∧ Mirrors e.2 u.2) es us :=
      forall₂_congr_mem fun e hm u => and_congr ((ih e hm).1 (distinct_entry hx e hm).1 u.1)
        ((ih e hm).2 (distinct_entry hx e hm).2 u.2)
    have hmap {us : List (Value × Value)} (h : List.Forall₂ BindsEntry es us) :
        Value.mapOf us = .map (Entries.settled us) := by
      rw [Value.mapOf, Value.ofList_eq_settled]
      exact distinct_of_entries (fun _ _ => ⟨fun h _ => distinct_of_bind h,
        fun h _ => distinct_of_bind h⟩) hx h
    rw [bind_map_iff, mirrors_map_iff]
    refine exists_congr fun us => ?_
    rw [← hes us]
    refine and_congr_right fun h => ?_
    rw [hmap h]
  | tuple xs ih =>
    simp only [bind_tuple_iff, mirrors_tuple_iff, bindItems_mirrors hx ih]
  | record typeName names xs ih =>
    simp only [bind_record_iff, mirrors_record_iff, bindItems_mirrors hx ih]
  | _ => exact bind_plain_iff rfl

/-! ## bound as a list, bound as a set -/

theorem bind_asList {x : Host} {items : List Host} (h : x.items? = Option.some items) :
    x.asList.bind = (bindAll items).map .list := by
  rw [asList, h]
  show (bindItems items >>= fun vs => pure (Value.list vs)) = _
  rw [bindAll]
  cases bindItems items <;> rfl

theorem bind_asSet {x : Host} {items : List Host} (h : x.items? = Option.some items) :
    x.asSet.bind = (bindAll items).map fun vs => .set vs.eraseDups := by
  rw [asSet, h]
  show (bindItems items >>= fun vs => pure (Value.setOf vs)) = _
  simp only [bindAll, Value.setOf, Value.firsts_eq_eraseDups]
  cases bindItems items <;> rfl

/-- Data that is bound, alone or as the parameters of a statement.  It fails exactly when a number
without a width of the database lies outside of 32 bits, or a record does not give out what it
declares, and the failure is that of the first of them, the parts from the left and before the
whole.  Otherwise there is a value of the same shape: every part in its place, a set without
repetitions, the last value of a repeated key where the key was first.  No set or map that stands in
the data as a value has equal elements or keys, as no set or map that was made has. -/
theorem bind_mirrors_or_firstFault (x : Host) (xs : List Host) :
    (∀ e, x.bind = .error e ↔ FirstFault x.visits e) ∧
    ((∃ e, x.bind = .error e) ↔
      (∃ n, int n ∈ x.visits ∧ n.type.isKnown = false ∧ ¬IntType.i32.Holds n.val) ∨
      ∃ typeName names fields, record typeName names fields ∈ x.visits ∧
        names.length ≠ fields.length) ∧
    ((∀ w ∈ x.values, w.Distinct) → ∀ v, x.bind = .ok v ↔ Mirrors x v) ∧
    (∀ items, x.items? = Option.some items →
      x.asList.bind = (bindAll items).map .list ∧
      x.asSet.bind = (bindAll items).map fun vs => .set vs.eraseDups) ∧
    (∀ e, bindAll xs = .error e ↔ FirstFault (xs.flatMap visits) e) ∧
    ((∀ y ∈ xs, ∀ w ∈ y.values, w.Distinct) →
      ∀ vs, bindAll xs = .ok vs ↔ List.Forall₂ Mirrors xs vs) := by
  refine ⟨fun e => bind_error_iff, ?_, fun hx => bind_mirrors hx,
    fun items h => ⟨bind_asList h, bind_asSet h⟩, fun e => bindAll_error_iff, fun hxs vs => ?_⟩
  · simp only [bind_error_iff]
    exact exists_firstFault_iff.trans exists_fault?_iff
  · rw [bindAll, bindItems_iff]
    exact forall₂_congr_mem fun y hy => bind_mirrors (hxs y hy)

/-- a repeated key whose values differ, and behind it a record that gives out too little, but not
before a number within it that is too large -/
theorem bind_mirrors_or_firstFault_nested :
    let x : Host := map [(string "k", list [int ⟨.u8, 5, by decide⟩, none]),
      (string "j", value (.set [.int 1])),
      (string "k", set [some (tinyInt 2), some (tinyInt 1), some (tinyInt 2)])]
    let v : Value := .map [(.text "k", .set [.tinyInt 2, .tinyInt 1]), (.text "j", .set [.int 1])]
    let broad : Host := int ⟨.usize, 4294967296, by decide⟩
    let y : Host := record "pair" ["a", "b"] [map [(broad, int ⟨.u32, 2147483648, by decide⟩)]]
    (∀ w ∈ x.values, w.Distinct) ∧ Mirrors x v ∧
    (∀ z ∈ [x, x], ∀ w ∈ z.values, w.Distinct) ∧ List.Forall₂ Mirrors [x, x] [v, v] ∧
    FirstFault ([x, y].flatMap visits) (.integerOutOfRange 4294967296) ∧
    x.asList.bind = .ok (.list [.tuple [.text "k", .list [.int 5, .null]],
      .tuple [.text "j", .set [.int 1]], .tuple [.text "k", .set [.tinyInt 2, .tinyInt 1]]]) := by
  intro x v broad y
  have hx : ∀ w ∈ x.values, w.Distinct := by decide
  have hxx : ∀ z ∈ [x, x], ∀ w ∈ z.values, w.Distinct := by decide
  obtain ⟨-, -, hok, hitems, -, hall⟩ := bind_mirrors_or_firstFault x [x, x]
  obtain ⟨-, -, -, -, hfault, -⟩ := bind_mirrors_or_firstFault x [x, y]
  exact ⟨hx, (hok hx v).1 rfl, hxx, (hall hxx [v, v]).1 rfl, (hfault _).1 rfl, (hitems _ rfl).1⟩

end Host

end Cql
