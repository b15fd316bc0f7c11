import Cql.Row.Cells
import Cql.Proofs.Binding
import Cql.Proofs.History

/-!
# A row is decoded cell by cell

The cells of a row are decoded from the left, each by its own column, and the first failure is the
failure of the row.  What was decoded is put under the names of the columns, so that a name that
repeats keeps its first place and ends with the value of its last cell: `settled` says this of any
pairs that are put one after the other, and `last?_of_decoded` of cells.

* `decodeCells_ok_iff`, `decodeCells_error_iff`   all cells together;
* `decode_ok_iff`, `decode_error_iff`             the row, with its lengths;
* `decode_exact`                                  what is read off a row that decodes.
-/

namespace Cql

/-! ## names that repeat -/

namespace Entries
variable {κ ν : Type} [BEq κ]

theorem last?_cons (k : κ) (e : κ × ν) (es : List (κ × ν)) :
    last? k (e :: es) = (last? k es).or (if k == e.1 then some e.2 else none) := by
  unfold last?
  rw [List.reverse_cons, List.lookup_append, List.lookup_cons]
  cases k == e.1 <;> rfl

omit [BEq κ] in
theorem zip_keys_values (es : Entries κ ν) : (keys es).zip (values es) = es := by
  rw [keys, values, List.zip_map']
  exact List.map_id es

variable [LawfulBEq κ]

theorem ofList_eq_settled (es : List (κ × ν)) : ofList es = settled es := by
  induction es using List.reverseRecOn with
  | nil => rfl
  | append_singleton es e ih => rw [ofList_concat, settled_concat, ih]

theorem get?_settled (k : κ) (es : List (κ × ν)) : get? k (settled es) = last? k es := by
  induction es using List.reverseRecOn with
  | nil => rfl
  | append_singleton es e ih => rw [settled_concat, get?_put, last?_concat, ih]

theorem last?_eq_none {k : κ} {es : List (κ × ν)} : last? k es = none ↔ k ∉ keys es := by
  rw [← isSome_last?, Option.isSome_iff_ne_none, not_not]

/-- the first key is the one that was put first -/
theorem head_settled (e : κ × ν) (es : List (κ × ν)) :
    ∃ v, (values (settled (e :: es))).head? = some v ∧ last? e.1 (e :: es) = some v := by
  have hsome : (last? e.1 (e :: es)).isSome := isSome_last?.2 List.mem_cons_self
  obtain ⟨v, hv⟩ := Option.isSome_iff_exists.1 hsome
  refine ⟨v, ?_, hv⟩
  rw [settled, keys_cons, List.eraseDups_cons, List.filterMap_cons, hv]
  rfl

/-- what was put under different names stays as it was -/
theorem settled_of_nodup {es : List (κ × ν)} (h : (keys es).Nodup) : settled es = es := by
  induction es using List.reverseRecOn with
  | nil => rfl
  | append_singleton es e ih =>
    have hk : keys (es ++ [e]) = keys es ++ [e.1] := List.map_append
    rw [hk, List.nodup_append] at h
    obtain ⟨hes, -, hne⟩ := h
    have hnew : (keys es).any (e.1 == ·) = false := by
      rw [List.any_eq_false]
      exact fun k hk heq => hne k hk e.1 List.mem_cons_self (eq_of_beq heq).symm
    rw [settled_concat, ih hes, put_of_new hnew]

/-- keys and values go side by side -/
theorem map_get?_keys {es : Entries κ ν} (h : (keys es).Nodup) :
    (keys es).map (get? · es) = (values es).map some := by
  induction es with
  | nil => rfl
  | cons e es ih =>
    obtain ⟨k, v⟩ := e
    obtain ⟨hk, hes⟩ := List.nodup_cons.1 h
    have hrest : ∀ j ∈ keys es, get? j ((k, v) :: es) = get? j es := by
      intro j hj
      have hne : j ≠ k := fun he => hk (he ▸ hj)
      rw [get?, if_neg (mt eq_of_beq hne)]
    rw [keys_cons, values_cons, List.map_cons, List.map_cons, List.map_congr_left hrest, ih hes,
      get?, if_pos (beq_self_eq_true k)]

end Entries

/-! ## cells -/

namespace Row
variable {specs : List ColumnSpec} {raw : RawRow} {xs : List (ColumnSpec × Option Bytes)}
  {pairs : List (String × Value)} {e : DecodeError} {row : Row}

/-- a cell beside the pair that it decodes to -/
def Decoded (x : ColumnSpec × Option Bytes) (p : String × Value) : Prop :=
  x.1.name = p.1 ∧ Holds x p.2

theorem decodeCells_eq (specs : List ColumnSpec) (raw : RawRow) :
    decodeCells specs raw = (specs.zip raw).mapM fun x =>
      (Cell.decode x.1.type x.2).map fun v => (x.1.name, v) := by
  induction specs generalizing raw with
  | nil => rfl
  | cons spec specs ih =>
    cases raw with
    | nil => rfl
    | cons cell cells =>
      rw [decodeCells, ih, List.zip_cons_cons, List.mapM_cons]
      cases Cell.decode spec.type cell <;> rfl

theorem decodeCells_ok_iff :
    decodeCells specs raw = .ok pairs ↔ List.Forall₂ Decoded (specs.zip raw) pairs := by
  rw [decodeCells_eq, mapM_ok_iff]
  have hcell (x : ColumnSpec × Option Bytes) (p : String × Value) :
      (Cell.decode x.1.type x.2).map (fun v => (x.1.name, v)) = .ok p ↔ Decoded x p := by
    unfold Decoded Holds
    cases Cell.decode x.1.type x.2 <;> simp [Prod.ext_iff]
  simp only [hcell]

theorem decodeCells_error_iff :
    decodeCells specs raw = .error e ↔ FirstFailure (specs.zip raw) e := by
  rw [decodeCells_eq, mapM_error_iff, FirstFailure]
  have hok (x : ColumnSpec × Option Bytes) :
      (∃ p, (Cell.decode x.1.type x.2).map (fun v => (x.1.name, v)) = .ok p) ↔ ∃ v, Holds x v := by
    unfold Holds
    cases Cell.decode x.1.type x.2 <;> simp
  have herror (x : ColumnSpec × Option Bytes) :
      (Cell.decode x.1.type x.2).map (fun v => (x.1.name, v)) = .error e ↔
        Cell.decode x.1.type x.2 = .error e := by
    cases Cell.decode x.1.type x.2 <;> simp
  simp only [hok, herror]

theorem firstFailure_cons {x : ColumnSpec × Option Bytes} : FirstFailure (x :: xs) e ↔
    Cell.decode x.1.type x.2 = .error e ∨ (∃ v, Holds x v) ∧ FirstFailure xs e := by
  constructor
  · rintro ⟨front, y, back, h, hfront, hy⟩
    cases front with
    | nil =>
      cases h
      exact .inl hy
    | cons z front =>
      cases h
      obtain ⟨hz, hfront⟩ := List.forall_mem_cons.1 hfront
      exact .inr ⟨hz, front, y, back, rfl, hfront, hy⟩
  · rintro (hx | ⟨hx, front, y, back, rfl, hfront, hy⟩)
    · exact ⟨[], x, xs, rfl, nofun, hx⟩
    · exact ⟨x :: front, y, back, rfl, List.forall_mem_cons.2 ⟨hx, hfront⟩, hy⟩

/-- cells decode together if each does -/
theorem exists_pairs_iff :
    (∃ pairs, List.Forall₂ Decoded xs pairs) ↔ ∀ x ∈ xs, ∃ v, Holds x v := by
  induction xs with
  | nil => simp
  | cons x xs ih =>
    rw [List.forall_mem_cons, ← ih]
    constructor
    · rintro ⟨_, h⟩
      cases h with
      | cons hx hxs => exact ⟨⟨_, hx.2⟩, _, hxs⟩
    · rintro ⟨⟨v, hv⟩, pairs, hpairs⟩
      exact ⟨(x.1.name, v) :: pairs, .cons ⟨rfl, hv⟩ hpairs⟩

/-! ## what the pairs of a row say -/

theorem keys_of_decoded (h : List.Forall₂ Decoded xs pairs) :
    Entries.keys pairs = xs.map fun x => x.1.name := by
  induction h with
  | nil => rfl
  | cons hx _ ih => rw [Entries.keys_cons, ih, List.map_cons, hx.1]

theorem values_of_decoded (h : List.Forall₂ Decoded xs pairs) :
    List.Forall₂ Holds xs (Entries.values pairs) := by
  induction h with
  | nil => exact .nil
  | cons hx _ ih => exact .cons hx.2 ih

theorem names_zip (h : specs.length = raw.length) :
    ((specs.zip raw).map fun x => x.1.name) = specs.map ColumnSpec.name := by
  have hfst : (specs.zip raw).map Prod.fst = specs := List.map_fst_zip h.le
  calc ((specs.zip raw).map fun x => x.1.name)
      = ((specs.zip raw).map Prod.fst).map ColumnSpec.name := by rw [List.map_map]; rfl
    _ = specs.map ColumnSpec.name := by rw [hfst]

theorem lastNamed_cons {x : ColumnSpec × Option Bytes} {name : String} {v : Value} :
    LastNamed (x :: xs) name v ↔
      LastNamed xs name v ∨ (∀ y ∈ xs, y.1.name ≠ name) ∧ x.1.name = name ∧ Holds x v := by
  constructor
  · rintro ⟨front, y, back, h, hy, hv, hback⟩
    cases front with
    | nil =>
      cases h
      exact .inr ⟨hback, hy, hv⟩
    | cons z front =>
      cases h
      exact .inl ⟨front, y, back, rfl, hy, hv, hback⟩
  · rintro (⟨front, y, back, rfl, hy, hv, hback⟩ | ⟨hxs, hx, hv⟩)
    · exact ⟨x :: front, y, back, rfl, hy, hv, hback⟩
    · exact ⟨[], x, xs, rfl, hx, hv, hxs⟩

theorem last?_of_decoded (h : List.Forall₂ Decoded xs pairs) {name : String} {v : Value} :
    Entries.last? name pairs = some v ↔ LastNamed xs name v := by
  induction h with
  | nil => exact ⟨nofun, fun ⟨front, _, _, h, _⟩ => by cases front <;> cases h⟩
  | @cons x p xs pairs hx hxs ih =>
    obtain ⟨hname, hv⟩ := hx
    have hrest : Entries.last? name pairs = none ↔ ∀ y ∈ xs, y.1.name ≠ name := by
      rw [Entries.last?_eq_none, keys_of_decoded hxs, List.mem_map]
      simp
    have hhere : (if name == p.1 then some p.2 else none) = some v ↔ x.1.name = name ∧ Holds x v := by
      rw [Holds, hv, hname, eq_comm (a := p.1)]
      simp
    rw [Entries.last?_cons, Option.or_eq_some_iff, ih, lastNamed_cons, hrest, hhere]

/-! ## a row -/

theorem decode_of_fits (h : specs.length = raw.length) :
    decode specs raw = (decodeCells specs raw).map ofList := by
  rw [decode, checkArity, if_pos h]
  cases decodeCells specs raw <;> rfl

theorem decode_of_misfit (h : specs.length ≠ raw.length) :
    decode specs raw = .error (.rowArity specs.length raw.length) := by
  rw [decode, checkArity, if_neg h]
  rfl

theorem decode_ok_iff : decode specs raw = .ok row ↔ specs.length = raw.length ∧
    ∃ pairs, List.Forall₂ Decoded (specs.zip raw) pairs ∧ row = ⟨Entries.settled pairs⟩ := by
  by_cases h : specs.length = raw.length
  · rw [decode_of_fits h, and_iff_right h]
    simp only [← decodeCells_ok_iff]
    cases decodeCells specs raw with
    | error d => simp
    | ok pairs => simp [ofList, Entries.ofList_eq_settled, eq_comm (a := row)]
  · simp [decode_of_misfit h, h]

theorem decode_error_iff : decode specs raw = .error e ↔
    (specs.length ≠ raw.length ∧ e = .rowArity specs.length raw.length) ∨
      (specs.length = raw.length ∧ FirstFailure (specs.zip raw) e) := by
  by_cases h : specs.length = raw.length
  · rw [decode_of_fits h, ← decodeCells_error_iff]
    cases decodeCells specs raw <;> simp [h]
  · simp [decode_of_misfit h, h, eq_comm (a := e)]

/-- Every raw row under every list of columns.  A row decodes if it has a cell for each column and
each cell decodes; the lengths are looked at first, and then the cells from the left.  A decoded row
has the distinct names in the order in which they appear, each with the value of its last cell. -/
theorem decode_exact (specs : List ColumnSpec) (raw : RawRow) :
    ((∃ row, decode specs raw = .ok row) ↔
      specs.length = raw.length ∧ ∀ x ∈ specs.zip raw, ∃ v, Holds x v) ∧
    (∀ e, decode specs raw = .error e ↔
      (specs.length ≠ raw.length ∧ e = .rowArity specs.length raw.length) ∨
        (specs.length = raw.length ∧ FirstFailure (specs.zip raw) e)) ∧
    ∀ row, decode specs raw = .ok row →
      row.names = (specs.map ColumnSpec.name).eraseDups ∧
      (∀ name v, row.get? name = some v ↔ LastNamed (specs.zip raw) name v) ∧
      (∀ name, row.get? name = none ↔ name ∉ specs.map ColumnSpec.name) ∧
      row.columns = row.names.zip row.values ∧
      row.names.map row.get? = row.values.map some ∧
      ((specs.map ColumnSpec.name).Nodup → row.names = specs.map ColumnSpec.name ∧
        List.Forall₂ Holds (specs.zip raw) row.values) := by
  refine ⟨⟨?_, ?_⟩, fun e => decode_error_iff, ?_⟩
  · rintro ⟨row, hrow⟩
    obtain ⟨hlen, pairs, hpairs, -⟩ := decode_ok_iff.1 hrow
    exact ⟨hlen, exists_pairs_iff.1 ⟨pairs, hpairs⟩⟩
  · rintro ⟨hlen, hcells⟩
    obtain ⟨pairs, hpairs⟩ := exists_pairs_iff.2 hcells
    exact ⟨_, decode_ok_iff.2 ⟨hlen, pairs, hpairs, rfl⟩⟩
  · intro row hrow
    obtain ⟨hlen, pairs, hpairs, rfl⟩ := decode_ok_iff.1 hrow
    have hkeys : Entries.keys pairs = specs.map ColumnSpec.name :=
      (keys_of_decoded hpairs).trans (names_zip hlen)
    have hnames : Entries.keys (Entries.settled pairs) = (specs.map ColumnSpec.name).eraseDups := by
      rw [Entries.keys_settled, hkeys]
    have hget (name : String) :
        get? ⟨Entries.settled pairs⟩ name = Entries.last? name pairs := Entries.get?_settled name pairs
    refine ⟨hnames, ?_, ?_, (Entries.zip_keys_values _).symm, ?_, ?_⟩
    · intro name v
      rw [hget, last?_of_decoded hpairs]
    · intro name
      rw [hget, Entries.last?_eq_none, hkeys]
    · exact Entries.map_get?_keys (hnames ▸ Entries.nodup_eraseDups _)
    · intro hnodup
      rw [← hkeys] at hnodup ⊢
      rw [Entries.settled_of_nodup hnodup]
      exact ⟨rfl, values_of_decoded hpairs⟩

/-- the first column comes back as the third, and takes its value from there -/
theorem decode_exact_repeated :
    let specs : List ColumnSpec := [⟨"k", .int⟩, ⟨"n", .text⟩, ⟨"k", .int⟩]
    let raw : RawRow := [some [0, 0, 0, 1], none, some [0, 0, 0, 2]]
    ∃ row, decode specs raw = .ok row ∧ row.names = (specs.map ColumnSpec.name).eraseDups ∧
      row.columns = ["k", "n"].zip [.int 2, .null] ∧
      LastNamed (specs.zip raw) "k" (.int 2) ∧ row.get? "m" = none := by
  intro specs raw
  obtain ⟨-, -, hrow⟩ := decode_exact specs raw
  have h : decode specs raw = .ok ⟨[("k", .int 2), ("n", .null)]⟩ := rfl
  obtain ⟨hnames, hget, habsent, hcolumns, -⟩ := hrow _ h
  exact ⟨_, h, hnames, hcolumns, (hget "k" (.int 2)).1 rfl, (habsent "m").2 (by decide)⟩

end Row

end Cql
