import Cql.Cursor.FirstCells
import Cql.Proofs.Fetching
import Cql.Proofs.Rows

/-!
# The first cell is read as the row has it

`decodeFirst` looks at the first cell, `decode` at all of them, and it puts them under their names.
Both look at the lengths first and then at the first cell, so they can part in two ways only: a
later cell does not decode, or a later cell has the name of the first.  `BothWays` says this of one
raw row.  Results and cursors find their raw rows without a look into them, and so it is said of
each row that they find.

* `bothWays`                the two ways of decoding a raw row, side by side;
* `firstCell_look`          of what a read has found;
* `scalars_of_all`, `later_of_scalars`   all rows of a result;
* `firstOnly_calls`         any calls of a cursor;
* `first_cells_agree`       all of it.
-/

namespace Cql

open RawResult (rowOf cellOf)

/-! ## a raw row -/

namespace Row
variable {specs : List ColumnSpec} {raw : RawRow} {x : ColumnSpec × Option Bytes}
  {xs : List (ColumnSpec × Option Bytes)} {v w : Value} {row : Row}

theorem decodeFirst_of_fits (h : specs.length = raw.length) :
    decodeFirst specs raw = match specs.zip raw with
      | [] => .ok none
      | x :: _ => (Cell.decode x.1.type x.2).map some := by
  unfold decodeFirst checkArity
  rw [if_pos h]
  cases specs with
  | nil => rfl
  | cons spec more =>
    cases raw with
    | nil => cases h
    | cons cell cells =>
      rw [List.zip_cons_cons]
      show (do return some (← Cell.decode spec.type cell)) = (Cell.decode spec.type cell).map some
      cases Cell.decode spec.type cell <;> rfl

theorem decodeFirst_of_misfit (h : specs.length ≠ raw.length) :
    decodeFirst specs raw = .error (.rowArity specs.length raw.length) := by
  unfold decodeFirst checkArity
  rw [if_neg h]
  rfl

/-- the row begins with the name of the first cell, and there the last cell of that name stands -/
theorem first?_of_decode (h : decode specs raw = .ok row) (hx : specs.zip raw = x :: xs) :
    ∃ w, row.first? = some w ∧ LastNamed (specs.zip raw) x.1.name w := by
  obtain ⟨-, pairs, hpairs, rfl⟩ := decode_ok_iff.1 h
  rw [hx] at hpairs ⊢
  cases hpairs with
  | @cons _ p _ ps hp hps =>
    obtain ⟨w, hfirst, hlast⟩ := Entries.head_settled p ps
    refine ⟨w, hfirst, ?_⟩
    rwa [← last?_of_decoded (.cons hp hps), hp.1]

theorem FirstAlone.forall_ne (h : FirstAlone specs) (hx : specs.zip raw = x :: xs) :
    ∀ y ∈ xs, y.1.name ≠ x.1.name := by
  obtain ⟨spec, more, rfl, hmore⟩ := h
  cases raw with
  | nil => cases hx
  | cons cell cells =>
    cases hx
    rintro ⟨other, c⟩ hy hname
    exact hmore (List.mem_map.2 ⟨other, (List.of_mem_zip hy).1, hname⟩)

theorem eq_of_lastNamed (hv : Holds x v) (hne : ∀ y ∈ xs, y.1.name ≠ x.1.name)
    (hw : LastNamed (x :: xs) x.1.name w) : w = v := by
  rcases lastNamed_cons.1 hw with ⟨front, y, back, rfl, hy, -⟩ | ⟨-, -, hw⟩
  · exact absurd hy (hne y (by simp))
  · exact Except.ok.inj (hw.symm.trans hv)

/-- what comes of a raw row when its first cell is decoded and when all of it is -/
inductive BothWays (specs : List ColumnSpec) (raw : RawRow) :
    Except DecodeError (Option Value) → Except DecodeError Row → Prop
  | fails (e : DecodeError) : BothWays specs raw (.error e) (.error e)
  | empty (row : Row) (none : specs = []) : BothWays specs raw (.ok .none) (.ok row)
  | later {v : Value} {e : DecodeError} (h : LaterFailure specs raw e) :
      BothWays specs raw (.ok (some v)) (.error e)
  | reads {x : ColumnSpec × Option Bytes} {xs : List (ColumnSpec × Option Bytes)} {v w : Value}
      {row : Row} (cells : specs.zip raw = x :: xs) (holds : Holds x v)
      (first : row.first? = some w) (last : LastNamed (specs.zip raw) x.1.name w)
      (alone : FirstAlone specs → w = v) : BothWays specs raw (.ok (some v)) (.ok row)

/-- a failure that the first cell does not cause comes from behind it -/
theorem laterFailure_of_decode {e : DecodeError} (h : decode specs raw = .error e)
    (hlen : specs.length = raw.length) (hx : specs.zip raw = x :: xs) (hv : Holds x v) :
    LaterFailure specs raw e := by
  rcases decode_error_iff.1 h with ⟨hne, -⟩ | ⟨-, hfails⟩
  · exact absurd hlen hne
  rw [hx, firstFailure_cons] at hfails
  rcases hfails with hx' | ⟨-, hmore⟩
  · exact nomatch hx'.symm.trans hv
  · exact ⟨hlen, x, xs, v, hx, hv, hmore⟩

theorem bothWays (specs : List ColumnSpec) (raw : RawRow) :
    BothWays specs raw (decodeFirst specs raw) (decode specs raw) := by
  by_cases h : specs.length = raw.length
  · rw [decodeFirst_of_fits h]
    cases hcells : specs.zip raw with
    | nil =>
      cases specs with
      | nil =>
        obtain rfl := List.length_eq_zero_iff.1 h.symm
        exact .empty _ rfl
      | cons spec more =>
        cases raw with
        | nil => cases h
        | cons cell cells => cases hcells
    | cons x xs =>
      cases hx : Cell.decode x.1.type x.2 with
      | error e =>
        have herror : decode specs raw = .error e :=
          decode_error_iff.2 (.inr ⟨h, hcells ▸ firstFailure_cons.2 (.inl hx)⟩)
        simpa only [hx, herror, map_error] using BothWays.fails e
      | ok v =>
        simp only [hx, map_ok]
        cases hrow : decode specs raw with
        | error e => exact .later (laterFailure_of_decode hrow h hcells hx)
        | ok row =>
          obtain ⟨w, hw, hlast⟩ := first?_of_decode hrow hcells
          refine .reads hcells hx hw hlast fun halone => ?_
          rw [hcells] at hlast
          exact eq_of_lastNamed hx (halone.forall_ne hcells) hlast
  · rw [decodeFirst_of_misfit h, decode_of_misfit h]
    exact .fails _

end Row

/-! ## a row that was found -/

section
variable (columns : List ColumnSpec)

theorem firstCell_row (raw : RawRow) :
    FirstCell columns (.ok (some raw)) ((cellOf columns raw).map some)
      ((rowOf columns raw).map some) := by
  have h := Row.bothWays columns raw
  unfold cellOf rowOf
  generalize Row.decodeFirst columns raw = first at h ⊢
  generalize Row.decode columns raw = all at h ⊢
  cases h with
  | fails e =>
    show FirstCell columns _ (.error (.decode e)) (.error (.decode e))
    exact ⟨nofun, ⟨nofun, nofun⟩, fun _ he => by cases he; exact .inl rfl, nofun⟩
  | empty row hnone =>
    show FirstCell columns _ (.error (.mapping .emptyRow)) (.ok (some row))
    refine ⟨fun _ _ hne => absurd hnone hne, ⟨nofun, nofun⟩, ?_, nofun⟩
    rintro _ ⟨⟩
    exact .inr ⟨hnone, rfl⟩
  | @later v e hlater =>
    show FirstCell columns _ (.ok (some v)) (.error (.decode e))
    refine ⟨nofun, ⟨nofun, nofun⟩, nofun, ?_⟩
    rintro _ _ - ⟨⟩
    exact ⟨raw, e, rfl, rfl, hlater⟩
  | @reads _ _ v w row _ _ hfirst _ halone =>
    show FirstCell columns _ (.ok (some v)) (.ok (some row))
    refine ⟨?_, ⟨nofun, nofun⟩, nofun, nofun⟩
    rintro _ ⟨⟩ -
    exact ⟨v, rfl, fun h => halone h ▸ hfirst⟩

open Cursor (look)

theorem firstCell_look (seen : Outcome (Option RawRow)) :
    FirstCell columns seen (look cellOf columns seen) (look rowOf columns seen) := by
  match seen with
  | .ok (some raw) => exact firstCell_row columns raw
  | .ok none =>
    show FirstCell columns _ (.ok none) (.ok none)
    exact ⟨nofun, ⟨fun _ => rfl, fun _ => rfl⟩, nofun, nofun⟩
  | .error e =>
    show FirstCell columns _ (.error e) (.error e)
    exact ⟨nofun, ⟨nofun, nofun⟩, fun _ he => by cases he; exact .inl rfl, nofun⟩

end

/-! ## results -/

theorem allOf_map {α β : Type} (f : α → Outcome β) (xs : List α) :
    allOf (xs.map f) = xs.mapM f := by
  induction xs with
  | nil => rfl
  | cons x xs ih =>
    rw [List.map_cons, allOf, ih, List.mapM_cons]

theorem firstOf_map {α : Type} (f : List ColumnSpec → RawRow → Outcome α)
    (columns : List ColumnSpec) (raws : List RawRow) :
    firstOf (raws.map (f columns)) = Cursor.look f columns (.ok raws.head?) := by
  cases raws <;> rfl

namespace RawResult
variable (r : RawResult)

theorem firstCell_first :
    FirstCell r.columns (r.rawRows.map List.head?) r.scalar r.first := by
  have h := firstCell_look r.columns (r.rawRows.map List.head?)
  have hvalue : r.scalar = Cursor.look cellOf r.columns (r.rawRows.map List.head?) := by
    unfold scalar
    cases r.rawRows with
    | error e => rfl
    | ok raws => exact firstOf_map cellOf r.columns raws
  have hrow : r.first = Cursor.look rowOf r.columns (r.rawRows.map List.head?) := by
    unfold first eachRow
    cases r.rawRows with
    | error e => rfl
    | ok raws => exact firstOf_map rowOf r.columns raws
  rwa [hvalue, hrow]

theorem all_eq : r.all = r.rawRows.bind fun raws => raws.mapM (rowOf r.columns) := by
  unfold all eachRow
  cases r.rawRows with
  | error e => rfl
  | ok raws => exact allOf_map (rowOf r.columns) raws

theorem scalars_eq : r.scalars = r.rawRows.bind fun raws => raws.mapM (cellOf r.columns) := by
  unfold scalars
  cases r.rawRows with
  | error e => rfl
  | ok raws => exact allOf_map (cellOf r.columns) raws

end RawResult

theorem map_some_eq_ok {α : Type} {x : Outcome α} {a : α} : x.map some = .ok (some a) ↔ x = .ok a := by
  cases x <;> simp

theorem cells_of_rows {columns : List ColumnSpec} (hne : columns ≠ []) {raws : List RawRow}
    {rows : List Row} (h : List.Forall₂ (fun raw row => rowOf columns raw = .ok row) raws rows) :
    ∃ vs, List.Forall₂ (fun raw v => cellOf columns raw = .ok v) raws vs ∧
      (Row.FirstAlone columns → rows.map Row.first? = vs.map some) := by
  induction h with
  | nil => exact ⟨[], .nil, fun _ => rfl⟩
  | @cons raw row _ _ hrow _ ih =>
    obtain ⟨vs, hvs, hrest⟩ := ih
    obtain ⟨v, hv, hfirst⟩ := (firstCell_row columns raw).reads row (map_some_eq_ok.2 hrow) hne
    refine ⟨v :: vs, .cons (map_some_eq_ok.1 hv) hvs, fun halone => ?_⟩
    rw [List.map_cons, List.map_cons, hfirst halone, hrest halone]

namespace RawResult
variable {r : RawResult}

theorem scalars_of_all {rows : List Row} (h : r.all = .ok rows) (hne : r.columns ≠ []) :
    ∃ vs, r.scalars = .ok vs ∧
      (Row.FirstAlone r.columns → rows.map Row.first? = vs.map some) := by
  rw [all_eq] at h
  rw [scalars_eq]
  cases hr : r.rawRows with
  | error e => rw [hr] at h; cases h
  | ok raws =>
    rw [hr] at h
    obtain ⟨vs, hvs, hfirst⟩ := cells_of_rows hne (mapM_ok_iff.1 h)
    exact ⟨vs, mapM_ok_iff.2 hvs, hfirst⟩

/-- the failure is that of a row, and there it comes from behind the first cell -/
theorem later_of_scalars {vs : List Value} {e : Error} (hvs : r.scalars = .ok vs)
    (he : r.all = .error e) : ∃ raws, r.rawRows = .ok raws ∧ ∃ raw ∈ raws, ∃ d, e = .decode d ∧
      Row.LaterFailure r.columns raw d := by
  rw [all_eq] at he
  rw [scalars_eq] at hvs
  cases hr : r.rawRows with
  | error d => rw [hr] at hvs; cases hvs
  | ok raws =>
    rw [hr] at he hvs
    obtain ⟨front, raw, back, rfl, -, hraw⟩ := mapM_error_iff.1 he
    have hmem : raw ∈ front ++ raw :: back := by simp
    obtain ⟨v, -, hv⟩ := exists_of_forall₂ (mapM_ok_iff.1 hvs).flip raw hmem
    obtain ⟨_, d, ⟨⟩, rfl, hlater⟩ :=
      (firstCell_row r.columns raw).later (some v) e (map_some_eq_ok.2 hv) (by rw [hraw]; rfl)
    exact ⟨_, rfl, raw, hmem, d, rfl, hlater⟩

end RawResult

/-! ## cursors -/

theorem CursorCall.FirstOnly.after_eq {k l : CursorCall} (h : k.FirstOnly l) :
    k.after = l.after := by
  cases h <;> rfl

namespace Cursor

theorem firstOnly_call (x : Cursor × Session) (op : CursorOp) :
    CursorCall.FirstOnly (call x op.firstOnly) (call x op) := by
  cases op with
  | nextRow =>
    have hvalue : call x CursorOp.nextScalar = _ := call_look rfl x
    have hrow : call x CursorOp.nextRow = _ := call_look rfl x
    rw [CursorOp.firstOnly, hvalue, hrow]
    exact .read (firstCell_look _ _)
  | nextAs | nextScalar | nextScalarAs | advance | currentPage => exact .other nofun

theorem firstOnly_calls (x : Cursor × Session) (ops : List CursorOp) :
    List.Forall₂ CursorCall.FirstOnly (calls x (ops.map CursorOp.firstOnly)) (calls x ops) := by
  induction ops generalizing x with
  | nil => exact .nil
  | cons op ops ih =>
    have h := firstOnly_call x op
    rw [List.map_cons, calls, calls, h.after_eq]
    exact .cons h (ih _)

end Cursor

/-- The first cell tells of a row what the whole row does.  Of any raw row: a failure of the first
cell, or of the lengths, is the failure of the row, and if the row decodes then the first cell does;
its value is the first of the row unless its name repeats, and then the last cell of that name is.
So it is with the rows of a result and with any calls of a cursor.  Reading first cells succeeds
where reading rows fails only if a cell behind the first does not decode. -/
theorem first_cells_agree :
    (∀ specs raw,
      (∀ e, Row.decodeFirst specs raw = .error e → Row.decode specs raw = .error e) ∧
      ∀ row, Row.decode specs raw = .ok row → specs ≠ [] → ∃ x xs v w,
        specs.zip raw = x :: xs ∧ Row.Holds x v ∧ Row.decodeFirst specs raw = .ok (some v) ∧
        row.first? = some w ∧ Row.LastNamed (specs.zip raw) x.1.name w ∧
        (Row.FirstAlone specs → w = v)) ∧
    (∀ r : RawResult, FirstCell r.columns (r.rawRows.map List.head?) r.scalar r.first ∧
      (∀ rows, r.all = .ok rows → r.columns ≠ [] → ∃ vs, r.scalars = .ok vs ∧
        (Row.FirstAlone r.columns → rows.map Row.first? = vs.map some)) ∧
      ∀ vs e, r.scalars = .ok vs → r.all = .error e → ∃ raws, r.rawRows = .ok raws ∧
        ∃ raw ∈ raws, ∃ d, e = .decode d ∧ Row.LaterFailure r.columns raw d) ∧
    ∀ (x : Cursor × Session) (ops : List CursorOp), List.Forall₂ CursorCall.FirstOnly
      (Cursor.calls x (ops.map CursorOp.firstOnly)) (Cursor.calls x ops) := by
  refine ⟨fun specs raw => ?_, fun r => ⟨r.firstCell_first, fun rows => RawResult.scalars_of_all,
    fun vs e => RawResult.later_of_scalars⟩, Cursor.firstOnly_calls⟩
  have h := Row.bothWays specs raw
  generalize Row.decodeFirst specs raw = first at h ⊢
  generalize Row.decode specs raw = all at h ⊢
  cases h with
  | fails e => exact ⟨fun _ he => by cases he; rfl, nofun⟩
  | empty row hnone => exact ⟨nofun, fun _ _ hne => absurd hnone hne⟩
  | later => exact ⟨nofun, nofun⟩
  | @reads x xs v w row hcells hholds hfirst hlast halone =>
    refine ⟨nofun, ?_⟩
    rintro _ ⟨⟩ -
    exact ⟨x, xs, v, w, hcells, hholds, rfl, hfirst, hlast, halone⟩

/-- a name that comes back, and a second cell that is too short -/
theorem first_cells_agree_apart :
    let columns : List ColumnSpec := [⟨"k", .int⟩, ⟨"n", .int⟩]
    let whole : RawRow := [some [0, 0, 0, 1], none]
    let short : RawRow := [some [0, 0, 0, 2], some [7]]
    let repeated : List ColumnSpec := [⟨"k", .int⟩, ⟨"k", .int⟩]
    let page := RawResult.ofRows columns [whole, short]
    let c : Cursor := (Cursor.unopened (.direct "SELECT k, n FROM t" none) .empty).absorb page
    (∃ row v w, Row.decode repeated whole = .ok row ∧
      Row.decodeFirst repeated whole = .ok (some v) ∧ row.first? = some w ∧
      Row.LastNamed (repeated.zip whole) "k" w ∧ v = .int 1 ∧ w = .null) ∧
    (∃ rows vs, (RawResult.ofRows columns [whole]).all = .ok rows ∧
      (RawResult.ofRows columns [whole]).scalars = .ok vs ∧ rows.map Row.first? = vs.map some) ∧
    (∃ d, page.scalars = .ok [.int 1, .int 2] ∧ page.all = .error (.decode d) ∧
      ∃ raw ∈ [whole, short], Row.LaterFailure columns raw d) ∧
    List.Forall₂ CursorCall.FirstOnly
      (Cursor.calls (c, .replaying []) [.nextScalar, .nextScalar, .currentPage, .nextScalar])
      (Cursor.calls (c, .replaying []) [.nextRow, .nextRow, .currentPage, .nextRow]) := by
  intro columns whole short repeated page c
  obtain ⟨hrows, hresults, hcursors⟩ := first_cells_agree
  refine ⟨?_, ?_, ?_, hcursors (c, .replaying []) [.nextRow, .nextRow, .currentPage, .nextRow]⟩
  · have hrow : Row.decode repeated whole = .ok ⟨[("k", .null)]⟩ := rfl
    obtain ⟨x, xs, v, w, hx, -, hv, hw, hlast, -⟩ := (hrows repeated whole).2 _ hrow nofun
    cases hx
    cases hv
    cases hw
    exact ⟨_, _, _, hrow, rfl, rfl, hlast, rfl, rfl⟩
  · have hall : (RawResult.ofRows columns [whole]).all = .ok [⟨[("k", .int 1), ("n", .null)]⟩] := rfl
    obtain ⟨vs, hvs, hfirst⟩ := (hresults (.ofRows columns [whole])).2.1 _ hall nofun
    exact ⟨_, vs, hall, hvs, hfirst ⟨⟨"k", .int⟩, [⟨"n", .int⟩], rfl, by decide⟩⟩
  · have hscalars : page.scalars = .ok [.int 1, .int 2] := rfl
    have hall : ∃ e, page.all = .error e := ⟨_, rfl⟩
    obtain ⟨e, he⟩ := hall
    obtain ⟨_, ⟨⟩, raw, hraw, d, rfl, hlater⟩ := (hresults page).2.2 _ _ hscalars he
    exact ⟨d, hscalars, he, raw, hraw, hlater⟩

end Cql
