import Cql.Proofs.FirstCells
import Cql.Result.Views

/-!
# The accessors of a result agree

There are four ways to see a raw row: as a row, as host data, by its first cell, and by the host
data of its first cell.  None of them says that there are no rows (`rowOf_ne_noRows` and the like),
so that this error tells of the answer alone.  What remains is said of any way to see a row:
`lists_of` of the accessors that give out every row, `views_of` of those that take all or the first.

* `wasApplied_error_iff`   what the report on a conditional write depends on;
* `accessors_agree`        all accessors.
-/

namespace Cql.RawResult

/-! ## one row -/

section
variable (columns : List ColumnSpec) (s : Shape) (raw : RawRow)

theorem rowOf_ne_noRows : rowOf columns raw ≠ .error (.mapping .noRows) := by
  unfold rowOf
  cases Row.decode columns raw <;> nofun

theorem ofReading_ne_noRows (x : ReadResult Host) : ofReading x ≠ .error (.mapping .noRows) := by
  cases x <;> nofun

theorem rowAs_eq : rowAs columns s raw = match Row.decode columns raw with
    | .error d => .error (.decode d)
    | .ok row => row.readAs s := by
  unfold rowAs rowOf
  cases Row.decode columns raw <;> rfl

theorem rowAs_ne_noRows : rowAs columns s raw ≠ .error (.mapping .noRows) := by
  rw [rowAs_eq]
  cases Row.decode columns raw with
  | error d => nofun
  | ok row => exact ofReading_ne_noRows _

theorem cellOf_eq : cellOf columns raw = match Row.decodeFirst columns raw with
    | .error d => .error (.decode d)
    | .ok none => .error (.mapping .emptyRow)
    | .ok (some v) => .ok v := by
  unfold cellOf
  cases Row.decodeFirst columns raw with
  | error d => rfl
  | ok v? => cases v? <;> rfl

theorem cellAs_eq : cellAs columns s raw = match Row.decodeFirst columns raw with
    | .error d => .error (.decode d)
    | .ok none => .error (.mapping .emptyRow)
    | .ok (some v) => v.readAs s := by
  unfold cellAs
  rw [cellOf_eq]
  cases Row.decodeFirst columns raw with
  | error d => rfl
  | ok v? => cases v? <;> rfl

theorem cellOf_ne_noRows : cellOf columns raw ≠ .error (.mapping .noRows) := by
  rw [cellOf_eq]
  cases Row.decodeFirst columns raw with
  | error d => nofun
  | ok v? => cases v? <;> nofun

theorem cellAs_ne_noRows : cellAs columns s raw ≠ .error (.mapping .noRows) := by
  rw [cellAs_eq]
  cases Row.decodeFirst columns raw with
  | error d => nofun
  | ok v? =>
    cases v? with
    | none => nofun
    | some v => exact ofReading_ne_noRows _

end

/-! ## many rows -/

section
variable {α : Type} {see : List ColumnSpec → RawRow → Outcome α}

theorem rawRows_of_none {r : RawResult} (h : r.rows = none) :
    r.rawRows = .error (.mapping .noRows) := by rw [rawRows, h]

theorem rawRows_of_some {r : RawResult} {raws : List RawRow} (h : r.rows = some raws) :
    r.rawRows = .ok raws := by rw [rawRows, h]

/-- an accessor that does not refuse rows refuses an answer without them alone -/
theorem refuses_iff {β : Type} {r : RawResult} {f : List RawRow → Outcome β}
    (h : ∀ raws, f raws ≠ .error (.mapping .noRows)) :
    r.rawRows.bind f = .error (.mapping .noRows) ↔ r.rows = none := by
  cases hr : r.rows with
  | none =>
    rw [rawRows_of_none hr]
    exact iff_of_true rfl rfl
  | some raws =>
    rw [rawRows_of_some hr]
    exact iff_of_false (h raws) nofun

theorem lists_of {each : RawResult → Outcome (List (Outcome α))}
    (h : ∀ r, each r = r.rawRows.bind fun raws => .ok (raws.map (see r.columns))) :
    Lists see each where
  refuses r := by
    rw [h]
    exact refuses_iff fun _ => nofun
  gives hr := by
    rw [h, rawRows_of_some hr]
    rfl

theorem views_of {all : RawResult → Outcome (List α)} {first : RawResult → Outcome (Option α)}
    (hsee : ∀ columns raw, see columns raw ≠ .error (.mapping .noRows))
    (hall : ∀ r, all r = r.rawRows.bind fun raws => allOf (raws.map (see r.columns)))
    (hfirst : ∀ r, first r = r.rawRows.bind fun raws => firstOf (raws.map (see r.columns))) :
    Views see all first := by
  have hgives {r : RawResult} {raws : List RawRow} (hr : r.rows = some raws) :
      all r = raws.mapM (see r.columns) := by
    rw [hall, rawRows_of_some hr]
    exact allOf_map _ raws
  have hlooks {r : RawResult} {raws : List RawRow} (hr : r.rows = some raws) :
      first r = firstOf (raws.map (see r.columns)) := by
    rw [hfirst, rawRows_of_some hr]
    rfl
  refine ⟨fun r => ?_, fun r => ?_, fun hr as => ?_, fun hr e => ?_, fun hr => hlooks hr,
    fun hr => hlooks hr, fun {r r'} hc hr => ?_⟩
  · rw [hall]
    refine refuses_iff fun raws hraws => ?_
    rw [allOf_map, mapM_error_iff] at hraws
    obtain ⟨_, raw, _, -, -, hraw⟩ := hraws
    exact hsee r.columns raw hraw
  · rw [hfirst]
    refine refuses_iff fun raws hraws => ?_
    cases raws with
    | nil => cases hraws
    | cons raw raws =>
      refine hsee r.columns raw ?_
      have hmap : (see r.columns raw).map some = .error (.mapping .noRows) := hraws
      cases hraw : see r.columns raw with
      | ok a => rw [hraw] at hmap; cases hmap
      | error e => rw [hraw] at hmap; cases hmap; rfl
  · rw [hgives hr, mapM_ok_iff]
  · rw [hgives hr, mapM_error_iff]
  · -- only the columns and the head of the rows are looked at
    have hhead (q : RawResult) : first q = match q.rows.map List.head? with
        | none => .error (.mapping .noRows)
        | some raw? => Cursor.look see q.columns (.ok raw?) := by
      cases hq : q.rows with
      | none =>
        rw [hfirst, rawRows_of_none hq]
        rfl
      | some raws =>
        rw [hlooks hq, firstOf_map]
        rfl
    rw [hhead, hhead, hc, hr]

end

/-! ## the accessors -/

/-- what is done with the outcomes of rows is done with the rows -/
theorem map_bind_rows {α β γ : Type} (x : Outcome α) (f : α → β) (g : β → Outcome γ) :
    (x.map f).bind g = x.bind fun a => g (f a) := by
  cases x <;> rfl

theorem map_eq_bind {α β : Type} (x : Outcome α) (f : α → β) :
    x.map f = x.bind fun a => .ok (f a) := by
  cases x <;> rfl

/-- the report on a conditional write looks at the first row alone, and needs it decoded -/
theorem wasApplied_error_iff {r : RawResult} {e : Error} : r.wasApplied = .error e ↔
    ∃ raw more d, r.rows = some (raw :: more) ∧ Row.decode r.columns raw = .error d ∧
      e = .decode d := by
  unfold wasApplied
  cases hr : r.rows with
  | none =>
    refine iff_of_false (fun h => by cases h) ?_
    rintro ⟨_, _, _, ⟨⟩, -⟩
  | some raws =>
    cases raws with
    | nil =>
      refine iff_of_false (fun h => by cases h) ?_
      rintro ⟨_, _, _, ⟨⟩, -⟩
    | cons raw more =>
      dsimp only
      rw [rowOf]
      cases hd : Row.decode r.columns raw with
      | error d =>
        constructor
        · rintro ⟨⟩
          exact ⟨raw, more, d, rfl, hd, rfl⟩
        · rintro ⟨_, _, _, ⟨⟩, hd', rfl⟩
          rw [hd] at hd'
          cases hd'
          rfl
      | ok row =>
        constructor
        · intro h
          change (Except.ok row >>= _) = _ at h
          rw [bind_ok] at h
          split at h <;> cases h
        · rintro ⟨_, _, _, ⟨⟩, hd', -⟩
          rw [hd] at hd'
          cases hd'

/-- The accessors of a result are views of one sequence of rows.  All of them refuse an answer
without rows, except its size and the report on a conditional write.  Where there are rows, each of
them has an outcome of its own; all together are a success if each row is one, and else the failure
of the first row that is none; the first row is seen whatever follows it. -/
theorem accessors_agree :
    (Lists rowOf eachRow ∧ Views rowOf all first) ∧
    (∀ s, Lists (rowAs · s) (eachAs · s) ∧ Views (rowAs · s) (allAs · s) (firstAs · s)) ∧
    Views cellOf scalars scalar ∧
    (∀ s, Views (cellAs · s) (scalarsAs · s) (scalarAs · s)) ∧
    (∀ columns s raw, rowAs columns s raw = match Row.decode columns raw with
      | .error d => .error (.decode d)
      | .ok row => row.readAs s) ∧
    (∀ columns s raw, cellAs columns s raw = match cellOf columns raw with
      | .error e => .error e
      | .ok v => v.readAs s) ∧
    ∀ r : RawResult, r.wasApplied ≠ .error (.mapping .noRows) ∧
      r.size = (r.rows.getD []).length ∧ (r.rows = none → r.wasApplied = .ok none) := by
  have rows : Views rowOf all first := views_of rowOf_ne_noRows
    (fun r => map_bind_rows r.rawRows _ _) (fun r => map_bind_rows r.rawRows _ _)
  have data (s : Shape) : Views (rowAs · s) (allAs · s) (firstAs · s) :=
    views_of (rowAs_ne_noRows · s) (fun r => map_bind_rows r.rawRows _ _)
      (fun r => map_bind_rows r.rawRows _ _)
  have cells : Views cellOf scalars scalar :=
    views_of cellOf_ne_noRows (fun _ => rfl) (fun _ => rfl)
  have numbers (s : Shape) : Views (cellAs · s) (scalarsAs · s) (scalarAs · s) :=
    views_of (cellAs_ne_noRows · s) (fun _ => rfl) (fun _ => rfl)
  refine ⟨⟨lists_of fun r => map_eq_bind r.rawRows _, rows⟩,
    fun s => ⟨lists_of fun r => map_eq_bind r.rawRows _, data s⟩, cells, numbers,
    rowAs_eq, ?_, fun r => ⟨?_, ?_, ?_⟩⟩
  · intro columns s raw
    unfold cellAs
    cases cellOf columns raw <;> rfl
  · intro h
    obtain ⟨_, _, _, -, -, he⟩ := wasApplied_error_iff.1 h
    cases he
  · unfold size
    cases r.rows <;> rfl
  · intro h
    rw [wasApplied, h]

/-- a second row that does not decode, and an answer without rows -/
theorem accessors_agree_spoiled :
    let columns : List ColumnSpec := [⟨"k", .int⟩, ⟨"n", .int⟩]
    let whole : RawRow := [some [0, 0, 0, 1], none]
    let short : RawRow := [some [0, 0, 0, 2], some [7]]
    let r := ofRows columns [whole, short, whole]
    (∃ d, Row.decode columns short = .error d ∧ r.all = .error (.decode d) ∧
      r.allAs (.list .ignored) = .error (.decode d)) ∧
    r.eachRow = .ok ([whole, short, whole].map (rowOf columns)) ∧
    r.firstAs (.int .i8) = (ofRows columns [whole]).firstAs (.int .i8) ∧
    r.scalars = .ok [.int 1, .int 2, .int 1] ∧
    void.scalarAs (.int .i8) = .error (.mapping .noRows) ∧ void.wasApplied = .ok none := by
  intro columns whole short r
  obtain ⟨⟨hrows, hviews⟩, hdata, hcells, hnumbers, hread, -, hresult⟩ := accessors_agree
  have hwhole : rowOf columns whole = .ok ⟨[("k", .int 1), ("n", .null)]⟩ := rfl
  have hshort : ∃ d, Row.decode columns short = .error d := ⟨_, rfl⟩
  obtain ⟨d, hd⟩ := hshort
  refine ⟨⟨d, hd, ?_, ?_⟩, hrows.gives rfl, (hdata _).2.first_alone rfl rfl, ?_,
    ((hnumbers _).first_refuses void).2 rfl, (hresult void).2.2 rfl⟩
  · refine (hviews.all_fails (r := r) rfl _).2 ⟨[whole], short, [whole], rfl, ?_, ?_⟩
    · rintro x hx
      obtain rfl := List.mem_singleton.1 hx
      exact ⟨_, hwhole⟩
    · show ofDecode (Row.decode columns short) = _
      rw [hd]
      rfl
  · refine ((hdata _).2.all_fails (r := r) rfl _).2 ⟨[whole], short, [whole], rfl, ?_, ?_⟩
    · rintro x hx
      obtain rfl := List.mem_singleton.1 hx
      exact ⟨.list [.ignored, .ignored], rfl⟩
    · show rowAs columns _ short = _
      rw [hread, hd]
  · exact (hcells.all_gives (r := r) rfl _).2 (.cons rfl (.cons rfl (.cons rfl .nil)))

end Cql.RawResult
