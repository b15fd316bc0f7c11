import Mathlib.Algebra.Order.Floor.Div
import Cql.Proofs.Told

/-!
# Pages and one result agree

Rows of values are made into answers in two ways, one answer with all rows or a page after the
other.  Both write the same cells, in the same order, and so fail alike; and a cursor that reads the
pages tells what the one answer tells.  The cells are written first (`pagesFrom_eq`); after that
`layout` only puts rows on pages, and a cursor takes them off again.

* `flatten_chunks`, `length_chunks`   pieces of a list, and how many there are;
* `pagesFrom_eq`                      a failure does not depend on the size of the pages;
* `told_layout`                       what a cursor tells of pages;
* `paged_eq_eager`                    the two ways of reading, row by row and request by request.
-/

namespace Cql

/-! ## writing many pieces -/

section
variable {ε α β : Type} (f : α → Except ε β)

theorem mapM_flatten (xss : List (List α)) :
    xss.flatten.mapM f = (xss.mapM (List.mapM f)).map List.flatten := by
  induction xss with
  | nil => rfl
  | cons xs xss ih =>
    rw [List.flatten_cons, List.mapM_append, List.mapM_cons, ih]
    cases xs.mapM f with
    | error e => rfl
    | ok ys => cases xss.mapM (List.mapM f) <;> rfl

theorem length_of_mapM {f : α → Except ε β} {xs : List α} {ys : List β} (h : xs.mapM f = .ok ys) :
    ys.length = xs.length := by
  induction xs generalizing ys with
  | nil => cases h; rfl
  | cons x xs ih =>
    rw [List.mapM_cons] at h
    cases hx : f x with
    | error e => rw [hx] at h; cases h
    | ok y =>
      cases hxs : xs.mapM f with
      | error e => rw [hx, hxs] at h; cases h
      | ok ys' =>
        rw [hx, hxs] at h
        cases h
        rw [List.length_cons, List.length_cons, ih hxs]

end

namespace RawResult

/-! ## pieces -/

section
variable {α : Type} (n : Nat) (xs : List α)

theorem flatten_chunks : (chunks n xs).flatten = xs := by
  fun_induction chunks n xs with
  | case1 xs h => simp
  | case2 xs h ih => rw [List.flatten_cons, ih, List.take_append_drop]

theorem length_chunks {n : Nat} (hn : 0 < n) :
    (chunks n xs).length = max 1 (xs.length ⌈/⌉ n) := by
  fun_induction chunks n xs with
  | case1 xs h =>
    have hle : xs.length ≤ n := h.resolve_right (by omega)
    have hceil : xs.length ⌈/⌉ n ≤ 1 := by
      rw [ceilDiv_le_iff_le_mul hn]
      omega
    exact (Nat.max_eq_left hceil).symm
  | case2 xs h ih =>
    have hlt : n < xs.length := by omega
    have hceil : xs.length ⌈/⌉ n = (xs.length - n) ⌈/⌉ n + 1 := by
      rw [Nat.ceilDiv_eq_add_pred_div, Nat.ceilDiv_eq_add_pred_div,
        show xs.length + n - 1 = (xs.length - n + n - 1) + n by omega, Nat.add_div_right _ hn]
    have hpos : 1 ≤ (xs.length - n) ⌈/⌉ n := Nat.div_pos (by omega) hn
    rw [List.length_cons, ih, List.length_drop, hceil]
    omega

end

/-- rows on pages, one piece a page -/
def layout (columns : List ColumnSpec) : Nat → List (List RawRow) → List RawResult
  | _, [] => []
  | k, rows :: more =>
    { ofRows columns rows with
      pagingState := if more.isEmpty then none else some (pageState k) } ::
      layout columns (k + 1) more

section
variable (columns : List ColumnSpec)

/-- the cells are written before any page is made of them -/
theorem pagesFrom_eq (k : Nat) (pieces : List (List (List Value))) :
    pagesFrom columns k pieces = (pieces.mapM (List.mapM rawRow)).map (layout columns k) := by
  fun_induction pagesFrom columns k pieces with
  | case1 => rfl
  | case2 k rows =>
    rw [ofValues, List.mapM_cons]
    cases rows.mapM rawRow <;> rfl
  | case3 k rows more hmore ih =>
    rw [ofValues, List.mapM_cons, ih]
    cases hr : rows.mapM rawRow with
    | error e => rfl
    | ok raws =>
      cases hm : more.mapM (List.mapM rawRow) with
      | error e => rfl
      | ok raw =>
        have hne : raw.isEmpty = false := by
          have hlen := length_of_mapM hm
          cases raw with
          | nil => exact absurd (List.length_eq_zero_iff.1 hlen.symm) hmore
          | cons => rfl
        show Except.ok _ = Except.ok _
        rw [layout, hne]
        rfl

@[simp] theorem length_layout (k : Nat) (pieces : List (List RawRow)) :
    (layout columns k pieces).length = pieces.length := by
  induction pieces generalizing k with
  | nil => rfl
  | cons rows more ih => rw [layout, List.length_cons, ih, List.length_cons]

/-- every page but the last says where the next one begins -/
theorem isSome_of_mem_dropLast_layout (k : Nat) (pieces : List (List RawRow)) :
    ∀ page ∈ (layout columns k pieces).dropLast, page.pagingState.isSome := by
  induction pieces generalizing k with
  | nil => simp [layout]
  | cons rows more ih =>
    cases more with
    | nil => simp [layout]
    | cons rows' more =>
      rw [layout, layout, List.dropLast_cons_cons]
      exact List.forall_mem_cons.2 ⟨rfl, by simpa [layout] using ih (k + 1)⟩

end

end RawResult

namespace Cursor

open RawResult

/-- a cursor that stands at the pages after the rows at hand tells these and those -/
theorem told_layout {α : Type} (f : List ColumnSpec → RawRow → Outcome α) {c : Cursor}
    {columns : List ColumnSpec} (k : Nat) (pieces : List (List RawRow)) (hc : c.columns = columns)
    (hm : c.hasMore = !pieces.isEmpty) :
    c.told f ((layout columns k pieces).map .ok) =
      ((c.buffer ++ pieces.flatten).map fun raw => (f columns raw).map some) ++ [.ok none] := by
  induction pieces generalizing c k with
  | nil =>
    rw [layout, List.map_nil, told, seen, hc]
    simp
  | cons rows more ih =>
    rw [layout, List.map_cons, told, if_pos (by simpa using hm), ih]
    · simp [seen, hc, absorb, ofRows]
    · simp [absorb, ofRows, hc]
    · cases more <;> rfl

theorem turns_layout {c : Cursor} (columns : List ColumnSpec) (k : Nat)
    (pieces : List (List RawRow)) (hm : c.hasMore = !pieces.isEmpty) :
    c.turns ((layout columns k pieces).map .ok) = pieces.length := by
  induction pieces generalizing c k with
  | nil => rw [layout, List.map_nil, turns, if_neg (by simpa using hm), List.length_nil]
  | cons rows more ih =>
    rw [layout, List.map_cons, turns, if_pos (by simpa using hm), ih, List.length_cons]
    cases more <;> rfl

/-- the requests for pages, each at the place that the page before it has told -/
theorem forPage_take (statement : Statement) (parameters : Parameters) {pages : List RawResult}
    (h : pages ≠ []) :
    ((List.range pages.length).map fun i =>
        Request.forPage statement parameters (pages.take i)) =
      (none :: pages.dropLast.map RawResult.pagingState).map
        (Request.paged statement parameters) := by
  have hpos := List.length_pos_iff.2 h
  apply List.ext_getElem
  · simp
    omega
  · intro i hi hi'
    cases i with
    | zero => simp [Request.forPage]
    | succ i =>
      have hlt : i < pages.length := by
        rw [List.length_map, List.length_range] at hi
        omega
      rw [List.getElem_map, List.getElem_range, ← List.take_append_getElem hlt, Request.forPage,
        stateOf_concat]
      simp

/-- a cursor that has asked once for each page has asked for it at its place -/
theorem Follows.requests_replaying {pages : List RawResult} {statement : Statement}
    {parameters : Parameters} {c : Cursor} {t : Session}
    (h : Follows (.replaying (pages.map .ok)) statement parameters c t) (hne : pages ≠ [])
    (hlen : ((Session.replaying (pages.map .ok)).asked t).length = pages.length) :
    t.requests = (none :: pages.dropLast.map RawResult.pagingState).map
      (Request.paged statement parameters) := by
  show (Session.replaying (pages.map .ok)).asked t = _
  rw [h.asked, hlen, ← forPage_take statement parameters hne]
  apply List.map_congr_left
  intro i hi
  rw [Session.replies_replaying (Nat.le_of_lt (List.mem_range.1 hi)), pagesOf_map_ok]

/-- a session that replies with pages, read to the end and beyond -/
theorem reads_layout (columns : List ColumnSpec) {pieces : List (List RawRow)} (h : pieces ≠ [])
    (statement : Statement) (parameters : Parameters) (m : Nat) :
    let pages := layout columns 0 pieces
    let reads := List.replicate (pieces.flatten.length + 1 + m) CursorOp.nextRow
    ∃ c t,
      (Session.replaying (pages.map .ok)).openCursor (.ok (statement, parameters)) = (.ok c, t) ∧
      (calls (c, t) reads).map CursorCall.answer =
        (pieces.flatten.map fun raw => (rowOf columns raw).map fun row => .row (some row)) ++
          [.ok (.row none)] ++ List.replicate m (.error .cursorExhausted) ∧
      (afterCalls (c, t) reads).2.requests =
        (none :: pages.dropLast.map RawResult.pagingState).map
          (Request.paged statement parameters) := by
  intro pages reads
  cases pieces with
  | nil => exact absurd rfl h
  | cons first more =>
    let s := Session.replaying (pages.map .ok)
    let page : RawResult := { ofRows columns first with
      pagingState := if more.isEmpty then none else some (pageState 0) }
    let c := (unopened statement parameters).absorb page
    let t := s.after [(unopened statement parameters).request]
    have hopen : s.openCursor (.ok (statement, parameters)) = (.ok c, t) := by
      rw [Session.openCursor, start, fetch_eq]
      rfl
    have hc : c.columns = columns := by
      cases columns <;> rfl
    have hm : c.hasMore = !more.isEmpty := by
      cases more <;> rfl
    have htold : c.told rowOf t.queue =
        ((first ++ more.flatten).map fun raw => (rowOf columns raw).map some) ++ [.ok none] :=
      told_layout rowOf 1 more hc hm
    have hturns : c.turns t.queue = more.length := turns_layout columns 1 more hm
    have hlen : (c.told rowOf t.queue).length = (first :: more).flatten.length + 1 := by
      rw [htold, List.length_append, List.length_map]
      rfl
    have hle : (c.told rowOf t.queue).length ≤ (first :: more).flatten.length + 1 + m := by omega
    have hr : CursorOp.reading? .nextRow = some ⟨rowOf, .row⟩ := rfl
    have hreads : (calls (c, t) reads).map CursorCall.answer =
        ((c.told rowOf t.queue).take ((first :: more).flatten.length + 1 + m)).map (·.map .row) ++
          List.replicate ((first :: more).flatten.length + 1 + m - (c.told rowOf t.queue).length)
            (.error .cursorExhausted) := reads_told hr rfl _
    refine ⟨c, t, hopen, ?_, ?_⟩
    · rw [hreads, List.take_of_length_le hle, hlen, Nat.add_sub_cancel_left, htold,
        List.map_append, List.map_map]
      congr 2
      apply List.map_congr_left
      intro raw _
      show ((rowOf columns raw).map some).map CursorAnswer.row = _
      cases rowOf columns raw <;> rfl
    · have hf : Follows s statement parameters c t := (Follows.of_open hopen).1
      have hu := Follows.afterCalls (x := (c, t)) hf reads
      have hrest : (t.asked (afterCalls (c, t) reads).2).length = more.length := by
        rw [reads_asked hr rfl hle, hturns]
      apply hu.requests_replaying
      · simp [pages, layout]
      · rw [hf.later.asked_append (afterCalls_later (c, t) reads), List.length_append, hrest,
          s.asked_after]
        simp [pages, Nat.add_comm]

/-- Rows read from pages of any size are the rows of one answer, each with the same outcome, and
then the end, once.  Each page is asked for once. -/
theorem paged_eq_eager (columns : List ColumnSpec) (rows : List (List Value)) (size : Nat)
    (statement : Statement) (parameters : Parameters) (m : Nat) :
    match ofValues columns rows with
    | .error e => pagesOfValues columns rows size = .error e
    | .ok eager => ∃ pages outcomes c t,
      pagesOfValues columns rows size = .ok pages ∧
      eager.eachRow = .ok outcomes ∧
      (Session.replaying (pages.map .ok)).openCursor (.ok (statement, parameters)) = (.ok c, t) ∧
      let reads := List.replicate (rows.length + 1 + m) CursorOp.nextRow
      let requests := (afterCalls (c, t) reads).2.requests
      (calls (c, t) reads).map CursorCall.answer =
        outcomes.map (·.map fun row => .row (some row)) ++ [.ok (.row none)] ++
          List.replicate m (.error .cursorExhausted) ∧
      requests.length = max 1 (rows.length ⌈/⌉ max 1 size) ∧
      requests = (none :: pages.dropLast.map RawResult.pagingState).map
        (Request.paged statement parameters) ∧
      ∀ page ∈ pages.dropLast, page.pagingState.isSome := by
  have hk : (if size = 0 then 1 else size) = max 1 size := by
    split <;> omega
  have hpages : pagesOfValues columns rows size =
      ((chunks (max 1 size) rows).mapM (List.mapM rawRow)).map (layout columns 0) := by
    rw [pagesOfValues, hk, pagesFrom_eq]
  have hraw : rows.mapM rawRow =
      ((chunks (max 1 size) rows).mapM (List.mapM rawRow)).map List.flatten := by
    rw [← mapM_flatten, flatten_chunks]
  rw [ofValues, hraw, hpages]
  cases hp : (chunks (max 1 size) rows).mapM (List.mapM rawRow) with
  | error e => rfl
  | ok pieces =>
    rw [hp] at hraw
    have hrows : pieces.flatten.length = rows.length := length_of_mapM hraw
    have hpieces : pieces.length = max 1 (rows.length ⌈/⌉ max 1 size) := by
      rw [length_of_mapM hp, length_chunks rows (by omega)]
    have hne : pieces ≠ [] := by
      rintro rfl
      rw [List.length_nil] at hpieces
      omega
    obtain ⟨c, t, hopen, hanswers, hrequests⟩ := reads_layout columns hne statement parameters m
    rw [hrows] at hanswers hrequests
    refine ⟨layout columns 0 pieces, pieces.flatten.map (rowOf columns), c, t, rfl, rfl, hopen,
      ?_, ?_, hrequests, isSome_of_mem_dropLast_layout columns 0 pieces⟩
    · rw [hanswers, List.map_map]
      rfl
    · rw [hrequests, ← hpieces, List.length_map, List.length_cons, List.length_map,
        List.length_dropLast, length_layout]
      have hpos := List.length_pos_iff.2 hne
      omega

end Cursor

end Cql
