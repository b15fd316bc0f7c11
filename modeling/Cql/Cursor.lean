import Cql.Session

/-!
# Cursors

A cursor reads the rows of a result page by page.  It holds the rows of the page that arrived last
and were not read yet, and where the next page begins.  Opening it asks for the first page; after
that a page is asked for only when a row is wanted and none is left, or by `advance`, which throws
away what is left of the current page.  A page may be empty although more follow, so reading goes on
until a page has a row, or no further page, or the session fails.

The end is told once: the read that finds neither a row nor a further page answers `none` and
finishes the cursor, and every read after it is refused.  A failure of the session changes nothing
in the cursor, so the same page is asked for again; a row that cannot be decoded is used up.

* `nextRaw`                      the next raw row, on which all reads are built;
* `nextRow` …, `advance`, `currentPage`   the operations, also as data in `CursorOp`;
* `drain`                        all rows that are left, up to the first failure.
-/

namespace Cql

structure Cursor where
  statement : Statement
  parameters : Parameters
  /-- those of the last page that told any -/
  columns : List ColumnSpec
  /-- rows that arrived and were not read yet -/
  buffer : List RawRow
  /-- where the next page begins, nothing on the last page -/
  pagingState : Option Bytes
  /-- the end was told -/
  finished : Bool

abbrev CursorExchange (α : Type) := Outcome α × Cursor × Session

namespace Cursor

def unopened (statement : Statement) (parameters : Parameters) : Cursor :=
  ⟨statement, parameters, [], [], none, false⟩

def hasMore (c : Cursor) : Bool := c.pagingState.isSome

def request (c : Cursor) : Request :=
  ⟨c.statement, c.parameters, some ⟨c.statement.pageSize, c.pagingState⟩⟩

/-- take a page in; a page without columns leaves them as they were -/
def absorb (c : Cursor) (page : RawResult) : Cursor :=
  { c with
    columns := if page.columns.isEmpty then c.columns else page.columns
    buffer := page.rows.getD []
    pagingState := page.pagingState }

def fetch (c : Cursor) (s : Session) : CursorExchange Unit :=
  match s.execute c.request with
  | (.ok page, s) => (.ok (), c.absorb page, s)
  | (.error e, s) => (.error e, c, s)

def start (c : Cursor) (s : Session) : Outcome Cursor × Session :=
  match c.fetch s with
  | (.ok _, c, s) => (.ok c, s)
  | (.error e, _, s) => (.error e, s)

/-! ## reading on -/

/-- how often a page can still be asked for -/
def supply (c : Cursor) (s : Session) : Nat := s.pending + if c.hasMore then 1 else 0

theorem supply_absorb {c : Cursor} {s t : Session} {r : Request} {page : RawResult}
    (hc : c.hasMore) (h : s.execute r = (.ok page, t)) :
    (c.absorb page).supply t < c.supply s := by
  unfold Session.execute Session.answer at h
  unfold supply
  rw [if_pos hc]
  cases hq : s.queue with
  | nil =>
    rw [hq] at h
    cases h
    simp [Session.pending, hq, absorb, RawResult.void, hasMore]
  | cons a as =>
    rw [hq] at h
    cases h
    simp only [Session.pending, hq, List.length_cons]
    split <;> omega

/-- the next raw row of a cursor that is not finished -/
def pull (c : Cursor) (s : Session) : CursorExchange (Option RawRow) :=
  match c.buffer with
  | raw :: rest => (.ok (some raw), { c with buffer := rest }, s)
  | [] =>
    if _hc : c.hasMore then
      match _h : s.execute c.request with
      | (.ok page, t) => pull (c.absorb page) t
      | (.error e, t) => (.error e, c, t)
    else (.ok none, { c with finished := true }, s)
termination_by c.supply s
decreasing_by exact supply_absorb _hc _h

/-- the next raw row, or nothing at the end; the end is told once -/
def nextRaw (c : Cursor) (s : Session) : CursorExchange (Option RawRow) :=
  if c.finished then (.error .cursorExhausted, c, s) else c.pull s

/-- the next raw row seen through `f`, which gets the columns of its page -/
def nextBy {α : Type} (f : List ColumnSpec → RawRow → Outcome α) (c : Cursor) (s : Session) :
    CursorExchange (Option α) :=
  match c.nextRaw s with
  | (.ok (some raw), c, s) => ((f c.columns raw).map some, c, s)
  | (.ok none, c, s) => (.ok none, c, s)
  | (.error e, c, s) => (.error e, c, s)

def nextRow : Cursor → Session → CursorExchange (Option Row) := nextBy RawResult.rowOf

def nextAs (sh : Shape) : Cursor → Session → CursorExchange (Option Host) :=
  nextBy fun columns => RawResult.rowAs columns sh

def nextScalar : Cursor → Session → CursorExchange (Option Value) := nextBy RawResult.cellOf

def nextScalarAs (sh : Shape) : Cursor → Session → CursorExchange (Option Host) :=
  nextBy fun columns => RawResult.cellAs columns sh

/-- go on to the next page, if there is one, whatever is left of this one -/
def advance (c : Cursor) (s : Session) : CursorExchange Bool :=
  if c.finished then (.error .cursorExhausted, c, s)
  else if c.hasMore then
    match c.fetch s with
    | (.ok _, c, s) => (.ok true, c, s)
    | (.error e, c, s) => (.error e, c, s)
  else (.ok false, c, s)

/-- the rows of the current page that were not read yet -/
def currentPage (c : Cursor) : Outcome (List Row) := allOf (c.buffer.map (RawResult.rowOf c.columns))

end Cursor

/-! ## operations as data -/

inductive CursorOp where
  | nextRow
  | nextAs (shape : Shape)
  | nextScalar
  | nextScalarAs (shape : Shape)
  | advance
  | currentPage

inductive CursorAnswer where
  | row (row : Option Row)
  | scalar (v : Option Value)
  | datum (x : Option Host)
  | advanced (moved : Bool)
  | page (rows : List Row)

namespace Cursor

def answering {α : Type} (f : α → CursorAnswer) (x : CursorExchange α) :
    CursorExchange CursorAnswer := (x.1.map f, x.2)

def perform (c : Cursor) (s : Session) : CursorOp → CursorExchange CursorAnswer
  | .nextRow => answering .row (c.nextRow s)
  | .nextAs sh => answering .datum (c.nextAs sh s)
  | .nextScalar => answering .scalar (c.nextScalar s)
  | .nextScalarAs sh => answering .datum (c.nextScalarAs sh s)
  | .advance => answering .advanced (c.advance s)
  | .currentPage => answering .page (c.currentPage, c, s)

/-! ## reading to the end -/

/-- rows that the answers of a queue hold -/
def rowsAhead : List (Outcome RawResult) → Nat
  | [] => 0
  | .ok page :: queue => page.size + rowsAhead queue
  | .error _ :: queue => rowsAhead queue

/-- rows that arrived or are going to arrive -/
def remaining (c : Cursor) (s : Session) : Nat := c.buffer.length + rowsAhead s.queue

theorem remaining_absorb {c : Cursor} {s t : Session} {r : Request} {page : RawResult}
    (hb : c.buffer = []) (h : s.execute r = (.ok page, t)) :
    (c.absorb page).remaining t = c.remaining s := by
  unfold Session.execute Session.answer at h
  cases hq : s.queue with
  | nil =>
    rw [hq] at h
    cases h
    simp [remaining, rowsAhead, hq, hb, absorb, RawResult.void]
  | cons a as =>
    rw [hq] at h
    cases h
    cases hr : page.rows <;> simp [remaining, rowsAhead, hq, hb, absorb, RawResult.size, hr]

theorem remaining_pull {c d : Cursor} {s t : Session} {raw : RawRow}
    (h : c.pull s = (.ok (some raw), d, t)) : d.remaining t < c.remaining s := by
  fun_induction pull c s with
  | case1 c s raw' rest hb =>
    cases h
    simp [remaining, hb]
  | case2 c s hb hc page t' he ih => exact remaining_absorb hb he ▸ ih h
  | case3 => cases h
  | case4 => cases h

theorem remaining_nextRaw {c d : Cursor} {s t : Session} {raw : RawRow}
    (h : c.nextRaw s = (.ok (some raw), d, t)) : d.remaining t < c.remaining s := by
  unfold nextRaw at h
  split at h
  · cases h
  · exact remaining_pull h

/-- all rows that are left, each seen through `f`; the first failure is the last item -/
def drain {α : Type} (f : List ColumnSpec → RawRow → Outcome α) (c : Cursor) (s : Session) :
    List (Outcome α) × Session :=
  match _h : c.nextRaw s with
  | (.ok none, _, s) => ([], s)
  | (.error e, _, s) => ([.error e], s)
  | (.ok (some raw), d, t) =>
    match f d.columns raw with
    | .error e => ([.error e], t)
    | .ok a =>
      let (more, last) := drain f d t
      (.ok a :: more, last)
termination_by c.remaining s
decreasing_by exact remaining_nextRaw _h

def rows : Cursor → Session → List (Outcome Row) × Session := drain RawResult.rowOf

def scalars : Cursor → Session → List (Outcome Value) × Session := drain RawResult.cellOf

/-- the rows that are left as host data; one that does not fit its shape ends nothing -/
def rowsAs (sh : Shape) (c : Cursor) (s : Session) : List (Outcome Host) × Session :=
  let (items, s) := c.rows s
  (items.map fun r => r.bind (Row.readAs sh), s)

end Cursor

namespace Session

/-- open a cursor on a statement, once its parameters are there -/
def openCursor (s : Session) (prepared : Outcome (Statement × Parameters)) :
    Outcome Cursor × Session :=
  match prepared with
  | .ok (statement, parameters) => (Cursor.unopened statement parameters).start s
  | .error e => (.error e, s)

end Session

end Cql
