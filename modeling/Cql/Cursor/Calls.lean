import Cql.Cursor
import Cql.Session.Record

/-!
# Calls of a cursor

What can be said of a cursor from outside: the calls made on it, each with the cursor and the
session before and after (`CursorCall`), and what the session replied in between.

The four reads differ only in how they see a row and how they wrap what they saw, and so each is a
`Reading`.  `Fate` says what a call answers and which rows it uses up; `Frugal` says when it asks
the session, and how often.  Both look at one call.  What holds of many calls in a row is said of
the lists that `Cursor.calls` makes.
-/

namespace Cql

/-! ## pages among replies -/

def pagesOf (replies : List (Outcome RawResult)) : List RawResult :=
  replies.filterMap Except.toOption

namespace RawResult

/-- the rows of pages, one page after the other -/
def rowsOf (pages : List RawResult) : List RawRow := pages.flatMap (·.rows.getD [])

/-- the columns of the last page that tells any -/
def columnsOf (pages : List RawResult) : List ColumnSpec :=
  ((pages.map columns).filter (!·.isEmpty)).getLast?.getD []

/-- where the page after the last one begins -/
def stateOf (pages : List RawResult) : Option Bytes := pages.getLast?.bind pagingState

end RawResult

/-- the request for the page at `state` -/
def Request.paged (statement : Statement) (parameters : Parameters) (state : Option Bytes) :
    Request :=
  ⟨statement, parameters, some ⟨statement.pageSize, state⟩⟩

/-- the request for the page after `pages` -/
def Request.forPage (statement : Statement) (parameters : Parameters) (pages : List RawResult) :
    Request :=
  paged statement parameters (RawResult.stateOf pages)

/-! ## calls -/

structure CursorCall where
  op : CursorOp
  before : Cursor × Session
  answer : Outcome CursorAnswer
  after : Cursor × Session

namespace Cursor

/-- the cursor after a reply; a failure changes nothing -/
def receive (c : Cursor) : Outcome RawResult → Cursor
  | .ok page => c.absorb page
  | .error _ => c

def call (x : Cursor × Session) (op : CursorOp) : CursorCall :=
  let y := x.1.perform x.2 op
  ⟨op, x, y.1, y.2⟩

/-- one call after the other -/
def calls (x : Cursor × Session) : List CursorOp → List CursorCall
  | [] => []
  | op :: ops => call x op :: calls (call x op).after ops

/-- the cursor and the session after one call after the other -/
def afterCalls (x : Cursor × Session) (ops : List CursorOp) : Cursor × Session :=
  ops.foldl (fun x op => (call x op).after) x

end Cursor

/-- how a read sees a row, and what it answers then -/
structure CursorOp.Reading where
  {α : Type}
  through : List ColumnSpec → RawRow → Outcome α
  answer : Option α → CursorAnswer

def CursorOp.reading? : CursorOp → Option Reading
  | nextRow => some ⟨RawResult.rowOf, .row⟩
  | nextAs sh => some ⟨fun columns => RawResult.rowAs columns sh, .datum⟩
  | nextScalar => some ⟨RawResult.cellOf, .scalar⟩
  | nextScalarAs sh => some ⟨fun columns => RawResult.cellAs columns sh, .datum⟩
  | advance => none
  | currentPage => none

/-- whether a call cannot do without the session -/
def CursorOp.Wants (c : Cursor) : CursorOp → Prop
  | currentPage => False
  | advance => c.finished = false ∧ c.hasMore
  | _ => c.finished = false ∧ c.buffer = [] ∧ c.hasMore

/-- a reply after which a read does not ask again -/
def Settles : Outcome RawResult → Prop
  | .ok page => page.rows.getD [] ≠ [] ∨ page.pagingState = none
  | .error _ => True

namespace CursorCall

/-- the requests made during a call -/
def asked (k : CursorCall) : List Request := k.before.2.asked k.after.2

/-- what they got -/
def answered (k : CursorCall) : List (Outcome RawResult) := k.before.2.answered k.after.2

/-- what a call does with the rows of its cursor, seen through `columns`; the list holds the rows
that it uses up -/
inductive Fate (columns : List ColumnSpec) (k : CursorCall) : List RawRow → Prop
  /-- one row is used up, also one that cannot be seen -/
  | read {r : CursorOp.Reading} {raw : RawRow} (reads : k.op.reading? = some r)
      (unfinished : k.before.1.finished = false)
      (told : k.answer = (r.through columns raw).map fun a => r.answer (some a)) : Fate columns k [raw]
  | ended {r : CursorOp.Reading} (reads : k.op.reading? = some r)
      (unfinished : k.before.1.finished = false) (told : k.answer = .ok (r.answer none))
      (empty : k.after.1.buffer = []) (last : k.after.1.pagingState = none)
      (finished : k.after.1.finished) : Fate columns k []
  | failed {e : Error} (moves : k.op ≠ .currentPage) (unfinished : k.before.1.finished = false)
      (last : k.answered.getLast? = some (.error e)) (told : k.answer = .error e) :
      Fate columns k []
  | refused (moves : k.op ≠ .currentPage) (finished : k.before.1.finished)
      (told : k.answer = .error .cursorExhausted) (same : k.after = k.before) : Fate columns k []
  | skipped (op : k.op = .advance) (told : k.answer = .ok (.advanced true)) :
      Fate columns k k.before.1.buffer
  | stayed (op : k.op = .advance) (told : k.answer = .ok (.advanced false))
      (same : k.after = k.before) : Fate columns k []
  | looked (op : k.op = .currentPage)
      (told : k.answer = (allOf (k.before.1.buffer.map (RawResult.rowOf columns))).map .page)
      (same : k.after = k.before) : Fate columns k []

/-- a call uses up `rows`, and the rows that were there or came with it are these and what is left -/
structure Uses (columns : List ColumnSpec) (k : CursorCall) (rows : List RawRow) : Prop where
  fate : Fate columns k rows
  kept : k.before.1.buffer ++ RawResult.rowsOf (pagesOf k.answered) = rows ++ k.after.1.buffer

/-- the read that tells the end -/
def Ends (k : CursorCall) : Prop :=
  ∃ r, k.op.reading? = some r ∧ k.answer = .ok (r.answer none)

/-- a call asks the session only when it has to, and no longer than it has to -/
structure Frugal (k : CursorCall) : Prop where
  /-- nothing happens to the session but requests -/
  later : k.before.2.Later k.after.2
  silent : ¬ k.op.Wants k.before.1 → k.asked = []
  once : k.op.Wants k.before.1 → k.op = .advance → k.asked.length = 1
  settled : k.op.Wants k.before.1 → k.op.reading?.isSome →
    ∃ passed last, k.answered = passed ++ [last] ∧ (∀ a ∈ passed, ¬ Settles a) ∧ Settles last
  bounded : k.asked.length ≤ k.before.2.pending + 1

end CursorCall

/-! ## simple facts -/

section
variable (replies replies' : List (Outcome RawResult)) (pages pages' : List RawResult)

@[simp] theorem pagesOf_nil : pagesOf [] = [] := rfl

@[simp] theorem pagesOf_ok (page : RawResult) :
    pagesOf (.ok page :: replies) = page :: pagesOf replies := rfl

@[simp] theorem pagesOf_error (e : Error) : pagesOf (.error e :: replies) = pagesOf replies := rfl

@[simp] theorem pagesOf_map_ok : pagesOf (pages.map .ok) = pages := by
  simp [pagesOf, List.filterMap_map, Function.comp_def]

@[simp] theorem pagesOf_append :
    pagesOf (replies ++ replies') = pagesOf replies ++ pagesOf replies' := List.filterMap_append

namespace RawResult

@[simp] theorem rowsOf_nil : rowsOf [] = [] := rfl

@[simp] theorem rowsOf_cons (page : RawResult) :
    rowsOf (page :: pages) = page.rows.getD [] ++ rowsOf pages := rfl

@[simp] theorem rowsOf_append : rowsOf (pages ++ pages') = rowsOf pages ++ rowsOf pages' :=
  List.flatMap_append

@[simp] theorem stateOf_nil : stateOf [] = none := rfl

@[simp] theorem stateOf_concat (page : RawResult) :
    stateOf (pages ++ [page]) = page.pagingState := by simp [stateOf]

@[simp] theorem columnsOf_nil : columnsOf [] = [] := rfl

theorem columnsOf_concat (page : RawResult) :
    columnsOf (pages ++ [page]) =
      if page.columns.isEmpty then columnsOf pages else page.columns := by
  by_cases h : page.columns = []
  · simp [columnsOf, h]
  · simp [columnsOf, h]

end RawResult

end

namespace Cursor

theorem fetch_eq (c : Cursor) (s : Session) :
    c.fetch s = (s.reply.map fun _ => (), c.receive s.reply, s.after [c.request]) := by
  rw [fetch, Session.execute_eq]
  cases s.reply with
  | ok page => rfl
  | error e => rfl

theorem ne_currentPage {op : CursorOp} {r : CursorOp.Reading} (h : op.reading? = some r) :
    op ≠ .currentPage := by
  rintro rfl
  cases h

/-- what a read answers tells the end from a row -/
theorem answer_eq_none_iff {op : CursorOp} {r : CursorOp.Reading} (h : op.reading? = some r)
    {a : Option r.α} : r.answer a = r.answer none ↔ a = none := by
  cases op with
  | nextRow | nextAs | nextScalar | nextScalarAs =>
    cases h
    cases a <;> simp
  | advance | currentPage => cases h

/-- the four reads are one -/
theorem perform_reading {op : CursorOp} {r : CursorOp.Reading} (h : op.reading? = some r)
    (c : Cursor) (s : Session) : c.perform s op = answering r.answer (c.nextBy r.through s) := by
  cases op with
  | nextRow => cases h; rfl
  | nextAs sh => cases h; rfl
  | nextScalar => cases h; rfl
  | nextScalarAs sh => cases h; rfl
  | advance => cases h
  | currentPage => cases h

end Cursor

end Cql
