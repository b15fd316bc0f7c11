import Mathlib.Data.List.Forall2
import Cql.Cursor.Calls

/-!
# Streams

A cursor can be made into a stream, which is polled for one item after the other.  The stream has
the cursor until it is closed: by the read that finds the end, which yields nothing, and by the
first failure, which it yields.  A closed stream yields nothing and asks for nothing.  A row may be
read as host data on its way out, and what does not fit closes nothing.

`Cursor.rows`, `Cursor.scalars` and `Cursor.rowsAs` list all items at once.  Here the items are said
poll by poll, and the reads that they stand for call by call.

* `poll`, `pollAs`, `polls`   one poll, one whose row becomes host data, and many;
* `Cut`                       the items that come of the answers to reads;
* `Reads`, `Yields`           a list of items against the reads of a cursor, and against polls;
* `ReadItem`, `Unexhausted`   what becomes of an item as host data, and what is no item;
* `announced`, `under`        the pages that a cursor is going to get, their rows under columns.
-/

namespace Cql

namespace Cursor

/-- a stream and its session; a closed stream has no cursor -/
abbrev StreamState := Option Cursor × Session

abbrev Poll (α : Type) := StreamState → Option (Outcome α) × StreamState

section
variable {α : Type}

def poll (f : List ColumnSpec → RawRow → Outcome α) : Poll α
  | (none, s) => (none, none, s)
  | (some c, s) =>
    match c.nextBy f s with
    | (.ok (some a), d, t) => (some (.ok a), some d, t)
    | (.ok none, _, t) => (none, none, t)
    | (.error e, _, t) => (some (.error e), none, t)

def pollAs (sh : Shape) : Poll Host := fun x =>
  let (row, y) := poll RawResult.rowOf x
  (row.map fun r => r.bind (Row.readAs sh), y)

/-- what `n` polls yield, and the stream after them -/
def polls (p : Poll α) : Nat → StreamState → List (Option (Outcome α)) × StreamState
  | 0, x => ([], x)
  | n + 1, x =>
    let (item, y) := p x
    let (items, z) := polls p n y
    (item :: items, z)

/-! ## items and reads -/

/-- the answers to reads up to the first without a row, and the items that come of them -/
inductive Cut : List (Outcome (Option α)) → List (Outcome α) → Prop
  | ended : Cut [.ok none] []
  | failed (e : Error) : Cut [.error e] [.error e]
  | item (a : α) {answers : List (Outcome (Option α))} {items : List (Outcome α)}
      (more : Cut answers items) : Cut (.ok (some a) :: answers) (.ok a :: items)

/-- the items come of the reads `op` of a cursor, and `t` is the session after these -/
structure Reads (op : CursorOp) (wrap : Option α → CursorAnswer) (x : Cursor × Session)
    (answers : List (Outcome (Option α))) (items : List (Outcome α)) (t : Session) : Prop where
  answered : (calls x (List.replicate answers.length op)).map CursorCall.answer =
    answers.map (·.map wrap)
  cut : Cut answers items
  after : (afterCalls x (List.replicate answers.length op)).2 = t

/-- polls yield the items and then nothing, and each makes the requests of one read `op`; those
after the first `reads` make none -/
structure Yields (p : Poll α) (op : CursorOp) (x : Cursor × Session) (reads : Nat)
    (items : List (Outcome α)) : Prop where
  yields : ∀ n, (polls p n (some x.1, x.2)).1 = (List.range n).map (items[·]?)
  asks : ∀ n, (polls p n (some x.1, x.2)).2.2 =
    (afterCalls x (List.replicate (min n reads) op)).2

/-- an exhausted cursor is an item only where the session has said so, between `s` and `t` -/
def Unexhausted (s t : Session) (items : List (Outcome α)) : Prop :=
  .error .cursorExhausted ∈ items → .error .cursorExhausted ∈ s.answered t

end

/-- an item whose row is read as host data; a failure stays what it is -/
inductive ReadItem (sh : Shape) : Outcome Row → Outcome Host → Prop
  | row (row : Row) : ReadItem sh (.ok row) (row.readAs sh)
  | failed (e : Error) : ReadItem sh (.error e) (.error e)

/-! ## pages that are still to come -/

/-- the pages that come one after the other, as long as each says that there are more -/
def announced : Bool → List RawResult → List RawResult
  | true, page :: pages => page :: announced page.pagingState.isSome pages
  | _, _ => []

/-- the rows of pages, each beside the columns that were told last -/
def under (columns : List ColumnSpec) : List RawResult → List (List ColumnSpec × RawRow)
  | [] => []
  | page :: pages =>
    let columns := if page.columns.isEmpty then columns else page.columns
    (page.rows.getD []).map (columns, ·) ++ under columns pages

/-- the rows that a cursor has and is going to get -/
def ahead (c : Cursor) (pages : List RawResult) : List (List ColumnSpec × RawRow) :=
  c.buffer.map (c.columns, ·) ++ under c.columns (announced c.hasMore pages)

theorem map_snd_under (columns : List ColumnSpec) (pages : List RawResult) :
    (under columns pages).map Prod.snd = RawResult.rowsOf pages := by
  induction pages generalizing columns with
  | nil => rfl
  | cons page pages ih =>
    rw [under, List.map_append, List.map_map, ih, RawResult.rowsOf_cons]
    congr 1
    exact List.map_id _

/-- all pages come if each but the last says that there are more -/
theorem announced_of_linked {pages : List RawResult}
    (h : ∀ page ∈ pages.dropLast, page.pagingState.isSome) : announced true pages = pages := by
  induction pages with
  | nil => rfl
  | cons page pages ih =>
    cases pages with
    | nil =>
      rw [announced]
      cases page.pagingState.isSome <;> rfl
    | cons next pages =>
      rw [List.dropLast_cons_cons] at h
      obtain ⟨hpage, hmore⟩ := List.forall_mem_cons.1 h
      rw [announced, hpage, ih hmore]

end Cursor

end Cql
