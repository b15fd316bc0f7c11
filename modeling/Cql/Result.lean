import Cql.Row

/-!
# Results

What a session answers: the columns, the raw rows if the answer has any, where to go on if more
rows are left, and remarks.  The accessors are views of one sequence of rows.  All of them refuse an
answer without rows except `size` and `wasApplied`.

* `eachRow`, `eachAs`                       the outcome of every row, whatever became of the others;
* `all`, `allAs`, `scalars`, `scalarsAs`    all rows or first cells, or the first failure;
* `first`, `firstAs`, `scalar`, `scalarAs`  the outcome of the first row, if there is a row.
-/

namespace Cql

structure RawResult where
  columns : List ColumnSpec
  rows : Option (List RawRow)
  pagingState : Option Bytes
  tracingId : Option Uuid
  warnings : List String

/-- an outcome with all its possible errors -/
abbrev Outcome := Except Error

/-- every outcome a success, or the first failure -/
def allOf {α : Type} : List (Outcome α) → Outcome (List α)
  | [] => .ok []
  | r :: rs => do
    let a ← r
    let as ← allOf rs
    return a :: as

/-- the first outcome, if there is one -/
def firstOf {α : Type} : List (Outcome α) → Outcome (Option α)
  | [] => .ok none
  | r :: _ => r.map some

namespace RawResult

def void : RawResult := ⟨[], none, none, none, []⟩

def ofRows (columns : List ColumnSpec) (rows : List RawRow) : RawResult :=
  { void with columns := columns, rows := some rows }

def hasRows (r : RawResult) : Bool := r.rows.isSome

def size (r : RawResult) : Nat :=
  match r.rows with
  | some rows => rows.length
  | none => 0

/-- the raw rows, if the answer has rows at all -/
def rawRows (r : RawResult) : Outcome (List RawRow) :=
  match r.rows with
  | some rows => .ok rows
  | none => .error (.mapping .noRows)

section
variable (columns : List ColumnSpec)

def rowOf (raw : RawRow) : Outcome Row := ofDecode (Row.decode columns raw)

def rowAs (s : Shape) (raw : RawRow) : Outcome Host := do (← rowOf columns raw).readAs s

/-- the first cell of a raw row; there must be a column -/
def cellOf (raw : RawRow) : Outcome Value := do
  match ← ofDecode (Row.decodeFirst columns raw) with
  | some v => return v
  | none => throw (.mapping .emptyRow)

def cellAs (s : Shape) (raw : RawRow) : Outcome Host := do (← cellOf columns raw).readAs s

end

section
variable (r : RawResult)

def eachRow : Outcome (List (Outcome Row)) := r.rawRows.map (·.map (rowOf r.columns))

def eachAs (s : Shape) : Outcome (List (Outcome Host)) := r.rawRows.map (·.map (rowAs r.columns s))

def all : Outcome (List Row) := do allOf (← r.eachRow)
def allAs (s : Shape) : Outcome (List Host) := do allOf (← r.eachAs s)
def first : Outcome (Option Row) := do firstOf (← r.eachRow)
def firstAs (s : Shape) : Outcome (Option Host) := do firstOf (← r.eachAs s)

def scalars : Outcome (List Value) := do allOf ((← r.rawRows).map (cellOf r.columns))
def scalarsAs (s : Shape) : Outcome (List Host) := do allOf ((← r.rawRows).map (cellAs r.columns s))
def scalar : Outcome (Option Value) := do firstOf ((← r.rawRows).map (cellOf r.columns))
def scalarAs (s : Shape) : Outcome (Option Host) := do
  firstOf ((← r.rawRows).map (cellAs r.columns s))

/-- the column in which a conditional write tells whether it happened -/
def appliedColumn : String := "[applied]"

/-- whether a conditional write happened, if the answer tells -/
def wasApplied : Outcome (Option Bool) :=
  match r.rows with
  | some (raw :: _) => do
    match (← rowOf r.columns raw).get? appliedColumn with
    | some (.bool applied) => return some applied
    | _ => return none
  | _ => .ok none

end

end RawResult

end Cql
