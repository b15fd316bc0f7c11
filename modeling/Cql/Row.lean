import Cql.Cell.Reader
import Cql.Error
import Cql.Host.Reading

/-!
# Rows

A raw row is what the wire carries: one cell a column, or so one hopes.  `Row.decode` decodes the
cells from the left against the columns of the result; a name that comes twice keeps its first place
and the value of its last cell.  `decodeFirst` looks at the first cell alone and at none after it.

A row is read as host data by the names of its columns.
-/

namespace Cql

structure ColumnSpec where
  name : String
  type : ColumnType

abbrev RawRow := List (Option Bytes)

/-- column names and values in the order of the projection -/
structure Row where
  columns : Entries String Value

namespace Row

/-- every name once, with the value that comes last -/
def ofList (pairs : List (String × Value)) : Row := ⟨Entries.ofList pairs⟩

def get? (row : Row) (column : String) : Option Value := row.columns.get? column

def names (row : Row) : List String := row.columns.keys

def values (row : Row) : List Value := row.columns.values

def first? (row : Row) : Option Value := row.values.head?

def checkArity (specs : List ColumnSpec) (raw : RawRow) : Except DecodeError Unit :=
  if specs.length = raw.length then .ok () else .error (.rowArity specs.length raw.length)

/-- every cell under the name of its column, from the left -/
def decodeCells : List ColumnSpec → RawRow → Except DecodeError (List (String × Value))
  | spec :: specs, cell :: cells => do
    let v ← Cell.decode spec.type cell
    let rest ← decodeCells specs cells
    return (spec.name, v) :: rest
  | _, _ => .ok []

/-- the row of a result with these columns -/
def decode (specs : List ColumnSpec) (raw : RawRow) : Except DecodeError Row := do
  checkArity specs raw
  let pairs ← decodeCells specs raw
  return ofList pairs

/-- the value of the first cell, nothing if there are no columns -/
def decodeFirst (specs : List ColumnSpec) (raw : RawRow) : Except DecodeError (Option Value) := do
  checkArity specs raw
  match specs, raw with
  | spec :: _, cell :: _ => return some (← Cell.decode spec.type cell)
  | _, _ => return none

def readAs (s : Shape) (row : Row) : Except Error Host := ofReading (s.read (.row row.columns))

end Row

def Value.readAs (s : Shape) (v : Value) : Except Error Host := ofReading (s.read (.value v))

end Cql
