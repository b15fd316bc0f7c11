import Cql.Row

/-!
# Cells beside their columns

What a raw row says under the columns of its result.  The cells and the columns are paired from the
left, and a pair is all that decoding looks at.

* `Holds`          the value of a cell;
* `LastNamed`      the value of the last cell of a name, since names may repeat;
* `FirstFailure`   the error of the leftmost cell that does not decode;
* `LaterFailure`   such a cell stands in the row, but not in the first column.
-/

namespace Cql

namespace Row

/-- the cell decodes to `v` as its column has it -/
def Holds (x : ColumnSpec × Option Bytes) (v : Value) : Prop := Cell.decode x.1.type x.2 = .ok v

/-- `v` is the value of the last cell whose column is called `name` -/
def LastNamed (xs : List (ColumnSpec × Option Bytes)) (name : String) (v : Value) : Prop :=
  ∃ front x back, xs = front ++ x :: back ∧ x.1.name = name ∧ Holds x v ∧
    ∀ y ∈ back, y.1.name ≠ name

/-- `e` is the error of the first cell that does not decode -/
def FirstFailure (xs : List (ColumnSpec × Option Bytes)) (e : DecodeError) : Prop :=
  ∃ front x back, xs = front ++ x :: back ∧ (∀ y ∈ front, ∃ v, Holds y v) ∧
    Cell.decode x.1.type x.2 = .error e

/-- the first cell of a row that fits its columns decodes, and the error comes from behind it -/
def LaterFailure (specs : List ColumnSpec) (raw : RawRow) (e : DecodeError) : Prop :=
  specs.length = raw.length ∧
    ∃ x xs v, specs.zip raw = x :: xs ∧ Holds x v ∧ FirstFailure xs e

/-- the first column shares its name with no other -/
def FirstAlone (specs : List ColumnSpec) : Prop :=
  ∃ spec more, specs = spec :: more ∧ spec.name ∉ more.map ColumnSpec.name

end Row

end Cql
