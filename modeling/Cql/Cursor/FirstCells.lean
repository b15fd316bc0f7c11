import Cql.Cursor.Calls
import Cql.Row.Cells

/-!
# Reading first cells alone

The first column can be read without decoding the rest of the row.  `FirstCell` says what this has
to do with reading the row.  `CursorOp.firstOnly` turns each read of a row into a read of its first
cell, and `CursorCall.FirstOnly` sets a call beside the call that it was turned into.
-/

namespace Cql

/-- `value` came of reading a first cell where `row` came of reading all cells; `seen` is the raw row
itself, or nothing at the end, or why there is neither -/
structure FirstCell (columns : List ColumnSpec) (seen : Outcome (Option RawRow))
    (value : Outcome (Option Value)) (row : Outcome (Option Row)) : Prop where
  reads : ∀ r, row = .ok (some r) → columns ≠ [] →
    ∃ v, value = .ok (some v) ∧ (Row.FirstAlone columns → r.first? = some v)
  ended : value = .ok none ↔ row = .ok none
  fails : ∀ e, value = .error e → row = .error e ∨ columns = [] ∧ e = .mapping .emptyRow
  /-- it takes a cell behind the first to make this difference -/
  later : ∀ v e, value = .ok v → row = .error e →
    ∃ raw d, seen = .ok (some raw) ∧ e = .decode d ∧ Row.LaterFailure columns raw d

/-- rows are read by their first cell, all else is left as it is -/
def CursorOp.firstOnly : CursorOp → CursorOp
  | nextRow => nextScalar
  | op => op

namespace CursorCall

/-- the second call reads all of a row and the first one its first cell, or they are the same -/
inductive FirstOnly : CursorCall → CursorCall → Prop
  | other {k : CursorCall} (h : k.op ≠ .nextRow) : FirstOnly k k
  | read {before after : Cursor × Session} {value : Outcome (Option Value)}
      {row : Outcome (Option Row)}
      (h : FirstCell after.1.columns (before.1.nextRaw before.2).1 value row) :
      FirstOnly ⟨.nextScalar, before, value.map .scalar, after⟩
        ⟨.nextRow, before, row.map .row, after⟩

end CursorCall

end Cql
