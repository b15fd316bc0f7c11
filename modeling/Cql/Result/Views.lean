import Mathlib.Data.List.Forall2
import Cql.Result

/-!
# Views of one sequence of rows

The accessors of a result differ in how they see a raw row, and in how many rows they look at.
`see` is the first of these here, a function of the columns and the raw row; the accessors that see
a row in the same way are said together.

* `Lists see each`       `each` gives out every row, whatever became of the others;
* `Views see all first`  `all` takes all rows or the first failure, `first` the first row.
-/

namespace Cql.RawResult

section
variable {α : Type} (see : List ColumnSpec → RawRow → Outcome α)

/-- one outcome for each raw row, in their order -/
structure Lists (each : RawResult → Outcome (List (Outcome α))) : Prop where
  refuses : ∀ r, each r = .error (.mapping .noRows) ↔ r.rows = none
  gives : ∀ {r raws}, r.rows = some raws → each r = .ok (raws.map (see r.columns))

/-- all rows together, or the first one alone -/
structure Views (all : RawResult → Outcome (List α)) (first : RawResult → Outcome (Option α)) :
    Prop where
  all_refuses : ∀ r, all r = .error (.mapping .noRows) ↔ r.rows = none
  first_refuses : ∀ r, first r = .error (.mapping .noRows) ↔ r.rows = none
  all_gives : ∀ {r raws}, r.rows = some raws → ∀ as, all r = .ok as ↔
    List.Forall₂ (fun raw a => see r.columns raw = .ok a) raws as
  all_fails : ∀ {r raws}, r.rows = some raws → ∀ e, all r = .error e ↔
    ∃ front raw back, raws = front ++ raw :: back ∧
      (∀ x ∈ front, ∃ a, see r.columns x = .ok a) ∧ see r.columns raw = .error e
  first_empty : ∀ {r}, r.rows = some [] → first r = .ok none
  first_sees : ∀ {r raw more}, r.rows = some (raw :: more) →
    first r = (see r.columns raw).map some
  /-- later rows make no difference -/
  first_alone : ∀ {r r'}, r.columns = r'.columns → r.rows.map List.head? = r'.rows.map List.head? →
    first r = first r'

end

end Cql.RawResult
