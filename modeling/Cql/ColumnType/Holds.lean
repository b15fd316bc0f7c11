import Cql.ColumnType
import Cql.Value

/-!
# What a column of a type can hold

`t.Holds v` says that `v` is a value for a column of type `t`: of the kind that the type asks for,
with parts that the types of the parts hold, and with as many fields, named alike and in the same
order, as the type declares.  A collection is never `null`, everything else may be; of `varint`,
`decimal`, `duration` and a foreign class only `null` can be held, and `unset` by no type at all.

That no set has equal elements and no map equal keys is said apart, by `Value.Distinct`.
-/

namespace Cql.ColumnType

mutual

def Holds : ColumnType → Value → Prop
  | ascii, v => v = .null ∨ ∃ s, v = .text s
  | bool, v => v = .null ∨ ∃ b, v = .bool b
  | blob, v => v = .null ∨ ∃ bytes, v = .blob bytes
  | counter, v => v = .null ∨ ∃ n, v = .counter n
  | date, v => v = .null ∨ ∃ d, v = .date d
  | decimal, v => v = .null
  | double, v => v = .null ∨ ∃ bits, v = .double bits
  | duration, v => v = .null
  | float, v => v = .null ∨ ∃ bits, v = .float bits
  | int, v => v = .null ∨ ∃ n, v = .int n
  | bigInt, v => v = .null ∨ ∃ n, v = .bigInt n
  | smallInt, v => v = .null ∨ ∃ n, v = .smallInt n
  | tinyInt, v => v = .null ∨ ∃ n, v = .tinyInt n
  | text, v => v = .null ∨ ∃ s, v = .text s
  | time, v => v = .null ∨ ∃ t, v = .time t
  | timestamp, v => v = .null ∨ ∃ t, v = .timestamp t
  | uuid, v => v = .null ∨ ∃ u, v = .uuid u
  | timeUuid, v => v = .null ∨ ∃ u, v = .timeUuid u
  | inet, v => v = .null ∨ ∃ a, v = .inet a
  | varint, v => v = .null
  | list t, v => ∃ xs, v = .list xs ∧ ∀ x ∈ xs, Holds t x
  | set t, v => ∃ xs, v = .set xs ∧ ∀ x ∈ xs, Holds t x
  | map k w, v => ∃ es, v = .map es ∧ ∀ e ∈ es, Holds k e.1 ∧ Holds w e.2
  | tuple ts, v => v = .null ∨ ∃ xs, v = .tuple xs ∧ HoldsFields ts xs
  | udt _ name fs, v => v = .null ∨ ∃ ys, v = .udt name ys ∧ HoldsNamed fs ys
  | custom _, v => v = .null
termination_by structural t => t

/-- field by field, and as many -/
def HoldsFields : List ColumnType → List Value → Prop
  | [], xs => xs = []
  | t :: ts, xs => ∃ y ys, xs = y :: ys ∧ Holds t y ∧ HoldsFields ts ys
termination_by structural ts => ts

/-- field by field, of the same names and as many -/
def HoldsNamed : List (String × ColumnType) → List (String × Value) → Prop
  | [], xs => xs = []
  | (name, t) :: fs, xs => ∃ y ys, xs = (name, y) :: ys ∧ Holds t y ∧ HoldsNamed fs ys
termination_by structural fs => fs

end

theorem length_of_holdsFields {ts : List ColumnType} {xs : List Value} (h : HoldsFields ts xs) :
    xs.length = ts.length := by
  induction ts generalizing xs with
  | nil =>
    have he : xs = [] := h
    rw [he]
    rfl
  | cons t ts ih =>
    obtain ⟨y, ys, rfl, _, hs⟩ := h
    rw [List.length_cons, List.length_cons, ih hs]

theorem names_of_holdsNamed {fs : List (String × ColumnType)} {xs : List (String × Value)}
    (h : HoldsNamed fs xs) : xs.map Prod.fst = fs.map Prod.fst := by
  induction fs generalizing xs with
  | nil =>
    have he : xs = [] := h
    rw [he]
    rfl
  | cons f fs ih =>
    obtain ⟨name, t⟩ := f
    obtain ⟨y, ys, rfl, _, hs⟩ := h
    rw [List.map_cons, List.map_cons, ih hs]

end Cql.ColumnType
