import Cql.Cell.Reader
import Cql.ColumnType.Parts

/-!
# Types that gain fields

The type of a tuple or a record may be given further fields at its end, also where it stands inside
of another type.  `Grown t t'` says that `t'` came from `t` in this way, by any number of additions
at any depth; nothing else changes, names least of all.

`pad t' v` is what becomes of a value that was written when the type had fewer fields: each tuple
and each record within gets, for every field it does not have, the value that a null cell of the
field's type stands for.
-/

namespace Cql

namespace ColumnType

mutual

/-- the second type came from the first by further fields at the end of tuples and records -/
inductive Grown : ColumnType → ColumnType → Prop where
  | same {t : ColumnType} (h : t.hasParts = false) : Grown t t
  | list {t t' : ColumnType} (h : Grown t t') : Grown (list t) (list t')
  | set {t t' : ColumnType} (h : Grown t t') : Grown (set t) (set t')
  | map {k k' w w' : ColumnType} (hk : Grown k k') (hw : Grown w w') : Grown (map k w) (map k' w')
  | tuple {ts ts' : List ColumnType} (h : GrownFields ts ts') : Grown (tuple ts) (tuple ts')
  | udt {keyspace name : String} {fs fs' : List (String × ColumnType)}
      (hn : fs.map Prod.fst <+: fs'.map Prod.fst)
      (h : GrownFields (fs.map Prod.snd) (fs'.map Prod.snd)) :
    Grown (udt keyspace name fs) (udt keyspace name fs')

/-- the fields that were there, each grown, and further ones behind them -/
inductive GrownFields : List ColumnType → List ColumnType → Prop where
  | added (ts : List ColumnType) : GrownFields [] ts
  | cons {t t' : ColumnType} {ts ts' : List ColumnType} (h : Grown t t')
      (hs : GrownFields ts ts') : GrownFields (t :: ts) (t' :: ts')

end

/-! ### what a type can have grown to -/

theorem Grown.of_list {t u : ColumnType} (h : Grown (.list t) u) :
    ∃ t', u = .list t' ∧ Grown t t' := by
  cases h with
  | same h => cases h
  | list h => exact ⟨_, rfl, h⟩

theorem Grown.of_set {t u : ColumnType} (h : Grown (.set t) u) :
    ∃ t', u = .set t' ∧ Grown t t' := by
  cases h with
  | same h => cases h
  | set h => exact ⟨_, rfl, h⟩

theorem Grown.of_map {k w u : ColumnType} (h : Grown (.map k w) u) :
    ∃ k' w', u = .map k' w' ∧ Grown k k' ∧ Grown w w' := by
  cases h with
  | same h => cases h
  | map hk hw => exact ⟨_, _, rfl, hk, hw⟩

theorem Grown.of_tuple {ts : List ColumnType} {u : ColumnType} (h : Grown (.tuple ts) u) :
    ∃ ts', u = .tuple ts' ∧ GrownFields ts ts' := by
  cases h with
  | same h => cases h
  | tuple h => exact ⟨_, rfl, h⟩

theorem Grown.of_udt {keyspace name : String} {fs : List (String × ColumnType)} {u : ColumnType}
    (h : Grown (.udt keyspace name fs) u) :
    ∃ fs', u = .udt keyspace name fs' ∧ fs.map Prod.fst <+: fs'.map Prod.fst ∧
      GrownFields (fs.map Prod.snd) (fs'.map Prod.snd) := by
  cases h with
  | same h => cases h
  | udt hn h => exact ⟨_, rfl, hn, h⟩

theorem GrownFields.length_le {ts ts' : List ColumnType} (h : GrownFields ts ts') :
    ts.length ≤ ts'.length := by
  induction ts generalizing ts' with
  | nil => exact Nat.zero_le _
  | cons t ts ih =>
    cases h with
    | cons _ hs => exact Nat.succ_le_succ (ih hs)

end ColumnType

namespace Cell

mutual

/-- the value with null for every field that its type has and it does not -/
def pad : ColumnType → Value → Value
  | .list t, .list xs => .list (xs.map (pad t))
  | .set t, .set xs => .set (xs.map (pad t))
  | .map k w, .map es => .map (es.map (Prod.map (pad k) (pad w)))
  | .tuple ts, .tuple xs => .tuple (padFields ts xs)
  | .udt _ _ fs, .udt name ys => .udt name (padNamed fs ys)
  | _, v => v
termination_by structural t => t

/-- field by field, then the fields that are not there -/
def padFields : List ColumnType → List Value → List Value
  | [], xs => xs
  | t :: ts, [] => nullValue t :: padFields ts []
  | t :: ts, x :: xs => pad t x :: padFields ts xs
termination_by structural ts => ts

/-- field by field, then the names and values of the fields that are not there -/
def padNamed : List (String × ColumnType) → List (String × Value) → List (String × Value)
  | [], ys => ys
  | (name, t) :: fs, [] => (name, nullValue t) :: padNamed fs []
  | (_, t) :: fs, (name, y) :: ys => (name, pad t y) :: padNamed fs ys
termination_by structural fs => fs

end

theorem padFields_nil (ts : List ColumnType) : padFields ts [] = ts.map nullValue := by
  induction ts with
  | nil => rfl
  | cons t ts ih => rw [padFields, ih, List.map_cons]

theorem length_padFields {ts : List ColumnType} {xs : List Value} (h : xs.length ≤ ts.length) :
    (padFields ts xs).length = ts.length := by
  induction ts generalizing xs with
  | nil => exact Nat.le_zero.1 h
  | cons t ts ih =>
    cases xs with
    | nil => exact congrArg (· + 1) (ih (Nat.zero_le _))
    | cons x xs => exact congrArg (· + 1) (ih (Nat.le_of_succ_le_succ h))

/-- the names stand beside the fields, those of the type where a field is added -/
theorem padNamed_zip {fs : List (String × ColumnType)} {names : List String} {xs : List Value}
    (hn : names <+: fs.map Prod.fst) (hl : xs.length = names.length) :
    padNamed fs (names.zip xs) = (fs.map Prod.fst).zip (padFields (fs.map Prod.snd) xs) := by
  induction fs generalizing names xs with
  | nil =>
    have he : names = [] := List.prefix_nil.1 hn
    subst he
    rfl
  | cons f fs ih =>
    obtain ⟨name, t⟩ := f
    cases names with
    | nil =>
      have he : xs = [] := List.length_eq_zero_iff.1 hl
      have hrest := ih (List.nil_prefix (l := fs.map Prod.fst)) (rfl : ([] : List Value).length = 0)
      subst he
      exact congrArg ((name, nullValue t) :: ·) hrest
    | cons n names =>
      cases xs with
      | nil => cases hl
      | cons x xs =>
        obtain ⟨rfl, hrest⟩ := List.cons_prefix_cons.1 hn
        exact congrArg ((n, pad t x) :: ·) (ih hrest (Nat.succ.inj hl))

end Cell

end Cql
