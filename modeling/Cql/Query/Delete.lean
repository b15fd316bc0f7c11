import Cql.Error
import Cql.Query.Guard
import Cql.Query.Using

/-!
# Deleting rows and cells

A `Delete` names the columns whose cells go, or none for whole rows.  The values follow the
placeholders of the text: the condition of the write, then the conditions on rows.
-/

namespace Cql

structure Delete where
  table : String
  columns : List String
  conditions : Fragments
  guard : Guard
  settings : Using
  profile : Option Profile

inductive DeleteStep where
  | columns (names : List String)
  | whereAll (clause : String) (data : List Host)
  | whereFragment (f : Fragment)
  | ifAll (clause : String) (data : List Host)
  | ifFragment (f : Fragment)
  | ifExists
  | timestamp (micros : Int64)
  | timeout (s : Span)
  | profile (p : Profile)

namespace Delete

def ofTable (table : String) : Delete := ⟨table, [], [], .always, .none, none⟩

/-- the write under another condition, if it can have it -/
def guarded (q : Delete) (g : Except BuilderError Guard) : Except Error Delete :=
  (ofBuilder g).map fun g => { q with guard := g }

def step (q : Delete) : DeleteStep → Except Error Delete
  | .columns names => .ok { q with columns := q.columns ++ names }
  | .whereAll clause data => do
    let f ← ofBinding (Fragment.bind clause data)
    return { q with conditions := q.conditions ++ [f] }
  | .whereFragment f => .ok { q with conditions := q.conditions ++ [f] }
  | .ifAll clause data => do
    let f ← ofBinding (Fragment.bind clause data)
    q.guarded (q.guard.require f)
  | .ifFragment f => q.guarded (q.guard.require f)
  | .ifExists => q.guarded q.guard.requireExists
  | .timestamp t => .ok { q with settings := { q.settings with timestamp := some t } }
  | .timeout s => .ok { q with settings := { q.settings with timeout := some s } }
  | .profile p => .ok { q with profile := some p }

/-- the clauses in the order of the language -/
def clauses (q : Delete) : List String :=
  ["DELETE", Text.join ", " q.columns, "FROM", q.table, q.settings.clause, q.guard.clause,
    q.conditions.clause "WHERE"]

def text (q : Delete) : String := joinClauses q.clauses

def values (q : Delete) : List Value := q.guard.values ++ q.conditions.values

end Delete

end Cql
