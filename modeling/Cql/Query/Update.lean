import Cql.Error
import Cql.Query.Guard
import Cql.Query.Using

/-!
# Changing rows

An `Update` assigns columns, adds to them or subtracts from them; what was said last of a column
holds, in the place where the column was named first.  A counter can be moved but not assigned.  The
values follow the placeholders of the text: assignments, then the condition of the write, then the
conditions on rows.
-/

namespace Cql

inductive Change where
  | assign | increment | decrement
deriving DecidableEq

structure Assignment where
  change : Change
  value : Value

/-- the change of a column, with a placeholder for the value -/
def Assignment.text (column : String) (a : Assignment) : String :=
  match a.change with
  | .assign => column ++ " = ?"
  | .increment => column ++ " = " ++ column ++ " + ?"
  | .decrement => column ++ " = " ++ column ++ " - ?"

structure Update where
  table : String
  assigned : Entries String Assignment
  conditions : Fragments
  guard : Guard
  settings : Using
  profile : Option Profile

inductive UpdateStep where
  | change (how : Change) (column : String) (x : Host)
  | whereAll (clause : String) (data : List Host)
  | whereFragment (f : Fragment)
  | ifAll (clause : String) (data : List Host)
  | ifFragment (f : Fragment)
  | ifExists
  | ttl (seconds : UInt32)
  | timestamp (micros : Int64)
  | timeout (s : Span)
  | profile (p : Profile)

namespace Update

def ofTable (table : String) : Update := ⟨table, [], [], .always, .none, none⟩

/-- change a column by a bound value; a counter may not be assigned -/
def assign (q : Update) (how : Change) (column : String) (v : Value) : Except Error Update :=
  if how = .assign ∧ v.isCounter then .error (.builder (.counterAssignment column))
  else .ok { q with assigned := q.assigned.put column ⟨how, v⟩ }

/-- the write under another condition, if it can have it -/
def guarded (q : Update) (g : Except BuilderError Guard) : Except Error Update :=
  (ofBuilder g).map fun g => { q with guard := g }

def step (q : Update) : UpdateStep → Except Error Update
  | .change how column x => do q.assign how column (← ofBinding x.bind)
  | .whereAll clause data => do
    let f ← ofBinding (Fragment.bind clause data)
    return { q with conditions := q.conditions ++ [f] }
  | .whereFragment f => .ok { q with conditions := q.conditions ++ [f] }
  | .ifAll clause data => do
    let f ← ofBinding (Fragment.bind clause data)
    q.guarded (q.guard.require f)
  | .ifFragment f => q.guarded (q.guard.require f)
  | .ifExists => q.guarded q.guard.requireExists
  | .ttl n => .ok { q with settings := { q.settings with ttl := some n } }
  | .timestamp t => .ok { q with settings := { q.settings with timestamp := some t } }
  | .timeout s => .ok { q with settings := { q.settings with timeout := some s } }
  | .profile p => .ok { q with profile := some p }

/-- the clauses in the order of the language -/
def clauses (q : Update) : List String :=
  ["UPDATE", q.table, q.settings.clause,
    "SET " ++ Text.join ", " (q.assigned.map fun e => e.2.text e.1),
    q.guard.clause, q.conditions.clause "WHERE"]

def text (q : Update) : String := joinClauses q.clauses

def values (q : Update) : List Value :=
  q.assigned.values.map Assignment.value ++ q.guard.values ++ q.conditions.values

end Update

end Cql
