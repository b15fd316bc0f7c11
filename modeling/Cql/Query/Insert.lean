import Cql.Error
import Cql.Query.Fragment
import Cql.Query.Using

/-!
# Writing new rows

An `Insert` assigns columns; a column assigned twice keeps its place and takes the last value.  A
counter cannot be assigned, and an insert that assigns nothing is no statement.
-/

namespace Cql

structure Insert where
  table : String
  assigned : Entries String Value
  ifNotExists : Bool
  settings : Using
  profile : Option Profile

inductive InsertStep where
  | set (column : String) (x : Host)
  | setNull (column : String)
  | ifNotExists
  | ttl (seconds : UInt32)
  | timestamp (micros : Int64)
  | timeout (s : Span)
  | profile (p : Profile)

namespace Insert

def ofTable (table : String) : Insert := ⟨table, [], false, .none, none⟩

/-- assign a bound value, which may be no counter -/
def assign (q : Insert) (column : String) (v : Value) : Except Error Insert :=
  if v.isCounter then .error (.builder (.counterAssignment column))
  else .ok { q with assigned := q.assigned.put column v }

def step (q : Insert) : InsertStep → Except Error Insert
  | .set column x => do q.assign column (← ofBinding x.bind)
  | .setNull column => .ok { q with assigned := q.assigned.put column .null }
  | .ifNotExists => .ok { q with ifNotExists := true }
  | .ttl n => .ok { q with settings := { q.settings with ttl := some n } }
  | .timestamp t => .ok { q with settings := { q.settings with timestamp := some t } }
  | .timeout s => .ok { q with settings := { q.settings with timeout := some s } }
  | .profile p => .ok { q with profile := some p }

/-- the clauses in the order of the language -/
def clauses (q : Insert) : List String :=
  let names := q.assigned.keys
  ["INSERT INTO", q.table ++ " (" ++ Text.join ", " names ++ ")",
    "VALUES (" ++ Text.join ", " (names.map fun _ => "?") ++ ")",
    keywordIf "IF NOT EXISTS" q.ifNotExists, q.settings.clause]

def text (q : Insert) : String := joinClauses q.clauses

def values (q : Insert) : List Value := q.assigned.values

end Insert

end Cql
