import Cql.Text.Joined

/-!
# Types of columns

What a column holds, as the database declares it.  `ColumnType.text` is the declaration as it is
written in the query language: element types in angle brackets, the name of a record after its
keyspace if it has one, and a foreign class in quotes.
-/

namespace Cql

inductive ColumnType where
  | ascii | bool | blob | counter | date | decimal | double | duration | float | int | bigInt
  | smallInt | tinyInt | text | time | timestamp | uuid | timeUuid | inet | varint
  | list (element : ColumnType)
  | set (element : ColumnType)
  | map (key value : ColumnType)
  | tuple (fields : List ColumnType)
  | udt (keyspace typeName : String) (fields : List (String × ColumnType))
  | custom (className : String)

namespace ColumnType

instance : Inhabited ColumnType := ⟨text⟩

mutual

def declaration : ColumnType → String
  | ascii => "ascii"
  | bool => "boolean"
  | blob => "blob"
  | counter => "counter"
  | date => "date"
  | decimal => "decimal"
  | double => "double"
  | duration => "duration"
  | float => "float"
  | int => "int"
  | bigInt => "bigint"
  | smallInt => "smallint"
  | tinyInt => "tinyint"
  | text => "text"
  | time => "time"
  | timestamp => "timestamp"
  | uuid => "uuid"
  | timeUuid => "timeuuid"
  | inet => "inet"
  | varint => "varint"
  | list t => "list<" ++ declaration t ++ ">"
  | set t => "set<" ++ declaration t ++ ">"
  | map k v => "map<" ++ declaration k ++ ", " ++ declaration v ++ ">"
  | tuple ts => "tuple<" ++ Text.join ", " (declarations ts) ++ ">"
  | udt keyspace typeName _ => if keyspace = "" then typeName else keyspace ++ "." ++ typeName
  | custom className => "'" ++ className ++ "'"
termination_by structural t => t

def declarations : List ColumnType → List String
  | [] => []
  | t :: ts => declaration t :: declarations ts
termination_by structural ts => ts

end

theorem declarations_eq_map (ts : List ColumnType) : declarations ts = ts.map declaration := by
  induction ts with
  | nil => rfl
  | cons t ts ih => rw [declarations, ih]; rfl

def scalars : List ColumnType :=
  [ascii, bool, blob, counter, date, decimal, double, duration, float, int, bigInt, smallInt,
    tinyInt, text, time, timestamp, uuid, timeUuid, inet, varint]

/-- the type without parts that is declared by `s` -/
def ofName? (s : String) : Option ColumnType := scalars.find? fun t => t.declaration == s

end ColumnType

end Cql
