import Cql.Query.Fragment
import Cql.Query.Using

/-!
# Reading rows

A `Select` collects the clauses of a read in whatever order they are given; `text` puts them into
the order of the language.  Only conditions on rows carry values.
-/

namespace Cql

inductive Direction where
  | ascending | descending
deriving DecidableEq

def Direction.keyword : Direction → String
  | ascending => "ASC"
  | descending => "DESC"

structure Select where
  table : String
  distinct : Bool
  /-- all columns if there are none -/
  columns : List String
  conditions : Fragments
  groups : List String
  orders : List (String × Direction)
  partitionLimit : Option UInt32
  limit : Option UInt32
  allowFiltering : Bool
  bypassCache : Bool
  timeout : Option Span
  profile : Option Profile

inductive SelectStep where
  | only (columns : List String)
  | distinct
  | whereAll (clause : String) (data : List Host)
  | whereFragment (f : Fragment)
  | groupBy (column : String)
  | orderBy (column : String) (direction : Direction)
  | partitionLimit (n : UInt32)
  | limit (n : UInt32)
  | allowFiltering
  | bypassCache
  | timeout (s : Span)
  | profile (p : Profile)

namespace Select

def ofTable (table : String) : Select where
  table := table
  distinct := false
  columns := []
  conditions := []
  groups := []
  orders := []
  partitionLimit := none
  limit := none
  allowFiltering := false
  bypassCache := false
  timeout := none
  profile := none

/-- one more thing said; a step fails only when its data cannot be bound -/
def step (q : Select) : SelectStep → Except BindingError Select
  | .only columns => .ok { q with columns := q.columns ++ columns }
  | .distinct => .ok { q with distinct := true }
  | .whereAll clause data =>
    (Fragment.bind clause data).map fun f => { q with conditions := q.conditions ++ [f] }
  | .whereFragment f => .ok { q with conditions := q.conditions ++ [f] }
  | .groupBy column => .ok { q with groups := q.groups ++ [column] }
  | .orderBy column direction => .ok { q with orders := q.orders ++ [(column, direction)] }
  | .partitionLimit n => .ok { q with partitionLimit := some n }
  | .limit n => .ok { q with limit := some n }
  | .allowFiltering => .ok { q with allowFiltering := true }
  | .bypassCache => .ok { q with bypassCache := true }
  | .timeout s => .ok { q with timeout := some s }
  | .profile p => .ok { q with profile := some p }

def projection (q : Select) : String :=
  if q.columns.isEmpty then "*" else Text.join ", " q.columns

def groupClause (q : Select) : String :=
  if q.groups.isEmpty then "" else "GROUP BY " ++ Text.join ", " q.groups

def orderClause (q : Select) : String :=
  if q.orders.isEmpty then ""
  else "ORDER BY " ++ Text.join ", " (q.orders.map fun o => o.1 ++ " " ++ o.2.keyword)

/-- a number behind its keyword, nothing if there is none -/
def limitClause (keyword : String) : Option UInt32 → String
  | some n => keyword ++ " " ++ toString n.toNat
  | none => ""

/-- the clauses in the order of the language -/
def clauses (q : Select) : List String :=
  ["SELECT", keywordIf "DISTINCT" q.distinct, q.projection, "FROM", q.table,
    q.conditions.clause "WHERE", q.groupClause, q.orderClause,
    limitClause "PER PARTITION LIMIT" q.partitionLimit, limitClause "LIMIT" q.limit,
    keywordIf "ALLOW FILTERING" q.allowFiltering, keywordIf "BYPASS CACHE" q.bypassCache,
    (⟨none, none, q.timeout⟩ : Using).clause]

def text (q : Select) : String := joinClauses q.clauses

def values (q : Select) : List Value := q.conditions.values

end Select

end Cql
