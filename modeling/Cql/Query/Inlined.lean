import Cql.Query
import Cql.Text.Placeholder

/-!
# Queries with their values in place

The text of a query whose every piece stands with its own values in it, given how a value is
rendered: a column is changed by the rendering of its value, and a fragment has its own values in
the place of its placeholders.  No value is looked for in a common list.
-/

namespace Cql

/-- the fragment with its own values in place -/
def Fragment.inlined (ρ : Value → String) (f : Fragment) : Fragment :=
  ⟨Text.fill f.text (f.values.map ρ), []⟩

def Guard.inlined (ρ : Value → String) : Guard → Guard
  | ifAll fs => ifAll (fs.map (Fragment.inlined ρ))
  | g => g

def Assignment.inlined (ρ : Value → String) (column : String) (a : Assignment) : String :=
  match a.change with
  | .assign => column ++ " = " ++ ρ a.value
  | .increment => column ++ " = " ++ column ++ " + " ++ ρ a.value
  | .decrement => column ++ " = " ++ column ++ " - " ++ ρ a.value

def Select.inlined (ρ : Value → String) (q : Select) : String :=
  { q with conditions := q.conditions.map (Fragment.inlined ρ) }.text

def Insert.inlined (ρ : Value → String) (q : Insert) : String :=
  joinClauses
    ["INSERT INTO", q.table ++ " (" ++ Text.join ", " q.assigned.keys ++ ")",
      "VALUES (" ++ Text.join ", " (q.assigned.values.map ρ) ++ ")",
      keywordIf "IF NOT EXISTS" q.ifNotExists, q.settings.clause]

def Update.inlined (ρ : Value → String) (q : Update) : String :=
  joinClauses
    ["UPDATE", q.table, q.settings.clause,
      "SET " ++ Text.join ", " (q.assigned.map fun e => e.2.inlined ρ e.1),
      (q.guard.inlined ρ).clause,
      Fragments.clause "WHERE" (q.conditions.map (Fragment.inlined ρ))]

def Delete.inlined (ρ : Value → String) (q : Delete) : String :=
  { q with
    conditions := q.conditions.map (Fragment.inlined ρ)
    guard := q.guard.inlined ρ }.text

def Query.inlined (ρ : Value → String) : Query → String
  | select q => q.inlined ρ
  | insert q => q.inlined ρ
  | update q => q.inlined ρ
  | delete q => q.inlined ρ

end Cql
