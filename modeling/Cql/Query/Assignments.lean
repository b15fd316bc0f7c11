import Cql.Query.Clauses

/-!
# What a write assigns

An insert and an update keep a table of columns with what becomes of them.  `Step.columnChange?` is
what one step would do to a column, and `changesMade` what was done by all the steps that were
taken, in their order.

* `Entries.Settles`    what is left of pairs that were put one after the other: every key once, in
                       the order of the first pairs, with the value of the last one;
* `Query.Writes`       where the columns and their values stand in the statement.
-/

namespace Cql

/-- `es` is what is left of the pairs `puts` -/
structure Entries.Settles {κ ν : Type} [BEq κ] (puts : List (κ × ν)) (es : Entries κ ν) : Prop where
  once : (keys es).Nodup
  named : ∀ k, k ∈ keys es ↔ k ∈ keys puts
  inOrder : (keys es).Pairwise fun j k => (keys puts).idxOf j < (keys puts).idxOf k
  last : ∀ e ∈ es, ∃ front back, puts = front ++ e :: back ∧ e.1 ∉ keys back

def Assigning.kind : Assigning → Query.Kind
  | insert => .insert
  | update => .update

namespace Query

/-- the column that a step would change, how, and by what data -/
def Step.columnChange? : Step → Option (String × Change × Host)
  | insert (.set column x) => some (column, .assign, x)
  | insert (.setNull column) => some (column, .assign, .none)
  | update (.change how column x) => some (column, how, x)
  | _ => none

/-- the change with its data bound, nothing if it cannot be bound -/
def Step.boundChange? (s : Step) : Option (String × Assignment) :=
  s.columnChange?.bind fun c => c.2.2.bind.toOption.map fun v => (c.1, ⟨c.2.1, v⟩)

/-- the changes that a new query has taken -/
def changesMade (kind : Kind) (table : String) (steps : List Step) : List (String × Assignment) :=
  (taken kind table steps).filterMap Step.boundChange?

/-- the statement of a query that writes the columns `es`: their values come before those of the
other clauses -/
inductive Writes (table : String) (es : Entries String Assignment) : Query → Built → Prop
  | insert (q : Insert) : Writes table es (insert q)
    ⟨joinClauses ["INSERT INTO", table ++ " (" ++ Text.join ", " es.keys ++ ")",
        "VALUES (" ++ Text.join ", " (es.keys.map fun _ => "?") ++ ")",
        keywordIf "IF NOT EXISTS" q.ifNotExists, q.settings.clause],
      es.values.map Assignment.value⟩
  | update (q : Update) : Writes table es (update q)
    ⟨joinClauses ["UPDATE", table, q.settings.clause,
        "SET " ++ Text.join ", " (es.map fun e => e.2.text e.1),
        q.guard.clause, q.conditions.clause "WHERE"],
      es.values.map Assignment.value ++ q.guard.values ++ q.conditions.values⟩

end Query

end Cql
