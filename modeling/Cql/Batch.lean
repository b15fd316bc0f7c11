import Cql.Query
import Cql.Result

/-!
# Batches

Statements that are sent together, each with its own parameters.  Statements and parameters lie in
two lists, one beside the other, and belong together by their places; so neither list may ever be
longer than the other.  A statement whose parameters cannot be bound, or a query that cannot be
built, is not added.
-/

namespace Cql

inductive BatchKind where
  | logged | unlogged | counter
deriving DecidableEq

namespace BatchKind

def name : BatchKind → String
  | logged => "logged"
  | unlogged => "unlogged"
  | counter => "counter"

/-- the kind of that name; a batch is unlogged unless something else is said -/
def ofName (s : String) : BatchKind :=
  if s = logged.name then logged else if s = counter.name then counter else unlogged

end BatchKind

structure Batch where
  kind : BatchKind
  /-- in the order in which they are run -/
  statements : List Statement
  /-- those of each statement in its place -/
  parameters : List Parameters
  profile : Option Profile
  paired : statements.length = parameters.length

namespace Batch

def empty (kind : BatchKind) : Batch := ⟨kind, [], [], none, rfl⟩

def size (b : Batch) : Nat := b.statements.length

/-- every statement with the parameters in its place -/
def entries (b : Batch) : List (Statement × Parameters) := b.statements.zip b.parameters

def withProfile (p : Profile) (b : Batch) : Batch := { b with profile := some p }

/-- a statement with its parameters at the end -/
def push (b : Batch) (s : Statement) (ps : Parameters) : Batch :=
  { b with
    statements := b.statements ++ [s]
    parameters := b.parameters ++ [ps]
    paired := by rw [List.length_append, List.length_append, b.paired]; rfl }

theorem entries_push (b : Batch) (s : Statement) (ps : Parameters) :
    (b.push s ps).entries = b.entries ++ [(s, ps)] :=
  List.zip_append b.paired

/-- a statement with the host data of its parameters -/
def addStatement (b : Batch) (s : Statement) (data : List Host) : Outcome Batch := do
  return b.push s (← ofBinding (Parameters.bind data))

def addQuery (b : Batch) (q : Query) : Outcome Batch := do
  let (s, ps) ← q.statement
  return b.push s ps

inductive Entry where
  | statement (s : Statement) (data : List Host)
  | query (q : Query)

def add (b : Batch) : Entry → Outcome Batch
  | .statement s data => b.addStatement s data
  | .query q => b.addQuery q

end Batch

end Cql
