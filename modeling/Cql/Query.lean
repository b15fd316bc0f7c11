import Cql.Parameters
import Cql.Query.Delete
import Cql.Query.Insert
import Cql.Query.Select
import Cql.Query.Update
import Cql.Statement

/-!
# Queries

A query of one of four kinds, built step by step.  A step that fails leaves the query as it was.
`build` gives the text and the values of its placeholders in their order, `statement` what is sent:
the text with the query's profile, and the values as parameters.

An insert or an update that assigns nothing cannot be built.  What cannot be built is refused before
its values are looked at.
-/

namespace Cql

inductive Query where
  | select (q : Select)
  | insert (q : Insert)
  | update (q : Update)
  | delete (q : Delete)

/-- a text and the values of its placeholders -/
structure Built where
  text : String
  values : List Value

namespace Query

def table : Query → String
  | select q => q.table
  | insert q => q.table
  | update q => q.table
  | delete q => q.table

def profile : Query → Option Profile
  | select q => q.profile
  | insert q => q.profile
  | update q => q.profile
  | delete q => q.profile

def build : Query → Except Error Built
  | select q => .ok ⟨q.text, q.values⟩
  | insert q =>
    if q.assigned.isEmpty then .error (.builder (.noAssignments .insert)) else .ok ⟨q.text, q.values⟩
  | update q =>
    if q.assigned.isEmpty then .error (.builder (.noAssignments .update)) else .ok ⟨q.text, q.values⟩
  | delete q => .ok ⟨q.text, q.values⟩

def statement (q : Query) : Except Error (Statement × Parameters) := do
  let built ← q.build
  let parameters ← ofBinding (Parameters.ofValues built.values)
  return (.direct built.text q.profile, parameters)

/-! ## steps -/

inductive Step where
  | select (s : SelectStep)
  | insert (s : InsertStep)
  | update (s : UpdateStep)
  | delete (s : DeleteStep)

/-- one more thing said; what is said of another kind of query changes nothing -/
def step : Query → Step → Except Error Query
  | select q, .select s => ofBinding ((q.step s).map select)
  | insert q, .insert s => (q.step s).map insert
  | update q, .update s => (q.step s).map update
  | delete q, .delete s => (q.step s).map delete
  | q, _ => .ok q

/-- the query after a step, as it was if the step fails -/
def advance (q : Query) (s : Step) : Query :=
  match q.step s with
  | .ok q => q
  | .error _ => q

def run (q : Query) (steps : List Step) : Query := steps.foldl advance q

theorem run_nil (q : Query) : q.run [] = q := rfl
theorem run_cons (q : Query) (s : Step) (ss : List Step) : q.run (s :: ss) = (q.advance s).run ss := rfl
theorem run_append (q : Query) (ss ts : List Step) : q.run (ss ++ ts) = (q.run ss).run ts :=
  List.foldl_append

end Query

end Cql
