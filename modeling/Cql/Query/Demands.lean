import Cql.Query.Clauses

/-!
# What a write depends on

An update and a delete can be made to depend on their row, or on conditions, and never on both.
`demandsTaken` are the demands of the steps that were taken, in their order.

* `Demand.Written`    what stands in a statement for all the demands on it, with its values;
* `Query.Guards`      where this stands: behind what is written, and in front of the conditions on
                      rows.
-/

namespace Cql

/-- the condition of a write: nothing, the row alone, or all conditions in their order -/
inductive Demand.Written : List Demand → List String → List Value → Prop
  | nothing : Written [] [] []
  | row {ds : List Demand} (heard : ds ≠ []) (all : ∀ d ∈ ds, d = .row) :
    Written ds ["IF EXISTS"] []
  | conditions {fs : Fragments} (heard : fs ≠ []) :
    Written (fs.map .condition) ["IF " ++ Text.join " AND " (fs.map Fragment.text)]
      (fs.flatMap Fragment.values)

namespace Query

/-- the kinds of query that can be made to depend on something -/
inductive Conditional where
  | update | delete

namespace Conditional

def kind : Conditional → Kind
  | update => .update
  | delete => .delete

def ifExists : Conditional → Step
  | update => .update .ifExists
  | delete => .delete .ifExists

def ifFragment (f : Fragment) : Conditional → Step
  | update => .update (.ifFragment f)
  | delete => .delete (.ifFragment f)

def ifAll (clause : String) (data : List Host) : Conditional → Step
  | update => .update (.ifAll clause data)
  | delete => .delete (.ifAll clause data)

end Conditional

/-- the demands that a new query has taken -/
def demandsTaken (kind : Kind) (table : String) (steps : List Step) : List Demand :=
  (taken kind table steps).filterMap Step.demand?

/-- the statement of a query that depends on `clause`, for the rows of `conditions` -/
inductive Guards (clause : List String) (values : List Value) (conditions : Fragments) :
    Query → Built → Prop
  | update (q : Update) : Guards clause values conditions (update q)
    ⟨joinClauses (["UPDATE", q.table, q.settings.clause,
        "SET " ++ Text.join ", " (q.assigned.map fun e => e.2.text e.1)] ++ clause ++
          [conditions.clause "WHERE"]),
      q.assigned.values.map Assignment.value ++ values ++ conditions.values⟩
  | delete (q : Delete) : Guards clause values conditions (delete q)
    ⟨joinClauses (["DELETE", Text.join ", " q.columns, "FROM", q.table, q.settings.clause] ++
        clause ++ [conditions.clause "WHERE"]),
      values ++ conditions.values⟩

end Query

end Cql
