import Cql.Query.History

/-!
# The clauses of a query

Every step touches one clause of its kind of query, whether it is taken or refused.  `restrict`
keeps the steps of one clause, `outcomes` says of every step what became of it, and `taken` keeps
the steps that were taken.

`template` is the text of a statement clause by clause, in the order of the language, read off the
steps that were taken: what a clause lists stands in the order of the steps, what it holds once is
what was said last, and a keyword stands there if it was said at all.  A column that is assigned
has the place where it was named first and what was said of it last.
-/

namespace Cql

def Demand.isRow : Demand → Bool
  | row => true
  | condition _ => false

namespace Query

inductive Clause where
  | distinct | columns | conditions | guard | assigned | groups | orders | partitionLimit | limit
  | allowFiltering | bypassCache | ifNotExists | ttl | timestamp | timeout | profile
deriving DecidableEq

namespace Step

def clause : Step → Clause
  | select (.only _) => .columns
  | select .distinct => .distinct
  | select (.whereAll _ _) => .conditions
  | select (.whereFragment _) => .conditions
  | select (.groupBy _) => .groups
  | select (.orderBy _ _) => .orders
  | select (.partitionLimit _) => .partitionLimit
  | select (.limit _) => .limit
  | select .allowFiltering => .allowFiltering
  | select .bypassCache => .bypassCache
  | select (.timeout _) => .timeout
  | select (.profile _) => .profile
  | insert (.set _ _) => .assigned
  | insert (.setNull _) => .assigned
  | insert .ifNotExists => .ifNotExists
  | insert (.ttl _) => .ttl
  | insert (.timestamp _) => .timestamp
  | insert (.timeout _) => .timeout
  | insert (.profile _) => .profile
  | update (.change _ _ _) => .assigned
  | update (.whereAll _ _) => .conditions
  | update (.whereFragment _) => .conditions
  | update (.ifAll _ _) => .guard
  | update (.ifFragment _) => .guard
  | update .ifExists => .guard
  | update (.ttl _) => .ttl
  | update (.timestamp _) => .timestamp
  | update (.timeout _) => .timeout
  | update (.profile _) => .profile
  | delete (.columns _) => .columns
  | delete (.whereAll _ _) => .conditions
  | delete (.whereFragment _) => .conditions
  | delete (.ifAll _ _) => .guard
  | delete (.ifFragment _) => .guard
  | delete .ifExists => .guard
  | delete (.timestamp _) => .timestamp
  | delete (.timeout _) => .timeout
  | delete (.profile _) => .profile

def touches (kind : Kind) (clause : Clause) (s : Step) : Bool :=
  s.kind == kind && s.clause == clause

end Step

/-- the steps that touch one clause of one kind of query -/
def restrict (kind : Kind) (clause : Clause) (steps : List Step) : List Step :=
  steps.filter (Step.touches kind clause)

/-! ## what becomes of the steps -/

/-- why a step is refused, nothing if it is taken -/
def refusal? (q : Query) (s : Step) : Option Error :=
  match q.step s with
  | .ok _ => none
  | .error e => some e

/-- every step with what became of it -/
def outcomes (q : Query) : List Step → List (Step × Option Error)
  | [] => []
  | s :: ss => (s, q.refusal? s) :: (q.advance s).outcomes ss

/-- the steps of its kind that a new query has taken -/
def taken (kind : Kind) (table : String) (steps : List Step) : List Step :=
  (((ofTable kind table).outcomes steps).filter fun o => o.1.kind == kind && o.2.isNone).map Prod.fst

theorem outcomes_cons (q : Query) (s : Step) (ss : List Step) :
    q.outcomes (s :: ss) = (s, q.refusal? s) :: (q.advance s).outcomes ss := rfl

theorem outcomes_concat (q : Query) (ss : List Step) (s : Step) :
    q.outcomes (ss ++ [s]) = q.outcomes ss ++ [(s, (q.run ss).refusal? s)] := by
  induction ss generalizing q with
  | nil => rfl
  | cons t ss ih =>
    rw [List.cons_append, outcomes_cons, ih, run_cons]
    rfl

theorem map_fst_outcomes (q : Query) (ss : List Step) : (q.outcomes ss).map Prod.fst = ss := by
  induction ss generalizing q with
  | nil => rfl
  | cons s ss ih => rw [outcomes_cons, List.map_cons, ih]

theorem advance_of_refused {q : Query} {s : Step} {e : Error} (h : q.refusal? s = some e) :
    q.advance s = q := by
  unfold refusal? at h
  unfold advance
  cases hs : q.step s with
  | ok q' => rw [hs] at h; cases h
  | error e' => rfl

/-! ## the text of the clauses -/

/-- a keyword if it was said -/
def flag (keyword : String) (said : Bool) : List String := if said then [keyword] else []

/-- the last item behind its keyword, nothing if there is none -/
def held (keyword : String) (item : Option String) : List String :=
  item.toList.map fun i => keyword ++ " " ++ i

theorem held_none (keyword : String) : held keyword none = [] := rfl

/-- all items, nothing if there are none -/
def listed (sep : String) (items : List String) : List String :=
  if items.isEmpty then [] else [Text.join sep items]

/-- all items behind a keyword, nothing if there are none -/
def listedBehind (keyword sep : String) (items : List String) : List String :=
  (listed sep items).map fun text => keyword ++ " " ++ text

section
variable (steps : List Step)

def conditionsText : List String :=
  listedBehind "WHERE" " AND " ((steps.filterMap Step.condition?).map Fragment.text)

def demandsText : List String :=
  let demands := steps.filterMap Step.demand?
  if demands.any Demand.isRow then ["IF EXISTS"]
  else listedBehind "IF" " AND " ((demands.filterMap Demand.condition?).map Fragment.text)

def timestampText : List String :=
  held "TIMESTAMP" ((lastOf Step.timestamp? steps).map fun t => toString t.toInt)

def ttlText : List String :=
  held "TTL" ((lastOf Step.ttl? steps).map fun n => toString n.toNat)

def timeoutText : List String :=
  held "TIMEOUT" ((lastOf Step.timeout? steps).map Span.text)

end

/-- the clauses that are there, in the order of the language -/
def template (kind : Kind) (table : String) (steps : List Step) : List String :=
  match kind with
  | .select =>
    let columns := steps.flatMap Step.columns
    let orders := (steps.filterMap Step.order?).map fun o => o.1 ++ " " ++ o.2.keyword
    [["SELECT"], flag "DISTINCT" (steps.any Step.saysDistinct),
      if columns.isEmpty then ["*"] else listed ", " columns,
      ["FROM"], [table], conditionsText steps,
      listedBehind "GROUP BY" ", " (steps.filterMap Step.group?),
      listedBehind "ORDER BY" ", " orders,
      held "PER PARTITION LIMIT"
        ((lastOf Step.partitionLimit? steps).map fun n => toString n.toNat),
      held "LIMIT" ((lastOf Step.limit? steps).map fun n => toString n.toNat),
      flag "ALLOW FILTERING" (steps.any Step.allowsFiltering),
      flag "BYPASS CACHE" (steps.any Step.bypassesCache),
      listedBehind "USING" " AND " (timeoutText steps)].flatten
  | .insert =>
    let names := (Entries.keys (steps.filterMap Step.assignment?)).eraseDups
    [["INSERT INTO"], [table ++ " (" ++ Text.join ", " names ++ ")"],
      ["VALUES (" ++ Text.join ", " (names.map fun _ => "?") ++ ")"],
      flag "IF NOT EXISTS" (steps.any Step.saysIfNotExists),
      listedBehind "USING" " AND "
        (timestampText steps ++ ttlText steps ++ timeoutText steps)].flatten
  | .update =>
    let changes := (Entries.settled (steps.filterMap Step.assignment?)).map fun e => e.2.text e.1
    [["UPDATE"], [table],
      listedBehind "USING" " AND " (timestampText steps ++ ttlText steps ++ timeoutText steps),
      listedBehind "SET" ", " changes, demandsText steps, conditionsText steps].flatten
  | .delete =>
    [["DELETE"], listed ", " (steps.flatMap Step.columns), ["FROM"], [table],
      listedBehind "USING" " AND " (timestampText steps ++ timeoutText steps),
      demandsText steps, conditionsText steps].flatten

end Query

end Cql
