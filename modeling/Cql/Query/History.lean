import Cql.Query

/-!
# What has been said of a query

A query read off the list of its steps, clause by clause, without running them.  `Step.condition?`
and its siblings pick out what one step says of one clause, nothing if the step says nothing of it
or is refused whatever was said before; `Query.said` puts the clauses together.

A clause that may be said once holds what was said last.  A column holds what was said of it last,
in the place where it was named first.  Of the demands on a write the first decides which kind of
demand is heard at all.
-/

namespace Cql

/-- the last of all that `f` picks out -/
def lastOf {α β : Type} (f : α → Option β) (xs : List α) : Option β := (xs.filterMap f).getLast?

namespace Entries
variable {κ ν : Type} [BEq κ]

/-- the value in the last pair of key `k` -/
def last? (k : κ) (es : List (κ × ν)) : Option ν := es.reverse.lookup k

/-- every key in the place of its first pair, with the value of its last one -/
def settled (es : List (κ × ν)) : Entries κ ν :=
  (keys es).eraseDups.filterMap fun k => (last? k es).map fun v => (k, v)

end Entries

/-- what a write can be made to depend on -/
inductive Demand where
  | row
  | condition (f : Fragment)

def Demand.condition? : Demand → Option Fragment
  | row => none
  | condition f => some f

/-- the first demand decides, demands of the other kind are not heard -/
def Guard.ofDemands : List Demand → Guard
  | [] => always
  | .row :: _ => ifExists
  | .condition f :: ds => ifAll (f :: ds.filterMap Demand.condition?)

namespace Query

inductive Kind where
  | select | insert | update | delete
deriving DecidableEq

/-- a query of which nothing was said but its table -/
def ofTable : Kind → String → Query
  | .select, table => select (.ofTable table)
  | .insert, table => insert (.ofTable table)
  | .update, table => update (.ofTable table)
  | .delete, table => delete (.ofTable table)

/-! ## what one step says -/

namespace Step

def kind : Step → Kind
  | select _ => .select
  | insert _ => .insert
  | update _ => .update
  | delete _ => .delete

/-- columns that are read, or whose cells are deleted -/
def columns : Step → List String
  | select (.only names) => names
  | delete (.columns names) => names
  | _ => []

def condition? : Step → Option Fragment
  | select (.whereFragment f) => some f
  | update (.whereFragment f) => some f
  | delete (.whereFragment f) => some f
  | select (.whereAll clause data) => (Fragment.bind clause data).toOption
  | update (.whereAll clause data) => (Fragment.bind clause data).toOption
  | delete (.whereAll clause data) => (Fragment.bind clause data).toOption
  | _ => none

def demand? : Step → Option Demand
  | update .ifExists => some .row
  | delete .ifExists => some .row
  | update (.ifFragment f) => some (.condition f)
  | delete (.ifFragment f) => some (.condition f)
  | update (.ifAll clause data) => (Fragment.bind clause data).toOption.map .condition
  | delete (.ifAll clause data) => (Fragment.bind clause data).toOption.map .condition
  | _ => none

/-- a change by a bound value; a counter is not assigned -/
def change? (how : Change) (column : String) (x : Host) : Option (String × Assignment) :=
  match x.bind with
  | .ok v => if how = .assign ∧ v.isCounter then none else some (column, ⟨how, v⟩)
  | .error _ => none

def assignment? : Step → Option (String × Assignment)
  | insert (.set column x) => change? .assign column x
  | insert (.setNull column) => some (column, ⟨.assign, .null⟩)
  | update (.change how column x) => change? how column x
  | _ => none

def group? : Step → Option String
  | select (.groupBy column) => some column
  | _ => none

def order? : Step → Option (String × Direction)
  | select (.orderBy column direction) => some (column, direction)
  | _ => none

def partitionLimit? : Step → Option UInt32
  | select (.partitionLimit n) => some n
  | _ => none

def limit? : Step → Option UInt32
  | select (.limit n) => some n
  | _ => none

def timestamp? : Step → Option Int64
  | insert (.timestamp t) => some t
  | update (.timestamp t) => some t
  | delete (.timestamp t) => some t
  | _ => none

def ttl? : Step → Option UInt32
  | insert (.ttl n) => some n
  | update (.ttl n) => some n
  | _ => none

def timeout? : Step → Option Span
  | select (.timeout s) => some s
  | insert (.timeout s) => some s
  | update (.timeout s) => some s
  | delete (.timeout s) => some s
  | _ => none

def profile? : Step → Option Profile
  | select (.profile p) => some p
  | insert (.profile p) => some p
  | update (.profile p) => some p
  | delete (.profile p) => some p
  | _ => none

def saysDistinct : Step → Bool
  | select .distinct => true
  | _ => false

def allowsFiltering : Step → Bool
  | select .allowFiltering => true
  | _ => false

def bypassesCache : Step → Bool
  | select .bypassCache => true
  | _ => false

def saysIfNotExists : Step → Bool
  | insert .ifNotExists => true
  | _ => false

-- they are opened at a known step only
attribute [simp] columns condition? demand? assignment? group? order? partitionLimit? limit?
  timestamp? ttl? timeout? profile? saysDistinct allowsFiltering bypassesCache saysIfNotExists

end Step

/-! ## what all steps say -/

section
variable (table : String) (steps : List Step)

def saidSettings : Using :=
  ⟨lastOf Step.timestamp? steps, lastOf Step.ttl? steps, lastOf Step.timeout? steps⟩

def saidGuard : Guard := .ofDemands (steps.filterMap Step.demand?)

def saidSelect : Select where
  table := table
  distinct := steps.any Step.saysDistinct
  columns := steps.flatMap Step.columns
  conditions := steps.filterMap Step.condition?
  groups := steps.filterMap Step.group?
  orders := steps.filterMap Step.order?
  partitionLimit := lastOf Step.partitionLimit? steps
  limit := lastOf Step.limit? steps
  allowFiltering := steps.any Step.allowsFiltering
  bypassCache := steps.any Step.bypassesCache
  timeout := lastOf Step.timeout? steps
  profile := lastOf Step.profile? steps

def saidInsert : Insert where
  table := table
  assigned := Entries.settled ((steps.filterMap Step.assignment?).map fun e => (e.1, e.2.value))
  ifNotExists := steps.any Step.saysIfNotExists
  settings := saidSettings steps
  profile := lastOf Step.profile? steps

def saidUpdate : Update where
  table := table
  assigned := Entries.settled (steps.filterMap Step.assignment?)
  conditions := steps.filterMap Step.condition?
  guard := saidGuard steps
  settings := saidSettings steps
  profile := lastOf Step.profile? steps

def saidDelete : Delete where
  table := table
  columns := steps.flatMap Step.columns
  conditions := steps.filterMap Step.condition?
  guard := saidGuard steps
  settings := saidSettings steps
  profile := lastOf Step.profile? steps

end

/-- the query of which all this was said; steps of another kind say nothing -/
def said (kind : Kind) (table : String) (steps : List Step) : Query :=
  let own := steps.filter fun s => s.kind == kind
  match kind with
  | .select => select (saidSelect table own)
  | .insert => insert (saidInsert table own)
  | .update => update (saidUpdate table own)
  | .delete => delete (saidDelete table own)

end Query

end Cql
