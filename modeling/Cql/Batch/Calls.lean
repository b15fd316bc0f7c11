import Cql.Batch

/-!
# A batch over several calls

A batch is filled by one call after the other, and a call that fails leaves it as it was.
`outcomes` says of every call what became of it, `taken` keeps those that succeeded, and `Grown` is
a batch that was added to.
-/

namespace Cql.Batch

/-- the batch after a call, as it was if the call fails -/
def advance (b : Batch) (w : Entry) : Batch :=
  match b.add w with
  | .ok b => b
  | .error _ => b

def run (b : Batch) (ws : List Entry) : Batch := ws.foldl advance b

/-- why a call fails, nothing if it succeeds -/
def refusal? (b : Batch) (w : Entry) : Option Error :=
  match b.add w with
  | .ok _ => none
  | .error e => some e

/-- every call with what became of it -/
def outcomes (b : Batch) : List Entry → List (Entry × Option Error)
  | [] => []
  | w :: ws => (w, b.refusal? w) :: (b.advance w).outcomes ws

/-- the calls that succeeded -/
def taken (b : Batch) (ws : List Entry) : List Entry :=
  ((b.outcomes ws).filter fun o => o.2.isNone).map Prod.fst

/-- what is in a batch that was filled by calls: what was in it before, and what was prepared for
every call that succeeded -/
structure Grown (b : Batch) (prepared : List (Statement × Parameters)) (after : Batch) : Prop where
  statements : after.statements = b.statements ++ prepared.map Prod.fst
  parameters : after.parameters = b.parameters ++ prepared.map Prod.snd
  kind : after.kind = b.kind
  profile : after.profile = b.profile

theorem run_cons (b : Batch) (w : Entry) (ws : List Entry) :
    b.run (w :: ws) = (b.advance w).run ws := rfl

theorem outcomes_cons (b : Batch) (w : Entry) (ws : List Entry) :
    b.outcomes (w :: ws) = (w, b.refusal? w) :: (b.advance w).outcomes ws := rfl

theorem map_fst_outcomes (b : Batch) (ws : List Entry) : (b.outcomes ws).map Prod.fst = ws := by
  induction ws generalizing b with
  | nil => rfl
  | cons w ws ih => rw [outcomes_cons, List.map_cons, ih]

end Cql.Batch
