import Cql.Batch

/-!
# Sessions

A session answers requests from a queue of answers and keeps a record of everything it was asked.
When the queue is empty the answer has nothing in it.  Preparing a statement takes no answer: the
handle is the count of statements prepared so far, as far as four bytes can hold it.

Parameters are bound and written before the session is asked.  When that fails the session never
hears of the statement.
-/

namespace Cql

/-- which page is asked for -/
structure PageRequest where
  size : Option Int32
  /-- where to go on, nothing for the first page -/
  state : Option Bytes
deriving DecidableEq

structure Request where
  statement : Statement
  parameters : Parameters
  page : Option PageRequest

structure Session where
  queue : List (Outcome RawResult)
  requests : List Request
  batches : List Batch
  prepared : List String

abbrev Exchange (α : Type) := Outcome α × Session

namespace Session

/-- a session that will answer from `queue` and was asked nothing -/
def replaying (queue : List (Outcome RawResult)) : Session := ⟨queue, [], [], []⟩

def pending (s : Session) : Nat := s.queue.length

def answer (s : Session) : Exchange RawResult :=
  match s.queue with
  | [] => (.ok .void, s)
  | r :: rs => (r, { s with queue := rs })

def execute (s : Session) (r : Request) : Exchange RawResult :=
  { s with requests := s.requests ++ [r] }.answer

def runBatch (s : Session) (b : Batch) : Exchange RawResult :=
  { s with batches := s.batches ++ [b] }.answer

/-- a count in four bytes, the greatest if it has no room there -/
def handle (count : Nat) : Bytes := Bytes.ofNat 4 (min count 4294967295)

def prepare (s : Session) (text : String) : Statement × Session :=
  let prepared := s.prepared ++ [text]
  (.prepared (handle prepared.length) text none, { s with prepared := prepared })

/-- run a statement with its parameters, once they are there -/
def send (s : Session) (prepared : Outcome (Statement × Parameters)) : Exchange RawResult :=
  match prepared with
  | .ok (statement, parameters) => s.execute ⟨statement, parameters, none⟩
  | .error e => (.error e, s)

def bound (statement : Statement) (data : List Host) : Outcome (Statement × Parameters) :=
  (ofBinding (Parameters.bind data)).map fun ps => (statement, ps)

def query (s : Session) (statement : Statement) (data : List Host) : Exchange RawResult :=
  s.send (bound statement data)

def run (s : Session) (q : Query) : Exchange RawResult := s.send q.statement

end Session

/-! ## answers made of values -/

def rawRow (values : List Value) : Except BindingError RawRow := values.mapM Cell.body?

namespace RawResult

def ofValues (columns : List ColumnSpec) (rows : List (List Value)) :
    Except BindingError RawResult :=
  (rows.mapM rawRow).map fun raw => ofRows columns raw

/-- pieces of `n` elements, the last one shorter; at least one piece -/
def chunks {α : Type} (n : Nat) (xs : List α) : List (List α) :=
  if _h : xs.length ≤ n ∨ n = 0 then [xs] else xs.take n :: chunks n (xs.drop n)
termination_by xs.length
decreasing_by
  rw [List.length_drop]
  omega

/-- where the page after page `k` begins -/
def pageState (k : Nat) : Bytes := Bytes.ofNat 8 k

/-- pages from number `k` on, all but the last with the place where the next one begins -/
def pagesFrom (columns : List ColumnSpec) (k : Nat) :
    List (List (List Value)) → Except BindingError (List RawResult)
  | [] => .ok []
  | [rows] => (ofValues columns rows).map ([·])
  | rows :: more => do
    let page ← ofValues columns rows
    let pages ← pagesFrom columns (k + 1) more
    return { page with pagingState := some (pageState k) } :: pages

/-- rows of values as answers page by page, at least one row a page, and one page if there are no
rows -/
def pagesOfValues (columns : List ColumnSpec) (rows : List (List Value)) (size : Nat) :
    Except BindingError (List RawResult) :=
  pagesFrom columns 0 (chunks (if size = 0 then 1 else size) rows)

end RawResult

end Cql
