import Cql.Cursor.Calls

/-!
# Scripts

A client holds a session and the cursors that it has opened there, and makes one call after the
other: statements sent at once or opened page by page, batches, texts to prepare, and reads from any
of its cursors.  All of them draw on one queue.  Reading a cursor as a stream is no call of its own;
it is one read of the next row after the other.

* `Client.perform`, `Client.script`   one call, and a script of calls with what they did (`Made`);
* `Batch.Entry.Prepares`              what becomes of a statement before the session hears of it;
* `Contact`, `Session.contacts`       requests and batches, which take an answer each;
* `Made.Fate`                         what one call did, seen from outside.
-/

namespace Cql

/-- a response in the hands of the caller: all of it but the place of the next page -/
structure QueryResult where
  columns : List ColumnSpec
  rows : Option (List RawRow)
  tracingId : Option Uuid
  warnings : List String

def QueryResult.ofRaw (raw : RawResult) : QueryResult :=
  ⟨raw.columns, raw.rows, raw.tracingId, raw.warnings⟩

/-! ## calls -/

inductive Call where
  | execute (q : Query)
  | executePaged (q : Query)
  | query (statement : Statement) (data : List Host)
  | queryPaged (statement : Statement) (data : List Host)
  | runBatch (b : Batch)
  | prepare (text : String)
  /-- the cursor that was opened as number `i` -/
  | read (i : Nat) (op : CursorOp)

inductive Answer where
  | result (r : QueryResult)
  /-- the cursor is the last of those that are open -/
  | opened
  | prepared (statement : Statement)
  | told (a : CursorAnswer)
  /-- there is no such cursor -/
  | nothing

structure Client where
  session : Session
  /-- in the order in which they were opened -/
  cursors : List Cursor

namespace Client
variable (x : Client)

def collect (y : Exchange RawResult) : Outcome Answer × Client :=
  (y.1.map fun raw => .result (.ofRaw raw), { x with session := y.2 })

def keep : Outcome Cursor × Session → Outcome Answer × Client
  | (.ok c, s) => (.ok .opened, ⟨s, x.cursors ++ [c]⟩)
  | (.error e, s) => (.error e, { x with session := s })

def read (i : Nat) (op : CursorOp) : Outcome Answer × Client :=
  match x.cursors[i]? with
  | some c =>
    let k := Cursor.call (c, x.session) op
    (k.answer.map .told, ⟨k.after.2, x.cursors.set i k.after.1⟩)
  | none => (.ok .nothing, x)

def perform : Call → Outcome Answer × Client
  | .execute q => x.collect (x.session.run q)
  | .executePaged q => x.keep (x.session.openCursor q.statement)
  | .query statement data => x.collect (x.session.query statement data)
  | .queryPaged statement data => x.keep (x.session.openCursor (Session.bound statement data))
  | .runBatch b => x.collect (x.session.runBatch b)
  | .prepare text =>
    let y := x.session.prepare text
    (.ok (.prepared y.1), { x with session := y.2 })
  | .read i op => x.read i op

end Client

/-- a call that was made -/
structure Made where
  call : Call
  before : Client
  answer : Outcome Answer
  after : Client

namespace Client

def make (x : Client) (c : Call) : Made :=
  let y := x.perform c
  ⟨c, x, y.1, y.2⟩

/-- one call after the other -/
def script (x : Client) : List Call → List Made
  | [] => []
  | c :: cs => x.make c :: script (x.make c).after cs

def afterScript (x : Client) (cs : List Call) : Client := cs.foldl (fun x c => (x.make c).after) x

end Client

/-! ## what is prepared for a call -/

/-- a statement and the values of its placeholders, from a query that can be built or from host data
that can be bound -/
inductive Batch.Entry.Yields : Batch.Entry → Statement → List Value → Prop
  | built {q : Query} {b : Built} (h : q.build = .ok b) :
      Yields (.query q) (.direct b.text q.profile) b.values
  | bound {statement : Statement} {data : List Host} {vs : List Value}
      (h : Host.bindAll data = .ok vs) : Yields (.statement statement data) statement vs

/-- what becomes of a statement before the session hears of it: its values come first, and are
written after that -/
inductive Batch.Entry.Prepares : Batch.Entry → Outcome (Statement × Parameters) → Prop
  | unbuilt {q : Query} {e : Error} (h : q.build = .error e) : Prepares (.query q) (.error e)
  | unbound {statement : Statement} {data : List Host} {e : BindingError}
      (h : Host.bindAll data = .error e) : Prepares (.statement statement data) (.error (.binding e))
  | unwritten {w : Batch.Entry} {statement : Statement} {vs : List Value} {e : BindingError}
      (yields : w.Yields statement vs) (h : Parameters.ofValues vs = .error e) :
      Prepares w (.error (.binding e))
  | ready {w : Batch.Entry} {statement : Statement} {vs : List Value} {ps : Parameters}
      (yields : w.Yields statement vs) (h : Parameters.ofValues vs = .ok ps) :
      Prepares w (.ok (statement, ps))

/-- what a call has to prepare before it can be sent -/
def Call.asks? : Call → Option Batch.Entry
  | execute q | executePaged q => some (.query q)
  | query statement data | queryPaged statement data => some (.statement statement data)
  | runBatch _ | prepare _ | read _ _ => none

def Call.paged : Call → Bool
  | executePaged _ | queryPaged _ _ => true
  | execute _ | query _ _ | runBatch _ | prepare _ | read _ _ => false

def Call.texts : Call → List String
  | prepare text => [text]
  | execute _ | executePaged _ | query _ _ | queryPaged _ _ | runBatch _ | read _ _ => []

/-! ## what the session hears -/

/-- what takes an answer of the session -/
inductive Contact where
  | request (r : Request)
  | batch (b : Batch)

def Contact.request? : Contact → Option Request
  | request r => some r
  | batch _ => none

def Contact.batch? : Contact → Option Batch
  | request _ => none
  | batch b => some b

namespace Session

/-- what `t` has answered and `s` has not; only one of its records grows during a call -/
def contacts (s t : Session) : List Contact :=
  (s.asked t).map .request ++ (t.batches.drop s.batches.length).map .batch

/-- the session after contacts, and texts that it prepared: an answer is gone for each contact and
for nothing else -/
def heard (s : Session) (contacts : List Contact) (texts : List String) : Session where
  queue := s.queue.drop contacts.length
  requests := s.requests ++ contacts.filterMap Contact.request?
  batches := s.batches ++ contacts.filterMap Contact.batch?
  prepared := s.prepared ++ texts

end Session

namespace Made

/-- the contacts of a call -/
def contacts (k : Made) : List Contact := k.before.session.contacts k.after.session

/-- what they got -/
def replied (k : Made) : List (Outcome RawResult) := k.before.session.replies k.contacts.length

/-- a call answers the reply that it got: all that the result holds, or the failure -/
inductive Collects (k : Made) : Prop
  | result {raw : RawResult} {r : QueryResult} (replied : k.replied = [.ok raw])
      (told : k.answer = .ok (.result r)) (columns : r.columns = raw.columns)
      (rows : r.rows = raw.rows) (tracingId : r.tracingId = raw.tracingId)
      (warnings : r.warnings = raw.warnings) (cursors : k.after.cursors = k.before.cursors)
  | failed {e : Error} (replied : k.replied = [.error e]) (told : k.answer = .error e)
      (cursors : k.after.cursors = k.before.cursors)

/-- a call opens a cursor on the reply that it got, or answers the failure -/
inductive Opens (statement : Statement) (parameters : Parameters) (k : Made) : Prop
  | opened {page : RawResult} (replied : k.replied = [.ok page]) (told : k.answer = .ok .opened)
      (cursors : k.after.cursors =
        k.before.cursors ++ [(Cursor.unopened statement parameters).absorb page])
  | failed {e : Error} (replied : k.replied = [.error e]) (told : k.answer = .error e)
      (cursors : k.after.cursors = k.before.cursors)

/-- what one call did -/
inductive Fate (k : Made) : Prop
  /-- a failure that the session never hears of -/
  | stopped {w : Batch.Entry} {e : Error} (asks : k.call.asks? = some w)
      (prepares : w.Prepares (.error e)) (told : k.answer = .error e) (same : k.after = k.before)
  | sent {w : Batch.Entry} {statement : Statement} {ps : Parameters}
      (asks : k.call.asks? = some w) (whole : k.call.paged = false)
      (prepares : w.Prepares (.ok (statement, ps)))
      (contacts : k.contacts = [.request ⟨statement, ps, none⟩]) (collects : k.Collects)
  | opened {w : Batch.Entry} {statement : Statement} {ps : Parameters}
      (asks : k.call.asks? = some w) (paged : k.call.paged)
      (prepares : w.Prepares (.ok (statement, ps)))
      (contacts : k.contacts = [.request (.paged statement ps none)])
      (opens : k.Opens statement ps)
  | batched {b : Batch} (call : k.call = .runBatch b) (contacts : k.contacts = [.batch b])
      (collects : k.Collects)
  | prepared {text : String} {handle : Bytes} (call : k.call = .prepare text)
      (silent : k.contacts = []) (told : k.answer = .ok (.prepared (.prepared handle text none)))
      (cursors : k.after.cursors = k.before.cursors)
  /-- a cursor is read and the others stay; it asks for pages of its own statement only -/
  | read {i : Nat} {op : CursorOp} {c : Cursor} {rows : List RawRow} {r : CursorCall}
      (call : k.call = .read i op) (cursor : k.before.cursors[i]? = some c)
      (made : r = Cursor.call (c, k.before.session) op)
      (contacts : k.contacts = r.asked.map .request)
      (own : ∀ q ∈ r.asked, ∃ state, q = .paged c.statement c.parameters state)
      (frugal : r.Frugal) (uses : r.Uses r.after.1.columns rows)
      (told : k.answer = r.answer.map .told)
      (cursors : k.after.cursors = k.before.cursors.set i r.after.1)
  | missing {i : Nat} {op : CursorOp} (call : k.call = .read i op)
      (cursor : k.before.cursors[i]? = none) (told : k.answer = .ok .nothing)
      (same : k.after = k.before)

end Made

/-! ## simple facts -/

namespace Session
variable (s : Session)

@[simp] theorem contacts_self : s.contacts s = [] := by simp [contacts]

@[simp] theorem contacts_after (rs : List Request) :
    s.contacts (s.after rs) = rs.map .request := by
  rw [contacts, asked_after]
  simp [after]

theorem after_eq_heard (rs : List Request) : s.after rs = s.heard (rs.map .request) [] := by
  have hrequests : (rs.map Contact.request).filterMap Contact.request? = rs := by
    simp [List.filterMap_map, Function.comp_def, Contact.request?]
  have hbatches : (rs.map Contact.request).filterMap Contact.batch? = [] := by
    simp [Contact.batch?]
  rw [heard, hrequests, hbatches, List.length_map, List.append_nil, List.append_nil]
  rfl

@[simp] theorem heard_nil : s.heard [] [] = s := by simp [heard]

theorem heard_heard (ks ks' : List Contact) (texts texts' : List String) :
    (s.heard ks texts).heard ks' texts' = s.heard (ks ++ ks') (texts ++ texts') := by
  simp [heard]

theorem replies_heard (ks : List Contact) (texts : List String) (n : Nat) :
    s.replies (ks.length + n) = s.replies ks.length ++ (s.heard ks texts).replies n := by
  simp [replies, heard, List.range_add, Function.comp_def]

theorem runBatch_eq (b : Batch) : s.runBatch b = (s.reply, s.heard [.batch b] []) := by
  have hheard : s.heard [.batch b] [] =
      { s with queue := s.queue.drop 1, batches := s.batches ++ [b] } := by
    simp [heard, Contact.request?, Contact.batch?]
  rw [hheard, runBatch, answer, reply]
  cases h : s.queue <;> simp

theorem contacts_batch (b : Batch) : s.contacts (s.heard [.batch b] []) = [.batch b] := by
  simp [contacts, asked, heard, Contact.request?, Contact.batch?]

theorem prepare_eq (text : String) :
    s.prepare text =
      (.prepared (handle (s.prepared.length + 1)) text none, s.heard [] [text]) := by
  simp [prepare, heard]

theorem contacts_prepared (texts : List String) : s.contacts (s.heard [] texts) = [] := by
  simp [contacts, asked, heard]

end Session

end Cql
