import Cql.Host.Reading

/-!
# Execution profiles

Settings that travel with a statement: how many replicas must answer, how long to wait, the write
timestamp, the size of a page.  Every setting is optional, the session has a default of its own.

A profile can be read like any other host data, from a map with the names of its settings or from a
sequence in their order; what is absent stays open.
-/

namespace Cql

/-- a span of time; the part of a second is below one -/
structure Span where
  seconds : Nat
  nanos : Nat
  nanos_lt : nanos < 1000000000
deriving DecidableEq

namespace Span

/-- seconds and nanoseconds, a full second of the latter carried over -/
def ofParts (seconds nanos : Nat) : Span :=
  ⟨seconds + nanos / 1000000000, nanos % 1000000000, Nat.mod_lt _ (by decide)⟩

def totalNanos (s : Span) : Nat := s.seconds * 1000000000 + s.nanos

end Span

inductive Consistency where
  | any | one | two | three | quorum | all | localQuorum | eachQuorum | localOne
deriving DecidableEq

namespace Consistency

def levels : List Consistency :=
  [any, one, two, three, quorum, all, localQuorum, eachQuorum, localOne]

/-- the name in settings -/
def name : Consistency → String
  | any => "ANY"
  | one => "ONE"
  | two => "TWO"
  | three => "THREE"
  | quorum => "QUORUM"
  | all => "ALL"
  | localQuorum => "LOCAL_QUORUM"
  | eachQuorum => "EACH_QUORUM"
  | localOne => "LOCAL_ONE"

/-- the number on the wire -/
def code : Consistency → Nat
  | any => 0
  | one => 1
  | two => 2
  | three => 3
  | quorum => 4
  | all => 5
  | localQuorum => 6
  | eachQuorum => 7
  | localOne => 10

def ofName? (s : String) : Option Consistency := levels.find? fun c => c.name == s

def shape : Shape := .variant "Consistency" (levels.map name)

end Consistency

inductive SerialConsistency where
  | serial | localSerial
deriving DecidableEq

namespace SerialConsistency

def levels : List SerialConsistency := [serial, localSerial]

/-- the name in settings -/
def name : SerialConsistency → String
  | serial => "SERIAL"
  | localSerial => "LOCAL_SERIAL"

/-- the number on the wire -/
def code : SerialConsistency → Nat
  | serial => 8
  | localSerial => 9

def ofName? (s : String) : Option SerialConsistency := levels.find? fun c => c.name == s

def shape : Shape := .variant "SerialConsistency" (levels.map name)

end SerialConsistency

structure Profile where
  consistency : Option Consistency
  serialConsistency : Option SerialConsistency
  requestTimeout : Option Span
  /-- microseconds -/
  timestamp : Option Int64
  isIdempotent : Option Bool
  tracing : Option Bool
  /-- rows of a page -/
  pageSize : Option Int32
deriving DecidableEq

namespace Profile

def empty : Profile := ⟨none, none, none, none, none, none, none⟩

/-! ## reading -/

/-- every setting is optional and may be absent, in a sequence too -/
def setting (name : String) (s : Shape) : Shape.Field := Shape.fieldOr name (.option s) .none

def shape : Shape :=
  .record "ExecutionProfile" .lenient
    [setting "consistency" Consistency.shape,
      setting "serial_consistency" SerialConsistency.shape,
      setting "request_timeout" .duration,
      setting "timestamp" (.int .i64),
      setting "is_idempotent" .bool,
      setting "tracing" .bool,
      setting "page_size" (.int .i32)]

def span? : Host → Option Span
  | .record _ _ [.int s, .int n] => some (.ofParts s.val.toNat n.val.toNat)
  | _ => none

def given {α : Type} (f : Host → Option α) : Host → Option α
  | .some x => f x
  | _ => none

def ofHost? : Host → Option Profile
  | .record _ _ [c, s, r, t, i, tr, p] =>
    some
      { consistency := given (fun | .variant _ n => Consistency.ofName? n | _ => none) c
        serialConsistency := given (fun | .variant _ n => SerialConsistency.ofName? n | _ => none) s
        requestTimeout := given span? r
        timestamp := given (fun | .int n => some (Int64.ofInt n.val) | _ => none) t
        isIdempotent := given (fun | .bool b => some b | _ => none) i
        tracing := given (fun | .bool b => some b | _ => none) tr
        pageSize := given (fun | .int n => some (Int32.ofInt n.val) | _ => none) p }
  | _ => none

end Profile

end Cql
