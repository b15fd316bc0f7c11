import Cql.Profile
import Cql.Text.Joined

/-!
# The settings of a write

A write may carry its timestamp, the seconds that its cells live, and how long the server may take.
They are written in this order behind `USING`.  A span is a whole number of milliseconds,
microseconds or nanoseconds, in the largest of these units in which it is whole.
-/

namespace Cql

/-- the units in which a span is written -/
inductive TimeUnit where
  | milli | micro | nano
deriving DecidableEq

namespace TimeUnit

def nanos : TimeUnit → Nat
  | milli => 1000000
  | micro => 1000
  | nano => 1

def suffix : TimeUnit → String
  | milli => "ms"
  | micro => "us"
  | nano => "ns"

end TimeUnit

def Span.text (s : Span) : String :=
  let n := s.totalNanos
  if n % 1000000 = 0 then toString (n / 1000000) ++ "ms"
  else if n % 1000 = 0 then toString (n / 1000) ++ "us"
  else toString n ++ "ns"

structure Using where
  /-- microseconds -/
  timestamp : Option Int64
  /-- seconds -/
  ttl : Option UInt32
  timeout : Option Span
deriving DecidableEq

namespace Using

def none : Using := ⟨.none, .none, .none⟩

/-- the settings that are given, each behind its keyword -/
def parts (u : Using) : List String :=
  (u.timestamp.map fun t => "TIMESTAMP " ++ toString t.toInt).toList
    ++ (u.ttl.map fun n => "TTL " ++ toString n.toNat).toList
    ++ (u.timeout.map fun s => "TIMEOUT " ++ s.text).toList

/-- the same, keyword and text apart -/
def settings (u : Using) : List (String × String) :=
  (u.timestamp.map fun t => ("TIMESTAMP", toString t.toInt)).toList
    ++ (u.ttl.map fun n => ("TTL", toString n.toNat)).toList
    ++ (u.timeout.map fun s => ("TIMEOUT", s.text)).toList

def clause (u : Using) : String :=
  if u.parts.isEmpty then "" else "USING " ++ Text.join " AND " u.parts

end Using

end Cql
