import Cql.Host

/-!
# Shapes of host data

A `Shape` is the type of host data that a value is read as.  Records are read by the names of their
fields from a map, or place by place from a sequence; `RecordStyle` says what a field's key may be
and what becomes of a key that is no field's.
-/

namespace Cql

/-- wrappers around one datum, which choose its kind when it is bound -/
inductive Wrapper where
  | tinyInt | smallInt | bigInt | counter | double
  | date | time | timestamp
  | timeUuid | blob
deriving DecidableEq

def Wrapper.name : Wrapper → String
  | tinyInt => "TinyInt"
  | smallInt => "SmallInt"
  | bigInt => "BigInt"
  | counter => "Counter"
  | double => "Double"
  | date => "CqlDate"
  | time => "CqlTime"
  | timestamp => "CqlTimestamp"
  | timeUuid => "TimeUuid"
  | blob => "Blob"

def Wrapper.wrappers : List Wrapper :=
  [tinyInt, smallInt, bigInt, counter, double, date, time, timestamp, timeUuid, blob]

def Wrapper.ofName? (s : String) : Option Wrapper := wrappers.find? fun w => w.name == s

structure RecordStyle where
  /-- how a message calls the keys -/
  keys : String
  /-- a key may be the index of a field -/
  indexed : Bool
  /-- a key that is no field's is refused, otherwise it is passed over with its value -/
  closed : Bool
  /-- a message about too short a sequence tells the count of fields -/
  counted : Bool

namespace RecordStyle

def lenient : RecordStyle := ⟨"field identifier", true, false, true⟩
def strict : RecordStyle := { lenient with closed := true }

end RecordStyle

/-- a field of a record; `fallback` stands in when the field is absent -/
structure FieldOf (σ : Type) where
  name : String
  shape : σ
  fallback : Option Host

inductive Shape where
  | bool
  | int (type : IntType)
  | single
  | double
  | char
  | string
  | unit
  /-- accepts everything and keeps nothing -/
  | ignored
  | uuid
  | inet
  | inetOf (family : Inet.Family)
  | wrapped (wrapper : Wrapper)
  | variant (typeName : String) (names : List String)
  | option (some : Shape)
  | list (item : Shape)
  /-- sorted, without equal elements -/
  | set (element : Shape)
  | tuple (fields : List Shape)
  | array (size : Nat) (item : Shape)
  /-- sorted by key, the last of equal keys -/
  | map (key value : Shape)
  | record (typeName : String) (style : RecordStyle) (fields : List (FieldOf Shape))
  /-- whole seconds and nanoseconds -/
  | duration

namespace Shape

instance : Inhabited Shape := ⟨unit⟩

abbrev Field := FieldOf Shape

/-- a field that may be absent only if it is optional -/
def field (name : String) (shape : Shape) : Field := ⟨name, shape, .none⟩

def fieldOr (name : String) (shape : Shape) (x : Host) : Field := ⟨name, shape, .some x⟩

def isOption : Shape → Bool
  | option _ => true
  | _ => false

end Shape

end Cql
