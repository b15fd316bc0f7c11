import Cql.Error.Causes
import Cql.Value

/-!
# Reading cells

`Cell.decode t cell` is the value of a cell of a column of type `t`.  A null cell is the empty
collection for a list, a set or a map and `null` for every other type.  A body is read from its
first byte on and must be used up: a scalar checks its width, a collection reads its count and as
many cells, a tuple or record reads a cell a field and takes fields that are not there as null.

Reading goes cell by cell and stops at the first fault, so a count that promises more elements than
there are bytes costs no more than the bytes.
-/

namespace Cql

namespace Cell

/-! ## the parts of a body -/

def take (n : Nat) (bs : Bytes) : Except DecodeError (Bytes × Bytes) :=
  match bs.split n with
  | some r => .ok r
  | none => .error (.unexpectedEnd n bs.length)

/-- a word of 32 bits as a signed number -/
def signed (n : Nat) : Int := if n < 2147483648 then n else n - 4294967296

def readLength (bs : Bytes) : Except DecodeError (Int × Bytes) := do
  let (word, rest) ← take 4 bs
  return (signed word.toNat, rest)

/-- a count, which cannot be negative -/
def readCount (bs : Bytes) : Except DecodeError (Nat × Bytes) := do
  let (n, rest) ← readLength bs
  if n < 0 then .error (.invalidLength n) else .ok (n.toNat, rest)

/-- the body of a cell, nothing for a null cell -/
def readCell (bs : Bytes) : Except DecodeError (Option Bytes × Bytes) := do
  let (n, rest) ← readLength bs
  if n = -1 then .ok (none, rest)
  else if n < 0 then .error (.invalidLength n)
  else (take n.toNat rest).map fun cut => (some cut.1, cut.2)

def readMany {α : Type} (read : Bytes → Except DecodeError (α × Bytes)) :
    Nat → Bytes → Except DecodeError (List α × Bytes)
  | 0, bs => .ok ([], bs)
  | n + 1, bs => do
    let (a, bs) ← read bs
    let (as, bs) ← readMany read n bs
    return (a :: as, bs)

/-- nothing may be left over -/
def finish {α : Type} : α × Bytes → Except DecodeError α
  | (a, []) => .ok a
  | (_, rest) => .error (.trailingBytes rest.length)

/-- a count and as many parts, and nothing else -/
def readCollection {α : Type} (read : Bytes → Except DecodeError (α × Bytes)) (bs : Bytes) :
    Except DecodeError (List α) := do
  let (n, bs) ← readCount bs
  let parts ← readMany read n bs
  finish parts

/-- the number spelt by a body of exactly `width` bytes -/
def fixed (typeName : String) (width : Nat) (bs : Bytes) : Except DecodeError Nat :=
  if bs.length = width then .ok bs.toNat else .error (.invalidWidth typeName width bs.length)

/-- text is UTF-8, and nothing that is not -/
def readText (bs : Bytes) : Except DecodeError String :=
  match String.fromUTF8? ⟨bs.toArray⟩ with
  | some s => .ok s
  | none => .error .invalidUtf8

def readUuid (typeName : String) (bs : Bytes) : Except DecodeError Uuid := do
  let n ← fixed typeName 16 bs
  return ⟨BitVec.ofNat 128 n⟩

def readInet (bs : Bytes) : Except DecodeError Inet :=
  match Inet.ofBytes? bs with
  | some a => .ok a
  | none => .error (.invalidWidth "inet" 4 bs.length)

/-! ## values -/

def nullValue : ColumnType → Value
  | .list _ => .list []
  | .set _ => .set []
  | .map _ _ => .map []
  | _ => .null

/-- a cell of type `t`, given the reader of its body -/
def readPart (t : ColumnType) (body : Bytes → Except DecodeError Value) (bs : Bytes) :
    Except DecodeError (Value × Bytes) := do
  match ← readCell bs with
  | (none, rest) => return (nullValue t, rest)
  | (some cell, rest) => return (← body cell, rest)

/-- a field: the cell of type `t`, or its null value when nothing is left -/
def readField (t : ColumnType) (body : Bytes → Except DecodeError Value) (bs : Bytes) :
    Except DecodeError (Value × Bytes) :=
  if bs.isEmpty then .ok (nullValue t, bs) else readPart t body bs

def readEntry (key value : Bytes → Except DecodeError (Value × Bytes)) (bs : Bytes) :
    Except DecodeError ((Value × Value) × Bytes) := do
  let (k, bs) ← key bs
  let (v, bs) ← value bs
  return ((k, v), bs)

mutual

def decodeBody : ColumnType → Bytes → Except DecodeError Value
  | .bool, bs => return .bool ((← fixed "boolean" 1 bs) != 0)
  | .tinyInt, bs => return .tinyInt (.ofBitVec (.ofNat 8 (← fixed "tinyint" 1 bs)))
  | .smallInt, bs => return .smallInt (.ofBitVec (.ofNat 16 (← fixed "smallint" 2 bs)))
  | .int, bs => return .int (.ofBitVec (.ofNat 32 (← fixed "int" 4 bs)))
  | .bigInt, bs => return .bigInt (.ofBitVec (.ofNat 64 (← fixed "bigint" 8 bs)))
  | .counter, bs => return .counter (.ofBitVec (.ofNat 64 (← fixed "counter" 8 bs)))
  | .float, bs => return .float (UInt32.ofNat (← fixed "float" 4 bs))
  | .double, bs => return .double (UInt64.ofNat (← fixed "double" 8 bs))
  | .ascii, bs => return .text (← readText bs)
  | .text, bs => return .text (← readText bs)
  | .blob, bs => return .blob bs
  | .uuid, bs => return .uuid (← readUuid "uuid" bs)
  | .timeUuid, bs => return .timeUuid (← readUuid "timeuuid" bs)
  | .date, bs => return .date ⟨UInt32.ofNat (← fixed "date" 4 bs)⟩
  | .time, bs => return .time ⟨.ofBitVec (.ofNat 64 (← fixed "time" 8 bs))⟩
  | .timestamp, bs => return .timestamp ⟨.ofBitVec (.ofNat 64 (← fixed "timestamp" 8 bs))⟩
  | .inet, bs => return .inet (← readInet bs)
  | .list t, bs => return .list (← readCollection (readPart t (decodeBody t)) bs)
  | .set t, bs => return .setOf (← readCollection (readPart t (decodeBody t)) bs)
  | .map k v, bs =>
    return .mapOf (← readCollection
      (readEntry (readPart k (decodeBody k)) (readPart v (decodeBody v))) bs)
  | .tuple ts, bs => return .tuple (← finish (← decodeFields ts bs))
  | .udt _ name fs, bs => return .udt name (← finish (← decodeNamed fs bs))
  | .varint, _ => .error (.unsupportedType .varint)
  | .decimal, _ => .error (.unsupportedType .decimal)
  | .duration, _ => .error (.unsupportedType .duration)
  | .custom c, _ => .error (.unsupportedType (.custom c))
termination_by structural t => t

def decodeFields : List ColumnType → Bytes → Except DecodeError (List Value × Bytes)
  | [], bs => .ok ([], bs)
  | t :: ts, bs => do
    let (v, bs) ← readField t (decodeBody t) bs
    let (vs, bs) ← decodeFields ts bs
    return (v :: vs, bs)
termination_by structural ts => ts

/-- one field after another, with their names -/
def decodeNamed : List (String × ColumnType) → Bytes →
    Except DecodeError (List (String × Value) × Bytes)
  | [], bs => .ok ([], bs)
  | (name, t) :: fs, bs => do
    let (v, bs) ← readField t (decodeBody t) bs
    let (vs, bs) ← decodeNamed fs bs
    return ((name, v) :: vs, bs)
termination_by structural fs => fs

end

def decode (t : ColumnType) : Option Bytes → Except DecodeError Value
  | none => .ok (nullValue t)
  | some body => decodeBody t body

theorem decode_none (t : ColumnType) : decode t none = .ok (nullValue t) := rfl
theorem decode_some (t : ColumnType) (bs : Bytes) : decode t (some bs) = decodeBody t bs := rfl

end Cell

end Cql
