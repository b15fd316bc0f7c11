import Cql.Entries
import Cql.Host.ReadError
import Cql.Inet.Text
import Cql.Value

/-!
# What host data is read from

Host data is read from a value, and on the way down from the bytes of a blob, from the names of a
record's fields and a row's columns, from a whole row, and from one of its columns with its name.
All of them present themselves as one of a few kinds, and a target accepts some kinds and refuses
the others.

A row presents itself as a map from names to values, but to a target that asks for a sequence as
the sequence of its columns.  A blob presents itself as bytes, but to a target that asks for a list
as the sequence of its bytes.
-/

namespace Cql

inductive Source where
  | value (v : Value)
  /-- a byte of a blob -/
  | byte (b : UInt8)
  /-- the name of a field or a column -/
  | name (s : String)
  /-- a column of a row with its name -/
  | column (name : String) (v : Value)
  | row (columns : Entries String Value)

/-- what a source presents itself as -/
inductive Presented where
  | unit
  | bool (b : Bool)
  | signed (n : Int)
  | unsigned (n : Nat)
  | single (bits : UInt32)
  | double (bits : UInt64)
  | text (s : String)
  | bytes (bs : Bytes)
  | sequence (items : List Source)
  | map (entries : List (Source × Source))

namespace Presented

def called : Presented → Called
  | unit => .unit
  | bool b => .bool b
  | signed n => .integer n
  | unsigned n => .integer n
  | single bits => .float (FloatFormat.widen bits)
  | double bits => .float bits
  | text s => .text s
  | bytes _ => .bytes
  | sequence _ => .sequence
  | map _ => .map

end Presented

namespace Source

/-- identifiers and addresses present themselves as their text, a date as its count of days -/
def ofValue : Value → Presented
  | .null | .unset => .unit
  | .bool b => .bool b
  | .tinyInt n => .signed n.toInt
  | .smallInt n => .signed n.toInt
  | .int n => .signed n.toInt
  | .bigInt n => .signed n.toInt
  | .counter n => .signed n.toInt
  | .time t => .signed t.nanos.toInt
  | .timestamp t => .signed t.millis.toInt
  | .date d => .unsigned d.raw.toNat
  | .float bits => .single bits
  | .double bits => .double bits
  | .text s => .text s
  | .blob bs => .bytes bs
  | .uuid u => .text (String.ofList u.text)
  | .timeUuid u => .text (String.ofList u.text)
  | .inet a => .text (String.ofList a.text)
  | .list xs => .sequence (xs.map value)
  | .set xs => .sequence (xs.map value)
  | .tuple xs => .sequence (xs.map value)
  | .map es => .map (es.map fun e => (value e.1, value e.2))
  | .udt _ fs => .map (fs.map fun f => (name f.1, value f.2))

def presented : Source → Presented
  | value v => ofValue v
  | byte b => .unsigned b.toNat
  | name s => .text s
  | column s v => .sequence [name s, value v]
  | row columns => .map (columns.map fun c => (name c.1, value c.2))

def asTuple : Source → Presented
  | row columns => .sequence (columns.map fun c => column c.1 c.2)
  | s => s.presented

def asList : Source → Presented
  | value (.blob bs) => .sequence (bs.map byte)
  | s => s.asTuple

end Source

end Cql
