import Cql.Error.Causes
import Cql.Value

/-!
# Writing cells

A cell is a length of four bytes and that many bytes of body; the lengths `-1` and `-2` stand for
`null` and `unset` and have no body.  Lists, sets and maps begin their body with the count of
elements, records and tuples do not; all of them go on with the cells of their parts.

The writer works on one growing buffer.  It does not know the length of a body before the body is
written, so it reserves four bytes, writes the body behind them and then fills the length in; when
something inside the body fails it cuts the buffer back to where the cell began.  `unset` is refused
in every place but the outermost.

* `Cell.put v`    the cell of `v` at the end of the buffer, or the buffer as it was;
* `Cell.body? v`  the body alone, nothing for `null`.
-/

namespace Cql

abbrev Buffer := Array UInt8

abbrev Writer := EStateM BindingError Buffer

namespace Cell

/-- the greatest length and the greatest count -/
def limit : Nat := 2147483647

/-- the length that stands for `null` -/
def nullLength : Bytes := [255, 255, 255, 255]
/-- the length that stands for `unset` -/
def unsetLength : Bytes := [255, 255, 255, 254]

def emit (bs : Bytes) : Writer Unit := modify (·.append bs.toArray)

def emitWord (w n : Nat) : Writer Unit := emit (Bytes.ofNat w n)

/-- the count that begins a collection -/
def emitCount (n : Nat) : Writer Unit :=
  if limit < n then throw (.collectionTooLarge n) else emitWord 4 n

def overwrite (out : Buffer) (i : Nat) : Bytes → Buffer
  | [] => out
  | b :: bs => overwrite (out.setIfInBounds i b) (i + 1) bs

/-- a body behind its length: the length is filled in when the body is there, and a failure leaves
the buffer as it was found -/
def framed (body : Writer Unit) : Writer Unit := fun out =>
  let start := out.size
  match body (out.append #[0, 0, 0, 0]) with
  | .ok _ out =>
    let length := out.size - start - 4
    if limit < length then .error (.valueTooLarge length) (out.shrink start)
    else .ok () (overwrite out start (Bytes.ofNat 4 length))
  | .error e out => .error e (out.shrink start)

/-- the cell of `v`, given the writer of its body -/
def cellOf (v : Value) (body : Writer Unit) : Writer Unit :=
  match v with
  | .null => emit nullLength
  | .unset => emit unsetLength
  | _ => framed body

/-- the cell of a part, which may not be `unset` -/
def partOf (holder : Holder) (v : Value) (body : Writer Unit) : Writer Unit :=
  match v with
  | .unset => throw (.nestedUnset holder)
  | _ => cellOf v body

mutual

/-- the body of a value; `null` and `unset` have none -/
def putBody : Value → Writer Unit
  | .null | .unset => pure ()
  | .bool b => emit [if b then 1 else 0]
  | .tinyInt n => emitWord 1 n.toBitVec.toNat
  | .smallInt n => emitWord 2 n.toBitVec.toNat
  | .int n => emitWord 4 n.toBitVec.toNat
  | .bigInt n => emitWord 8 n.toBitVec.toNat
  | .counter n => emitWord 8 n.toBitVec.toNat
  | .float bits => emitWord 4 bits.toNat
  | .double bits => emitWord 8 bits.toNat
  | .text s => emit s.toUTF8.data.toList
  | .blob bs => emit bs
  | .uuid u => emit u.bytes
  | .timeUuid u => emit u.bytes
  | .date d => emitWord 4 d.raw.toNat
  | .time t => emitWord 8 t.nanos.toBitVec.toNat
  | .timestamp t => emitWord 8 t.millis.toBitVec.toNat
  | .inet a => emit a.bytes
  | .list xs => do emitCount xs.length; putParts .list xs
  | .set xs => do emitCount xs.length; putParts .set xs
  | .map es => do emitCount es.length; putEntries es
  | .tuple xs => putParts .tuple xs
  | .udt _ fs => putFields fs
termination_by structural v => v

def putParts (holder : Holder) : List Value → Writer Unit
  | [] => pure ()
  | x :: xs => do partOf holder x (putBody x); putParts holder xs
termination_by structural xs => xs

def putEntries : List (Value × Value) → Writer Unit
  | [] => pure ()
  | (k, v) :: es => do
    partOf .map k (putBody k)
    partOf .map v (putBody v)
    putEntries es
termination_by structural es => es

def putFields : List (String × Value) → Writer Unit
  | [] => pure ()
  | (_, v) :: fs => do partOf .udt v (putBody v); putFields fs
termination_by structural fs => fs

end

def put (v : Value) : Writer Unit := cellOf v (putBody v)

def body? : Value → Except BindingError (Option Bytes)
  | .null => .ok none
  | .unset => .error (.nestedUnset .cell)
  | v =>
    match putBody v #[] with
    | .ok _ out => .ok (some out.toList)
    | .error e _ => .error e

end Cell

end Cql
