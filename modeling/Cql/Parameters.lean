import Cql.Cell.Reader
import Cql.Cell.Writer
import Cql.Host.Binding

/-!
# The parameters of a statement

Parameters travel as a count of two bytes and the cells one behind the other.  `push` appends one
cell; there are at most 65535, and a push that fails leaves count and cells as they were.
`cells` reads the cells back from the flat buffer, with no count to guide it.

* `Parameters.push`, `pushAll`   append one, append several up to the first failure;
* `Parameters.ofValues`, `bind`  all of them or none, from values or from host data;
* `Parameters.cells`             the cells as they lie in the buffer;
* `Parameters.decode?`           the values they stand for, given their types.
-/

namespace Cql

structure Parameters where
  count : Nat
  buffer : Buffer

/-- one parameter as it lies in the buffer -/
inductive Parameter where
  | null
  | unset
  | bytes (body : Bytes)
deriving DecidableEq

namespace Parameters

def limit : Nat := 65535

def empty : Parameters := ⟨0, #[]⟩

def push (v : Value) : EStateM BindingError Parameters Unit
  | ⟨count, buffer⟩ =>
    if limit ≤ count then .error (.tooManyValues (count + 1)) ⟨count, buffer⟩
    else
      match Cell.put v buffer with
      | .ok _ buffer => .ok () ⟨count + 1, buffer⟩
      | .error e buffer => .error e ⟨count, buffer⟩

/-- one parameter after another; those before a failure stay -/
def pushAll : List Value → EStateM BindingError Parameters Unit
  | [], p => .ok () p
  | v :: vs, p =>
    match push v p with
    | .ok _ p => pushAll vs p
    | .error e p => .error e p

def ofValues (vs : List Value) : Except BindingError Parameters :=
  match pushAll vs empty with
  | .ok _ p => .ok p
  | .error e _ => .error e

def bind (data : List Host) : Except BindingError Parameters := do
  ofValues (← Host.bindAll data)

def cellBytes (p : Parameters) : Bytes := p.buffer.toList

def toBytes (p : Parameters) : Bytes := Bytes.ofNat 2 p.count ++ p.cellBytes

/-- the first cell of a buffer and the rest, nothing at the end or where no cell begins -/
def nextCell? (bs : Bytes) : Option (Parameter × Bytes) :=
  match bs.split 4 with
  | none => none
  | some (word, rest) =>
    let n := Cell.signed word.toNat
    if n = -1 then some (.null, rest)
    else if n = -2 then some (.unset, rest)
    else if n < 0 then none
    else (rest.split n.toNat).map fun cut => (.bytes cut.1, cut.2)

theorem length_of_nextCell? {bs rest : Bytes} {c : Parameter} (h : nextCell? bs = some (c, rest)) :
    rest.length < bs.length := by
  unfold nextCell? at h
  split at h
  · cases h
  · next word tail hw =>
    obtain ⟨rfl, hl⟩ := Bytes.split_eq_some hw
    rw [List.length_append, hl]
    dsimp only at h
    split at h
    · cases h; omega
    split at h
    · cases h; omega
    split at h
    · cases h
    obtain ⟨cut, hb, he⟩ := Option.map_eq_some_iff.1 h
    obtain ⟨rfl, _⟩ := Bytes.split_eq_some hb
    cases he
    rw [List.length_append]
    omega

/-- the cells of `bs` behind those of `acc`, which are in reverse -/
def cellsFrom (acc : List Parameter) (bs : Bytes) : List Parameter :=
  match _h : nextCell? bs with
  | some (c, rest) => cellsFrom (c :: acc) rest
  | none => acc.reverse
termination_by bs.length
decreasing_by exact length_of_nextCell? _h

def cells (p : Parameters) : List Parameter := cellsFrom [] p.cellBytes

/-- the value of one parameter; a null cell is `null` whatever its type -/
def decodeOne (t : ColumnType) : Parameter → Except DecodeError Value
  | .null => .ok .null
  | .unset => .ok .unset
  | .bytes body => Cell.decode t (some body)

/-- the values of the parameters, when there is one type for each and every cell decodes -/
def decode? (p : Parameters) (types : List ColumnType) : Option (List Value) :=
  if p.count = types.length then
    ((types.zip p.cells).mapM fun tc => decodeOne tc.1 tc.2).toOption
  else none

end Parameters

end Cql
