import Cql.Bytes
import Cql.Calendar
import Cql.Entries
import Cql.Inet
import Cql.Uuid

/-!
# Values

`Value` is what a cell of a table can hold, and what a statement's parameter can be: `null`, a
scalar, a collection, a record, or `unset`, which leaves the bound column untouched.

Equality is that of the database's host, not identity: floats are compared bit by bit, sets and
maps without regard to order, lists, tuples and records place by place, and a number is equal only
to one of its own kind.  A set is compared by its size and by looking up every element of the one
in the other, a map likewise by its keys.

`Value.setOf` and `Value.mapOf` make sets without equal elements and maps without equal keys; the
first of equal elements stays, a repeated key keeps its place and takes the last value.
`Value.Distinct` says of a value that all its sets and maps are of that kind.
-/

namespace Cql

inductive Value where
  | null
  | unset
  | bool (b : Bool)
  | tinyInt (n : Int8)
  | smallInt (n : Int16)
  | int (n : Int32)
  | bigInt (n : Int64)
  | counter (n : Int64)
  /-- by its bit pattern -/
  | float (bits : UInt32)
  /-- by its bit pattern -/
  | double (bits : UInt64)
  | text (s : String)
  | blob (bytes : Bytes)
  | uuid (u : Uuid)
  | timeUuid (u : Uuid)
  | date (d : Date)
  | time (t : Time)
  | timestamp (t : Timestamp)
  | inet (a : Inet)
  | list (items : List Value)
  | set (elements : List Value)
  | map (entries : List (Value × Value))
  | tuple (fields : List Value)
  | udt (typeName : String) (fields : List (String × Value))

namespace Value

instance : Inhabited Value := ⟨null⟩

def isNull : Value → Bool
  | null => true
  | _ => false

def isUnset : Value → Bool
  | unset => true
  | _ => false

def isCounter : Value → Bool
  | counter _ => true
  | _ => false

def kindName : Value → String
  | null => "null"
  | unset => "unset"
  | bool _ => "boolean"
  | tinyInt _ => "tinyint"
  | smallInt _ => "smallint"
  | int _ => "int"
  | bigInt _ => "bigint"
  | counter _ => "counter"
  | float _ => "float"
  | double _ => "double"
  | text _ => "text"
  | blob _ => "blob"
  | uuid _ => "uuid"
  | timeUuid _ => "timeuuid"
  | date _ => "date"
  | time _ => "time"
  | timestamp _ => "timestamp"
  | inet _ => "inet"
  | list _ => "list"
  | set _ => "set"
  | map _ => "map"
  | tuple _ => "tuple"
  | udt _ _ => "udt"

/-! ## equality -/

mutual

def eqv : Value → Value → Bool
  | null, null => true
  | unset, unset => true
  | bool a, bool b => a == b
  | tinyInt a, tinyInt b => a == b
  | smallInt a, smallInt b => a == b
  | int a, int b => a == b
  | bigInt a, bigInt b => a == b
  | counter a, counter b => a == b
  | float a, float b => a == b
  | double a, double b => a == b
  | text a, text b => a == b
  | blob a, blob b => a == b
  | uuid a, uuid b => a == b
  | timeUuid a, timeUuid b => a == b
  | date a, date b => a == b
  | time a, time b => a == b
  | timestamp a, timestamp b => a == b
  | inet a, inet b => a == b
  | list xs, list ys => eqvItems xs ys
  | set xs, set ys => xs.length == ys.length && eqvWithin xs ys
  | map es, map fs => es.length == fs.length && eqvLookup es fs
  | tuple xs, tuple ys => eqvItems xs ys
  | udt a xs, udt b ys => a == b && eqvFields xs ys
  | _, _ => false
termination_by structural v => v

/-- place by place -/
def eqvItems : List Value → List Value → Bool
  | [], [] => true
  | x :: xs, y :: ys => eqv x y && eqvItems xs ys
  | _, _ => false
termination_by structural v => v

/-- every element of the first list is equal to one of the second -/
def eqvWithin : List Value → List Value → Bool
  | [], _ => true
  | x :: xs, ys => ys.any (fun y => eqv x y) && eqvWithin xs ys
termination_by structural v => v

/-- every key of the first list is found in the second, with an equal value -/
def eqvLookup : List (Value × Value) → List (Value × Value) → Bool
  | [], _ => true
  | (k, v) :: es, fs =>
    (match fs.find? (fun f => eqv k f.1) with
      | some f => eqv v f.2
      | none => false)
    && eqvLookup es fs
termination_by structural v => v

/-- place by place, names and values -/
def eqvFields : List (String × Value) → List (String × Value) → Bool
  | [], [] => true
  | (a, x) :: xs, (b, y) :: ys => a == b && eqv x y && eqvFields xs ys
  | _, _ => false
termination_by structural v => v

end

instance : BEq Value := ⟨eqv⟩

theorem beq_eq (a b : Value) : (a == b) = eqv a b := rfl

theorem eqvWithin_eq_all (xs ys : List Value) :
    eqvWithin xs ys = xs.all fun x => ys.any fun y => x == y := by
  induction xs with
  | nil => rfl
  | cons x xs ih => rw [eqvWithin, ih]; rfl

/-! ## collections -/

/-- `x` at the end, unless an equal element is there -/
def addElement (xs : List Value) (x : Value) : List Value :=
  if xs.any (fun y => x == y) then xs else xs ++ [x]

/-- the elements without those equal to an earlier one -/
def firsts (xs : List Value) : List Value := xs.foldl addElement []

/-- a set holds the first of equal elements -/
def setOf (xs : List Value) : Value := set (firsts xs)

/-- a map holds a repeated key in its first place with its last value -/
def mapOf (es : List (Value × Value)) : Value := map (Entries.ofList es)

theorem firsts_nil : firsts [] = [] := rfl
theorem firsts_concat (xs : List Value) (x : Value) :
    firsts (xs ++ [x]) = addElement (firsts xs) x := by
  rw [firsts, List.foldl_append]
  rfl

/-- no two elements of the list are equal -/
def Pairwise (xs : List Value) : Prop := xs.Pairwise fun x y => (x == y) = false

instance (xs : List Value) : Decidable (Pairwise xs) :=
  inferInstanceAs (Decidable (xs.Pairwise fun x y => (x == y) = false))

mutual

/-- no set of the value has equal elements, no map equal keys -/
def Distinct : Value → Prop
  | list xs => DistinctItems xs
  | set xs => Pairwise xs ∧ DistinctItems xs
  | map es => Pairwise (es.map Prod.fst) ∧ DistinctEntries es
  | tuple xs => DistinctItems xs
  | udt _ fs => DistinctFields fs
  | _ => True

def DistinctItems : List Value → Prop
  | [] => True
  | x :: xs => Distinct x ∧ DistinctItems xs

def DistinctEntries : List (Value × Value) → Prop
  | [] => True
  | (k, v) :: es => Distinct k ∧ Distinct v ∧ DistinctEntries es

def DistinctFields : List (String × Value) → Prop
  | [] => True
  | (_, v) :: fs => Distinct v ∧ DistinctFields fs

end

mutual

def decDistinct : (v : Value) → Decidable v.Distinct
  | list xs => decDistinctItems xs
  | set xs => @instDecidableAnd _ _ (inferInstanceAs (Decidable (Pairwise xs))) (decDistinctItems xs)
  | map es =>
    @instDecidableAnd _ _ (inferInstanceAs (Decidable (Pairwise (es.map Prod.fst))))
      (decDistinctEntries es)
  | tuple xs => decDistinctItems xs
  | udt _ fs => decDistinctFields fs
  | null | unset | bool _ | tinyInt _ | smallInt _ | int _ | bigInt _ | counter _ | float _
  | double _ | text _ | blob _ | uuid _ | timeUuid _ | date _ | time _ | timestamp _ | inet _ =>
    .isTrue trivial
termination_by structural v => v

def decDistinctItems : (xs : List Value) → Decidable (DistinctItems xs)
  | [] => .isTrue trivial
  | x :: xs => @instDecidableAnd _ _ (decDistinct x) (decDistinctItems xs)
termination_by structural xs => xs

def decDistinctEntries : (es : List (Value × Value)) → Decidable (DistinctEntries es)
  | [] => .isTrue trivial
  | (k, v) :: es =>
    @instDecidableAnd _ _ (decDistinct k)
      (@instDecidableAnd _ _ (decDistinct v) (decDistinctEntries es))
termination_by structural es => es

def decDistinctFields : (fs : List (String × Value)) → Decidable (DistinctFields fs)
  | [] => .isTrue trivial
  | (_, v) :: fs => @instDecidableAnd _ _ (decDistinct v) (decDistinctFields fs)
termination_by structural fs => fs

end

instance (v : Value) : Decidable v.Distinct := decDistinct v

end Value

end Cql
