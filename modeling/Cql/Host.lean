import Cql.Host.Number
import Cql.Value

/-!
# Host data

`Host` is what a program of the host binds to a statement and what it reads back from a result: the
host's own scalars, the wrappers that choose a width or a kind, optional data, collections, tuples
and records.

A sorted collection keeps its elements ascending, a hashed or listed one in the order of their first
appearance; a later equal key replaces the value of the earlier one in both.  `Host.order` is the
order of sorted collections: numbers by size, text by code points, sequences from the left.
-/

namespace Cql

inductive Host where
  | value (v : Value)
  | unset
  | unit
  /-- something that was looked at by nobody -/
  | ignored
  | bool (b : Bool)
  | int (n : HostInt)
  | single (bits : UInt32)
  | double (bits : UInt64)
  | char (c : Char)
  | string (s : String)
  | blob (bytes : Bytes)
  | uuid (u : Uuid)
  | timeUuid (u : Uuid)
  | inet (a : Inet)
  | date (d : Date)
  | time (t : Time)
  | timestamp (t : Timestamp)
  | tinyInt (n : Int8)
  | smallInt (n : Int16)
  | bigInt (n : Int64)
  | counter (n : Int64)
  | variant (typeName name : String)
  | none
  | some (x : Host)
  | list (items : List Host)
  | set (elements : List Host)
  | map (entries : List (Host × Host))
  | tuple (fields : List Host)
  /-- declared field names, and the fields that it gives out -/
  | record (typeName : String) (names : List String) (fields : List Host)

namespace Host

instance : Inhabited Host := ⟨unit⟩

/-! ## order -/

/-- the first difference decides -/
def thenBy (a b : Ordering) : Ordering :=
  match a with
  | .eq => b
  | _ => a

def compareInt (a b : Int) : Ordering := if a < b then .lt else if a = b then .eq else .gt

/-- from the left; a sequence comes before those that go on -/
def compareNats : List Nat → List Nat → Ordering
  | [], [] => .eq
  | [], _ :: _ => .lt
  | _ :: _, [] => .gt
  | a :: as, b :: bs => thenBy (compareInt a b) (compareNats as bs)

/-- by code points from the left -/
def compareText (a b : String) : Ordering :=
  compareNats (a.toList.map Char.toNat) (b.toList.map Char.toNat)

mutual

/-- the order of sorted collections, on data of one type -/
def order : Host → Host → Ordering
  | bool a, bool b => compareInt a.toNat b.toNat
  | int a, int b => compareInt a.val b.val
  | char a, char b => compareInt a.toNat b.toNat
  | string a, string b => compareText a b
  | blob a, blob b => compareNats (a.map UInt8.toNat) (b.map UInt8.toNat)
  | uuid a, uuid b => compareInt a.bits.toNat b.bits.toNat
  | timeUuid a, timeUuid b => compareInt a.bits.toNat b.bits.toNat
  | date a, date b => compareInt a.raw.toNat b.raw.toNat
  | time a, time b => compareInt a.nanos.toInt b.nanos.toInt
  | timestamp a, timestamp b => compareInt a.millis.toInt b.millis.toInt
  | tinyInt a, tinyInt b => compareInt a.toInt b.toInt
  | smallInt a, smallInt b => compareInt a.toInt b.toInt
  | bigInt a, bigInt b => compareInt a.toInt b.toInt
  | counter a, counter b => compareInt a.toInt b.toInt
  | inet (.v4 a), inet (.v4 b) => compareInt a.toNat b.toNat
  | inet (.v6 a), inet (.v6 b) => compareInt a.toNat b.toNat
  | inet (.v4 _), inet (.v6 _) => .lt
  | inet (.v6 _), inet (.v4 _) => .gt
  | variant _ a, variant _ b => compareText a b
  | none, none => .eq
  | none, some _ => .lt
  | some _, none => .gt
  | some a, some b => order a b
  | list as, list bs => orderItems as bs
  | set as, set bs => orderItems as bs
  | tuple as, tuple bs => orderItems as bs
  | record _ _ as, record _ _ bs => orderItems as bs
  | map as, map bs => orderEntries as bs
  | _, _ => .eq
termination_by structural x => x

def orderItems : List Host → List Host → Ordering
  | [], [] => .eq
  | [], _ :: _ => .lt
  | _ :: _, [] => .gt
  | a :: as, b :: bs => thenBy (order a b) (orderItems as bs)
termination_by structural xs => xs

def orderEntries : List (Host × Host) → List (Host × Host) → Ordering
  | [], [] => .eq
  | [], _ :: _ => .lt
  | _ :: _, [] => .gt
  | (k, v) :: as, (l, w) :: bs => thenBy (order k l) (thenBy (order v w) (orderEntries as bs))
termination_by structural xs => xs

end

instance : BEq Host := ⟨fun a b => order a b == .eq⟩

/-! ## collections -/

/-- an entry in its place among ascending keys; an equal key keeps its place and takes the value -/
def insertSorted (k v : Host) : List (Host × Host) → List (Host × Host)
  | [] => [(k, v)]
  | (l, w) :: es =>
    match order k l with
    | .lt => (k, v) :: (l, w) :: es
    | .eq => (l, v) :: es
    | .gt => (l, w) :: insertSorted k v es

def sortedEntries (es : List (Host × Host)) : List (Host × Host) :=
  es.foldl (fun acc e => insertSorted e.1 e.2 acc) []

def sortedSet (xs : List Host) : Host :=
  set ((sortedEntries (xs.map fun x => (x, x))).map Prod.fst)

def sortedMap (es : List (Host × Host)) : Host := map (sortedEntries es)

/-- a set in the order of first appearance -/
def listedSet (xs : List Host) : Host := set (Entries.ofList (xs.map fun x => (x, x))).keys

/-- a map in the order of the keys' first appearance -/
def listedMap (es : List (Host × Host)) : Host := map (Entries.ofList es)

/-- what a collection gives out one after the other; a map gives out pairs -/
def items? : Host → Option (List Host)
  | list xs => Option.some xs
  | set xs => Option.some xs
  | map es => Option.some (es.map fun e => tuple [e.1, e.2])
  | none => Option.some []
  | some x => Option.some [x]
  | _ => Option.none

/-- a collection that is bound as a list, whatever it is -/
def asList (x : Host) : Host := (x.items?.map list).getD x

/-- a collection that is bound as a set, whatever it is -/
def asSet (x : Host) : Host := (x.items?.map set).getD x

end Host

end Cql
