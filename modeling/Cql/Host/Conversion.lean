import Mathlib.Data.List.Forall2
import Cql.Host.Binding
import Cql.Query.History

/-!
# Host data as values

Two readings of host data that know nothing of how it is bound.

* `Host.visits x`     all data within `x`, `x` itself last: the parts from the left, a key before its
                      value, and whatever has parts after them;
* `Host.fault? y`     what is wrong with `y` itself, its parts apart;
* `Host.FirstFault`   the first fault of data that is gone through;
* `Host.Mirrors x v`  `v` has the shape of `x`, and the part that belongs there in every place.
-/

namespace Cql

/-! ## whole numbers -/

/-- the widths that the database has a type for -/
def IntType.isKnown : IntType → Bool
  | i8 | i16 | i32 | i64 => true
  | _ => false

/-- the same number in the type of its width, in a 32-bit `int` if there is none -/
inductive HostInt.Kept : HostInt → Value → Prop
  | tinyInt {n : HostInt} {m : Int8} (width : n.type = .i8) (same : m.toInt = n.val) :
    Kept n (.tinyInt m)
  | smallInt {n : HostInt} {m : Int16} (width : n.type = .i16) (same : m.toInt = n.val) :
    Kept n (.smallInt m)
  | int {n : HostInt} {m : Int32} (width : n.type = .i32) (same : m.toInt = n.val) :
    Kept n (.int m)
  | bigInt {n : HostInt} {m : Int64} (width : n.type = .i64) (same : m.toInt = n.val) :
    Kept n (.bigInt m)
  | byDefault {n : HostInt} {m : Int32} (width : n.type.isKnown = false) (same : m.toInt = n.val) :
    Kept n (.int m)

namespace Host

/-! ## what is wrong -/

mutual

/-- all data within, whatever has parts after them -/
def visits : Host → List Host
  | some x => visits x ++ [some x]
  | list xs => visitsOfItems xs ++ [list xs]
  | set xs => visitsOfItems xs ++ [set xs]
  | map es => visitsOfEntries es ++ [map es]
  | tuple xs => visitsOfItems xs ++ [tuple xs]
  | record typeName names xs => visitsOfItems xs ++ [record typeName names xs]
  | x => [x]
termination_by structural x => x

def visitsOfItems : List Host → List Host
  | [] => []
  | x :: xs => visits x ++ visitsOfItems xs
termination_by structural xs => xs

def visitsOfEntries : List (Host × Host) → List Host
  | [] => []
  | (k, x) :: es => visits k ++ visits x ++ visitsOfEntries es
termination_by structural es => es

end

theorem visitsOfItems_eq (xs : List Host) : visitsOfItems xs = xs.flatMap visits := by
  induction xs with
  | nil => rfl
  | cons x xs ih => rw [visitsOfItems, ih, List.flatMap_cons]

theorem visitsOfEntries_eq (es : List (Host × Host)) :
    visitsOfEntries es = es.flatMap fun e => visits e.1 ++ visits e.2 := by
  induction es with
  | nil => rfl
  | cons e es ih => rw [visitsOfEntries, ih, List.flatMap_cons]

/-- a number that is too large, a record that does not give out what it declares -/
def fault? : Host → Option BindingError
  | int n =>
    if n.type.isKnown ∨ IntType.i32.Holds n.val then Option.none
    else Option.some (.integerOutOfRange n.val)
  | record typeName names xs =>
    if names.length = xs.length then Option.none
    else Option.some (.udtFieldCount typeName names.length xs.length)
  | _ => Option.none

/-- the first fault of data that is gone through from the left -/
def FirstFault (xs : List Host) (e : BindingError) : Prop :=
  ∃ front y back, xs = front ++ y :: back ∧ y.fault? = Option.some e ∧
    ∀ z ∈ front, z.fault? = Option.none

/-! ## what it becomes -/

/-- data without parts that is neither absent nor a number of any width -/
def plain? : Host → Option Value
  | value v => Option.some v
  | unset => Option.some .unset
  | unit => Option.some .null
  | ignored => Option.some .null
  | bool b => Option.some (.bool b)
  | single bits => Option.some (.float bits)
  | double bits => Option.some (.double bits)
  | char c => Option.some (.text (String.singleton c))
  | string s => Option.some (.text s)
  | blob bytes => Option.some (.blob bytes)
  | uuid u => Option.some (.uuid u)
  | timeUuid u => Option.some (.timeUuid u)
  | inet a => Option.some (.inet a)
  | date d => Option.some (.date d)
  | time t => Option.some (.time t)
  | timestamp t => Option.some (.timestamp t)
  | tinyInt n => Option.some (.tinyInt n)
  | smallInt n => Option.some (.smallInt n)
  | bigInt n => Option.some (.bigInt n)
  | counter n => Option.some (.counter n)
  | variant _ name => Option.some (.text name)
  | int _ | none | some _ | list _ | set _ | map _ | tuple _ | record _ _ _ => Option.none

/-- a value of the shape of the data.  A set has the first of equal elements only; a map has a
repeated key in its first place with its last value -/
inductive Mirrors : Host → Value → Prop
  | plain {x : Host} {v : Value} (h : x.plain? = Option.some v) : Mirrors x v
  | number {n : HostInt} {v : Value} (h : n.Kept v) : Mirrors (int n) v
  | absent : Mirrors none .null
  | present {x : Host} {v : Value} (h : Mirrors x v) : Mirrors (some x) v
  | list {xs : List Host} {vs : List Value} (h : List.Forall₂ Mirrors xs vs) :
    Mirrors (list xs) (.list vs)
  | set {xs : List Host} {vs : List Value} (h : List.Forall₂ Mirrors xs vs) :
    Mirrors (set xs) (.set vs.eraseDups)
  | map {es : List (Host × Host)} {us : List (Value × Value)}
    (keys : List.Forall₂ Mirrors (es.map Prod.fst) (us.map Prod.fst))
    (values : List.Forall₂ Mirrors (es.map Prod.snd) (us.map Prod.snd)) :
    Mirrors (map es) (.map (Entries.settled us))
  | tuple {xs : List Host} {vs : List Value} (h : List.Forall₂ Mirrors xs vs) :
    Mirrors (tuple xs) (.tuple vs)
  | record {typeName : String} {names : List String} {xs : List Host} {vs : List Value}
    (count : names.length = vs.length) (h : List.Forall₂ Mirrors xs vs) :
    Mirrors (record typeName names xs) (.udt typeName (names.zip vs))

end Host

end Cql
