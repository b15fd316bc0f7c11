import Mathlib.Data.List.Forall2
import Cql.Host.Binding
import Cql.Host.Shape

/-!
# Data of a shape

What a program may hold of a shape, and what becomes of it when it is bound.

* `Shape.Bindable`     the shapes of data that is both bound and read.  An optional datum is of a
                       shape that is not optional itself, and what is compared (an element of a set,
                       the key of a map) has no float in it;
* `Shape.Holds`        the data of a shape.  A set and a map stand here in ascending order;
* `Host.Rearranges`    the same data as it may come to be bound: a hashed collection is walked in no
                       order of its own, and a record may be bound under another type name;
* `Host.Kept`          a value that stands for data part for part, with nothing lost.
-/

namespace Cql

/-! ## shapes -/

/-- the shapes of data that can be bound and read; `key` is set where the data is compared -/
inductive Shape.Bindable : Bool → Shape → Prop
  | bool {key : Bool} : Bindable key .bool
  | int {key : Bool} (t : IntType) : Bindable key (.int t)
  | single : Bindable false .single
  | double : Bindable false .double
  | string {key : Bool} : Bindable key .string
  | uuid {key : Bool} : Bindable key .uuid
  | inet {key : Bool} : Bindable key .inet
  | inetOf {key : Bool} (f : Inet.Family) : Bindable key (.inetOf f)
  | wrapped {key : Bool} {w : Wrapper} (exact : key = true → w ≠ .double) :
      Bindable key (.wrapped w)
  | option {key : Bool} {s : Shape} (plain : s.isOption = false) (h : Bindable key s) :
      Bindable key (.option s)
  | list {key : Bool} {s : Shape} (h : Bindable key s) : Bindable key (.list s)
  | set {key : Bool} {s : Shape} (h : Bindable true s) : Bindable key (.set s)
  | map {key : Bool} {k v : Shape} (hk : Bindable true k) (hv : Bindable key v) :
      Bindable key (.map k v)
  | tuple {key : Bool} {ss : List Shape} (h : ∀ s ∈ ss, Bindable key s) : Bindable key (.tuple ss)
  | record {key : Bool} {typeName : String} {style : RecordStyle} {fields : List Shape.Field}
      (names : (fields.map FieldOf.name).Nodup) (h : ∀ f ∈ fields, Bindable key f.shape) :
      Bindable key (.record typeName style fields)

namespace Host

/-- a set in its order -/
def Ascending (xs : List Host) : Prop := xs.Pairwise fun a b => order a b = .lt

end Host

/-- the data of a shape, as it is read -/
inductive Shape.Holds : Shape → Host → Prop
  | bool (b : Bool) : Holds .bool (.bool b)
  | int (n : HostInt) : Holds (.int n.type) (.int n)
  | single (bits : UInt32) : Holds .single (.single bits)
  | double (bits : UInt64) : Holds .double (.double bits)
  | string (s : String) : Holds .string (.string s)
  | uuid (u : Uuid) : Holds .uuid (.uuid u)
  | inet (a : Inet) : Holds .inet (.inet a)
  | inetOf (a : Inet) : Holds (.inetOf a.family) (.inet a)
  | tinyInt (n : Int8) : Holds (.wrapped .tinyInt) (.tinyInt n)
  | smallInt (n : Int16) : Holds (.wrapped .smallInt) (.smallInt n)
  | bigInt (n : Int64) : Holds (.wrapped .bigInt) (.bigInt n)
  | counter (n : Int64) : Holds (.wrapped .counter) (.counter n)
  | wrappedDouble (bits : UInt64) : Holds (.wrapped .double) (.double bits)
  | date (d : Date) : Holds (.wrapped .date) (.date d)
  | time (t : Time) : Holds (.wrapped .time) (.time t)
  | timestamp (t : Timestamp) : Holds (.wrapped .timestamp) (.timestamp t)
  | timeUuid (u : Uuid) : Holds (.wrapped .timeUuid) (.timeUuid u)
  | blob (bytes : Bytes) : Holds (.wrapped .blob) (.blob bytes)
  | none {s : Shape} : Holds (.option s) .none
  | some {s : Shape} {x : Host} (h : Holds s x) : Holds (.option s) (.some x)
  | list {s : Shape} {xs : List Host} (h : ∀ x ∈ xs, Holds s x) : Holds (.list s) (.list xs)
  | set {s : Shape} {xs : List Host} (h : ∀ x ∈ xs, Holds s x) (ascending : Host.Ascending xs) :
      Holds (.set s) (.set xs)
  | map {k v : Shape} {es : List (Host × Host)} (hk : ∀ e ∈ es, Holds k e.1)
      (hv : ∀ e ∈ es, Holds v e.2) (ascending : Host.Ascending (es.map Prod.fst)) :
      Holds (.map k v) (.map es)
  | tuple {ss : List Shape} {xs : List Host} (h : List.Forall₂ Holds ss xs) :
      Holds (.tuple ss) (.tuple xs)
  | record {typeName : String} {style : RecordStyle} {fields : List Shape.Field} {xs : List Host}
      (h : List.Forall₂ Holds (fields.map FieldOf.shape) xs) :
      Holds (.record typeName style fields) (.record typeName (fields.map FieldOf.name) xs)

namespace Host

/-- data without parts -/
def isScalar : Host → Bool
  | none | some _ | list _ | set _ | map _ | tuple _ | record _ _ _ => false
  | _ => true

/-! ## as it comes to be bound -/

/-- `y` is `x` with the elements of its sets and the entries of its maps in any order -/
inductive Rearranges : Host → Host → Prop
  | scalar {x : Host} (single : x.isScalar) : Rearranges x x
  | none : Rearranges none none
  | some {y x : Host} (h : Rearranges y x) : Rearranges (some y) (some x)
  | list {ys xs : List Host} (h : List.Forall₂ Rearranges ys xs) : Rearranges (list ys) (list xs)
  | set {ys zs xs : List Host} (h : List.Forall₂ Rearranges ys zs) (perm : zs.Perm xs) :
      Rearranges (set ys) (set xs)
  | map {fs gs es : List (Host × Host)}
      (hk : List.Forall₂ Rearranges (fs.map Prod.fst) (gs.map Prod.fst))
      (hv : List.Forall₂ Rearranges (fs.map Prod.snd) (gs.map Prod.snd)) (perm : gs.Perm es) :
      Rearranges (map fs) (map es)
  | tuple {ys xs : List Host} (h : List.Forall₂ Rearranges ys xs) :
      Rearranges (tuple ys) (tuple xs)
  | record {typeName typeName' : String} {names : List String} {ys xs : List Host}
      (h : List.Forall₂ Rearranges ys xs) :
      Rearranges (record typeName' names ys) (record typeName names xs)

/-! ## as a value -/

/-- the value stands for the data part for part, a set and a map in any order -/
inductive Kept : Host → Value → Prop
  | scalar {x : Host} {v : Value} (single : x.isScalar) (h : x.bind = .ok v) : Kept x v
  | none : Kept none .null
  | some {x : Host} {v : Value} (h : Kept x v) : Kept (some x) v
  | list {xs : List Host} {vs : List Value} (h : List.Forall₂ Kept xs vs) :
      Kept (list xs) (.list vs)
  | set {xs zs : List Host} {vs : List Value} (perm : zs.Perm xs) (h : List.Forall₂ Kept zs vs) :
      Kept (set xs) (.set vs)
  | map {es gs : List (Host × Host)} {us : List (Value × Value)} (perm : gs.Perm es)
      (hk : List.Forall₂ Kept (gs.map Prod.fst) (us.map Prod.fst))
      (hv : List.Forall₂ Kept (gs.map Prod.snd) (us.map Prod.snd)) : Kept (map es) (.map us)
  | tuple {xs : List Host} {vs : List Value} (h : List.Forall₂ Kept xs vs) :
      Kept (tuple xs) (.tuple vs)
  | record {typeName typeName' : String} {names : List String} {xs : List Host}
      {vs : List Value} (h : List.Forall₂ Kept xs vs) :
      Kept (record typeName names xs) (.udt typeName' (names.zip vs))

end Host

end Cql
