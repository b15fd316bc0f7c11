import Mathlib.Data.List.Forall2
import Cql.Host.Fitting
import Cql.Host.Source

/-!
# Whole numbers and their sources

Data that is made of whole numbers alone can be compared with the source that it was read from:
numbers with numbers, elements with elements, and what is absent with what is absent.

* `Shape.Whole`                  the shapes of such data;
* `Source.whole?`, `parts?`, …   what a source carries;
* `Host.Exact`                   data that has the numbers and the parts of its source;
* `Shape.Refuses`                a source from which nothing of a shape can be had.
-/

namespace Cql

/-- the shapes made of whole numbers; a tuple has a place at least -/
inductive Shape.Whole : Shape → Prop
  | int (t : IntType) : Whole (.int t)
  | option {s : Shape} (h : Whole s) : Whole (.option s)
  | list {s : Shape} (h : Whole s) : Whole (.list s)
  | tuple {ss : List Shape} (places : ss ≠ []) (h : ∀ s ∈ ss, Whole s) : Whole (.tuple ss)

namespace Source

/-- the number that a value or a byte is -/
def whole? : Source → Option Int
  | value (.tinyInt n) => some n.toInt
  | value (.smallInt n) => some n.toInt
  | value (.int n) => some n.toInt
  | value (.bigInt n) => some n.toInt
  | value (.counter n) => some n.toInt
  | value (.date d) => some d.raw.toNat
  | value (.time t) => some t.nanos.toInt
  | value (.timestamp t) => some t.millis.toInt
  | byte b => some b.toNat
  | _ => none

/-- the items of a sequence -/
def parts? : Source → Option (List Source)
  | value (.list vs) => some (vs.map value)
  | value (.set vs) => some (vs.map value)
  | value (.tuple vs) => some (vs.map value)
  | column s v => some [name s, value v]
  | row columns => some (columns.map fun c => column c.1 c.2)
  | _ => none

/-- the items of a sequence, or the bytes of a blob -/
def elements? : Source → Option (List Source)
  | value (.blob bs) => some (bs.map byte)
  | x => x.parts?

def isAbsent : Source → Bool
  | value .null | value .unset => true
  | _ => false

end Source

/-- the data has the numbers and the parts of its source -/
inductive Host.Exact : Host → Source → Prop
  | int {n : HostInt} {x : Source} (h : x.whole? = Option.some n.val) : Exact (.int n) x
  | none {x : Source} (absent : x.isAbsent = true) : Exact .none x
  | some {a : Host} {v : Value} (present : (Source.value v).isAbsent = false)
      (h : Exact a (.value v)) : Exact (.some a) (.value v)
  | list {as : List Host} {x : Source} {items : List Source} (hx : x.elements? = Option.some items)
      (h : List.Forall₂ Exact as items) : Exact (.list as) x
  | tuple {as : List Host} {x : Source} {items : List Source} (hx : x.parts? = Option.some items)
      (h : List.Forall₂ Exact as items) : Exact (.tuple as) x

/-- nothing of the shape can be had from the source -/
inductive Shape.Refuses : Shape → Source → Prop
  | width {t : IntType} {x : Source} {n : Int} (hx : x.whole? = some n) (wide : ¬t.Holds n) :
      Refuses (.int t) x
  | noNumber {t : IntType} {x : Source} (hx : x.whole? = none) : Refuses (.int t) x
  | present {s : Shape} {v : Value} (present : (Source.value v).isAbsent = false)
      (h : Refuses s (.value v)) : Refuses (.option s) (.value v)
  | noValue {s : Shape} {x : Source} (hx : ∀ v, x ≠ .value v) : Refuses (.option s) x
  | element {s : Shape} {x : Source} {items : List Source} (hx : x.elements? = some items)
      {item : Source} (mem : item ∈ items) (h : Refuses s item) : Refuses (.list s) x
  | noElements {s : Shape} {x : Source} (hx : x.elements? = none) : Refuses (.list s) x
  | place {ss : List Shape} {x : Source} {items : List Source} (hx : x.parts? = some items)
      {s : Shape} {item : Source} (mem : (s, item) ∈ ss.zip items) (h : Refuses s item) :
      Refuses (.tuple ss) x
  | arity {ss : List Shape} {x : Source} {items : List Source} (hx : x.parts? = some items)
      (other : items.length ≠ ss.length) : Refuses (.tuple ss) x
  | noParts {ss : List Shape} {x : Source} (hx : x.parts? = none) : Refuses (.tuple ss) x

end Cql
