import Cql.Error.Causes
import Cql.Value
import Mathlib.Algebra.GroupWithZero.Nat

/-!
# What stands inside of a value

The parts of a value stand in it in the order in which their cells are written, each held by a list,
a set, a map, a tuple or a record; a map has the key of an entry before its value.  `within` goes on
inside of them: it lists whatever stands in a value at any depth, each with what holds it, and a
part before what is inside of it.

* `Value.parts v`         the parts of `v`, and their holders;
* `Value.within v`        the parts, the parts of these, and so on;
* `Value.all v`           the value itself before them;
* `Value.firstUnset? v`   what holds the first `unset` inside of `v`;
* `Value.nodes v`         of how many values `v` is made, itself among them;
* `Value.fields? v`       the fields of a tuple or a record.

The recursion goes along the constructors; `within_eq` is how later proofs meet it.
-/

namespace Cql.Value

/-! ## parts -/

def parts : Value → List (Holder × Value)
  | list xs => xs.map fun x => (.list, x)
  | set xs => xs.map fun x => (.set, x)
  | map es => es.flatMap fun e => [(.map, e.1), (.map, e.2)]
  | tuple xs => xs.map fun x => (.tuple, x)
  | udt _ fs => fs.map fun f => (.udt, f.2)
  | _ => []

theorem entry_mem_parts {es : List (Value × Value)} {e : Value × Value} (h : e ∈ es) :
    (Holder.map, e.1) ∈ (map es).parts ∧ (Holder.map, e.2) ∈ (map es).parts :=
  ⟨List.mem_flatMap.2 ⟨e, h, List.mem_cons_self⟩,
    List.mem_flatMap.2 ⟨e, h, List.mem_cons_of_mem _ List.mem_cons_self⟩⟩

mutual

/-- whatever stands inside of a value, each before what is inside of it -/
def within : Value → List (Holder × Value)
  | list xs => withinItems .list xs
  | set xs => withinItems .set xs
  | map es => withinEntries es
  | tuple xs => withinItems .tuple xs
  | udt _ fs => withinFields fs
  | _ => []
termination_by structural v => v

def withinItems (holder : Holder) : List Value → List (Holder × Value)
  | [] => []
  | x :: xs => (holder, x) :: within x ++ withinItems holder xs
termination_by structural xs => xs

def withinEntries : List (Value × Value) → List (Holder × Value)
  | [] => []
  | (k, v) :: es => (.map, k) :: within k ++ ((.map, v) :: within v ++ withinEntries es)
termination_by structural es => es

def withinFields : List (String × Value) → List (Holder × Value)
  | [] => []
  | (_, v) :: fs => (.udt, v) :: within v ++ withinFields fs
termination_by structural fs => fs

end

/-- a part, and what is inside of it -/
def withPart (p : Holder × Value) : List (Holder × Value) := p :: within p.2

theorem withinItems_eq (holder : Holder) (xs : List Value) :
    withinItems holder xs = (xs.map fun x => (holder, x)).flatMap withPart := by
  induction xs with
  | nil => rfl
  | cons x xs ih => rw [withinItems, ih, List.map_cons, List.flatMap_cons, withPart]

theorem withinEntries_eq (es : List (Value × Value)) :
    withinEntries es =
      (es.flatMap fun e => [(Holder.map, e.1), (Holder.map, e.2)]).flatMap withPart := by
  induction es with
  | nil => rfl
  | cons e es ih =>
    obtain ⟨k, v⟩ := e
    rw [withinEntries, ih]
    rfl

theorem withinFields_eq (fs : List (String × Value)) :
    withinFields fs = (fs.map fun f => (Holder.udt, f.2)).flatMap withPart := by
  induction fs with
  | nil => rfl
  | cons f fs ih =>
    obtain ⟨name, v⟩ := f
    rw [withinFields, ih, List.map_cons, List.flatMap_cons, withPart]

/-- inside of a value stand its parts, each before what is inside of it -/
theorem within_eq (v : Value) : v.within = v.parts.flatMap withPart := by
  cases v with
  | list xs => exact withinItems_eq .list xs
  | set xs => exact withinItems_eq .set xs
  | map es => exact withinEntries_eq es
  | tuple xs => exact withinItems_eq .tuple xs
  | udt name fs => exact withinFields_eq fs
  | _ => rfl

/-- a value and whatever stands inside of it -/
def all (v : Value) : List Value := v :: v.within.map Prod.snd

theorem all_eq (v : Value) : v.all = v :: v.parts.flatMap fun p => p.2.all := by
  rw [all, within_eq, List.map_flatMap]
  rfl

theorem mem_all_of_part {v w : Value} {p : Holder × Value} (hp : p ∈ v.parts) (hw : w ∈ p.2.all) :
    w ∈ v.all := by
  rw [all_eq]
  exact List.mem_cons_of_mem _ (List.mem_flatMap.2 ⟨p, hp, hw⟩)

/-! ## the first `unset` -/

/-- what holds the first `unset` of a list of parts -/
def firstUnsetOf? (ps : List (Holder × Value)) : Option Holder :=
  (ps.find? fun p => p.2.isUnset).map Prod.fst

def firstUnset? (v : Value) : Option Holder := firstUnsetOf? v.within

theorem firstUnsetOf?_append (ps qs : List (Holder × Value)) :
    firstUnsetOf? (ps ++ qs) = (firstUnsetOf? ps).or (firstUnsetOf? qs) := by
  rw [firstUnsetOf?, List.find?_append, Option.map_or]
  rfl

theorem isUnset_iff {v : Value} : v.isUnset = true ↔ v = unset := by
  cases v <;> simp [isUnset]

theorem firstUnset?_eq_none {v : Value} :
    v.firstUnset? = none ↔ ∀ p ∈ v.within, p.2 ≠ unset := by
  rw [firstUnset?, firstUnsetOf?, Option.map_eq_none_iff, List.find?_eq_none]
  simp only [isUnset_iff, ne_eq]

/-! ## counting -/

def nodes (v : Value) : Nat := v.within.length + 1

/-- the number of values in all of a list -/
def nodesOf (xs : List Value) : Nat := (xs.map nodes).sum

theorem nodesOf_nil : nodesOf [] = 0 := rfl
theorem nodesOf_cons (x : Value) (xs : List Value) :
    nodesOf (x :: xs) = x.nodes + nodesOf xs := by
  rw [nodesOf, List.map_cons, List.sum_cons]
  rfl

theorem nodesOf_append (xs ys : List Value) : nodesOf (xs ++ ys) = nodesOf xs + nodesOf ys := by
  rw [nodesOf, List.map_append, List.sum_append]
  rfl

theorem map_snd_held (holder : Holder) (xs : List Value) :
    (xs.map fun x => (holder, x)).map Prod.snd = xs := by
  rw [List.map_map]
  exact List.map_id xs

/-- a value is one more than its parts -/
theorem nodes_eq (v : Value) : v.nodes = nodesOf (v.parts.map Prod.snd) + 1 := by
  have hpart : ∀ p : Holder × Value, (withPart p).length = p.2.nodes := fun _ => rfl
  rw [nodes, within_eq, List.length_flatMap, nodesOf, List.map_map]
  simp only [hpart]
  rfl

/-! ## fields -/

def fields? : Value → Option (List Value)
  | tuple xs => some xs
  | udt _ fs => some (fs.map Prod.snd)
  | _ => none

end Cql.Value
