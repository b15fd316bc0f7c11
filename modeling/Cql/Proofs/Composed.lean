import Cql.Proofs.Equality
import Cql.Proofs.Writer
import Cql.Value.Within

/-!
# The writer against the composed cell

The writer grows one buffer, fills lengths in behind its back and cuts the buffer where something
fails.  Seen from outside, none of this is left: it appends the composed cell, or leaves the buffer
as it was and names what holds the first `unset`.  `Cell.body` puts the cells of the parts one
behind the other in the order of `Value.parts`, and `Cell.unsetWithin?` goes through them in this
order, so the first `unset` is the first in `Value.within`.

* `body_of_parts`      a body is a count, or nothing, and the cells of the parts;
* `unsetWithin?_eq`    the writer's search for an `unset` is a search in `Value.within`;
* `put_composed`       the writer of a cell and of a body against the composed ones.
-/

namespace Cql.Cell

open Value (firstUnsetOf? firstUnsetOf?_append firstUnset?_eq_none withPart withinItems
  withinEntries withinFields)

/-! ## the cells of the parts -/

/-- what stands before the cells of the parts: the count of a collection -/
def count : Value → Bytes
  | .list xs => Bytes.ofNat 4 xs.length
  | .set xs => Bytes.ofNat 4 xs.length
  | .map es => Bytes.ofNat 4 es.length
  | _ => []

theorem bodyOfParts_of_parts (holder : Holder) (xs : List Value) :
    bodyOfParts xs = (xs.map fun x => (holder, x)).flatMap fun p => encode p.2 := by
  rw [bodyOfParts_eq_flatMap, List.flatMap_map]

theorem bodyOfEntries_of_parts (es : List (Value × Value)) :
    bodyOfEntries es =
      (es.flatMap fun e => [(Holder.map, e.1), (Holder.map, e.2)]).flatMap
        fun p => encode p.2 := by
  induction es with
  | nil => rfl
  | cons e es ih =>
    obtain ⟨k, v⟩ := e
    rw [bodyOfEntries_cons, ih]
    rfl

theorem body_of_parts {v : Value} (h : v.plain = false) :
    body v = count v ++ v.parts.flatMap fun p => encode p.2 := by
  cases v with
  | list xs => exact congrArg (Bytes.ofNat 4 xs.length ++ ·) (bodyOfParts_of_parts .list xs)
  | set xs => exact congrArg (Bytes.ofNat 4 xs.length ++ ·) (bodyOfParts_of_parts .set xs)
  | map es => exact congrArg (Bytes.ofNat 4 es.length ++ ·) (bodyOfEntries_of_parts es)
  | tuple xs => exact bodyOfParts_of_parts .tuple xs
  | udt name fs =>
    show bodyOfFields fs = (fs.map fun f => (Holder.udt, f.2)).flatMap fun p => encode p.2
    rw [bodyOfFields_eq, bodyOfParts_eq_flatMap, List.flatMap_map, List.flatMap_map]
  | _ => cases h

/-! ## the first `unset` -/

/-- what `unsetWithin?` finds is the first `unset` -/
def Finds (v : Value) : Prop := unsetWithin? v = v.firstUnset?

theorem inPart_eq (holder : Holder) {v : Value} (h : Finds v) :
    inPart holder v (unsetWithin? v) = firstUnsetOf? (withPart (holder, v)) := by
  by_cases hu : v = .unset
  · subst hu
    rfl
  · have hf : v.isUnset = false := Bool.eq_false_iff.2 (mt Value.isUnset_iff.1 hu)
    rw [inPart_of_ne holder hu, h, firstUnsetOf?, withPart, List.find?_cons_of_neg (by simp [hf])]
    rfl

theorem unsetInParts?_find (holder : Holder) {xs : List Value} (h : ∀ x ∈ xs, Finds x) :
    unsetInParts? holder xs = firstUnsetOf? (withinItems holder xs) := by
  induction xs with
  | nil => rfl
  | cons x xs ih =>
    obtain ⟨hx, hxs⟩ := List.forall_mem_cons.1 h
    rw [unsetInParts?, inPart_eq holder hx, ih hxs]
    exact (firstUnsetOf?_append _ _).symm

theorem unsetInEntries?_find {es : List (Value × Value)} (h : ∀ e ∈ es, Finds e.1 ∧ Finds e.2) :
    unsetInEntries? es = firstUnsetOf? (withinEntries es) := by
  induction es with
  | nil => rfl
  | cons e es ih =>
    obtain ⟨k, v⟩ := e
    obtain ⟨he, hes⟩ := List.forall_mem_cons.1 h
    have hrest : (inPart .map v (unsetWithin? v)).or (unsetInEntries? es) =
        firstUnsetOf? (withPart (.map, v) ++ withinEntries es) := by
      rw [inPart_eq .map he.2, ih hes, firstUnsetOf?_append]
    rw [unsetInEntries?, hrest, inPart_eq .map he.1]
    exact (firstUnsetOf?_append _ _).symm

theorem withinFields_eq_items (fs : List (String × Value)) :
    withinFields fs = withinItems .udt (fs.map Prod.snd) := by
  rw [Value.withinFields_eq, Value.withinItems_eq, List.map_map]
  rfl

theorem unsetWithin?_eq (v : Value) : Finds v := by
  induction v with
  | list xs ih => exact unsetInParts?_find .list ih
  | set xs ih => exact unsetInParts?_find .set ih
  | map es ih => exact unsetInEntries?_find ih
  | tuple xs ih => exact unsetInParts?_find .tuple ih
  | udt name fs ih =>
    show unsetInFields? fs = firstUnsetOf? (withinFields fs)
    rw [unsetInFields?_eq, withinFields_eq_items]
    exact unsetInParts?_find .udt (List.forall_mem_map.2 ih)
  | _ => rfl

/-! ## the two encoders -/

theorem put_eq_match {v : Value} (hf : Fits v) (out : Buffer) :
    put v out =
      match v.firstUnset? with
      | none => .ok () (out ++ (encode v).toArray)
      | some holder => .error (.nestedUnset holder) out := by
  have hv : unsetWithin? v = v.firstUnset? := unsetWithin?_eq v
  rw [put_eq, fault?_of_fits hf, hv]
  cases v.firstUnset? <;> rfl

theorem put_isOk_iff {v : Value} (hf : Fits v) (out : Buffer) :
    (∃ out', put v out = .ok () out') ↔ ∀ p ∈ v.within, p.2 ≠ .unset := by
  rw [put_eq_match hf, ← firstUnset?_eq_none]
  cases v.firstUnset? with
  | none => exact ⟨fun _ => rfl, fun _ => ⟨_, rfl⟩⟩
  | some holder =>
    refine ⟨?_, fun h => nomatch h⟩
    intro h
    obtain ⟨out', ho⟩ := h
    cases ho

theorem body?_eq_match {v : Value} (hf : Fits v) (hn : v ≠ .null) (hu : v ≠ .unset) :
    body? v =
      match v.firstUnset? with
      | none => .ok (some (body v))
      | some holder => .error (.nestedUnset holder) := by
  have hv : unsetWithin? v = v.firstUnset? := unsetWithin?_eq v
  rw [body?_eq hn hu, faultWithin?_of_partsFit (partsFit_of_fits hf), hv]
  cases v.firstUnset? <;> rfl

/-- The writer succeeds on just those values that no `unset` stands inside of.  It appends the
composed cell then; otherwise it leaves the buffer as it was and names what holds the first `unset`.
The body alone is the composed body, or the same failure. -/
theorem put_composed {v : Value} (hf : Fits v) (out : Buffer) :
    ((∃ out', put v out = .ok () out') ↔ ∀ p ∈ v.within, p.2 ≠ .unset) ∧
    (put v out =
      match v.firstUnset? with
      | none => .ok () (out ++ (encode v).toArray)
      | some holder => .error (.nestedUnset holder) out) ∧
    (v.plain = false → body v = count v ++ v.parts.flatMap fun p => encode p.2) ∧
    body? v =
      match v with
      | .null => .ok none
      | .unset => .error (.nestedUnset .cell)
      | v =>
        match v.firstUnset? with
        | none => .ok (some (body v))
        | some holder => .error (.nestedUnset holder) := by
  refine ⟨put_isOk_iff hf out, put_eq_match hf out, body_of_parts, ?_⟩
  cases v with
  | null => rfl
  | unset => rfl
  | _ => exact body?_eq_match hf nofun nofun

/-- behind a byte that is there already: the first `unset` is the one in the tuple, which is a value
of the map, which is in the list; with `null` in its place everything is written -/
theorem put_composed_nested :
    let v : Value :=
      .list [.blob [7], .map [(.bool true, .tuple [.null, .unset])], .set [.unset]]
    let w : Value := .list [.blob [7], .map [(.bool true, .tuple [.null, .null])], .set []]
    (Fits v ∧ put v #[170] = .error (.nestedUnset .tuple) #[170] ∧
      body? v = .error (.nestedUnset .tuple)) ∧
    (Fits w ∧ put w #[170] = .ok () (#[170] ++ (encode w).toArray) ∧
      body? w = .ok (some (body w))) := by
  intro v w
  have hv : Fits v := by decide
  have hw : Fits w := by decide
  obtain ⟨_, hputv, _, hbodyv⟩ := put_composed hv #[170]
  obtain ⟨_, hputw, _, hbodyw⟩ := put_composed hw #[170]
  exact ⟨⟨hv, hputv, hbodyv⟩, hw, hputw, hbodyw⟩

end Cql.Cell
