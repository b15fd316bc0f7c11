import Cql.ColumnType.Parts
import Cql.Proofs.Collections
import Cql.Proofs.Framing
import Cql.Value.Within
import Mathlib.Algebra.Order.BigOperators.Group.List

/-!
# A decoded value is no greater than its bytes

A count is not believed: every part of a value is paid for by the bytes of its cell, which are four
at least.  Only the fields that a tuple or a record leaves out cost nothing, and of these there are
no more than the type declares.  So the values that are made for a body are bounded by its length,
times what one tuple or record may add.

* `nodes_setOf_le`, `nodes_mapOf_le`   leaving out equal elements and keys makes nothing more;
* `Bounded a t`                        a body of type `t` pays for its value, `a` added to each byte;
* `bounded`                            every type is bounded by its widest tuple or record;
* `decode_nodes_le`                    the bound for what is read, and for the counts.
-/

namespace Cql

namespace Value

/-! ## counting by kind -/

theorem nodes_list (xs : List Value) : (list xs).nodes = nodesOf xs + 1 := by
  rw [nodes_eq, parts, map_snd_held]

theorem nodes_set (xs : List Value) : (set xs).nodes = nodesOf xs + 1 := by
  rw [nodes_eq, parts, map_snd_held]

theorem nodes_tuple (xs : List Value) : (tuple xs).nodes = nodesOf xs + 1 := by
  rw [nodes_eq, parts, map_snd_held]

theorem nodes_udt (name : String) (fs : List (String × Value)) :
    (udt name fs).nodes = nodesOf (fs.map Prod.snd) + 1 := by
  rw [nodes_eq, parts, List.map_map]
  rfl

/-- the number of values in all keys and values of a list of entries -/
def nodesOfEntries (es : List (Value × Value)) : Nat :=
  (es.map fun e => e.1.nodes + e.2.nodes).sum

theorem nodesOfEntries_cons (e : Value × Value) (es : List (Value × Value)) :
    nodesOfEntries (e :: es) = e.1.nodes + e.2.nodes + nodesOfEntries es := by
  rw [nodesOfEntries, List.map_cons, List.sum_cons]
  rfl

theorem nodes_map (es : List (Value × Value)) : (map es).nodes = nodesOfEntries es + 1 := by
  rw [nodes_eq, parts]
  congr 1
  induction es with
  | nil => rfl
  | cons e es ih =>
    rw [List.flatMap_cons, List.map_append, nodesOf_append, ih, nodesOfEntries_cons]
    rfl

/-! ## sets and maps as they are made -/

theorem nodes_setOf_le (xs : List Value) : (setOf xs).nodes ≤ nodesOf xs + 1 := by
  have hsum : nodesOf (firsts xs) ≤ nodesOf xs :=
    ((firsts_sublist xs).map nodes).sum_le_sum fun _ _ => Nat.zero_le _
  rw [setOf, nodes_set]
  omega

theorem nodesOfEntries_put_le (k v : Value) (es : List (Value × Value)) :
    nodesOfEntries (Entries.put k v es) ≤ nodesOfEntries es + (k.nodes + v.nodes) := by
  induction es with
  | nil =>
    rw [Entries.put, nodesOfEntries_cons]
    exact Nat.le_of_eq (Nat.add_comm _ _)
  | cons e es ih =>
    obtain ⟨key, value⟩ := e
    rw [Entries.put]
    split
    · -- the value that stood there gives way
      simp only [nodesOfEntries_cons]
      omega
    · simp only [nodesOfEntries_cons]
      omega

theorem nodes_mapOf_le (es : List (Value × Value)) : (mapOf es).nodes ≤ nodesOfEntries es + 1 := by
  rw [mapOf, nodes_map]
  refine Nat.succ_le_succ ?_
  induction es using List.reverseRecOn with
  | nil => exact Nat.le_refl _
  | append_singleton es e ih =>
    have hput := nodesOfEntries_put_le e.1 e.2 (Entries.ofList es)
    have hsum : nodesOfEntries (es ++ [e]) = nodesOfEntries es + (e.1.nodes + e.2.nodes) := by
      rw [nodesOfEntries, List.map_append, List.sum_append, List.map_singleton, List.sum_singleton]
      rfl
    rw [Entries.ofList_concat, hsum]
    omega

theorem length_ofList_le (es : List (Value × Value)) : (Entries.ofList es).length ≤ es.length := by
  have hkeys : (Entries.ofList es).map Prod.fst = firsts (es.map Prod.fst) := keys_ofList es
  have hl := (firsts_sublist (es.map Prod.fst)).length_le
  rwa [← hkeys, List.length_map, List.length_map] at hl

end Value

namespace Cell

open ColumnType (widest widestOf widest_le_of_mem widestNamed_eq)
open Value (nodesOf nodesOf_nil nodesOf_cons nodesOfEntries nodesOfEntries_cons)

/-! ## bytes pay for values -/

section
variable {a : Nat}

/-- a body of type `t` pays for its value, with `1 + a` for each byte and for itself -/
def Bounded (a : Nat) (t : ColumnType) : Prop :=
  ∀ bs v, Denotes t bs v → v.nodes ≤ (1 + a) * (bs.length + 1)

theorem nodes_nullValue (t : ColumnType) : (nullValue t).nodes = 1 := by
  cases t <;> rfl

theorem one_le_paid (a n : Nat) : 1 ≤ (1 + a) * (n + 1) :=
  Nat.mul_pos (Nat.add_pos_left Nat.one_pos a) (Nat.succ_pos n)

theorem nodes_le_of_cell {t : ColumnType} (ht : Bounded a t) {cell : Bytes} {v : Value}
    (h : DenotesCell t cell v) : v.nodes ≤ (1 + a) * cell.length := by
  cases h with
  | null =>
    rw [nodes_nullValue]
    exact one_le_paid a 3
  | @body _ bs _ hb hl =>
    have hbody := ht bs v hb
    have hlen : bs.length + 1 ≤ (Bytes.ofNat 4 bs.length ++ bs).length := by
      rw [List.length_append, Bytes.length_ofNat]
      omega
    exact Nat.le_trans hbody (Nat.mul_le_mul_left (1 + a) hlen)

theorem nodesOf_le_of_parts {t : ColumnType} (ht : Bounded a t) {bs : Bytes} {xs : List Value}
    (h : Parts t bs xs) : nodesOf xs ≤ (1 + a) * bs.length := by
  induction xs generalizing bs with
  | nil =>
    rw [nodesOf_nil]
    exact Nat.zero_le _
  | cons x xs ih =>
    cases h with
    | cons hc hs =>
      have hx := nodes_le_of_cell ht hc
      have hxs := ih hs
      rw [nodesOf_cons, List.length_append, Nat.mul_add]
      exact Nat.add_le_add hx hxs

theorem nodesOfEntries_le_of_pairs {k w : ColumnType} (hk : Bounded a k) (hw : Bounded a w)
    {bs : Bytes} {es : List (Value × Value)} (h : Pairs k w bs es) :
    nodesOfEntries es ≤ (1 + a) * bs.length := by
  induction es generalizing bs with
  | nil => exact Nat.zero_le _
  | cons e es ih =>
    cases h with
    | cons hx hy hs =>
      have hkey := nodes_le_of_cell hk hx
      have hvalue := nodes_le_of_cell hw hy
      have hes := ih hs
      rw [nodesOfEntries_cons, List.length_append, List.length_append, Nat.mul_add, Nat.mul_add,
        Nat.add_assoc]
      exact Nat.add_le_add hkey (Nat.add_le_add hvalue hes)

/-- the fields that are there are paid for, the others are no more than the type has -/
theorem nodesOf_le_of_fields {ts : List ColumnType} (ht : ∀ t ∈ ts, Bounded a t) {bs : Bytes}
    {xs : List Value} (h : Fields ts bs xs) :
    nodesOf xs ≤ (1 + a) * bs.length + ts.length := by
  have habsent : ∀ us : List ColumnType, nodesOf (us.map nullValue) = us.length := by
    intro us
    induction us with
    | nil => rfl
    | cons u us ih =>
      rw [List.map_cons, nodesOf_cons, nodes_nullValue, ih, List.length_cons, Nat.add_comm]
  induction ts generalizing bs xs with
  | nil =>
    cases h with
    | absent => exact Nat.zero_le _
  | cons t ts ih =>
    cases h with
    | absent =>
      rw [habsent]
      exact Nat.le_add_left _ _
    | cons hc hs =>
      obtain ⟨ht, hts⟩ := List.forall_mem_cons.1 ht
      have hx := nodes_le_of_cell ht hc
      have hxs := ih hts hs
      rw [nodesOf_cons, List.length_append, Nat.mul_add, List.length_cons]
      omega

/-- behind a count, the parts are paid for by what is left of the body -/
theorem paid_of_counted {n : Nat} {bs : Bytes} {m : Nat} (h : m ≤ (1 + a) * bs.length) :
    m + 1 ≤ (1 + a) * ((Bytes.ofNat 4 n ++ bs).length + 1) := by
  have hlen : bs.length + 1 ≤ (Bytes.ofNat 4 n ++ bs).length + 1 := by
    rw [List.length_append, Bytes.length_ofNat]
    omega
  have hmul := Nat.mul_le_mul_left (1 + a) hlen
  rw [Nat.mul_add (1 + a) bs.length 1, Nat.mul_one] at hmul
  omega

theorem paid_of_fields {n m : Nat} {bs : Bytes} (hn : n ≤ a) (h : m ≤ (1 + a) * bs.length + n) :
    m + 1 ≤ (1 + a) * (bs.length + 1) := by
  rw [Nat.mul_add, Nat.mul_one]
  omega

theorem bounded {t : ColumnType} (h : t.widest ≤ a) : Bounded a t := by
  induction t with
  | list t ih =>
    intro _ _ hd
    cases hd with
    | list hs _ =>
      rw [Value.nodes_list]
      exact paid_of_counted (nodesOf_le_of_parts (ih h) hs)
  | set t ih =>
    intro _ _ hd
    cases hd with
    | @set _ _ xs hs _ =>
      have hmade := Value.nodes_setOf_le xs
      exact Nat.le_trans hmade (paid_of_counted (nodesOf_le_of_parts (ih h) hs))
  | map k w ihk ihw =>
    obtain ⟨hk, hw⟩ := Nat.max_le.1 h
    intro _ _ hd
    cases hd with
    | @map _ _ _ es hs _ =>
      have hmade := Value.nodes_mapOf_le es
      exact Nat.le_trans hmade
        (paid_of_counted (nodesOfEntries_le_of_pairs (ihk hk) (ihw hw) hs))
  | tuple ts ih =>
    obtain ⟨hn, hts⟩ := Nat.max_le.1 h
    intro _ _ hd
    cases hd with
    | tuple hs =>
      rw [Value.nodes_tuple]
      refine paid_of_fields hn (nodesOf_le_of_fields (fun t ht => ih t ht ?_) hs)
      exact Nat.le_trans (widest_le_of_mem ht) hts
  | udt keyspace name fs ih =>
    obtain ⟨hn, hfs⟩ := Nat.max_le.1 h
    rw [widestNamed_eq] at hfs
    intro _ _ hd
    cases hd with
    | @udt _ _ _ _ xs hs =>
      have hb : ∀ t ∈ fs.map Prod.snd, Bounded a t := by
        refine List.forall_mem_map.2 fun f hf => ih f hf ?_
        exact Nat.le_trans (widest_le_of_mem (List.mem_map_of_mem hf)) hfs
      have hsum := nodesOf_le_of_fields hb hs
      have hlen : xs.length ≤ (fs.map Prod.fst).length := by
        rw [length_of_fields hs, List.length_map, List.length_map]
      rw [List.length_map] at hsum
      rw [Value.nodes_udt, List.map_snd_zip hlen]
      exact paid_of_fields hn hsum
  | _ =>
    intro _ _ hd
    cases hd <;> exact one_le_paid a _

end

/-! ## counts -/

theorem length_le_of_parts {t : ColumnType} {bs : Bytes} {xs : List Value} (h : Parts t bs xs) :
    4 * xs.length ≤ bs.length := by
  induction xs generalizing bs with
  | nil => exact Nat.zero_le _
  | cons x xs ih =>
    cases h with
    | cons hc hs =>
      have hcell := hc.framed.length_le
      have hrest := ih hs
      rw [List.length_cons, List.length_append]
      omega

theorem length_le_of_pairs {k w : ColumnType} {bs : Bytes} {es : List (Value × Value)}
    (h : Pairs k w bs es) : 8 * es.length ≤ bs.length := by
  induction es generalizing bs with
  | nil => exact Nat.zero_le _
  | cons e es ih =>
    cases h with
    | cons hk hv hs =>
      have hkey := hk.framed.length_le
      have hvalue := hv.framed.length_le
      have hrest := ih hs
      rw [List.length_cons, List.length_append, List.length_append]
      omega

theorem counted_items {t : ColumnType} {bs : Bytes} {v : Value} (h : Denotes t bs v)
    {xs : List Value} (hv : v = .list xs ∨ v = .set xs) : 4 + 4 * xs.length ≤ bs.length := by
  cases h with
  | @list _ _ ys hs _ =>
    have hl := length_le_of_parts hs
    obtain rfl : ys = xs := by simpa using hv
    rw [List.length_append, Bytes.length_ofNat]
    omega
  | @set _ _ ys hs _ =>
    have hl := length_le_of_parts hs
    have hf := (Value.firsts_sublist ys).length_le
    obtain rfl : Value.firsts ys = xs := by simpa [Value.setOf] using hv
    rw [List.length_append, Bytes.length_ofNat]
    omega
  | _ => rcases hv with hv | hv <;> cases hv

theorem counted_entries {t : ColumnType} {bs : Bytes} {v : Value} (h : Denotes t bs v)
    {es : List (Value × Value)} (hv : v = .map es) : 4 + 8 * es.length ≤ bs.length := by
  cases h with
  | @map _ _ _ fs hs _ =>
    have hl := length_le_of_pairs hs
    have hf := Value.length_ofList_le fs
    obtain rfl : Entries.ofList fs = es := Value.map.inj hv
    rw [List.length_append, Bytes.length_ofNat]
    omega
  | _ => cases hv

/-- Whatever count the bytes claim, the values that are read from them are no more than the widest
tuple or record can make of each byte, and every element has four bytes of its own, every entry
eight. -/
theorem decode_nodes_le {t : ColumnType} {bs : Bytes} {v : Value}
    (h : decode t (some bs) = .ok v) :
    v.nodes ≤ (1 + t.widest) * (bs.length + 1) ∧
    (∀ xs, v = .list xs ∨ v = .set xs → 4 ≤ bs.length ∧ xs.length ≤ (bs.length - 4) / 4) ∧
    ∀ es, v = .map es → 4 ≤ bs.length ∧ es.length ≤ (bs.length - 4) / 8 := by
  have hd : Denotes t bs v := (decodeBody_iff t bs v).1 h
  refine ⟨bounded (Nat.le_refl _) bs v hd, ?_, ?_⟩
  · intro xs hv
    have hl := counted_items hd hv
    omega
  · intro es hv
    have hl := counted_entries hd hv
    omega

/-- a list of two tuples of no bytes, of which all three fields are left out -/
theorem decode_nodes_le_left_out :
    let t : ColumnType := .list (.tuple [.int, .set .int, .text])
    let bs : Bytes := [0, 0, 0, 2, 0, 0, 0, 0, 0, 0, 0, 0]
    let v : Value := .list [.tuple [.null, .set [], .null], .tuple [.null, .set [], .null]]
    decode t (some bs) = .ok v ∧ v.nodes = 9 ∧ v.nodes ≤ (1 + t.widest) * (bs.length + 1) ∧
      2 ≤ (bs.length - 4) / 4 := by
  intro t bs v
  have hx : DenotesCell (.tuple [.int, .set .int, .text]) [0, 0, 0, 0]
      (.tuple [.null, .set [], .null]) :=
    .body (.tuple (.absent _)) (by decide)
  have hd : Denotes t bs v := .list (.cons hx (.cons hx (.nil _))) (by decide)
  have h : decode t (some bs) = .ok v := (decodeBody_iff t bs v).2 hd
  obtain ⟨hnodes, hitems, _⟩ := decode_nodes_le h
  exact ⟨h, rfl, hnodes, (hitems _ (.inl rfl)).2⟩

end Cell

end Cql
