import Cql.Proofs.Equality
import Mathlib.Data.List.Induction

/-!
# Sets and maps as they are made

`Value.setOf` and `Value.mapOf` take any list and leave out what is equal to an earlier element or
key.  Here is what stays:

* `firsts_sublist`, `pairwise_firsts`   the elements in their order, none equal to an earlier one;
* `keys_ofList`                         the keys of a map are the first of equal ones, in order;
* `distinct_setOf`, `distinct_mapOf`    the result is of distinct elements whatever the list;
* `setOf_eq`, `mapOf_eq`                a list of distinct elements stays as it is.
-/

namespace Cql

/-! ## entries -/

namespace Entries
variable {κ ν : Type} [BEq κ]

theorem ofList_concat (es : List (κ × ν)) (e : κ × ν) :
    ofList (es ++ [e]) = put e.1 e.2 (ofList es) := by
  rw [ofList, List.foldl_append]
  rfl

/-- a key that is equal to none goes to the end -/
theorem put_of_new {k : κ} {es : Entries κ ν} (h : (keys es).any (k == ·) = false) (v : ν) :
    put k v es = es ++ [(k, v)] := by
  induction es with
  | nil => rfl
  | cons e es ih =>
    obtain ⟨key, value⟩ := e
    rw [keys_cons, List.any_cons, Bool.or_eq_false_iff] at h
    rw [put, h.1, ih h.2]
    rfl

/-- a key that is equal to one leaves all keys as they are -/
theorem keys_put_of_known {k : κ} {es : Entries κ ν} (h : (keys es).any (k == ·) = true) (v : ν) :
    keys (put k v es) = keys es := by
  induction es with
  | nil => cases h
  | cons e es ih =>
    obtain ⟨key, value⟩ := e
    rw [keys_cons, List.any_cons] at h
    rw [put]
    split
    · rfl
    · next hne =>
      rw [Bool.eq_false_iff.2 hne, Bool.false_or] at h
      rw [keys_cons, keys_cons, ih h]

/-- what holds of the keys and the values put in holds of those within -/
theorem forall_put {p : κ → Prop} {q : ν → Prop} {k : κ} {v : ν} (hk : p k) (hv : q v)
    {es : Entries κ ν} (h : ∀ e ∈ es, p e.1 ∧ q e.2) : ∀ e ∈ put k v es, p e.1 ∧ q e.2 := by
  induction es with
  | nil => exact List.forall_mem_cons.2 ⟨⟨hk, hv⟩, fun _ he => nomatch he⟩
  | cons e es ih =>
    obtain ⟨key, value⟩ := e
    obtain ⟨he, hes⟩ := List.forall_mem_cons.1 h
    rw [put]
    split
    · exact List.forall_mem_cons.2 ⟨⟨he.1, hv⟩, hes⟩
    · exact List.forall_mem_cons.2 ⟨he, ih hes⟩

theorem forall_ofList {p : κ → Prop} {q : ν → Prop} {es : List (κ × ν)}
    (h : ∀ e ∈ es, p e.1 ∧ q e.2) : ∀ e ∈ ofList es, p e.1 ∧ q e.2 := by
  induction es using List.reverseRecOn with
  | nil => exact fun _ he => nomatch he
  | append_singleton es e ih =>
    obtain ⟨hes, he⟩ := List.forall_mem_append.1 h
    have he := he e List.mem_cons_self
    rw [ofList_concat]
    exact forall_put he.1 he.2 (ih hes)

end Entries

namespace Value

/-! ## the first of equal elements -/

/-- no element is equal to an earlier one -/
def Fresh (xs : List Value) : Prop := xs.Pairwise fun x y => (y == x) = false

theorem addElement_of_any {xs : List Value} {x : Value} (h : xs.any (x == ·) = true) :
    addElement xs x = xs := if_pos h

theorem addElement_of_new {xs : List Value} {x : Value} (h : xs.any (x == ·) = false) :
    addElement xs x = xs ++ [x] := if_neg (Bool.eq_false_iff.1 h)

theorem fresh_concat {xs : List Value} {x : Value} :
    Fresh (xs ++ [x]) ↔ Fresh xs ∧ xs.any (x == ·) = false := by
  unfold Fresh
  rw [List.pairwise_append]
  simp

theorem pairwise_firsts (xs : List Value) : Fresh (firsts xs) := by
  induction xs using List.reverseRecOn with
  | nil => exact List.Pairwise.nil
  | append_singleton xs x ih =>
    rw [firsts_concat]
    cases h : (firsts xs).any (x == ·) with
    | true => rwa [addElement_of_any h]
    | false =>
      rw [addElement_of_new h]
      exact fresh_concat.2 ⟨ih, h⟩

theorem firsts_sublist (xs : List Value) : (firsts xs).Sublist xs := by
  induction xs using List.reverseRecOn with
  | nil => exact List.Sublist.refl _
  | append_singleton xs x ih =>
    rw [firsts_concat]
    cases h : (firsts xs).any (x == ·) with
    | true =>
      rw [addElement_of_any h]
      exact ih.trans (List.sublist_append_left xs [x])
    | false =>
      rw [addElement_of_new h]
      exact ih.append (List.Sublist.refl [x])

theorem firsts_of_fresh {xs : List Value} (h : Fresh xs) : firsts xs = xs := by
  induction xs using List.reverseRecOn with
  | nil => rfl
  | append_singleton xs x ih =>
    obtain ⟨hxs, hx⟩ := fresh_concat.1 h
    rw [firsts_concat, ih hxs, addElement_of_new hx]

/-! ## the keys of a map -/

theorem keys_put_eq (k v : Value) (es : Entries Value Value) :
    Entries.keys (Entries.put k v es) = addElement (Entries.keys es) k := by
  cases h : (Entries.keys es).any (k == ·) with
  | true => rw [Entries.keys_put_of_known h, addElement_of_any h]
  | false =>
    rw [Entries.put_of_new h, addElement_of_new h]
    exact List.map_append

theorem keys_ofList (es : List (Value × Value)) :
    Entries.keys (Entries.ofList es) = firsts (es.map Prod.fst) := by
  induction es using List.reverseRecOn with
  | nil => rfl
  | append_singleton es e ih =>
    rw [Entries.ofList_concat, keys_put_eq, ih, List.map_append]
    exact (firsts_concat _ _).symm

theorem ofList_of_fresh {es : List (Value × Value)} (h : Fresh (es.map Prod.fst)) :
    Entries.ofList es = es := by
  induction es using List.reverseRecOn with
  | nil => rfl
  | append_singleton es e ih =>
    rw [List.map_append] at h
    obtain ⟨hes, he⟩ := fresh_concat.1 h
    rw [Entries.ofList_concat, ih hes, Entries.put_of_new he]

/-! ## distinct elements -/

/-- among values of distinct elements it does not matter which of two is asked -/
theorem fresh_iff_pairwise {xs : List Value} (h : ∀ x ∈ xs, x.Distinct) :
    Fresh xs ↔ Pairwise xs := by
  unfold Fresh Pairwise
  refine List.Pairwise.iff_of_mem fun {x y} hx hy => ?_
  rw [beq_comm (h x hx) (h y hy)]

theorem distinct_setOf {xs : List Value} (h : ∀ x ∈ xs, x.Distinct) : (setOf xs).Distinct := by
  have hf : ∀ x ∈ firsts xs, x.Distinct := fun x hx => h x ((firsts_sublist xs).subset hx)
  exact ⟨(fresh_iff_pairwise hf).1 (pairwise_firsts xs), distinctItems_iff.2 hf⟩

theorem setOf_eq {xs : List Value} (h : (set xs).Distinct) : setOf xs = set xs := by
  obtain ⟨hp, hd⟩ := h
  rw [setOf, firsts_of_fresh ((fresh_iff_pairwise (distinctItems_iff.1 hd)).2 hp)]

theorem distinct_mapOf {es : List (Value × Value)}
    (h : ∀ e ∈ es, e.1.Distinct ∧ e.2.Distinct) : (mapOf es).Distinct := by
  have hd := Entries.forall_ofList h
  refine ⟨(fresh_iff_pairwise ?_).1 ?_, distinctEntries_iff.2 hd⟩
  · intro k hk
    obtain ⟨e, he, rfl⟩ := List.mem_map.1 hk
    exact (hd e he).1
  · show Fresh (Entries.keys (Entries.ofList es))
    rw [keys_ofList]
    exact pairwise_firsts _

theorem mapOf_eq {es : List (Value × Value)} (h : (map es).Distinct) : mapOf es = map es := by
  obtain ⟨hp, hd⟩ := h
  have hk : ∀ k ∈ es.map Prod.fst, k.Distinct := by
    intro k hk
    obtain ⟨e, he, rfl⟩ := List.mem_map.1 hk
    exact (distinctEntries_iff.1 hd e he).1
  rw [mapOf, ofList_of_fresh ((fresh_iff_pairwise hk).2 hp)]

end Value

end Cql
