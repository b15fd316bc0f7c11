import Cql.Error
import Cql.Host.Binding
import Cql.Host.Induction
import Cql.Proofs.Collections
import Cql.Proofs.Reader

/-!
# Data is bound part by part

Binding stops at the first failure, so it succeeds exactly when every part is bound by itself, and
what it makes is made of the bound parts, one for each and in their order.  Every later proof about
binding reads it off these equivalences, one for each kind of data that has parts.

* `mapM_ok_iff`, `mapM_error_iff`   a row of steps that may fail;
* `bind_list_iff` …                 what data with parts is bound to;
* `distinct_of_bind`                a bound value is of distinct elements, if the values that stand
                                    within the data are.
-/

namespace Cql

open Cell (bind_eq_ok bind_pure_eq_ok)

theorem mapM_ok_iff {ε α β : Type} {f : α → Except ε β} {xs : List α} {ys : List β} :
    xs.mapM f = .ok ys ↔ List.Forall₂ (fun x y => f x = .ok y) xs ys := by
  induction xs generalizing ys with
  | nil =>
    rw [List.mapM_nil, List.forall₂_nil_left_iff]
    exact ⟨fun h => by cases h; rfl, fun h => by rw [h]; rfl⟩
  | cons x xs ih =>
    rw [List.mapM_cons, List.forall₂_cons_left_iff]
    constructor
    · intro h
      obtain ⟨y, hy, h⟩ := bind_eq_ok.1 h
      obtain ⟨ys', hys, rfl⟩ := bind_pure_eq_ok.1 h
      exact ⟨y, ys', hy, ih.1 hys, rfl⟩
    · rintro ⟨y, ys', hy, hys, rfl⟩
      rw [hy, bind_ok, ih.2 hys]
      rfl

/-- the failure is that of the first step that fails -/
theorem mapM_error_iff {ε α β : Type} {f : α → Except ε β} {xs : List α} {e : ε} :
    xs.mapM f = .error e ↔
      ∃ front x back, xs = front ++ x :: back ∧ (∀ y ∈ front, ∃ b, f y = .ok b) ∧ f x = .error e := by
  induction xs with
  | nil =>
    rw [List.mapM_nil]
    constructor
    · nofun
    · rintro ⟨front, x, back, h, -⟩
      cases front <;> cases h
  | cons x xs ih =>
    rw [List.mapM_cons]
    constructor
    · intro h
      cases hx : f x with
      | error d =>
        rw [hx] at h
        cases h
        exact ⟨[], x, xs, rfl, by simp, hx⟩
      | ok b =>
        rw [hx, bind_ok] at h
        cases hxs : xs.mapM f with
        | ok bs => rw [hxs] at h; cases h
        | error d =>
          rw [hxs] at h
          cases h
          obtain ⟨front, y, back, rfl, hfront, hy⟩ := ih.1 hxs
          exact ⟨x :: front, y, back, rfl, List.forall_mem_cons.2 ⟨⟨b, hx⟩, hfront⟩, hy⟩
    · rintro ⟨front, y, back, h, hfront, hy⟩
      cases front with
      | nil =>
        cases h
        rw [hy]
        rfl
      | cons z front =>
        cases h
        obtain ⟨⟨b, hb⟩, hfront⟩ := List.forall_mem_cons.1 hfront
        rw [hb, bind_ok, ih.2 ⟨front, y, back, rfl, hfront, hy⟩]
        rfl

/-- to each element of the one list belongs one of the other -/
theorem exists_of_forall₂ {α β : Type} {r : α → β → Prop} {xs : List α} {ys : List β}
    (h : List.Forall₂ r xs ys) : ∀ y ∈ ys, ∃ x ∈ xs, r x y := by
  induction h with
  | nil => exact fun _ hy => nomatch hy
  | cons hr _ ih =>
    refine List.forall_mem_cons.2 ⟨⟨_, List.mem_cons_self, hr⟩, fun y hy => ?_⟩
    obtain ⟨x, hx, hxy⟩ := ih y hy
    exact ⟨x, List.mem_cons_of_mem _ hx, hxy⟩

/-- what keeps the elements of the one list apart keeps those of the other apart -/
theorem pairwise_of_forall₂ {α β : Type} {r : α → β → Prop} {s : β → β → Prop} {xs : List α}
    {ys : List β} (h : List.Forall₂ r xs ys)
    (hp : xs.Pairwise fun a b => ∀ c d, r a c → r b d → s c d) : ys.Pairwise s := by
  induction h with
  | nil => exact .nil
  | cons hr hrs ih =>
    obtain ⟨hhead, htail⟩ := List.pairwise_cons.1 hp
    refine List.pairwise_cons.2 ⟨fun d hd => ?_, ih htail⟩
    obtain ⟨b, hb, hbd⟩ := exists_of_forall₂ hrs d hd
    exact hhead b hb _ d hr hbd

theorem forall₂_entries_iff {α β γ δ : Type} {r : α → γ → Prop} {s : β → δ → Prop}
    {es : List (α × β)} {fs : List (γ × δ)} :
    List.Forall₂ (fun e f => r e.1 f.1 ∧ s e.2 f.2) es fs ↔
      List.Forall₂ r (es.map Prod.fst) (fs.map Prod.fst) ∧
        List.Forall₂ s (es.map Prod.snd) (fs.map Prod.snd) := by
  induction es generalizing fs with
  | nil => cases fs <;> simp
  | cons e es ih =>
    cases fs with
    | nil => simp
    | cons f fs =>
      simp only [List.map_cons, List.forall₂_cons, ih]
      exact and_and_and_comm

namespace Host

/-- the data is bound to the value -/
abbrev Binds (x : Host) (v : Value) : Prop := x.bind = .ok v

/-- a key and its data are bound to a key and its value -/
abbrev BindsEntry (e : Host × Host) (u : Value × Value) : Prop := Binds e.1 u.1 ∧ Binds e.2 u.2

def bindEntry (e : Host × Host) : Except BindingError (Value × Value) := do
  let key ← bind e.1
  let v ← bind e.2
  return (key, v)

theorem bindEntry_ok_iff {e : Host × Host} {u : Value × Value} :
    bindEntry e = .ok u ↔ BindsEntry e u := by
  constructor
  · intro h
    obtain ⟨k, hk, h⟩ := bind_eq_ok.1 h
    obtain ⟨v, hv, rfl⟩ := bind_pure_eq_ok.1 h
    exact ⟨hk, hv⟩
  · rintro ⟨hk, hv⟩
    rw [bindEntry, hk, bind_ok, hv]
    rfl

theorem bindItems_iff {xs : List Host} {vs : List Value} :
    bindItems xs = .ok vs ↔ List.Forall₂ Binds xs vs := by
  have h : bindItems xs = xs.mapM bind := by
    induction xs with
    | nil => rfl
    | cons x xs ih => rw [bindItems, ih, List.mapM_cons]
  rw [h, mapM_ok_iff]

theorem bindEntries_iff {es : List (Host × Host)} {us : List (Value × Value)} :
    bindEntries es = .ok us ↔ List.Forall₂ BindsEntry es us := by
  have h : bindEntries es = es.mapM bindEntry := by
    induction es with
    | nil => rfl
    | cons e es ih =>
      rw [bindEntries, ih, List.mapM_cons, bindEntry]
      cases e.1.bind with
      | error => rfl
      | ok k => cases e.2.bind <;> rfl
  simp only [h, mapM_ok_iff, bindEntry_ok_iff]

/-! ## what data with parts is bound to -/

section
variable {xs : List Host} {es : List (Host × Host)} {v : Value}

theorem bind_list_iff : Binds (list xs) v ↔ ∃ vs, List.Forall₂ Binds xs vs ∧ v = .list vs := by
  simp only [← bindItems_iff]
  exact bind_pure_eq_ok

theorem bind_set_iff : Binds (set xs) v ↔ ∃ vs, List.Forall₂ Binds xs vs ∧ v = .setOf vs := by
  simp only [← bindItems_iff]
  exact bind_pure_eq_ok

theorem bind_map_iff : Binds (map es) v ↔ ∃ us, List.Forall₂ BindsEntry es us ∧ v = .mapOf us := by
  simp only [← bindEntries_iff]
  exact bind_pure_eq_ok

theorem bind_tuple_iff : Binds (tuple xs) v ↔ ∃ vs, List.Forall₂ Binds xs vs ∧ v = .tuple vs := by
  simp only [← bindItems_iff]
  exact bind_pure_eq_ok

theorem bind_record_iff {typeName : String} {names : List String} :
    Binds (record typeName names xs) v ↔ ∃ vs, List.Forall₂ Binds xs vs ∧
      names.length = vs.length ∧ v = .udt typeName (names.zip vs) := by
  simp only [← bindItems_iff]
  refine bind_eq_ok.trans (exists_congr fun vs => and_congr_right fun _ => ?_)
  unfold bindRecord
  split
  · next h => simp [h, eq_comm]
  · next h => simp [h]

end

/-! ## bound values are of distinct elements -/

mutual

/-- the values that stand within the data as they are -/
def values : Host → List Value
  | value v => [v]
  | some x => values x
  | list xs => valuesOfItems xs
  | set xs => valuesOfItems xs
  | map es => valuesOfEntries es
  | tuple xs => valuesOfItems xs
  | record _ _ xs => valuesOfItems xs
  | _ => []

def valuesOfItems : List Host → List Value
  | [] => []
  | x :: xs => values x ++ valuesOfItems xs

def valuesOfEntries : List (Host × Host) → List Value
  | [] => []
  | (k, x) :: es => values k ++ values x ++ valuesOfEntries es

end

theorem valuesOfItems_eq (xs : List Host) : valuesOfItems xs = xs.flatMap values := by
  induction xs with
  | nil => rfl
  | cons x xs ih => rw [valuesOfItems, ih, List.flatMap_cons]

theorem valuesOfEntries_eq (es : List (Host × Host)) :
    valuesOfEntries es = es.flatMap fun e => values e.1 ++ values e.2 := by
  induction es with
  | nil => rfl
  | cons e es ih => rw [valuesOfEntries, ih, List.flatMap_cons]

section
variable {xs : List Host} {es : List (Host × Host)}

theorem distinct_item (h : ∀ w ∈ valuesOfItems xs, w.Distinct) :
    ∀ x ∈ xs, ∀ w ∈ x.values, w.Distinct := by
  intro x hx w hw
  refine h w ?_
  rw [valuesOfItems_eq]
  exact List.mem_flatMap.2 ⟨x, hx, hw⟩

theorem distinct_entry (h : ∀ w ∈ valuesOfEntries es, w.Distinct) :
    ∀ e ∈ es, (∀ w ∈ e.1.values, w.Distinct) ∧ ∀ w ∈ e.2.values, w.Distinct := by
  intro e he
  have hw : ∀ w ∈ e.1.values ++ e.2.values, w.Distinct := by
    intro w hw
    refine h w ?_
    rw [valuesOfEntries_eq]
    exact List.mem_flatMap.2 ⟨e, he, hw⟩
  exact List.forall_mem_append.1 hw

theorem distinct_of_items {vs : List Value}
    (ih : ∀ x ∈ xs, (∀ w ∈ x.values, w.Distinct) → ∀ v, Binds x v → v.Distinct)
    (hx : ∀ w ∈ valuesOfItems xs, w.Distinct) (hb : List.Forall₂ Binds xs vs) :
    ∀ v ∈ vs, v.Distinct := by
  intro v hv
  obtain ⟨x, hm, hxv⟩ := exists_of_forall₂ hb v hv
  exact ih x hm (distinct_item hx x hm) v hxv

theorem distinct_of_entries {us : List (Value × Value)}
    (ih : ∀ e ∈ es, ((∀ w ∈ e.1.values, w.Distinct) → ∀ v, Binds e.1 v → v.Distinct) ∧
      ((∀ w ∈ e.2.values, w.Distinct) → ∀ v, Binds e.2 v → v.Distinct))
    (hx : ∀ w ∈ valuesOfEntries es, w.Distinct) (hb : List.Forall₂ BindsEntry es us) :
    ∀ u ∈ us, u.1.Distinct ∧ u.2.Distinct := by
  intro u hu
  obtain ⟨e, hm, hk, hv⟩ := exists_of_forall₂ hb u hu
  obtain ⟨hdk, hdv⟩ := distinct_entry hx e hm
  exact ⟨(ih e hm).1 hdk _ hk, (ih e hm).2 hdv _ hv⟩

end

theorem distinct_of_bind {x : Host} (hx : ∀ w ∈ x.values, w.Distinct) {v : Value}
    (hb : Binds x v) : v.Distinct := by
  induction x generalizing v with
  | value w =>
    cases hb
    exact hx _ (List.mem_singleton_self _)
  | int n =>
    obtain ⟨t, n, hn⟩ := n
    have hd : ∀ n, bindDefault n = .ok v → v.Distinct := by
      intro n h
      unfold bindDefault at h
      split at h <;> cases h
      trivial
    cases t with
    | i8 | i16 | i32 | i64 =>
      cases hb
      trivial
    | i128 | u8 | u16 | u32 | u64 | u128 | isize | usize => exact hd _ hb
  | some x ih => exact ih hx hb
  | list xs ih =>
    obtain ⟨vs, hvs, rfl⟩ := bind_list_iff.1 hb
    exact Value.distinctItems_iff.2 (distinct_of_items (fun x hm hw v => ih x hm hw) hx hvs)
  | tuple xs ih =>
    obtain ⟨vs, hvs, rfl⟩ := bind_tuple_iff.1 hb
    exact Value.distinctItems_iff.2 (distinct_of_items (fun x hm hw v => ih x hm hw) hx hvs)
  | set xs ih =>
    obtain ⟨vs, hvs, rfl⟩ := bind_set_iff.1 hb
    exact Value.distinct_setOf (distinct_of_items (fun x hm hw v => ih x hm hw) hx hvs)
  | map es ih =>
    obtain ⟨us, hus, rfl⟩ := bind_map_iff.1 hb
    exact Value.distinct_mapOf (distinct_of_entries
      (fun e hm => ⟨fun hw v => (ih e hm).1 hw, fun hw v => (ih e hm).2 hw⟩) hx hus)
  | record typeName names xs ih =>
    obtain ⟨vs, hvs, -, rfl⟩ := bind_record_iff.1 hb
    have hd := distinct_of_items (fun x hm hw v => ih x hm hw) hx hvs
    refine Value.distinctFields_iff.2 fun f hf => hd f.2 ?_
    exact (List.of_mem_zip hf).2
  | _ =>
    cases hb
    trivial

end Host

end Cql
