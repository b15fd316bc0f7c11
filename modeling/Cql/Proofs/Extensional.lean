import Cql.Proofs.Binding
import Cql.Proofs.History
import Mathlib.Data.List.Perm.Basic

/-!
# Sets and maps are what they contain

A set is made from any list and a map from any list of entries, repetitions included, and what
becomes of two such lists is equal exactly when they say the same: of a set, which elements it has;
of a map, which keys it has and which value was given last to each.  Neither the order of the list
nor what is repeated in it can be told from the result, and so neither can the order in which a
program's own sets and maps are gone through when they are bound.

* `Within`              every element of one list is equal to one of another;
* `setOf_beq_iff`       sets by the lists they are made from;
* `get?_ofList`         the value of a key is the one that was given last;
* `mapOf_beq_iff`       maps by the lists they are made from;
* `made_extensional`    both, with what follows for lists in another order, for equal parts, and for
                        host data that is bound.
-/

namespace Cql

namespace Value

/-- every element of the one list is equal to one of the other -/
def Within (xs ys : List Value) : Prop := ∀ x ∈ xs, ∃ y ∈ ys, (x == y) = true

/-! ## elements -/

section
variable {xs ys zs : List Value}

theorem within_of_subset (hx : ∀ x ∈ xs, x.Distinct) (h : xs ⊆ ys) : Within xs ys :=
  fun x hm => ⟨x, h hm, beq_refl (hx x hm)⟩

theorem Within.trans (hx : ∀ x ∈ xs, x.Distinct) (hy : ∀ y ∈ ys, y.Distinct)
    (hz : ∀ z ∈ zs, z.Distinct) (h : Within xs ys) (h' : Within ys zs) : Within xs zs := by
  intro x hm
  obtain ⟨y, hym, hxy⟩ := h x hm
  obtain ⟨z, hzm, hyz⟩ := h' y hym
  exact ⟨z, hzm, beq_trans (hx x hm) (hy y hym) (hz z hzm) hxy hyz⟩

theorem within_of_forall₂ (h : List.Forall₂ Same xs ys) : Within xs ys := by
  induction h with
  | nil => exact fun _ hx => nomatch hx
  | @cons x y xs ys hxy _ ih =>
    refine List.forall_mem_cons.2 ⟨⟨y, List.mem_cons_self, hxy⟩, fun x hx => ?_⟩
    obtain ⟨y, hy, hxy⟩ := ih x hx
    exact ⟨y, List.mem_cons_of_mem _ hy, hxy⟩

theorem forall₂_symm (hx : ∀ x ∈ xs, x.Distinct) (hy : ∀ y ∈ ys, y.Distinct)
    (h : List.Forall₂ Same xs ys) : List.Forall₂ Same ys xs := by
  induction h with
  | nil => exact .nil
  | cons hxy _ ih =>
    obtain ⟨hx, hxs⟩ := List.forall_mem_cons.1 hx
    obtain ⟨hy, hys⟩ := List.forall_mem_cons.1 hy
    exact .cons (beq_symm hx hy hxy) (ih hxs hys)

/-- what was left out is equal to something that stayed -/
theorem within_firsts (hx : ∀ x ∈ xs, x.Distinct) : Within xs (firsts xs) := by
  induction xs using List.reverseRecOn with
  | nil => exact fun _ h => nomatch h
  | append_singleton xs x ih =>
    obtain ⟨hxs, hx⟩ := List.forall_mem_append.1 hx
    have hx := hx x (List.mem_singleton_self x)
    rw [firsts_concat]
    cases h : (firsts xs).any (x == ·) with
    | true =>
      rw [addElement_of_any h]
      refine List.forall_mem_append.2 ⟨ih hxs, List.forall_mem_singleton.2 ?_⟩
      exact List.any_eq_true.1 h
    | false =>
      rw [addElement_of_new h]
      refine List.forall_mem_append.2 ⟨fun y hy => ?_, List.forall_mem_singleton.2 ?_⟩
      · obtain ⟨z, hz, hyz⟩ := ih hxs y hy
        exact ⟨z, List.mem_append_left _ hz, hyz⟩
      · exact ⟨x, List.mem_append_right _ (List.mem_singleton_self x), beq_refl hx⟩

theorem distinct_firsts (hx : ∀ x ∈ xs, x.Distinct) : ∀ x ∈ firsts xs, x.Distinct :=
  fun x hm => hx x ((firsts_sublist xs).subset hm)

theorem firsts_within (hx : ∀ x ∈ xs, x.Distinct) : Within (firsts xs) xs :=
  within_of_subset (distinct_firsts hx) (firsts_sublist xs).subset

theorem within_firsts_iff (hx : ∀ x ∈ xs, x.Distinct) (hy : ∀ y ∈ ys, y.Distinct) :
    Within (firsts xs) (firsts ys) ↔ Within xs ys := by
  have hfx := distinct_firsts hx
  have hfy := distinct_firsts hy
  exact ⟨fun h => ((within_firsts hx).trans hx hfx hfy h).trans hx hfy hy (firsts_within hy),
    fun h => ((firsts_within hx).trans hfx hx hy h).trans hfx hy hfy (within_firsts hy)⟩

/-- unequal elements that are all within another list are no more than its elements -/
theorem length_le_of_within (hx : ∀ x ∈ xs, x.Distinct) (hy : ∀ y ∈ ys, y.Distinct)
    (hp : Pairwise xs) (h : Within xs ys) : xs.length ≤ ys.length := by
  cases xs with
  | nil => exact Nat.zero_le _
  | cons x xs =>
    by_contra hl
    obtain ⟨hx, hxs⟩ := List.forall_mem_cons.1 hx
    obtain ⟨hhead, htail⟩ := List.pairwise_cons.1 hp
    obtain ⟨⟨y, hym, hxy⟩, h⟩ := List.forall_mem_cons.1 h
    -- the others alone would meet everything, the element that is equal to `x` included
    have hmet : ∀ y ∈ ys, ∃ x' ∈ xs, Same x' y := by
      refine met_of_length_le (by rw [List.length_cons] at hl; omega) h (htail.imp_of_mem ?_)
      intro a b ha hb hne y hy' hay hby
      have hyb := beq_symm (hxs b hb) (hy y hy') hby
      have hab := beq_trans (hxs a ha) (hy y hy') (hxs b hb) hay hyb
      rw [hab] at hne
      cases hne
    obtain ⟨x', hx', hxy'⟩ := hmet y hym
    have hyx' := beq_symm (hxs x' hx') (hy y hym) hxy'
    have hxx' := beq_trans hx (hy y hym) (hxs x' hx') hxy hyx'
    rw [hhead x' hx'] at hxx'
    cases hxx'

theorem length_firsts_eq (hx : ∀ x ∈ xs, x.Distinct) (hy : ∀ y ∈ ys, y.Distinct)
    (h : Within xs ys) (h' : Within ys xs) : (firsts xs).length = (firsts ys).length := by
  have hfx := distinct_firsts hx
  have hfy := distinct_firsts hy
  have hpx := (fresh_iff_pairwise hfx).1 (pairwise_firsts xs)
  have hpy := (fresh_iff_pairwise hfy).1 (pairwise_firsts ys)
  exact Nat.le_antisymm (length_le_of_within hfx hfy hpx ((within_firsts_iff hx hy).2 h))
    (length_le_of_within hfy hfx hpy ((within_firsts_iff hy hx).2 h'))

theorem within_of_beq (hx : ∀ x ∈ xs, x.Distinct) (hy : ∀ y ∈ ys, y.Distinct)
    (h : (setOf xs == setOf ys) = true) : Within xs ys := by
  obtain ⟨zs, hz, hc⟩ := eqv_set.1 h
  cases hz
  exact (within_firsts_iff hx hy).1 hc.2

theorem setOf_beq_iff (hx : ∀ x ∈ xs, x.Distinct) (hy : ∀ y ∈ ys, y.Distinct) :
    (setOf xs == setOf ys) = true ↔ Within xs ys ∧ Within ys xs := by
  constructor
  · intro h
    exact ⟨within_of_beq hx hy h,
      within_of_beq hy hx (beq_symm (distinct_setOf hx) (distinct_setOf hy) h)⟩
  · rintro ⟨h, h'⟩
    exact eqv_set.2 ⟨firsts ys, rfl, length_firsts_eq hx hy h h', (within_firsts_iff hx hy).2 h⟩

end

/-! ## entries -/

/-- keys and values are of distinct elements -/
abbrev DistinctAll (es : List (Value × Value)) : Prop := ∀ e ∈ es, e.1.Distinct ∧ e.2.Distinct

section
variable {es fs : List (Value × Value)} {k l v : Value}

theorem distinct_keys (h : DistinctAll es) : ∀ k ∈ Entries.keys es, k.Distinct := by
  intro k hk
  obtain ⟨e, he, rfl⟩ := List.mem_map.1 hk
  exact (h e he).1

theorem distinct_ofList (h : DistinctAll es) : DistinctAll (Entries.ofList es) :=
  Entries.forall_ofList h

theorem get?_put (hk : k.Distinct) (hl : l.Distinct) (h : DistinctAll es) :
    Entries.get? l (Entries.put k v es) = if l == k then some v else Entries.get? l es := by
  induction es with
  | nil => rfl
  | cons e es ih =>
    obtain ⟨key, value⟩ := e
    obtain ⟨⟨hkey, -⟩, hes⟩ := List.forall_mem_cons.1 h
    rw [Entries.put]
    by_cases hkk : (k == key) = true
    · -- `l` is equal to both of the keys or to none
      have hiff : (l == key) = (l == k) :=
        Bool.eq_iff_iff.2 ⟨fun hlk => beq_trans hl hkey hk hlk (beq_symm hk hkey hkk),
          fun hlk => beq_trans hl hk hkey hlk hkk⟩
      rw [if_pos hkk, Entries.get?, Entries.get?, hiff]
      split <;> rfl
    · rw [if_neg hkk, Entries.get?, ih hes, Entries.get?]
      by_cases hlk : (l == k) = true
      · have hne : ¬ (l == key) = true := fun hlkey =>
          hkk (beq_trans hk hl hkey (beq_symm hl hk hlk) hlkey)
        rw [if_pos hlk, if_neg hne, if_pos hlk]
      · rw [if_neg hlk, if_neg hlk]

/-- the value of a key is the one that was given last -/
theorem get?_ofList (hk : k.Distinct) (h : DistinctAll es) :
    Entries.get? k (Entries.ofList es) = Entries.last? k es := by
  induction es using List.reverseRecOn with
  | nil => rfl
  | append_singleton es e ih =>
    obtain ⟨hes, he⟩ := List.forall_mem_append.1 h
    have he := he e (List.mem_singleton_self e)
    rw [Entries.ofList_concat, get?_put he.1 hk (distinct_ofList hes), ih hes,
      Entries.last?_concat]

theorem get?_congr (hk : k.Distinct) (hl : l.Distinct) (h : DistinctAll es) (hkl : (k == l) = true) :
    Entries.get? k es = Entries.get? l es := by
  induction es with
  | nil => rfl
  | cons e es ih =>
    obtain ⟨⟨he, -⟩, hes⟩ := List.forall_mem_cons.1 h
    have hiff : (k == e.1) = (l == e.1) :=
      Bool.eq_iff_iff.2 ⟨beq_trans hl hk he (beq_symm hk hl hkl), beq_trans hk hl he hkl⟩
    rw [Entries.get?, Entries.get?, hiff, ih hes]

theorem get?_eq_entryOf? (k : Value) (es : List (Value × Value)) :
    Entries.get? k es = (entryOf? k es).map Prod.snd := by
  induction es with
  | nil => rfl
  | cons e es ih =>
    rw [Entries.get?, entryOf?, List.find?_cons, ih]
    show (if eqv k e.1 = true then _ else _) = _
    cases eqv k e.1 <;> rfl

theorem eqvLookup_iff_get? : eqvLookup es fs = true ↔
    ∀ e ∈ es, ∃ w, Entries.get? e.1 fs = some w ∧ (e.2 == w) = true := by
  rw [eqvLookup_iff]
  refine forall₂_congr fun e _ => ?_
  rw [get?_eq_entryOf?]
  cases entryOf? e.1 fs <;> simp [beq_eq]

theorem get?_of_mem (h : (map es).Distinct) {e : Value × Value} (he : e ∈ es) :
    Entries.get? e.1 es = some e.2 := by
  obtain ⟨hp, hd⟩ := distinctMap_iff.1 h
  have hs := steady (hd e he).1
  rw [get?_eq_entryOf?,
    entryOf?_eq_some hs (hd e he).1 hs.refl (fun f hf => (hd f hf).1) hp he hs.refl]
  rfl

/-- the same keys, and the last value given to each is equal -/
def SameLast (es fs : List (Value × Value)) : Prop :=
  Within (Entries.keys es) (Entries.keys fs) ∧ Within (Entries.keys fs) (Entries.keys es) ∧
    ∀ k ∈ Entries.keys es, ∃ v w, Entries.last? k es = some v ∧ Entries.last? k fs = some w ∧
      (v == w) = true

theorem within_keys_ofList_iff (he : DistinctAll es) (hf : DistinctAll fs) :
    Within (Entries.keys (Entries.ofList es)) (Entries.keys (Entries.ofList fs)) ↔
      Within (Entries.keys es) (Entries.keys fs) := by
  rw [keys_ofList, keys_ofList]
  exact within_firsts_iff (distinct_keys he) (distinct_keys hf)

/-- every key of the list is equal to one of the map -/
theorem exists_key (h : DistinctAll es) (hk : k ∈ Entries.keys es) :
    ∃ e ∈ Entries.ofList es, (k == e.1) = true := by
  obtain ⟨l, hl, hkl⟩ := within_firsts (distinct_keys h) k hk
  have hmem : l ∈ Entries.keys (Entries.ofList es) := by rwa [keys_ofList]
  obtain ⟨e, he, rfl⟩ := List.mem_map.1 hmem
  exact ⟨e, he, hkl⟩

theorem mem_keys_of_mem_ofList {e : Value × Value} (he : e ∈ Entries.ofList es) :
    e.1 ∈ Entries.keys es := by
  have hmem : e.1 ∈ Entries.keys (Entries.ofList es) := List.mem_map.2 ⟨e, he, rfl⟩
  rw [keys_ofList] at hmem
  exact (firsts_sublist _).subset hmem

theorem within_keys_of_beq (he : DistinctAll es) (hf : DistinctAll fs)
    (h : (mapOf es == mapOf fs) = true) : Within (Entries.keys es) (Entries.keys fs) := by
  obtain ⟨gs, hg, hl, hlook⟩ := eqv_map.1 h
  cases hg
  refine (within_keys_ofList_iff he hf).1 fun k hk => ?_
  obtain ⟨e, hem, rfl⟩ := List.mem_map.1 hk
  obtain ⟨f, hfm, hs⟩ := (covers_of_eqvLookup hl hlook).2 e hem
  exact ⟨f.1, List.mem_map.2 ⟨f, hfm, rfl⟩, hs.1⟩

theorem sameLast_of_beq (he : DistinctAll es) (hf : DistinctAll fs)
    (h : (mapOf es == mapOf fs) = true) : SameLast es fs := by
  have hback := beq_symm (distinct_mapOf he) (distinct_mapOf hf) h
  refine ⟨within_keys_of_beq he hf h, within_keys_of_beq hf he hback, fun k hk => ?_⟩
  obtain ⟨gs, hg, -, hlook⟩ := eqv_map.1 h
  cases hg
  have hkd := distinct_keys he k hk
  obtain ⟨e, hem, hke⟩ := exists_key he hk
  have hed := (distinct_ofList he e hem).1
  obtain ⟨w, hw, hvw⟩ := eqvLookup_iff_get?.1 hlook e hem
  refine ⟨e.2, w, ?_, ?_, hvw⟩
  · rw [← get?_ofList hkd he, get?_congr hkd hed (distinct_ofList he) hke,
      get?_of_mem (distinct_mapOf he) hem]
  · rw [← get?_ofList hkd hf, get?_congr hkd hed (distinct_ofList hf) hke, hw]

theorem beq_of_sameLast (he : DistinctAll es) (hf : DistinctAll fs) (h : SameLast es fs) :
    (mapOf es == mapOf fs) = true := by
  obtain ⟨hkeys, hkeys', hlast⟩ := h
  have hl : (Entries.ofList es).length = (Entries.ofList fs).length := by
    have hlen := length_firsts_eq (distinct_keys he) (distinct_keys hf) hkeys hkeys'
    have hke : (Entries.ofList es).map Prod.fst = firsts (Entries.keys es) := keys_ofList es
    have hkf : (Entries.ofList fs).map Prod.fst = firsts (Entries.keys fs) := keys_ofList fs
    calc (Entries.ofList es).length = ((Entries.ofList es).map Prod.fst).length :=
          (List.length_map _).symm
      _ = ((Entries.ofList fs).map Prod.fst).length := by rw [hke, hkf, hlen]
      _ = (Entries.ofList fs).length := List.length_map _
  refine eqv_map.2 ⟨_, rfl, hl, eqvLookup_iff_get?.2 fun e hem => ?_⟩
  have hed := (distinct_ofList he e hem).1
  obtain ⟨v, w, hv, hw, hvw⟩ := hlast e.1 (mem_keys_of_mem_ofList hem)
  rw [← get?_ofList hed he, get?_of_mem (distinct_mapOf he) hem] at hv
  cases hv
  exact ⟨w, (get?_ofList hed hf).trans hw, hvw⟩

theorem mapOf_beq_iff (he : DistinctAll es) (hf : DistinctAll fs) :
    (mapOf es == mapOf fs) = true ↔ SameLast es fs :=
  ⟨sameLast_of_beq he hf, beq_of_sameLast he hf⟩

end

/-! ## other orders, equal parts -/

section
variable {xs ys : List Value} {es fs : List (Value × Value)}

theorem setOf_beq_of_perm (hx : ∀ x ∈ xs, x.Distinct) (h : xs.Perm ys) :
    (setOf xs == setOf ys) = true := by
  have hy : ∀ y ∈ ys, y.Distinct := fun y hm => hx y (h.mem_iff.2 hm)
  exact (setOf_beq_iff hx hy).2
    ⟨within_of_subset hx h.subset, within_of_subset hy h.symm.subset⟩

theorem setOf_beq_of_forall₂ (hx : ∀ x ∈ xs, x.Distinct) (hy : ∀ y ∈ ys, y.Distinct)
    (h : List.Forall₂ Same xs ys) : (setOf xs == setOf ys) = true :=
  (setOf_beq_iff hx hy).2 ⟨within_of_forall₂ h, within_of_forall₂ (forall₂_symm hx hy h)⟩

theorem pairwise_of_perm (hx : ∀ x ∈ xs, x.Distinct) (h : xs.Perm ys) (hp : Pairwise xs) :
    Pairwise ys := by
  -- among values of distinct elements to be unequal is symmetric
  have hsymm : ∀ {x y : Value}, (x.Distinct → y.Distinct → (x == y) = false) →
      y.Distinct → x.Distinct → (y == x) = false := by
    intro x y hne hy hx
    rw [beq_comm hy hx]
    exact hne hx hy
  have hq : xs.Pairwise fun x y => x.Distinct → y.Distinct → (x == y) = false :=
    hp.imp fun hne _ _ => hne
  refine (h.pairwise hq hsymm).imp_of_mem fun {x y} hxm hym hne => ?_
  exact hne (hx x (h.mem_iff.2 hxm)) (hx y (h.mem_iff.2 hym))

theorem mapOf_beq_of_perm (he : DistinctAll es) (h : es.Perm fs) (hp : Pairwise (Entries.keys es)) :
    (mapOf es == mapOf fs) = true := by
  have hf : DistinctAll fs := fun f hm => he f (h.mem_iff.2 hm)
  have hq : Pairwise (Entries.keys fs) := pairwise_of_perm (distinct_keys he) (h.map _) hp
  have hes : (map es).Distinct := ⟨hp, distinctEntries_iff.2 he⟩
  have hfs : (map fs).Distinct := ⟨hq, distinctEntries_iff.2 hf⟩
  rw [mapOf_eq hes, mapOf_eq hfs]
  refine (same_iff_sameBy hes hfs).2 ⟨h.length_eq, fun e hm => ⟨e, h.mem_iff.1 hm, ?_⟩⟩
  exact ⟨beq_refl (he e hm).1, beq_refl (he e hm).2⟩

/-- an equal value put to an equal key among equal entries -/
theorem put_forall₂ {k l v w : Value} (hk : k.Distinct) (hl : l.Distinct) (hkl : Same k l)
    (hvw : Same v w) (he : DistinctAll es) (hf : DistinctAll fs)
    (h : List.Forall₂ SameEntry es fs) :
    List.Forall₂ SameEntry (Entries.put k v es) (Entries.put l w fs) := by
  induction h with
  | nil => exact .cons ⟨hkl, hvw⟩ .nil
  | @cons e f es fs hef _ ih =>
    obtain ⟨⟨he, -⟩, hes⟩ := List.forall_mem_cons.1 he
    obtain ⟨⟨hf, -⟩, hfs⟩ := List.forall_mem_cons.1 hf
    have hiff : (k == e.1) = (l == f.1) :=
      Bool.eq_iff_iff.2
        ⟨fun hke => beq_trans hl hk hf (beq_symm hk hl hkl) (beq_trans hk he hf hke hef.1),
          fun hlf => beq_trans hk hl he hkl (beq_trans hl hf he hlf (beq_symm he hf hef.1))⟩
    rw [Entries.put, Entries.put, hiff]
    split
    · exact .cons ⟨hef.1, hvw⟩ ‹_›
    · exact .cons hef (ih hes hfs)

theorem ofList_forall₂ (he : DistinctAll es) (hf : DistinctAll fs)
    (h : List.Forall₂ SameEntry es fs) :
    List.Forall₂ SameEntry (Entries.ofList es) (Entries.ofList fs) := by
  -- from any entries that are equal so far
  suffices hacc : ∀ as bs : List (Value × Value), DistinctAll as → DistinctAll bs →
      List.Forall₂ SameEntry as bs → List.Forall₂ SameEntry
        (es.foldl (fun acc e => Entries.put e.1 e.2 acc) as)
        (fs.foldl (fun acc e => Entries.put e.1 e.2 acc) bs) from
    hacc [] [] (fun _ hm => nomatch hm) (fun _ hm => nomatch hm) .nil
  induction h with
  | nil => exact fun _ _ _ _ h => h
  | @cons e f es fs hef _ ih =>
    obtain ⟨he, hes⟩ := List.forall_mem_cons.1 he
    obtain ⟨hf, hfs⟩ := List.forall_mem_cons.1 hf
    intro as bs ha hb h
    exact ih hes hfs _ _ (Entries.forall_put he.1 he.2 ha) (Entries.forall_put hf.1 hf.2 hb)
      (put_forall₂ he.1 hf.1 hef.1 hef.2 ha hb h)

theorem mapOf_beq_of_forall₂ (he : DistinctAll es) (hf : DistinctAll fs)
    (h : List.Forall₂ SameEntry es fs) : (mapOf es == mapOf fs) = true := by
  have h := ofList_forall₂ he hf h
  refine (same_iff_sameBy (distinct_mapOf he) (distinct_mapOf hf)).2 ⟨h.length_eq, fun e hm => ?_⟩
  obtain ⟨f, hfm, hef⟩ := exists_of_forall₂ h.flip e hm
  exact ⟨f, hfm, hef⟩

end

/-! ## host data in another order -/

section
variable {xs ys : List Host} {es fs : List (Host × Host)}

/-- the bound keys are pairwise unequal -/
def KeysApart (es : List (Host × Host)) : Prop :=
  es.Pairwise fun e f => ∀ k l, e.1.bind = .ok k → f.1.bind = .ok l → (k == l) = false

theorem bind_set_of_perm (hx : ∀ x ∈ xs, ∀ w ∈ x.values, w.Distinct) (h : xs.Perm ys) {v : Value}
    (hv : (Host.set xs).bind = .ok v) : ∃ w, (Host.set ys).bind = .ok w ∧ (v == w) = true := by
  obtain ⟨vs, hvs, rfl⟩ := Host.bind_set_iff.1 hv
  obtain ⟨ws, hws, hp⟩ := List.perm_comp_forall₂ h.symm hvs
  have hd : ∀ v ∈ vs, v.Distinct := by
    intro v hm
    obtain ⟨x, hxm, hxv⟩ := exists_of_forall₂ hvs v hm
    exact Host.distinct_of_bind (hx x hxm) hxv
  exact ⟨setOf ws, Host.bind_set_iff.2 ⟨ws, hws, rfl⟩, setOf_beq_of_perm hd hp.symm⟩

theorem bind_map_of_perm
    (he : ∀ e ∈ es, (∀ w ∈ e.1.values, w.Distinct) ∧ ∀ w ∈ e.2.values, w.Distinct)
    (h : es.Perm fs) (hk : KeysApart es) {v : Value} (hv : (Host.map es).bind = .ok v) :
    ∃ w, (Host.map fs).bind = .ok w ∧ (v == w) = true := by
  obtain ⟨us, hus, rfl⟩ := Host.bind_map_iff.1 hv
  obtain ⟨ws, hws, hp⟩ := List.perm_comp_forall₂ h.symm hus
  have hd : DistinctAll us := by
    intro u hm
    obtain ⟨e, hem, hk, hv⟩ := exists_of_forall₂ hus u hm
    exact ⟨Host.distinct_of_bind (he e hem).1 hk, Host.distinct_of_bind (he e hem).2 hv⟩
  have hq : Pairwise (Entries.keys us) := by
    refine List.pairwise_map.2 (pairwise_of_forall₂ hus (hk.imp fun hne c d hc hd => ?_))
    exact hne c.1 d.1 hc.1 hd.1
  exact ⟨mapOf ws, Host.bind_map_iff.2 ⟨ws, hws, rfl⟩, mapOf_beq_of_perm hd hp.symm hq⟩

end

/-- Sets are equal exactly when each has what the other has, maps exactly when they have the same
keys and the last values given to them are equal; so neither tells the order of what it was made
from, nor which of two equal parts it was made from, and binding the sets and maps of a program does
not depend on the order in which they are gone through. -/
theorem made_extensional :
    (∀ xs ys : List Value, (∀ x ∈ xs, x.Distinct) → (∀ y ∈ ys, y.Distinct) →
      ((setOf xs == setOf ys) = true ↔
        (∀ x ∈ xs, ∃ y ∈ ys, (x == y) = true) ∧ ∀ y ∈ ys, ∃ x ∈ xs, (y == x) = true) ∧
      (xs.Perm ys → (setOf xs == setOf ys) = true) ∧
      (List.Forall₂ (fun x y => (x == y) = true) xs ys → (setOf xs == setOf ys) = true)) ∧
    (∀ es fs : List (Value × Value), (∀ e ∈ es, e.1.Distinct ∧ e.2.Distinct) →
      (∀ f ∈ fs, f.1.Distinct ∧ f.2.Distinct) →
      ((mapOf es == mapOf fs) = true ↔
        (∀ e ∈ es, ∃ f ∈ fs, (e.1 == f.1) = true) ∧ (∀ f ∈ fs, ∃ e ∈ es, (f.1 == e.1) = true) ∧
        ∀ e ∈ es, ∃ v w, Entries.last? e.1 es = some v ∧ Entries.last? e.1 fs = some w ∧
          (v == w) = true) ∧
      (es.Perm fs → Pairwise (es.map Prod.fst) → (mapOf es == mapOf fs) = true) ∧
      (List.Forall₂ (fun e f => (e.1 == f.1) = true ∧ (e.2 == f.2) = true) es fs →
        (mapOf es == mapOf fs) = true)) ∧
    (∀ xs ys : List Host, (∀ x ∈ xs, ∀ w ∈ x.values, w.Distinct) → xs.Perm ys →
      ∀ v, (Host.set xs).bind = .ok v →
        ∃ w, (Host.set ys).bind = .ok w ∧ (v == w) = true) ∧
    ∀ es fs : List (Host × Host),
      (∀ e ∈ es, (∀ w ∈ e.1.values, w.Distinct) ∧ ∀ w ∈ e.2.values, w.Distinct) → es.Perm fs →
      KeysApart es → ∀ v, (Host.map es).bind = .ok v →
        ∃ w, (Host.map fs).bind = .ok w ∧ (v == w) = true := by
  refine ⟨fun xs ys hx hy => ?_, fun es fs he hf => ?_, ?_, ?_⟩
  · exact ⟨setOf_beq_iff hx hy, setOf_beq_of_perm hx, setOf_beq_of_forall₂ hx hy⟩
  · refine ⟨(mapOf_beq_iff he hf).trans ?_, mapOf_beq_of_perm he, mapOf_beq_of_forall₂ he hf⟩
    simp only [SameLast, Within, Entries.keys, List.mem_map, exists_exists_and_eq_and,
      forall_exists_index, and_imp, forall_apply_eq_imp_iff₂]
  · exact fun xs ys hx h v hv => bind_set_of_perm hx h hv
  · exact fun es fs he h hk v hv => bind_map_of_perm he h hk hv

/-- a set as an element and as a key, each time in another order, with repetitions; host data with
keys that are bound at the default width -/
theorem made_extensional_repeated :
    let pair : Value := .set [.int 1, .int 2]
    let pair' : Value := .set [.int 2, .int 1]
    let xs : List Value := [pair, .text "a", pair', pair]
    let ys : List Value := [.text "a", pair']
    let es : List (Value × Value) := [(pair, .null), (.text "k", .list [pair]), (pair', .int 3)]
    let fs : List (Value × Value) := [(.text "k", .list [pair']), (pair, .int 3)]
    let key (n : Int) (h : IntType.u8.Holds n) : Host := .int ⟨.u8, n, h⟩
    let hs : List (Host × Host) :=
      [(key 1 (by decide), .set [.value pair, .none]), (key 2 (by decide), .none)]
    ((∀ x ∈ xs, x.Distinct) ∧ (∀ y ∈ ys, y.Distinct) ∧
      (setOf xs == setOf ys) = true ∧ (setOf xs == setOf xs.reverse) = true) ∧
    ((∀ e ∈ es, e.1.Distinct ∧ e.2.Distinct) ∧ (∀ f ∈ fs, f.1.Distinct ∧ f.2.Distinct) ∧
      (mapOf es == mapOf fs) = true ∧ (mapOf fs == mapOf fs.reverse) = true) ∧
    ∀ v, (Host.map hs).bind = .ok v →
      ∃ w, (Host.map hs.reverse).bind = .ok w ∧ (v == w) = true := by
  intro pair pair' xs ys es fs key hs
  have hx : ∀ x ∈ xs, x.Distinct := by decide
  have hy : ∀ y ∈ ys, y.Distinct := by decide
  have he : ∀ e ∈ es, e.1.Distinct ∧ e.2.Distinct := by decide
  have hf : ∀ f ∈ fs, f.1.Distinct ∧ f.2.Distinct := by decide
  obtain ⟨hset, hmap, -, hhost⟩ := made_extensional
  obtain ⟨hiff, -, -⟩ := hset xs ys hx hy
  obtain ⟨-, hperm, -⟩ := hset xs xs.reverse hx (by decide)
  obtain ⟨hiff', -, -⟩ := hmap es fs he hf
  obtain ⟨-, hperm', -⟩ := hmap fs fs.reverse hf (by decide)
  refine ⟨⟨hx, hy, hiff.2 (by decide), hperm (List.reverse_perm xs).symm⟩,
    ⟨he, hf, hiff'.2 ⟨by decide, by decide, ?_⟩, hperm' (List.reverse_perm fs).symm (by decide)⟩,
    hhost hs hs.reverse (by decide) (List.reverse_perm hs).symm ?_⟩
  · refine List.forall_mem_cons.2 ⟨⟨_, _, rfl, rfl, by decide⟩, List.forall_mem_cons.2
      ⟨⟨_, _, rfl, rfl, by decide⟩, List.forall_mem_singleton.2 ⟨_, _, rfl, rfl, by decide⟩⟩⟩
  · refine List.pairwise_cons.2 ⟨List.forall_mem_singleton.2 ?_, List.pairwise_singleton _ _⟩
    intro k l hk hl
    cases hk
    cases hl
    decide

end Value

end Cql
