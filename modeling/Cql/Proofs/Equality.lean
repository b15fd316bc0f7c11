import Cql.Value.Induction
import Mathlib.Data.List.Forall2

/-!
# Equality of values is an equivalence

`eqv` compares sets and maps by their size and by looking up every element, or every key, of the
one in the other.  Where no set has equal elements and no map equal keys (`Value.Distinct`), this
one-sided look is enough: as many pairwise unequal elements cannot all be found in fewer places, so
nothing of the other side is left over (`met_of_length_le`).

The laws need each other one level down, so one induction carries them together:

* `Steady good r a`   what is to be shown of the left-hand side of a comparison by `r` with
                      whatever is `good`;
* `Steady.prod`, `Steady.forall₂`, `Steady.covers`   pairs, lists and sets of steady parts;
* `steady`            every value of distinct elements is steady;
* `beq_refl`, `beq_symm`, `beq_trans`   the laws as they are used;
* `beq_equivalence`   the laws together, and how equality is made of that of the parts.
-/

namespace Cql.Value

/-! ## relations with one steady side -/

section
variable {α β : Type}

/-- `r` is an equivalence as far as `a` stands on the left and `good` things on the right -/
structure Steady (good : α → Prop) (r : α → α → Prop) (a : α) : Prop where
  refl : r a a
  trans : ∀ {b c}, good b → good c → r a b → r b c → r a c
  eucl : ∀ {b c}, good b → good c → r a b → r a c → r b c

/-- as many elements, and for each of the one list a related one in the other -/
def Covers (r : α → α → Prop) (xs ys : List α) : Prop :=
  xs.length = ys.length ∧ ∀ x ∈ xs, ∃ y ∈ ys, r x y

theorem Steady.symm {good : α → Prop} {r : α → α → Prop} {a b : α} (h : Steady good r a)
    (ha : good a) (hb : good b) (hr : r a b) : r b a :=
  h.eucl hb ha hr h.refl

theorem steady_eq (a : α) : Steady (fun _ => True) Eq a :=
  ⟨rfl, fun _ _ => Eq.trans, fun _ _ hb hc => hb.symm.trans hc⟩

theorem Steady.prod {good : α → Prop} {r : α → α → Prop} {fine : β → Prop} {s : β → β → Prop}
    {p : α × β} (h₁ : Steady good r p.1) (h₂ : Steady fine s p.2) :
    Steady (fun p : α × β => good p.1 ∧ fine p.2) (fun p q => r p.1 q.1 ∧ s p.2 q.2) p where
  refl := ⟨h₁.refl, h₂.refl⟩
  trans hb hc hab hbc := ⟨h₁.trans hb.1 hc.1 hab.1 hbc.1, h₂.trans hb.2 hc.2 hab.2 hbc.2⟩
  eucl hb hc hab hac := ⟨h₁.eucl hb.1 hc.1 hab.1 hac.1, h₂.eucl hb.2 hc.2 hab.2 hac.2⟩

theorem forall₂_comp {γ : Type} {r : α → β → Prop} {s : β → γ → Prop} {t : α → γ → Prop}
    {xs : List α} {ys : List β} {zs : List γ}
    (h : ∀ x ∈ xs, ∀ y ∈ ys, ∀ z ∈ zs, r x y → s y z → t x z)
    (hr : List.Forall₂ r xs ys) (hs : List.Forall₂ s ys zs) : List.Forall₂ t xs zs := by
  induction hr generalizing zs with
  | nil =>
    cases hs
    exact List.Forall₂.nil
  | cons hxy _ ih =>
    cases hs with
    | cons hyz hs =>
      refine List.Forall₂.cons
        (h _ List.mem_cons_self _ List.mem_cons_self _ List.mem_cons_self hxy hyz) (ih ?_ hs)
      intro x hx y hy z hz
      exact h x (List.mem_cons_of_mem _ hx) y (List.mem_cons_of_mem _ hy) z
        (List.mem_cons_of_mem _ hz)

theorem Steady.forall₂ {good : α → Prop} {r : α → α → Prop} {xs : List α}
    (h : ∀ x ∈ xs, Steady good r x) :
    Steady (fun ys => ∀ y ∈ ys, good y) (List.Forall₂ r) xs where
  refl := List.forall₂_same.2 fun x hx => (h x hx).refl
  trans hb hc := forall₂_comp fun x hx y hy z hz => (h x hx).trans (hb y hy) (hc z hz)
  eucl hb hc hab := forall₂_comp
    (fun y hy x hx z hz => (h x hx).eucl (hb y hy) (hc z hz)) hab.flip

/-- when nothing is met twice, no more places than elements are all met -/
theorem met_of_length_le {r : α → β → Prop} {xs : List α} {ys : List β}
    (hl : ys.length ≤ xs.length) (hx : ∀ x ∈ xs, ∃ y ∈ ys, r x y)
    (hp : xs.Pairwise fun x x' => ∀ y ∈ ys, r x y → ¬ r x' y) : ∀ y ∈ ys, ∃ x ∈ xs, r x y := by
  induction xs generalizing ys with
  | nil =>
    intro y hy
    rw [List.length_eq_zero_iff.1 (Nat.le_zero.1 hl)] at hy
    cases hy
  | cons x xs ih =>
    obtain ⟨hhead, htail⟩ := List.pairwise_cons.1 hp
    obtain ⟨y₀, hy₀, hr₀⟩ := hx x List.mem_cons_self
    obtain ⟨front, back, rfl⟩ := List.append_of_mem hy₀
    have hmem : ∀ {y}, y ∈ front ++ back → y ∈ front ++ y₀ :: back := by
      intro y hy
      rcases List.mem_append.1 hy with hf | hb
      · exact List.mem_append_left _ hf
      · exact List.mem_append_right _ (List.mem_cons_of_mem _ hb)
    -- the other elements are not met at `y₀`, so they are met in what is left of `ys`
    have hrest : ∀ x' ∈ xs, ∃ y ∈ front ++ back, r x' y := by
      intro x' hx'
      obtain ⟨y, hy, hr⟩ := hx x' (List.mem_cons_of_mem _ hx')
      have hne : y ≠ y₀ := fun e => hhead x' hx' y₀ hy₀ hr₀ (e ▸ hr)
      simp only [List.mem_append, List.mem_cons, hne, false_or] at hy
      exact ⟨y, List.mem_append.2 hy, hr⟩
    have hlen : (front ++ back).length ≤ xs.length := by
      simp only [List.length_append, List.length_cons] at hl ⊢
      omega
    have hpair : xs.Pairwise fun x x' => ∀ y ∈ front ++ back, r x y → ¬ r x' y :=
      htail.imp fun hq y hy => hq y (hmem hy)
    intro y hy
    rcases List.mem_append.1 hy with hf | hb
    · obtain ⟨x', hx', hr⟩ := ih hlen hrest hpair y (List.mem_append_left _ hf)
      exact ⟨x', List.mem_cons_of_mem _ hx', hr⟩
    · rcases List.mem_cons.1 hb with rfl | hb
      · exact ⟨x, List.mem_cons_self, hr₀⟩
      · obtain ⟨x', hx', hr⟩ := ih hlen hrest hpair y (List.mem_append_right _ hb)
        exact ⟨x', List.mem_cons_of_mem _ hx', hr⟩

/-- every element of the covering list is met, if those of the covered one are unrelated -/
theorem Covers.met {good : α → Prop} {r : α → α → Prop} {xs ys : List α} (h : Covers r xs ys)
    (hs : ∀ x ∈ xs, Steady good r x) (hx : ∀ x ∈ xs, good x) (hy : ∀ y ∈ ys, good y)
    (hp : xs.Pairwise fun x x' => ¬ r x x') : ∀ y ∈ ys, ∃ x ∈ xs, r x y := by
  refine met_of_length_le (Nat.le_of_eq h.1.symm) h.2 (hp.imp_of_mem ?_)
  intro x x' hx₁ hx₂ hne y hy₁ hr hr'
  have hback := (hs x' hx₂).symm (hx x' hx₂) (hy y hy₁) hr'
  exact hne ((hs x hx₁).trans (hy y hy₁) (hx x' hx₂) hr hback)

/-- sets without regard to order -/
theorem Steady.covers {good : α → Prop} {r : α → α → Prop} {xs : List α}
    (hs : ∀ x ∈ xs, Steady good r x) (hx : ∀ x ∈ xs, good x)
    (hp : xs.Pairwise fun x x' => ¬ r x x') :
    Steady (fun ys => ∀ y ∈ ys, good y) (Covers r) xs where
  refl := ⟨rfl, fun x h => ⟨x, h, (hs x h).refl⟩⟩
  trans {ys zs} hb hc hab hbc := by
    refine ⟨hab.1.trans hbc.1, fun x h => ?_⟩
    obtain ⟨y, hy, hxy⟩ := hab.2 x h
    obtain ⟨z, hz, hyz⟩ := hbc.2 y hy
    exact ⟨z, hz, (hs x h).trans (hb y hy) (hc z hz) hxy hyz⟩
  eucl {ys zs} hb hc hab hac := by
    refine ⟨hab.1.symm.trans hac.1, fun y hy => ?_⟩
    obtain ⟨x, h, hxy⟩ := hab.met hs hx hb hp y hy
    obtain ⟨z, hz, hxz⟩ := hac.2 x h
    exact ⟨z, hz, (hs x h).eucl (hb y hy) (hc z hz) hxy hxz⟩

end

/-! ## comparing parts -/

abbrev Same (a b : Value) : Prop := eqv a b = true

abbrev SameEntry (e f : Value × Value) : Prop := Same e.1 f.1 ∧ Same e.2 f.2

abbrev SameField (f g : String × Value) : Prop := f.1 = g.1 ∧ Same f.2 g.2

/-- the first entry whose key is equal to `k` -/
def entryOf? (k : Value) (fs : List (Value × Value)) : Option (Value × Value) :=
  fs.find? fun f => eqv k f.1

theorem eqvItems_iff {xs ys : List Value} :
    eqvItems xs ys = true ↔ List.Forall₂ Same xs ys := by
  induction xs generalizing ys with
  | nil => cases ys <;> simp [eqvItems]
  | cons x xs ih => cases ys <;> simp [eqvItems, ih]

theorem eqvFields_iff {fs gs : List (String × Value)} :
    eqvFields fs gs = true ↔ List.Forall₂ SameField fs gs := by
  induction fs generalizing gs with
  | nil => cases gs <;> simp [eqvFields]
  | cons f fs ih => cases gs <;> simp [eqvFields, ih]

theorem eqvWithin_iff {xs ys : List Value} :
    eqvWithin xs ys = true ↔ ∀ x ∈ xs, ∃ y ∈ ys, Same x y := by
  rw [eqvWithin_eq_all, List.all_eq_true]
  simp only [List.any_eq_true, beq_eq]

theorem eqvLookup_iff {es fs : List (Value × Value)} :
    eqvLookup es fs = true ↔ ∀ e ∈ es, ∃ f, entryOf? e.1 fs = some f ∧ Same e.2 f.2 := by
  induction es with
  | nil => simp [eqvLookup]
  | cons e es ih =>
    obtain ⟨k, v⟩ := e
    rw [eqvLookup, Bool.and_eq_true, ih, List.forall_mem_cons]
    refine and_congr_left fun _ => ?_
    unfold entryOf?
    cases fs.find? fun f => eqv k f.1 <;> simp

theorem distinctItems_iff {xs : List Value} : DistinctItems xs ↔ ∀ x ∈ xs, x.Distinct := by
  induction xs with
  | nil => simp [DistinctItems]
  | cons x xs ih => rw [DistinctItems, ih, List.forall_mem_cons]

theorem distinctEntries_iff {es : List (Value × Value)} :
    DistinctEntries es ↔ ∀ e ∈ es, e.1.Distinct ∧ e.2.Distinct := by
  induction es with
  | nil => simp [DistinctEntries]
  | cons e es ih => rw [DistinctEntries, ih, List.forall_mem_cons, and_assoc]

theorem distinctFields_iff {fs : List (String × Value)} :
    DistinctFields fs ↔ ∀ f ∈ fs, f.2.Distinct := by
  induction fs with
  | nil => simp [DistinctFields]
  | cons f fs ih => rw [DistinctFields, ih, List.forall_mem_cons]

theorem pairwise_iff {xs : List Value} : Pairwise xs ↔ xs.Pairwise fun x y => ¬ Same x y := by
  unfold Pairwise
  simp only [beq_eq, Bool.not_eq_true]

/-! ## comparing by kind -/

/-- a value without parts -/
def plain : Value → Bool
  | list _ | set _ | map _ | tuple _ | udt _ _ => false
  | _ => true

/-- without parts, to be equal is to be the same -/
theorem eqv_plain {a b : Value} (h : a.plain = true) : eqv a b = true ↔ a = b := by
  fun_cases eqv a b
  case case24 =>
    -- two values of different kinds
    constructor
    · intro hf
      cases hf
    · rintro rfl
      cases a <;> simp_all [plain]
  all_goals first | (cases h; done) | simp

theorem eqv_list {xs : List Value} {b : Value} :
    eqv (list xs) b = true ↔ ∃ ys, b = list ys ∧ List.Forall₂ Same xs ys := by
  cases b <;> simp [eqv, eqvItems_iff]

theorem eqv_set {xs : List Value} {b : Value} :
    eqv (set xs) b = true ↔ ∃ ys, b = set ys ∧ Covers Same xs ys := by
  cases b <;> simp [eqv, eqvWithin_iff, Covers]

theorem eqv_map {es : List (Value × Value)} {b : Value} :
    eqv (map es) b = true ↔
      ∃ fs, b = map fs ∧ es.length = fs.length ∧ eqvLookup es fs = true := by
  cases b <;> simp [eqv]

theorem eqv_tuple {xs : List Value} {b : Value} :
    eqv (tuple xs) b = true ↔ ∃ ys, b = tuple ys ∧ List.Forall₂ Same xs ys := by
  cases b <;> simp [eqv, eqvItems_iff]

theorem eqv_udt {name : String} {fs : List (String × Value)} {b : Value} :
    eqv (udt name fs) b = true ↔
      ∃ gs, b = udt name gs ∧ List.Forall₂ SameField fs gs := by
  cases b <;> simp [eqv, eqvFields_iff]
  grind

/-! ## looking up a key -/

theorem mem_of_entryOf? {k : Value} {fs : List (Value × Value)} {f : Value × Value}
    (h : entryOf? k fs = some f) : f ∈ fs ∧ Same k f.1 := by
  have hk := List.find?_some (p := fun f : Value × Value => eqv k f.1) h
  exact ⟨List.mem_of_find?_eq_some h, hk⟩

/-- of unrelated things no two are related -/
theorem eq_of_pairwise {α : Type} {r : α → α → Prop} {xs : List α}
    (hp : xs.Pairwise fun x y => ¬ r x y) {x y : α} (hx : x ∈ xs) (hy : y ∈ xs) (hxy : r x y)
    (hyx : r y x) : x = y := by
  induction xs with
  | nil => cases hx
  | cons z zs ih =>
    obtain ⟨hz, hzs⟩ := List.pairwise_cons.1 hp
    rcases List.mem_cons.1 hx with hx | hx
    · rcases List.mem_cons.1 hy with hy | hy
      · rw [hx, hy]
      · exact absurd (hx ▸ hxy) (hz y hy)
    · rcases List.mem_cons.1 hy with hy | hy
      · exact absurd (hy ▸ hyx) (hz x hx)
      · exact ih hzs hx hy

/-- a key has one entry; `k` itself need not be steady, as long as it is equal to a value that is -/
theorem entryOf?_eq_some {a k : Value} (ha : Steady Distinct Same a) (hk : k.Distinct)
    (hak : Same a k) {fs : List (Value × Value)} (hd : ∀ f ∈ fs, f.1.Distinct)
    (hp : fs.Pairwise fun f g => ¬ Same f.1 g.1) {f : Value × Value} (hf : f ∈ fs)
    (h : Same k f.1) : entryOf? k fs = some f := by
  have hsome : (entryOf? k fs).isSome := List.find?_isSome.2 ⟨f, hf, h⟩
  obtain ⟨g, hg⟩ := Option.isSome_iff_exists.1 hsome
  obtain ⟨hgm, hkg⟩ := mem_of_entryOf? hg
  have haf := ha.trans hk (hd f hf) hak h
  have hag := ha.trans hk (hd g hgm) hak hkg
  have hfg := ha.eucl (hd f hf) (hd g hgm) haf hag
  have hgf := ha.eucl (hd g hgm) (hd f hf) hag haf
  rw [hg, eq_of_pairwise (r := fun f g => Same f.1 g.1) hp hgm hf hgf hfg]

theorem covers_of_eqvLookup {es fs : List (Value × Value)} (hl : es.length = fs.length)
    (h : eqvLookup es fs = true) : Covers SameEntry es fs := by
  refine ⟨hl, fun e he => ?_⟩
  obtain ⟨f, hf, hv⟩ := eqvLookup_iff.1 h e he
  obtain ⟨hm, hk⟩ := mem_of_entryOf? hf
  exact ⟨f, hm, hk, hv⟩

theorem eqvLookup_of_covers {es fs : List (Value × Value)} (h : Covers SameEntry es fs)
    (hs : ∀ e ∈ es, ∃ a, Steady Distinct Same a ∧ Same a e.1) (he : ∀ e ∈ es, e.1.Distinct)
    (hd : ∀ f ∈ fs, f.1.Distinct) (hp : fs.Pairwise fun f g => ¬ Same f.1 g.1) :
    eqvLookup es fs = true := by
  refine eqvLookup_iff.2 fun e hm => ?_
  obtain ⟨f, hf, hk, hv⟩ := h.2 e hm
  obtain ⟨a, ha, hae⟩ := hs e hm
  exact ⟨f, entryOf?_eq_some ha (he e hm) hae hd hp hf hk, hv⟩

/-! ## every value -/

/-- a kind of values whose contents are compared by `r` -/
theorem steady_of {α : Type} {good : α → Prop} {r : α → α → Prop} {made : α → Value} {x : α}
    (heqv : ∀ {x b}, eqv (made x) b = true ↔ ∃ y, b = made y ∧ r x y)
    (hgood : ∀ {y}, (made y).Distinct → good y) (h : Steady good r x) :
    Steady Distinct Same (made x) where
  refl := heqv.2 ⟨x, rfl, h.refl⟩
  trans hb hc hab hbc := by
    obtain ⟨y, rfl, hxy⟩ := heqv.1 hab
    obtain ⟨z, rfl, hyz⟩ := heqv.1 hbc
    exact heqv.2 ⟨z, rfl, h.trans (hgood hb) (hgood hc) hxy hyz⟩
  eucl hb hc hab hac := by
    obtain ⟨y, rfl, hxy⟩ := heqv.1 hab
    obtain ⟨z, rfl, hxz⟩ := heqv.1 hac
    exact heqv.2 ⟨z, rfl, h.eucl (hgood hb) (hgood hc) hxy hxz⟩

theorem steady_plain {a : Value} (h : a.plain = true) : Steady Distinct Same a where
  refl := (eqv_plain h).2 rfl
  trans _ _ hab hbc := (eqv_plain h).1 hab ▸ hbc
  eucl _ _ hab hac := (eqv_plain h).1 hab ▸ hac

/-- the keys are unequal, and all keys and values are of distinct elements -/
def DistinctMap (es : List (Value × Value)) : Prop :=
  (es.Pairwise fun e f => ¬ Same e.1 f.1) ∧ ∀ e ∈ es, e.1.Distinct ∧ e.2.Distinct

theorem distinctMap_iff {es : List (Value × Value)} : (map es).Distinct ↔ DistinctMap es := by
  rw [Distinct, distinctEntries_iff, pairwise_iff, List.pairwise_map]
  rfl

theorem steady_entries {es : List (Value × Value)} (h : DistinctMap es)
    (hk : ∀ e ∈ es, Steady Distinct Same e.1) (hv : ∀ e ∈ es, Steady Distinct Same e.2) :
    Steady DistinctMap (fun es fs => es.length = fs.length ∧ eqvLookup es fs = true) es := by
  have hp : es.Pairwise fun e f => ¬ SameEntry e f := h.1.imp fun hne hs => hne hs.1
  have hc := Steady.covers (fun e he => (hk e he).prod (hv e he)) h.2 hp
  have hself : ∀ e ∈ es, ∃ a, Steady Distinct Same a ∧ Same a e.1 :=
    fun e he => ⟨e.1, hk e he, (hk e he).refl⟩
  refine ⟨⟨rfl, ?_⟩, ?_, ?_⟩
  · exact eqvLookup_of_covers hc.refl hself (fun e he => (h.2 e he).1) (fun e he => (h.2 e he).1)
      h.1
  · intro fs gs hf hg hab hbc
    have hac := hc.trans hf.2 hg.2 (covers_of_eqvLookup hab.1 hab.2)
      (covers_of_eqvLookup hbc.1 hbc.2)
    exact ⟨hac.1, eqvLookup_of_covers hac hself (fun e he => (h.2 e he).1)
      (fun f hf => (hg.2 f hf).1) hg.1⟩
  · intro fs gs hf hg hab hac
    have hcf := covers_of_eqvLookup hab.1 hab.2
    have hbc := hc.eucl hf.2 hg.2 hcf (covers_of_eqvLookup hac.1 hac.2)
    -- a key of `fs` is not known to be steady, but it is equal to one of `es`
    have hmet : ∀ f ∈ fs, ∃ a, Steady Distinct Same a ∧ Same a f.1 := by
      intro f hm
      obtain ⟨e, he, hs⟩ := hcf.met (fun e he => (hk e he).prod (hv e he)) h.2 hf.2 hp f hm
      exact ⟨e.1, hk e he, hs.1⟩
    exact ⟨hbc.1, eqvLookup_of_covers hbc hmet (fun f hm => (hf.2 f hm).1)
      (fun g hm => (hg.2 g hm).1) hg.1⟩

theorem steady {a : Value} (h : a.Distinct) : Steady Distinct Same a := by
  induction a with
  | list xs ih =>
    have hd := distinctItems_iff.1 h
    exact steady_of eqv_list distinctItems_iff.1
      (Steady.forall₂ fun x hx => ih x hx (hd x hx))
  | tuple xs ih =>
    have hd := distinctItems_iff.1 h
    exact steady_of eqv_tuple distinctItems_iff.1
      (Steady.forall₂ fun x hx => ih x hx (hd x hx))
  | udt name fs ih =>
    have hd := distinctFields_iff.1 h
    refine steady_of eqv_udt
      (fun hf f hm => ⟨trivial, distinctFields_iff.1 hf f hm⟩)
      (Steady.forall₂ fun f hf => (steady_eq f.1).prod (ih f hf (hd f hf)))
  | set xs ih =>
    obtain ⟨hp, hd⟩ := h
    have hd := distinctItems_iff.1 hd
    exact steady_of eqv_set (fun hs => distinctItems_iff.1 hs.2)
      (Steady.covers (fun x hx => ih x hx (hd x hx)) hd (pairwise_iff.1 hp))
  | map es ih =>
    have hd := distinctMap_iff.1 h
    exact steady_of eqv_map distinctMap_iff.1
      (steady_entries hd (fun e he => (ih e he).1 (hd.2 e he).1)
        (fun e he => (ih e he).2 (hd.2 e he).2))
  | _ => exact steady_plain rfl

theorem beq_refl {a : Value} (ha : a.Distinct) : (a == a) = true := (steady ha).refl

theorem beq_symm {a b : Value} (ha : a.Distinct) (hb : b.Distinct) (h : (a == b) = true) :
    (b == a) = true :=
  (steady ha).symm ha hb h

theorem beq_trans {a b c : Value} (ha : a.Distinct) (hb : b.Distinct) (hc : c.Distinct)
    (hab : (a == b) = true) (hbc : (b == c) = true) : (a == c) = true :=
  (steady ha).trans hb hc hab hbc

theorem beq_comm {a b : Value} (ha : a.Distinct) (hb : b.Distinct) : (a == b) = (b == a) :=
  Bool.eq_iff_iff.2 ⟨beq_symm ha hb, beq_symm hb ha⟩

/-! ## the laws together -/

/-- how two values compare, given how their parts do: place by place in lists, tuples and records,
by size and membership in sets and maps, and by identity where there are no parts -/
def SameBy (r : Value → Value → Prop) : Value → Value → Prop
  | list xs, list ys => List.Forall₂ r xs ys
  | tuple xs, tuple ys => List.Forall₂ r xs ys
  | udt a fs, udt b gs => a = b ∧ List.Forall₂ (fun f g => f.1 = g.1 ∧ r f.2 g.2) fs gs
  | set xs, set ys => Covers r xs ys
  | map es, map fs => Covers (fun e f => r e.1 f.1 ∧ r e.2 f.2) es fs
  | a, b => a = b

/-- entries are looked up as they are met, where no two keys are equal -/
theorem eqvLookup_iff_covers {es fs : List (Value × Value)} (he : (map es).Distinct)
    (hf : (map fs).Distinct) (hl : es.length = fs.length) :
    eqvLookup es fs = true ↔ Covers SameEntry es fs := by
  have hes := distinctMap_iff.1 he
  have hfs := distinctMap_iff.1 hf
  refine ⟨covers_of_eqvLookup hl, fun h => ?_⟩
  have hself : ∀ e ∈ es, ∃ a, Steady Distinct Same a ∧ Same a e.1 := by
    intro e hm
    have hs := steady (hes.2 e hm).1
    exact ⟨e.1, hs, hs.refl⟩
  exact eqvLookup_of_covers h hself (fun e hm => (hes.2 e hm).1) (fun f hm => (hfs.2 f hm).1) hfs.1

theorem same_iff_sameBy {a b : Value} (ha : a.Distinct) (hb : b.Distinct) :
    Same a b ↔ SameBy Same a b := by
  cases a with
  | list xs =>
    refine eqv_list.trans ?_
    cases b <;> simp [SameBy]
  | tuple xs =>
    refine eqv_tuple.trans ?_
    cases b <;> simp [SameBy]
  | udt name fs =>
    refine eqv_udt.trans ?_
    cases b <;> simp [SameBy]
    grind
  | set xs =>
    refine eqv_set.trans ?_
    cases b <;> simp [SameBy]
  | map es =>
    refine eqv_map.trans ?_
    cases b with
    | map fs =>
      have hl := eqvLookup_iff_covers ha hb
      constructor
      · rintro ⟨gs, hg, hn, h⟩
        cases hg
        exact (hl hn).1 h
      · intro h
        exact ⟨fs, rfl, h.1, (hl h.1).2 h⟩
    | _ => simp [SameBy]
  | _ => exact (eqv_plain rfl).trans (by cases b <;> simp [SameBy])

/-- Equality of values is an equivalence, and it is what `SameBy` says of their parts. -/
theorem beq_equivalence (a b c : Value) (ha : a.Distinct) (hb : b.Distinct) (hc : c.Distinct) :
    (a == a) = true ∧
    ((a == b) = true → (b == a) = true) ∧
    ((a == b) = true → (b == c) = true → (a == c) = true) ∧
    ((a == b) = true ↔ SameBy (fun x y => (x == y) = true) a b) :=
  ⟨beq_refl ha, beq_symm ha hb, beq_trans ha hb hc, same_iff_sameBy ha hb⟩

/-- sets in a set, a set as the key of a map, and the map in a record in a set, each time in another
order; the float is not a number -/
theorem beq_equivalence_nested :
    let record (ns : List Value) : Value :=
      .udt "u" [("m", .map [(.set ns, .float 0x7fc00000), (.null, .double 0)])]
    let record' (ns : List Value) : Value :=
      .udt "u" [("m", .map [(.null, .double 0), (.set ns, .float 0x7fc00000)])]
    let a : Value := .set [record [.int 1, .int 2], .set [.set [], .text "x"]]
    let b : Value := .set [.set [.text "x", .set []], record' [.int 2, .int 1]]
    let c : Value := .set [record' [.int 1, .int 2], .set [.text "x", .set []]]
    (a.Distinct ∧ b.Distinct ∧ c.Distinct) ∧
    (a == a) = true ∧
    ((a == b) = true → (b == a) = true) ∧
    ((a == b) = true → (b == c) = true → (a == c) = true) ∧
    ((a == b) = true ↔ SameBy (fun x y => (x == y) = true) a b) ∧
    (a == b) = true ∧ (b == c) = true := by
  intro record record' a b c
  have ha : a.Distinct := by decide
  have hb : b.Distinct := by decide
  have hc : c.Distinct := by decide
  obtain ⟨hrefl, hsymm, htrans, hsame⟩ := beq_equivalence a b c ha hb hc
  exact ⟨⟨ha, hb, hc⟩, hrefl, hsymm, htrans, hsame, by decide, by decide⟩

end Cql.Value
