import Mathlib.Data.List.Perm.Basic
import Cql.Host.Fitting
import Cql.Host.Reading

/-!
# Sorted collections

`Host.order` compares data of one shape; across shapes it means nothing, so it is a linear order
only as far as a shape holds the data (`Linear`).  It is put together from the orders of the parts
by a few rules, one for each kind of data: a key that tells apart, the first difference of a pair,
and the first difference of two lists, whose places may have shapes of their own (`Each`).

An ascending list is the only ascending one of its elements.  So what is sorted does not depend on
the order in which it came.

* `Linear.by_key`, `Linear.pair`, `Linear.lex`   the rules;
* `linear_of_bindable`                        data that may be compared;
* `sortedSet_of_perm`, `sortedMap_of_perm`    sorted collections.
-/

namespace Cql

namespace Host

/-! ## orders of parts -/

section
variable {α β : Type}

/-- `cmp` is a linear order as far as `p` holds -/
structure Linear (p : α → Prop) (cmp : α → α → Ordering) : Prop where
  eq_iff : ∀ {a b}, p a → p b → (cmp a b = .eq ↔ a = b)
  swap : ∀ {a b}, p a → p b → cmp b a = (cmp a b).swap
  trans : ∀ {a b c}, p a → p b → p c → cmp a b = .lt → cmp b c = .lt → cmp a c = .lt

namespace Linear
variable {p q : α → Prop} {cmp : α → α → Ordering}

theorem refl (h : Linear p cmp) {a : α} (ha : p a) : cmp a a = .eq := (h.eq_iff ha ha).2 rfl

theorem asymm (h : Linear p cmp) {a b : α} (ha : p a) (hb : p b) (hab : cmp a b = .lt) :
    cmp b a = .gt := by
  rw [h.swap ha hb, hab]
  rfl

theorem mono (h : Linear p cmp) (hq : ∀ a, q a → p a) : Linear q cmp where
  eq_iff ha hb := h.eq_iff (hq _ ha) (hq _ hb)
  swap ha hb := h.swap (hq _ ha) (hq _ hb)
  trans ha hb hc := h.trans (hq _ ha) (hq _ hb) (hq _ hc)

/-- data that is told apart by a key and compared by it -/
theorem by_key {r : β → Prop} {cmp' : β → β → Ordering} (h : Linear r cmp') (f : α → β)
    (hf : ∀ a, p a → r (f a)) (inj : ∀ a b, p a → p b → f a = f b → a = b)
    (hcmp : ∀ a b, p a → p b → cmp a b = cmp' (f a) (f b)) : Linear p cmp where
  eq_iff {a b} ha hb := by
    rw [hcmp a b ha hb, h.eq_iff (hf a ha) (hf b hb)]
    exact ⟨inj a b ha hb, congrArg f⟩
  swap {a b} ha hb := by
    rw [hcmp b a hb ha, hcmp a b ha hb]
    exact h.swap (hf a ha) (hf b hb)
  trans {a b c} ha hb hc := by
    rw [hcmp a b ha hb, hcmp b c hb hc, hcmp a c ha hc]
    exact h.trans (hf a ha) (hf b hb) (hf c hc)

/-- data made in one way from parts -/
theorem made {r : β → Prop} {cmp' : β → β → Ordering} (h : Linear r cmp') {g : β → α}
    (hp : ∀ x, p x → ∃ b, r b ∧ g b = x) (inj : ∀ a b, g a = g b → a = b)
    (hcmp : ∀ a b, cmp (g a) (g b) = cmp' a b) : Linear p cmp where
  eq_iff hx hy := by
    obtain ⟨a, ha, rfl⟩ := hp _ hx
    obtain ⟨b, hb, rfl⟩ := hp _ hy
    rw [hcmp, h.eq_iff ha hb]
    exact ⟨congrArg g, inj a b⟩
  swap hx hy := by
    obtain ⟨a, ha, rfl⟩ := hp _ hx
    obtain ⟨b, hb, rfl⟩ := hp _ hy
    rw [hcmp, hcmp]
    exact h.swap ha hb
  trans hx hy hz := by
    obtain ⟨a, ha, rfl⟩ := hp _ hx
    obtain ⟨b, hb, rfl⟩ := hp _ hy
    obtain ⟨c, hc, rfl⟩ := hp _ hz
    rw [hcmp, hcmp, hcmp]
    exact h.trans ha hb hc

end Linear

theorem thenBy_eq_lt {a b : Ordering} : thenBy a b = .lt ↔ a = .lt ∨ a = .eq ∧ b = .lt := by
  cases a <;> simp [thenBy]

theorem thenBy_eq_eq {a b : Ordering} : thenBy a b = .eq ↔ a = .eq ∧ b = .eq := by
  cases a <;> simp [thenBy]

theorem swap_thenBy (a b : Ordering) : (thenBy a b).swap = thenBy a.swap b.swap := by
  cases a <;> rfl

/-- the first difference of two parts -/
theorem Linear.pair {p : α → Prop} {q : β → Prop} {c : α → α → Ordering} {d : β → β → Ordering}
    (hc : Linear p c) (hd : Linear q d) :
    Linear (fun x : α × β => p x.1 ∧ q x.2) (fun x y => thenBy (c x.1 y.1) (d x.2 y.2)) where
  eq_iff {x y} hx hy := by
    rw [thenBy_eq_eq, hc.eq_iff hx.1 hy.1, hd.eq_iff hx.2 hy.2, Prod.ext_iff]
  swap {x y} hx hy := by rw [swap_thenBy, hc.swap hx.1 hy.1, hd.swap hx.2 hy.2]
  trans {x y z} hx hy hz := by
    simp only [thenBy_eq_lt]
    rintro (hxy | ⟨hxy, hxy'⟩) (hyz | ⟨hyz, hyz'⟩)
    · exact .inl (hc.trans hx.1 hy.1 hz.1 hxy hyz)
    · rw [(hc.eq_iff hy.1 hz.1).1 hyz] at hxy
      exact .inl hxy
    · rw [← (hc.eq_iff hx.1 hy.1).1 hxy] at hyz
      exact .inl hyz
    · rw [(hc.eq_iff hx.1 hy.1).1 hxy]
      exact .inr ⟨hyz, hd.trans hx.2 hy.2 hz.2 hxy' hyz'⟩

/-! ## lists -/

/-- from the left; a list comes before those that go on -/
def lex (cmp : α → α → Ordering) : List α → List α → Ordering
  | [], [] => .eq
  | [], _ :: _ => .lt
  | _ :: _, [] => .gt
  | a :: as, b :: bs => thenBy (cmp a b) (lex cmp as bs)

/-- what is in place `i` is of the kind `p i` -/
def Each (p : Nat → α → Prop) : List α → Prop
  | [] => True
  | x :: xs => p 0 x ∧ Each (fun i => p (i + 1)) xs

theorem each_of_forall {p : α → Prop} {xs : List α} (h : ∀ x ∈ xs, p x) : Each (fun _ => p) xs := by
  induction xs with
  | nil => trivial
  | cons x xs ih =>
    obtain ⟨hx, hxs⟩ := List.forall_mem_cons.1 h
    exact ⟨hx, ih hxs⟩

theorem each_of_forall₂ {r : β → α → Prop} {ss : List β} {xs : List α}
    (h : List.Forall₂ r ss xs) : Each (fun i x => ∃ s, ss[i]? = .some s ∧ r s x) xs := by
  induction h with
  | nil => trivial
  | cons hr _ ih => exact ⟨⟨_, rfl, hr⟩, ih⟩

/-- the first difference of two lists -/
theorem Linear.lex {p : Nat → α → Prop} {cmp : α → α → Ordering} (h : ∀ i, Linear (p i) cmp) :
    Linear (Each p) (lex cmp) where
  eq_iff {as bs} ha hb := by
    induction as generalizing bs p with
    | nil => cases bs <;> simp [Host.lex]
    | cons a as ih =>
      cases bs with
      | nil => simp [Host.lex]
      | cons b bs =>
        rw [Host.lex, thenBy_eq_eq, (h 0).eq_iff ha.1 hb.1, ih (fun i => h (i + 1)) ha.2 hb.2,
          List.cons.injEq]
  swap {as bs} ha hb := by
    induction as generalizing bs p with
    | nil => cases bs <;> rfl
    | cons a as ih =>
      cases bs with
      | nil => rfl
      | cons b bs =>
        rw [Host.lex, Host.lex, swap_thenBy, (h 0).swap ha.1 hb.1, ih (fun i => h (i + 1)) ha.2 hb.2]
  trans {as bs cs} ha hb hc := by
    induction as generalizing bs cs p with
    | nil =>
      cases cs with
      | nil => cases bs <;> simp [Host.lex]
      | cons => exact fun _ _ => rfl
    | cons a as ih =>
      cases bs with
      | nil => exact fun h _ => nomatch h
      | cons b bs =>
        cases cs with
        | nil => exact fun _ h => nomatch h
        | cons c cs =>
          intro hab hbc
          have hrest := ih (fun i => h (i + 1)) ha.2 hb.2 hc.2
          simp only [Host.lex, thenBy_eq_lt] at hab hbc ⊢
          rcases hab with hab | ⟨hab, hab'⟩ <;> rcases hbc with hbc | ⟨hbc, hbc'⟩
          · exact .inl ((h 0).trans ha.1 hb.1 hc.1 hab hbc)
          · rw [((h 0).eq_iff hb.1 hc.1).1 hbc] at hab
            exact .inl hab
          · rw [← ((h 0).eq_iff ha.1 hb.1).1 hab] at hbc
            exact .inl hbc
          · rw [((h 0).eq_iff ha.1 hb.1).1 hab]
            exact .inr ⟨hbc, hrest hab' hbc'⟩

end

/-! ## scalars -/

theorem compareInt_eq_lt {a b : Int} : compareInt a b = .lt ↔ a < b := by
  unfold compareInt
  split_ifs <;> simp_all

theorem compareInt_eq_eq {a b : Int} : compareInt a b = .eq ↔ a = b := by
  unfold compareInt
  split_ifs with h h'
  · exact ⟨nofun, fun e => absurd e (Int.ne_of_lt h)⟩
  · exact ⟨fun _ => h', fun _ => rfl⟩
  · exact ⟨nofun, fun e => absurd e h'⟩

theorem linear_compareInt : Linear (fun _ => True) compareInt where
  eq_iff _ _ := compareInt_eq_eq
  swap _ _ := by
    unfold compareInt
    split_ifs <;> first | rfl | omega
  trans _ _ _ := by
    simp only [compareInt_eq_lt]
    exact Int.lt_trans

theorem compareNats_eq_lex (as bs : List Nat) :
    compareNats as bs = lex (fun a b : Nat => compareInt a b) as bs := by
  induction as generalizing bs with
  | nil => cases bs <;> rfl
  | cons a as ih =>
    cases bs with
    | nil => rfl
    | cons b bs => rw [compareNats, lex, ih]

theorem linear_compareNats : Linear (fun _ => True) compareNats := by
  have hnat : Linear (fun _ => True) fun a b : Nat => compareInt a b :=
    linear_compareInt.by_key (fun a : Nat => (a : Int)) (fun _ _ => trivial)
      (fun _ _ _ _ => Int.ofNat.inj) fun _ _ _ _ => rfl
  exact (Linear.lex fun _ => hnat).by_key id (fun _ _ => each_of_forall fun _ _ => trivial)
    (fun _ _ _ _ => id) fun _ _ _ _ => compareNats_eq_lex _ _

theorem orderItems_eq_lex (as bs : List Host) : orderItems as bs = lex order as bs := by
  induction as generalizing bs with
  | nil => cases bs <;> rfl
  | cons a as ih =>
    cases bs with
    | nil => rfl
    | cons b bs => rw [orderItems, lex, ih]

def orderEntry (e f : Host × Host) : Ordering := thenBy (order e.1 f.1) (order e.2 f.2)

theorem orderEntries_eq_lex (es fs : List (Host × Host)) :
    orderEntries es fs = lex orderEntry es fs := by
  induction es generalizing fs with
  | nil => cases fs <;> rfl
  | cons e es ih =>
    cases fs with
    | nil => rfl
    | cons f fs =>
      rw [orderEntries, lex, ih, orderEntry]
      cases order e.1 f.1 <;> rfl

/-- numbers that tell apart -/
theorem linear_by_number {β : Type} {q : β → Prop} (f : β → Int)
    (inj : ∀ a b, q a → q b → f a = f b → a = b) :
    Linear q fun a b => compareInt (f a) (f b) :=
  linear_compareInt.by_key f (fun _ _ => trivial) inj fun _ _ _ _ => rfl

/-- data made from what a number tells apart -/
theorem linear_scalar {β : Type} {p : Host → Prop} {g : β → Host} (f : β → Int)
    (hp : ∀ x, p x → ∃ b, g b = x) (hg : ∀ a b, g a = g b → a = b) (hf : ∀ a b, f a = f b → a = b)
    (hcmp : ∀ a b, order (g a) (g b) = compareInt (f a) (f b)) : Linear p order := by
  have h : Linear (fun _ : β => True) fun a b => compareInt (f a) (f b) :=
    linear_by_number f fun a b _ _ => hf a b
  exact h.made (fun x hx => (hp x hx).imp fun _ hb => ⟨trivial, hb⟩) hg hcmp

theorem linear_bool : Linear Shape.bool.Holds order := by
  refine linear_scalar (fun b => (b.toNat : Int)) ?_ (fun _ _ => bool.inj) (by decide) fun _ _ => rfl
  rintro _ ⟨⟩
  exact ⟨_, rfl⟩

theorem linear_int (t : IntType) : Linear (Shape.int t).Holds order := by
  have h : Linear (fun n : HostInt => n.type = t) fun m n => compareInt m.val n.val := by
    refine linear_by_number HostInt.val ?_
    rintro ⟨t, m, hm⟩ ⟨t', n, hn⟩ ht ht' h
    obtain rfl : t = t' := Eq.trans ht ht'.symm
    obtain rfl : m = n := h
    rfl
  refine h.made ?_ (fun _ _ => int.inj) fun _ _ => rfl
  rintro _ ⟨⟩
  exact ⟨_, rfl, rfl⟩

theorem linear_string : Linear Shape.string.Holds order := by
  have h : Linear (fun _ : String => True) compareText :=
    linear_compareNats.by_key (fun s => s.toList.map Char.toNat) (fun _ _ => trivial)
      (fun a b _ _ h => String.toList_inj.1 (List.map_injective_iff.2 (fun _ _ => Char.toNat_inj.1) h))
      fun _ _ _ _ => rfl
  refine h.made ?_ (fun _ _ => string.inj) fun _ _ => rfl
  rintro _ ⟨⟩
  exact ⟨_, trivial, rfl⟩

theorem uuid_ext {a b : Uuid} (h : (a.bits.toNat : Int) = b.bits.toNat) : a = b := by
  obtain ⟨a⟩ := a
  obtain ⟨b⟩ := b
  exact congrArg Uuid.mk (BitVec.eq_of_toNat_eq (Int.ofNat.inj h))

theorem linear_uuid : Linear Shape.uuid.Holds order := by
  refine linear_scalar (fun u => (u.bits.toNat : Int)) ?_ (fun _ _ => uuid.inj)
    (fun _ _ => uuid_ext) fun _ _ => rfl
  rintro _ ⟨⟩
  exact ⟨_, rfl⟩

/-- an address by its family and its number -/
def addressKey : Inet → Int × Int
  | .v4 a => (0, a.toNat)
  | .v6 a => (1, a.toNat)

theorem addressKey_inj {a b : Inet} (h : addressKey a = addressKey b) : a = b := by
  rcases a with a | a <;> rcases b with b | b
  · rw [BitVec.eq_of_toNat_eq (Int.ofNat.inj (Prod.mk.inj h).2)]
  · cases (Prod.mk.inj h).1
  · cases (Prod.mk.inj h).1
  · rw [BitVec.eq_of_toNat_eq (Int.ofNat.inj (Prod.mk.inj h).2)]

theorem linear_address {p : Host → Prop} (hp : ∀ x, p x → ∃ a, inet a = x) : Linear p order := by
  have h : Linear (fun _ : Inet => True) fun a b =>
      thenBy (compareInt (addressKey a).1 (addressKey b).1)
        (compareInt (addressKey a).2 (addressKey b).2) :=
    (linear_compareInt.pair linear_compareInt).by_key addressKey (fun _ _ => ⟨trivial, trivial⟩)
      (fun _ _ _ _ => addressKey_inj) fun _ _ _ _ => rfl
  refine h.made (fun x hx => (hp x hx).imp fun _ ha => ⟨trivial, ha⟩) (fun _ _ => inet.inj) ?_
  rintro (a | a) (b | b) <;> rfl

theorem linear_wrapped {w : Wrapper} (hw : w ≠ .double) :
    Linear (Shape.wrapped w).Holds order := by
  cases w with
  | double => exact absurd rfl hw
  | blob =>
    have h : Linear (fun _ : Bytes => True) fun a b =>
        compareNats (a.map UInt8.toNat) (b.map UInt8.toNat) :=
      linear_compareNats.by_key (List.map UInt8.toNat) (fun _ _ => trivial)
        (fun _ _ _ _ h => List.map_injective_iff.2 (fun _ _ => UInt8.toNat_inj.1) h)
        fun _ _ _ _ => rfl
    refine h.made ?_ (fun _ _ => blob.inj) fun _ _ => rfl
    rintro _ ⟨⟩
    exact ⟨_, trivial, rfl⟩
  | timeUuid =>
    refine linear_scalar (fun u => (u.bits.toNat : Int)) ?_ (fun _ _ => timeUuid.inj)
      (fun _ _ => uuid_ext) fun _ _ => rfl
    rintro _ ⟨⟩
    exact ⟨_, rfl⟩
  | date =>
    refine linear_scalar (fun d => (d.raw.toNat : Int)) ?_ (fun _ _ => date.inj) ?_ fun _ _ => rfl
    · rintro _ ⟨⟩
      exact ⟨_, rfl⟩
    · rintro ⟨a⟩ ⟨b⟩ h
      exact congrArg Date.mk (UInt32.toNat_inj.1 (Int.ofNat.inj h))
  | time =>
    refine linear_scalar (fun t => t.nanos.toInt) ?_ (fun _ _ => time.inj) ?_ fun _ _ => rfl
    · rintro _ ⟨⟩
      exact ⟨_, rfl⟩
    · rintro ⟨a⟩ ⟨b⟩ h
      exact congrArg Time.mk (Int64.toInt_inj.1 h)
  | timestamp =>
    refine linear_scalar (fun t => t.millis.toInt) ?_ (fun _ _ => timestamp.inj) ?_ fun _ _ => rfl
    · rintro _ ⟨⟩
      exact ⟨_, rfl⟩
    · rintro ⟨a⟩ ⟨b⟩ h
      exact congrArg Timestamp.mk (Int64.toInt_inj.1 h)
  | tinyInt =>
    refine linear_scalar Int8.toInt ?_ (fun _ _ => tinyInt.inj) (fun _ _ => Int8.toInt_inj.1)
      fun _ _ => rfl
    rintro _ ⟨⟩
    exact ⟨_, rfl⟩
  | smallInt =>
    refine linear_scalar Int16.toInt ?_ (fun _ _ => smallInt.inj) (fun _ _ => Int16.toInt_inj.1)
      fun _ _ => rfl
    rintro _ ⟨⟩
    exact ⟨_, rfl⟩
  | bigInt =>
    refine linear_scalar Int64.toInt ?_ (fun _ _ => bigInt.inj) (fun _ _ => Int64.toInt_inj.1)
      fun _ _ => rfl
    rintro _ ⟨⟩
    exact ⟨_, rfl⟩
  | counter =>
    refine linear_scalar Int64.toInt ?_ (fun _ _ => counter.inj) (fun _ _ => Int64.toInt_inj.1)
      fun _ _ => rfl
    rintro _ ⟨⟩
    exact ⟨_, rfl⟩

/-! ## all that is compared -/

/-- places of shapes each with an order of its own -/
theorem linear_places {ss : List Shape} (h : ∀ s ∈ ss, Linear s.Holds order) :
    Linear (List.Forall₂ Shape.Holds ss) (lex order) := by
  refine (Linear.lex fun i => ?_).mono fun _ => each_of_forall₂
  cases hs : ss[i]? with
  | none => exact ⟨nofun, nofun, nofun⟩
  | some s =>
    refine (h s (List.mem_of_getElem? hs)).mono ?_
    rintro a ⟨s', hs', ha⟩
    obtain rfl : s = s' := Option.some.inj hs'
    exact ha

/-- what optional data holds -/
def inside : Host → List Host
  | some x => [x]
  | _ => []

/-- absent data comes first, as a list without elements does -/
theorem linear_option {s : Shape} (h : Linear s.Holds order) :
    Linear (Shape.option s).Holds order := by
  refine (Linear.lex fun _ => h).by_key inside ?_ ?_ ?_
  · intro a ha
    cases ha with
    | none => trivial
    | some h => exact ⟨h, trivial⟩
  · intro a b ha hb he
    cases ha with
    | none =>
      cases hb with
      | none => rfl
      | some => cases he
    | some =>
      cases hb with
      | none => cases he
      | some => rw [List.singleton_inj.1 he]
  · intro a b ha hb
    cases ha with
    | none => cases hb <;> rfl
    | @some _ x =>
      cases hb with
      | none => rfl
      | @some _ y =>
        show order x y = thenBy (order x y) .eq
        cases order x y <;> rfl

theorem linear_list {s : Shape} (h : Linear s.Holds order) :
    Linear (Shape.list s).Holds order := by
  refine (Linear.lex fun _ => h).made ?_ (fun _ _ => list.inj) orderItems_eq_lex
  intro x hx
  cases hx with
  | list h => exact ⟨_, each_of_forall h, rfl⟩

theorem linear_set {s : Shape} (h : Linear s.Holds order) : Linear (Shape.set s).Holds order := by
  refine (Linear.lex fun _ => h).made ?_ (fun _ _ => set.inj) orderItems_eq_lex
  intro x hx
  cases hx with
  | set h => exact ⟨_, each_of_forall h, rfl⟩

theorem linear_map {k v : Shape} (hk : Linear k.Holds order) (hv : Linear v.Holds order) :
    Linear (Shape.map k v).Holds order := by
  refine (Linear.lex fun _ => hk.pair hv).made ?_ (fun _ _ => map.inj) orderEntries_eq_lex
  intro x hx
  cases hx with
  | map hk hv => exact ⟨_, each_of_forall fun e he => ⟨hk e he, hv e he⟩, rfl⟩

theorem linear_tuple {ss : List Shape} (h : ∀ s ∈ ss, Linear s.Holds order) :
    Linear (Shape.tuple ss).Holds order := by
  refine (linear_places h).made ?_ (fun _ _ => tuple.inj) orderItems_eq_lex
  intro x hx
  cases hx with
  | tuple h => exact ⟨_, h, rfl⟩

theorem linear_record {typeName : String} {style : RecordStyle} {fields : List Shape.Field}
    (h : ∀ f ∈ fields, Linear f.shape.Holds order) :
    Linear (Shape.record typeName style fields).Holds order := by
  refine (linear_places (List.forall_mem_map.2 h)).made
    (g := record typeName (fields.map FieldOf.name)) ?_ (fun _ _ he => (record.inj he).2.2)
    orderItems_eq_lex
  intro x hx
  cases hx with
  | record h => exact ⟨_, h, rfl⟩

theorem linear_of_bindable {s : Shape} {key : Bool} (h : s.Bindable key) (hkey : key = true) :
    Linear s.Holds order := by
  induction h with
  | bool => exact linear_bool
  | int t => exact linear_int t
  | single | double => cases hkey
  | string => exact linear_string
  | uuid => exact linear_uuid
  | inet | inetOf =>
    refine linear_address ?_
    rintro _ ⟨⟩
    exact ⟨_, rfl⟩
  | wrapped exact => exact linear_wrapped (exact hkey)
  | option _ _ ih => exact linear_option (ih hkey)
  | list _ ih => exact linear_list (ih hkey)
  | set _ ih => exact linear_set (ih rfl)
  | map _ _ ihk ihv => exact linear_map (ihk rfl) (ihv hkey)
  | tuple _ ih => exact linear_tuple fun s hs => ih s hs hkey
  | record _ _ ih => exact linear_record fun f hf => ih f hf hkey

/-! ## sorting -/

section
variable {p : Host → Prop} (hp : Linear p order)
include hp

theorem insertSorted_spec {k v : Host} {es : List (Host × Host)} (hk : p k)
    (hes : ∀ e ∈ es, p e.1) (hasc : Ascending (es.map Prod.fst)) (hnew : ∀ e ∈ es, e.1 ≠ k) :
    (insertSorted k v es).Perm ((k, v) :: es) ∧
      Ascending ((insertSorted k v es).map Prod.fst) := by
  induction es with
  | nil => exact ⟨.refl _, List.pairwise_singleton _ _⟩
  | cons e es ih =>
    obtain ⟨l, w⟩ := e
    obtain ⟨hl, hrest⟩ := List.forall_mem_cons.1 hes
    obtain ⟨hlt, htail⟩ := List.pairwise_cons.1 hasc
    obtain ⟨hne, hnew⟩ := List.forall_mem_cons.1 hnew
    rw [insertSorted]
    cases ho : order k l with
    | lt =>
      refine ⟨.refl _, List.pairwise_cons.2 ⟨List.forall_mem_cons.2 ⟨ho, fun m hm => ?_⟩, hasc⟩⟩
      obtain ⟨f, hf, rfl⟩ := List.mem_map.1 hm
      exact hp.trans hk hl (hrest f hf) ho (hlt f.1 hm)
    | eq => exact absurd ((hp.eq_iff hk hl).1 ho).symm hne
    | gt =>
      obtain ⟨hperm, hasc'⟩ := ih hrest htail hnew
      have hlk : order l k = .lt := by
        rw [hp.swap hk hl, ho]
        rfl
      refine ⟨(hperm.cons _).trans (.swap _ _ _), List.pairwise_cons.2 ⟨fun m hm => ?_, hasc'⟩⟩
      have hmem : m ∈ k :: es.map Prod.fst := (hperm.map Prod.fst).subset hm
      rcases List.mem_cons.1 hmem with rfl | hm
      · exact hlk
      · exact hlt m hm

theorem foldl_insertSorted {fs acc : List (Host × Host)} (hes : ∀ e ∈ fs ++ acc, p e.1)
    (hnew : ((fs ++ acc).map Prod.fst).Nodup) (hasc : Ascending (acc.map Prod.fst)) :
    (fs.foldl (fun acc e => insertSorted e.1 e.2 acc) acc).Perm (fs ++ acc) ∧
      Ascending ((fs.foldl (fun acc e => insertSorted e.1 e.2 acc) acc).map Prod.fst) := by
  induction fs generalizing acc with
  | nil => exact ⟨.refl _, hasc⟩
  | cons f fs ih =>
    obtain ⟨hf, hrest⟩ := List.forall_mem_cons.1 hes
    obtain ⟨hfresh, hnew⟩ := List.nodup_cons.1 hnew
    have hacc : ∀ e ∈ acc, p e.1 := fun e he => hrest e (List.mem_append_right _ he)
    have hne : ∀ e ∈ acc, e.1 ≠ f.1 := fun e he h =>
      hfresh (List.mem_map.2 ⟨e, List.mem_append_right _ he, h⟩)
    obtain ⟨hperm, hasc'⟩ := insertSorted_spec hp (v := f.2) hf hacc hasc hne
    have hall : (fs ++ insertSorted f.1 f.2 acc).Perm (f :: (fs ++ acc)) :=
      (hperm.append_left fs).trans List.perm_middle
    obtain ⟨h, h'⟩ := ih (fun e he => hes e (hall.subset he))
      ((hall.map Prod.fst).nodup_iff.2 (List.nodup_cons.2 ⟨hfresh, hnew⟩)) hasc'
    exact ⟨h.trans hall, h'⟩

theorem nodup_of_ascending {xs : List Host} (hxs : ∀ x ∈ xs, p x) (h : Ascending xs) :
    xs.Nodup := by
  refine List.Pairwise.imp_of_mem ?_ h
  rintro a b ha hb hlt rfl
  rw [hp.refl (hxs a ha)] at hlt
  cases hlt

/-- an ascending list is the only one of its elements; `f` is what they are compared by -/
theorem eq_of_ascending {α : Type} (f : α → Host) {as bs : List α} (has : ∀ a ∈ as, p (f a))
    (ha : Ascending (as.map f)) (hb : Ascending (bs.map f)) (h : as.Perm bs) : as = bs := by
  refine List.Perm.eq_of_pairwise ?_ (List.pairwise_map.1 ha) (List.pairwise_map.1 hb) h
  intro a b ha hb hab hba
  have hb' := has b (h.symm.subset hb)
  rw [hp.asymm (has a ha) hb' hab] at hba
  cases hba

theorem sortedEntries_of_perm {es fs : List (Host × Host)} (hes : ∀ e ∈ es, p e.1)
    (he : Ascending (es.map Prod.fst)) (h : fs.Perm es) : sortedEntries fs = es := by
  have hnodup : (es.map Prod.fst).Nodup :=
    nodup_of_ascending hp (List.forall_mem_map.2 hes) he
  have hfs : ∀ f ∈ fs ++ [], p f.1 := by
    rw [List.append_nil]
    exact fun f hf => hes f (h.subset hf)
  have hnodup' : ((fs ++ []).map Prod.fst).Nodup := by
    rw [List.append_nil]
    exact (h.map Prod.fst).nodup_iff.2 hnodup
  obtain ⟨hperm, hasc⟩ := foldl_insertSorted hp hfs hnodup' .nil
  rw [List.append_nil] at hperm
  exact (eq_of_ascending hp Prod.fst hes he hasc (hperm.trans h).symm).symm

theorem sortedMap_of_perm {es fs : List (Host × Host)} (hes : ∀ e ∈ es, p e.1)
    (he : Ascending (es.map Prod.fst)) (h : fs.Perm es) : sortedMap fs = map es := by
  rw [sortedMap, sortedEntries_of_perm hp hes he h]

theorem sortedSet_of_perm {xs zs : List Host} (hxs : ∀ x ∈ xs, p x) (hx : Ascending xs)
    (h : zs.Perm xs) : sortedSet zs = set xs := by
  have hfst (l : List Host) : (l.map fun x => (x, x)).map Prod.fst = l := by
    rw [List.map_map]
    exact List.map_id _
  have hes : ∀ e ∈ xs.map fun x => (x, x), p e.1 := List.forall_mem_map.2 hxs
  have hasc : Ascending ((xs.map fun x => (x, x)).map Prod.fst) := by
    rw [hfst]
    exact hx
  rw [sortedSet, sortedEntries_of_perm hp hes hasc (h.map _), hfst]

end

end Host

end Cql
