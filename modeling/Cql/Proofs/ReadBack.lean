import Mathlib.Data.List.Nodup
import Mathlib.Data.List.Perm.Subperm
import Cql.Proofs.Collections
import Cql.Proofs.Order
import Cql.Proofs.Places

/-!
# What was bound is read back

Binding and reading know nothing of each other: the one goes by the kind of the data, the other by
the shape that is asked for.  They agree on the shapes of data that is both bound and read.  The
proof is by induction on the shape and carries four facts about it at once (`Faithful`), since each
is needed of the parts: that data is read back, that its value stands for it part for part, that
data which is there is not bound to `null`, and that unequal data is bound to unequal values.  The
last of them is what a set and a map need, whose elements and keys are compared after they have
been bound.

* `Host.Gives`           a value that data may come to be bound to;
* `gives_list` …         what that is, for data with parts;
* `Shape.Faithful`       the four facts, one lemma for each kind of shape;
* `faithful_of_bindable` all shapes of data that is bound and read;
* `eq_of_beq_bind`       equal values are bound from equal data;
* `read_bind`            reading back.
-/

namespace Cql

namespace Host

theorem rearranges_refl (x : Host) : Rearranges x x := by
  induction x with
  | none => exact .none
  | some x ih => exact .some ih
  | list xs ih => exact .list (List.forall₂_same.2 ih)
  | set xs ih => exact .set (List.forall₂_same.2 ih) (.refl _)
  | map es ih =>
    refine .map ?_ ?_ (.refl _)
    · exact List.forall₂_same.2 (List.forall_mem_map.2 fun e he => (ih e he).1)
    · exact List.forall₂_same.2 (List.forall_mem_map.2 fun e he => (ih e he).2)
  | tuple xs ih => exact .tuple (List.forall₂_same.2 ih)
  | record _ _ xs ih => exact .record (List.forall₂_same.2 ih)
  | _ => exact .scalar rfl

/-! ## what data may come to be bound to -/

/-- the data, gone through in some order, is bound to the value -/
def Gives (x : Host) (v : Value) : Prop := ∃ y, Rearranges y x ∧ Binds y v

abbrev GivesEntry (e : Host × Host) (u : Value × Value) : Prop := Gives e.1 u.1 ∧ Gives e.2 u.2

section
variable {x : Host} {xs : List Host} {es : List (Host × Host)} {v : Value}

theorem forall₂_gives {ys : List Host} {vs : List Value} (hr : List.Forall₂ Rearranges ys xs)
    (hb : List.Forall₂ Binds ys vs) : List.Forall₂ Gives xs vs :=
  Value.forall₂_comp (fun _ _ y _ _ _ hr hb => ⟨y, hr, hb⟩) hr.flip hb

theorem gives_scalar (single : x.isScalar) (h : Gives x v) : Binds x v := by
  obtain ⟨y, hr, hb⟩ := h
  cases hr with
  | scalar => exact hb
  | none | some | list | set | map | tuple | record => cases single

theorem gives_none (h : Gives none v) : v = .null := by
  obtain ⟨y, hr, hb⟩ := h
  cases hr with
  | scalar single => cases single
  | none =>
    cases hb
    rfl

theorem gives_some (h : Gives (some x) v) : Gives x v := by
  obtain ⟨y, hr, hb⟩ := h
  cases hr with
  | scalar single => cases single
  | some hr => exact ⟨_, hr, hb⟩

theorem gives_list (h : Gives (list xs) v) : ∃ vs, List.Forall₂ Gives xs vs ∧ v = .list vs := by
  obtain ⟨y, hr, hb⟩ := h
  cases hr with
  | scalar single => cases single
  | list hr =>
    obtain ⟨vs, hvs, rfl⟩ := bind_list_iff.1 hb
    exact ⟨vs, forall₂_gives hr hvs, rfl⟩

theorem gives_set (h : Gives (set xs) v) :
    ∃ zs vs, zs.Perm xs ∧ List.Forall₂ Gives zs vs ∧ v = .setOf vs := by
  obtain ⟨y, hr, hb⟩ := h
  cases hr with
  | scalar single => cases single
  | set hr perm =>
    obtain ⟨vs, hvs, rfl⟩ := bind_set_iff.1 hb
    exact ⟨_, vs, perm, forall₂_gives hr hvs, rfl⟩

theorem gives_map (h : Gives (map es) v) :
    ∃ gs us, gs.Perm es ∧ List.Forall₂ GivesEntry gs us ∧ v = .mapOf us := by
  obtain ⟨y, hr, hb⟩ := h
  cases hr with
  | scalar single => cases single
  | map hk hv perm =>
    obtain ⟨us, hus, rfl⟩ := bind_map_iff.1 hb
    obtain ⟨huk, huv⟩ := forall₂_entries_iff.1 hus
    exact ⟨_, us, perm, forall₂_entries_iff.2 ⟨forall₂_gives hk huk, forall₂_gives hv huv⟩, rfl⟩

theorem gives_tuple (h : Gives (tuple xs) v) : ∃ vs, List.Forall₂ Gives xs vs ∧ v = .tuple vs := by
  obtain ⟨y, hr, hb⟩ := h
  cases hr with
  | scalar single => cases single
  | tuple hr =>
    obtain ⟨vs, hvs, rfl⟩ := bind_tuple_iff.1 hb
    exact ⟨vs, forall₂_gives hr hvs, rfl⟩

theorem gives_record {typeName : String} {names : List String}
    (h : Gives (record typeName names xs) v) :
    ∃ typeName' vs, List.Forall₂ Gives xs vs ∧ v = .udt typeName' (names.zip vs) := by
  obtain ⟨y, hr, hb⟩ := h
  cases hr with
  | scalar single => cases single
  | record hr =>
    obtain ⟨vs, hvs, -, rfl⟩ := bind_record_iff.1 hb
    exact ⟨_, vs, forall₂_gives hr hvs, rfl⟩

end

end Host

namespace Value

theorem eq_null_of_same {v : Value} (h : Same v .null) : v = .null := by
  cases v with
  | null => rfl
  | _ => cases h

end Value

open Host (Gives GivesEntry Kept)
open Value (Same SameEntry Covers Fresh)

namespace Shape

/-- the datum is read back from the value, which stands for it -/
structure ReadsBack (s : Shape) (x : Host) (v : Value) : Prop where
  reads : s.read (.value v) = .ok x
  kept : Kept x v
  present : s.isOption = false → v ≠ .null ∧ v ≠ .unset

/-- data of the shape is read back, and unequal data is bound to unequal values -/
structure Faithful (s : Shape) : Prop where
  back : ∀ {x v}, s.Holds x → Gives x v → ReadsBack s x v
  apart : ∀ {x y v w}, s.Holds x → s.Holds y → Gives x v → Gives y w → Same v w → x = y

theorem faithful_scalar {s : Shape} (single : ∀ x, s.Holds x → x.isScalar) : Faithful s := by
  have hbound {x : Host} {v : Value} (hx : s.Holds x) (hg : Gives x v) :
      v.plain = true ∧ v ≠ .null ∧ v ≠ .unset ∧ s.read (.value v) = .ok x :=
    (returns_of_holds hx (single x hx)).bound v (Host.gives_scalar (single x hx) hg)
  constructor
  case back =>
    intro x v hx hg
    obtain ⟨-, hn, hu, hread⟩ := hbound hx hg
    exact ⟨hread, .scalar (single x hx) (Host.gives_scalar (single x hx) hg), fun _ => ⟨hn, hu⟩⟩
  case apart =>
    intro x y v w hx hy hv hw hs
    obtain ⟨hplain, -, -, hxv⟩ := hbound hx hv
    obtain ⟨-, -, -, hyw⟩ := hbound hy hw
    obtain rfl := (Value.eqv_plain hplain).1 hs
    exact Except.ok.inj (hxv.symm.trans hyw)

theorem faithful_option {s : Shape} (h : Faithful s) (plain : s.isOption = false) :
    Faithful (option s) where
  back hx hg := by
    cases hx with
    | none =>
      obtain rfl := Host.gives_none hg
      exact ⟨rfl, .none, nofun⟩
    | some hx =>
      obtain ⟨hread, hkept, hpresent⟩ := h.back hx (Host.gives_some hg)
      refine ⟨?_, .some hkept, nofun⟩
      rw [read, hread]
      · rfl
      · exact (hpresent plain).1
      · exact (hpresent plain).2
  apart hx hy hv hw hs := by
    cases hx with
    | none =>
      obtain rfl := Host.gives_none hv
      obtain rfl := (Value.eqv_plain rfl).1 hs
      cases hy with
      | none => rfl
      | some hy => exact absurd rfl ((h.back hy (Host.gives_some hw)).present plain).1
    | some hx =>
      have hv := Host.gives_some hv
      cases hy with
      | none =>
        obtain rfl := Host.gives_none hw
        exact absurd (Value.eq_null_of_same hs) ((h.back hx hv).present plain).1
      | some hy => rw [h.apart hx hy hv (Host.gives_some hw) hs]

/-! ## places -/

section
variable {ss : List Shape} {xs ys : List Host} {vs ws : List Value}

theorem back_places (h : ∀ s ∈ ss, Faithful s) (hx : List.Forall₂ Holds ss xs)
    (hg : List.Forall₂ Gives xs vs) :
    ∃ us, ReadAs ss us ∧ List.Forall₂ Kept xs vs ∧ vs = us.map Prod.fst ∧ xs = us.map Prod.snd := by
  induction hx generalizing vs with
  | nil =>
    cases hg
    exact ⟨[], .nil, .nil, rfl, rfl⟩
  | cons hx _ ih =>
    cases hg with
    | cons hv hvs =>
      obtain ⟨hs, hss⟩ := List.forall_mem_cons.1 h
      obtain ⟨hread, hkept, -⟩ := hs.back hx hv
      obtain ⟨us, hus, hks, rfl, rfl⟩ := ih hss hvs
      exact ⟨(_, _) :: us, .cons hread hus, .cons hkept hks, rfl, rfl⟩

theorem apart_places (h : ∀ s ∈ ss, Faithful s) (hx : List.Forall₂ Holds ss xs)
    (hy : List.Forall₂ Holds ss ys) (hv : List.Forall₂ Gives xs vs)
    (hw : List.Forall₂ Gives ys ws) (hs : List.Forall₂ Same vs ws) : xs = ys := by
  induction hx generalizing ys vs ws with
  | nil =>
    cases hy
    rfl
  | cons hx _ ih =>
    cases hy with
    | cons hy hys =>
      cases hv with
      | cons hv hvs =>
        cases hw with
        | cons hw hws =>
          cases hs with
          | cons hs hss =>
            obtain ⟨hf, hfs⟩ := List.forall_mem_cons.1 h
            rw [hf.apart hx hy hv hw hs, ih hfs hys hvs hws hss]

end

theorem faithful_tuple {ss : List Shape} (h : ∀ s ∈ ss, Faithful s) : Faithful (tuple ss) where
  back hx hg := by
    cases hx with
    | tuple hx =>
      obtain ⟨vs, hvs, rfl⟩ := Host.gives_tuple hg
      obtain ⟨us, hus, hkept, rfl, rfl⟩ := back_places h hx hvs
      refine ⟨?_, .tuple hkept, fun _ => ⟨nofun, nofun⟩⟩
      have hread := readTuple_ok hus ("a tuple of size " ++ toString ss.length) 0
      show (readTuple ss _ 0 ((us.map Prod.fst).map Source.value) >>= fun as =>
        usedUp ((us.map Prod.fst).map Source.value).length ss.length (Host.tuple as)) = _
      rw [List.map_map]
      refine Eq.trans (congrArg (· >>= _) hread) ?_
      rw [bind_ok, usedUp, List.length_map, ← hus.length_eq, if_pos (Nat.le_refl _)]
  apart hx hy hv hw hs := by
    cases hx with
    | tuple hx =>
      cases hy with
      | tuple hy =>
        obtain ⟨vs, hvs, rfl⟩ := Host.gives_tuple hv
        obtain ⟨ws, hws, rfl⟩ := Host.gives_tuple hw
        obtain ⟨_, hw, hs⟩ := Value.eqv_tuple.1 hs
        cases hw
        rw [apart_places h hx hy hvs hws hs]

theorem faithful_record {typeName : String} {style : RecordStyle} {fields : List Field}
    (names : (fields.map FieldOf.name).Nodup) (h : ∀ f ∈ fields, Faithful f.shape) :
    Faithful (record typeName style fields) where
  back hx hg := by
    cases hx with
    | record hx =>
      obtain ⟨_, vs, hvs, rfl⟩ := Host.gives_record hg
      obtain ⟨us, hus, hkept, rfl, rfl⟩ := back_places (List.forall_mem_map.2 h) hx hvs
      refine ⟨?_, .record hkept, fun _ => ⟨nofun, nofun⟩⟩
      rw [read, readRecord_ok names hus]
      rfl
  apart hx hy hv hw hs := by
    cases hx with
    | record hx =>
      cases hy with
      | record hy =>
        obtain ⟨_, vs, hvs, rfl⟩ := Host.gives_record hv
        obtain ⟨_, ws, hws, rfl⟩ := Host.gives_record hw
        obtain ⟨_, hw, hs⟩ := Value.eqv_udt.1 hs
        cases hw
        have hn : (fields.map FieldOf.name).length = vs.length := by
          rw [← hvs.length_eq, ← hx.length_eq, List.length_map, List.length_map]
        have hm : (fields.map FieldOf.name).length = ws.length := by
          rw [← hws.length_eq, ← hy.length_eq, List.length_map, List.length_map]
        have hs := (forall₂_entries_iff.1 hs).2
        rw [List.map_snd_zip (Nat.le_of_eq hn.symm), List.map_snd_zip (Nat.le_of_eq hm.symm)] at hs
        rw [apart_places (List.forall_mem_map.2 h) hx hy hvs hws hs]

/-! ## lists -/

/-- a list is a tuple whose places are all of one shape -/
theorem holds_replicate {s : Shape} {xs : List Host} (h : ∀ x ∈ xs, s.Holds x) :
    List.Forall₂ Holds (List.replicate xs.length s) xs := by
  induction xs with
  | nil => exact .nil
  | cons x xs ih =>
    obtain ⟨hx, hxs⟩ := List.forall_mem_cons.1 h
    exact .cons hx (ih hxs)

section
variable {s : Shape} (h : Faithful s) {xs : List Host} {v : Value} {vs : List Value}
include h

theorem faithful_replicate (n : Nat) : ∀ t ∈ List.replicate n s, Faithful t := by
  intro t ht
  obtain rfl := List.eq_of_mem_replicate ht
  exact h

theorem back_items (hx : ∀ x ∈ xs, s.Holds x) (hg : List.Forall₂ Gives xs vs) :
    (vs.map Source.value).mapM s.read = .ok xs ∧ List.Forall₂ Kept xs vs := by
  obtain ⟨us, hus, hkept, rfl, rfl⟩ :=
    back_places (faithful_replicate h xs.length) (holds_replicate hx) hg
  refine ⟨?_, hkept⟩
  rw [mapM_ok_iff, List.forall₂_map_left_iff, List.forall₂_map_left_iff,
    List.forall₂_map_right_iff]
  refine List.forall₂_same.2 fun u hu => ?_
  obtain ⟨t, ht, hread⟩ := exists_of_forall₂ hus u hu
  rwa [List.eq_of_mem_replicate ht] at hread

theorem faithful_list : Faithful (list s) where
  back hx hg := by
    cases hx with
    | list hx =>
      obtain ⟨vs, hvs, rfl⟩ := Host.gives_list hg
      obtain ⟨hread, hkept⟩ := back_items h hx hvs
      refine ⟨?_, .list hkept, fun _ => ⟨nofun, nofun⟩⟩
      show ((vs.map Source.value).mapM s.read >>= fun as => Except.ok (Host.list as)) = _
      rw [hread, bind_ok]
  apart hx hy hv hw hs := by
    cases hx with
    | @list _ xs hx =>
      cases hy with
      | @list _ ys hy =>
        obtain ⟨vs, hvs, rfl⟩ := Host.gives_list hv
        obtain ⟨ws, hws, rfl⟩ := Host.gives_list hw
        obtain ⟨_, hw, hs⟩ := Value.eqv_list.1 hs
        cases hw
        have hn : xs.length = ys.length :=
          hvs.length_eq.trans (hs.length_eq.trans hws.length_eq.symm)
        have hy := holds_replicate hy
        rw [← hn] at hy
        rw [apart_places (faithful_replicate h _) (holds_replicate hx) hy hvs hws hs]

/-! ## sets -/

/-- unequal elements are not equal as values either -/
theorem fresh_of_gives (hx : ∀ x ∈ xs, s.Holds x) (hn : xs.Nodup)
    (hg : List.Forall₂ Gives xs vs) : Fresh vs := by
  refine pairwise_of_forall₂ hg (List.Pairwise.imp_of_mem ?_ hn)
  intro a b ha hb hne c d hc hd
  refine Bool.eq_false_iff.2 fun hs => hne ?_
  exact (h.apart (hx b hb) (hx a ha) hd hc hs).symm

/-- no element of a set is lost -/
theorem gives_whole_set (hl : Host.Linear s.Holds Host.order) (hx : ∀ x ∈ xs, s.Holds x)
    (ascending : Host.Ascending xs) (hg : Gives (.set xs) v) :
    ∃ zs vs, zs.Perm xs ∧ (∀ z ∈ zs, s.Holds z) ∧ zs.Nodup ∧ List.Forall₂ Gives zs vs ∧
      v = .set vs := by
  obtain ⟨zs, vs, perm, hvs, rfl⟩ := Host.gives_set hg
  have hz : ∀ z ∈ zs, s.Holds z := fun z hz => hx z (perm.subset hz)
  have hn : zs.Nodup := perm.nodup_iff.2 (Host.nodup_of_ascending hl hx ascending)
  refine ⟨zs, vs, perm, hz, hn, hvs, ?_⟩
  rw [Value.setOf, Value.firsts_of_fresh (fresh_of_gives h hz hn hvs)]

end

/-- as many values, each equal to one of the others, were bound from the same data -/
theorem perm_of_covers {α β : Type} {r : α → β → Prop} {same : β → β → Prop} {as bs : List α}
    {vs ws : List β} (hv : List.Forall₂ r as vs) (hw : List.Forall₂ r bs ws) (hn : as.Nodup)
    (hc : Covers same vs ws)
    (apart : ∀ a ∈ as, ∀ b ∈ bs, ∀ v w, r a v → r b w → same v w → a = b) : as.Perm bs := by
  have hsub : as ⊆ bs := by
    intro a ha
    obtain ⟨v, hvm, hav⟩ := exists_of_forall₂ hv.flip a ha
    obtain ⟨w, hwm, hs⟩ := hc.2 v hvm
    obtain ⟨b, hb, hbw⟩ := exists_of_forall₂ hw w hwm
    rwa [apart a ha b hb v w hav hbw hs]
  have hl : bs.length = as.length := hw.length_eq.trans (hc.1.symm.trans hv.length_eq.symm)
  exact (List.subperm_of_subset hn hsub).perm_of_length_le (Nat.le_of_eq hl)

theorem faithful_set {s : Shape} (h : Faithful s) (hl : Host.Linear s.Holds Host.order) :
    Faithful (set s) where
  back hx hg := by
    cases hx with
    | set hx ascending =>
      obtain ⟨zs, vs, perm, hz, -, hvs, rfl⟩ := gives_whole_set h hl hx ascending hg
      obtain ⟨hread, hkept⟩ := back_items h hz hvs
      refine ⟨?_, .set perm hkept, fun _ => ⟨nofun, nofun⟩⟩
      show ((vs.map Source.value).mapM s.read >>= fun as => Except.ok (Host.sortedSet as)) = _
      rw [hread, bind_ok, Host.sortedSet_of_perm hl hx ascending perm]
  apart hx hy hv hw hs := by
    cases hx with
    | set hx hxa =>
      cases hy with
      | set hy hya =>
        obtain ⟨as, vs, ha, has, hn, hvs, rfl⟩ := gives_whole_set h hl hx hxa hv
        obtain ⟨bs, ws, hb, hbs, -, hws, rfl⟩ := gives_whole_set h hl hy hya hw
        obtain ⟨_, hw, hc⟩ := Value.eqv_set.1 hs
        cases hw
        have hab : as.Perm bs := perm_of_covers hvs hws hn hc
          fun a ha b hb v w hav hbw => h.apart (has a ha) (hbs b hb) hav hbw
        have hxy := (ha.symm.trans hab).trans hb
        rw [Host.eq_of_ascending hl id hx (by rwa [List.map_id]) (by rwa [List.map_id]) hxy]

/-! ## maps -/

theorem readBoth_ok {key value : Source → ReadResult Host} {e : Source × Source} {g : Host × Host}
    (hk : key e.1 = .ok g.1) (hv : value e.2 = .ok g.2) : readBoth key value e = .ok g := by
  rw [readBoth, hk, bind_ok, hv]
  rfl

section
variable {k s : Shape} (hk : Faithful k) (hs : Faithful s) (hl : Host.Linear k.Holds Host.order)
include hk hs hl

omit hs in
/-- no entry of a map is lost -/
theorem gives_whole_map {es : List (Host × Host)} {v : Value} (hes : ∀ e ∈ es, k.Holds e.1)
    (ascending : Host.Ascending (es.map Prod.fst)) (hg : Gives (.map es) v) :
    ∃ gs us, gs.Perm es ∧ (gs.map Prod.fst).Nodup ∧ List.Forall₂ GivesEntry gs us ∧
      v = .map us := by
  obtain ⟨gs, us, perm, hus, rfl⟩ := Host.gives_map hg
  have hkeys : ∀ x ∈ es.map Prod.fst, k.Holds x := List.forall_mem_map.2 hes
  have hperm : (gs.map Prod.fst).Perm (es.map Prod.fst) := perm.map _
  have hn : (gs.map Prod.fst).Nodup :=
    hperm.nodup_iff.2 (Host.nodup_of_ascending hl hkeys ascending)
  refine ⟨gs, us, perm, hn, hus, ?_⟩
  have hfresh := fresh_of_gives hk (fun x hx => hkeys x (hperm.subset hx)) hn
    (forall₂_entries_iff.1 hus).1
  rw [Value.mapOf, Value.ofList_of_fresh hfresh]

theorem faithful_map : Faithful (map k s) where
  back hx hg := by
    cases hx with
    | map hxk hxv ascending =>
      obtain ⟨gs, us, perm, -, hus, rfl⟩ := gives_whole_map hk hl hxk ascending hg
      have hgk : ∀ x ∈ gs.map Prod.fst, k.Holds x :=
        List.forall_mem_map.2 fun g hg => hxk g (perm.subset hg)
      have hgv : ∀ x ∈ gs.map Prod.snd, s.Holds x :=
        List.forall_mem_map.2 fun g hg => hxv g (perm.subset hg)
      obtain ⟨huk, huv⟩ := forall₂_entries_iff.1 hus
      obtain ⟨hrk, hkk⟩ := back_items hk hgk huk
      obtain ⟨hrv, hkv⟩ := back_items hs hgv huv
      refine ⟨?_, .map perm hkk hkv, fun _ => ⟨nofun, nofun⟩⟩
      have hread : (us.map fun u => (Source.value u.1, Source.value u.2)).mapM
          (readBoth k.read s.read) = .ok gs := by
        rw [mapM_ok_iff, List.forall₂_map_left_iff] at hrk hrv ⊢
        exact (forall₂_entries_iff.2 ⟨hrk, hrv⟩).imp fun _ _ h => readBoth_ok h.1 h.2
      show (List.mapM (readBoth k.read s.read) _ >>= fun gs => Except.ok (Host.sortedMap gs)) = _
      rw [hread, bind_ok, Host.sortedMap_of_perm hl hxk ascending perm]
  apart hx hy hv hw heq := by
    cases hx with
    | map hxk hxv hxa =>
      cases hy with
      | map hyk hyv hya =>
        obtain ⟨as, us, ha, hn, hus, rfl⟩ := gives_whole_map hk hl hxk hxa hv
        obtain ⟨bs, ws, hb, -, hws, rfl⟩ := gives_whole_map hk hl hyk hya hw
        obtain ⟨_, hw, hlen, hlook⟩ := Value.eqv_map.1 heq
        cases hw
        have hab : as.Perm bs := by
          have hcovers : Covers SameEntry us ws := Value.covers_of_eqvLookup hlen hlook
          refine perm_of_covers hus hws (List.Nodup.of_map _ hn) hcovers ?_
          intro a ham b hbm u w hau hbw huw
          have ham := ha.subset ham
          have hbm := hb.subset hbm
          exact Prod.ext (hk.apart (hxk a ham) (hyk b hbm) hau.1 hbw.1 huw.1)
            (hs.apart (hxv a ham) (hyv b hbm) hau.2 hbw.2 huw.2)
        have hxy := (ha.symm.trans hab).trans hb
        rw [Host.eq_of_ascending hl Prod.fst hxk hxa hya hxy]

end

/-! ## all shapes -/

theorem faithful_of_bindable {s : Shape} {key : Bool} (h : s.Bindable key) : Faithful s := by
  induction h with
  | bool | int | single | double | string | uuid | inet | inetOf =>
    refine faithful_scalar fun x hx => ?_
    cases hx
    rfl
  | wrapped =>
    refine faithful_scalar fun x hx => ?_
    cases hx <;> rfl
  | option plain _ ih => exact faithful_option ih plain
  | list _ ih => exact faithful_list ih
  | set h ih => exact faithful_set ih (Host.linear_of_bindable h rfl)
  | map hk _ ihk ihv => exact faithful_map ihk ihv (Host.linear_of_bindable hk rfl)
  | tuple _ ih => exact faithful_tuple ih
  | record names _ ih => exact faithful_record names ih

/-- equal values are bound from equal data only -/
theorem eq_of_beq_bind {s : Shape} {key : Bool} (hs : s.Bindable key) {x y : Host} {v w : Value}
    (hx : s.Holds x) (hy : s.Holds y) (hv : x.bind = .ok v) (hw : y.bind = .ok w)
    (h : (v == w) = true) : x = y :=
  (faithful_of_bindable hs).apart hx hy ⟨x, Host.rearranges_refl x, hv⟩
    ⟨y, Host.rearranges_refl y, hw⟩ h

/-- Data that was bound, its sets and maps in whatever order, is read back from its value, and the
value stands for it part for part: no element of a set and no entry of a map is lost. -/
theorem read_bind {s : Shape} (hs : s.Bindable false) {x y : Host} {v : Value} (hx : s.Holds x)
    (hy : y.Rearranges x) (hb : y.bind = .ok v) : s.read (.value v) = .ok x ∧ x.Kept v := by
  obtain ⟨hread, hkept, -⟩ := (faithful_of_bindable hs).back hx ⟨y, hy, hb⟩
  exact ⟨hread, hkept⟩

/-- a record with a set, which is gone through backwards, a map from pairs, absent data, a float that
is not a number and a record within -/
theorem read_bind_nested :
    let number (n : Int) (h : IntType.i32.Holds n) : Host := .int ⟨.i32, n, h⟩
    let minus : Host := number (-1) (by decide)
    let two : Host := number 2 (by decide)
    let place : Shape := .record "Place" .strict [field "key" .uuid, field "at" (.inetOf .v4)]
    let shape : Shape := .record "Account" .lenient [field "ids" (.set (.int .i32)),
      field "tags" (.map (.tuple [.string, .bool]) (.list (.option (.wrapped .blob)))),
      field "rate" .single, field "home" (.option place)]
    let home : Host := .record "Place" ["key", "at"] [.uuid ⟨7⟩, .inet (.v4 0x7f000001)]
    let tags : Host := .map [(.tuple [.string "a", .bool true], .list [.none, .some (.blob [1])])]
    let names := ["ids", "tags", "rate", "home"]
    let x : Host := .record "Account" names [.set [minus, two], tags, .single 0x7fc00000, .some home]
    let y : Host := .record "account" names [.set [two, minus], tags, .single 0x7fc00000, .some home]
    let v : Value := .udt "account" [("ids", .set [.int 2, .int (-1)]),
      ("tags", .map [(.tuple [.text "a", .bool true], .list [.null, .blob [1]])]),
      ("rate", .float 0x7fc00000),
      ("home", .udt "Place" [("key", .uuid ⟨7⟩), ("at", .inet (.v4 0x7f000001))])]
    (shape.Bindable false ∧ shape.Holds x ∧ y.Rearranges x ∧ y.bind = .ok v) ∧
      shape.read (.value v) = .ok x ∧ x.Kept v := by
  intro number minus two place shape home tags names x y v
  have hplace : place.Bindable false :=
    .record (by decide) (List.forall_mem_cons.2 ⟨.uuid, List.forall_mem_singleton.2 (.inetOf _)⟩)
  have htags : (Shape.map (.tuple [.string, .bool]) (.list (.option (.wrapped .blob)))).Bindable
      false := by
    refine .map (.tuple ?_) (.list (.option rfl (.wrapped nofun)))
    exact List.forall_mem_cons.2 ⟨.string, List.forall_mem_singleton.2 .bool⟩
  have hs : shape.Bindable false := by
    refine .record (by decide) (List.forall_mem_cons.2 ⟨.set (.int _), ?_⟩)
    refine List.forall_mem_cons.2 ⟨htags, List.forall_mem_cons.2 ⟨.single, ?_⟩⟩
    exact List.forall_mem_singleton.2 (.option rfl hplace)
  have hx : shape.Holds x := by
    refine .record (.cons ?_ (.cons ?_ (.cons (.single _) (.cons (.some ?_) .nil))))
    · refine .set ?_ (List.pairwise_pair.2 (by decide))
      exact List.forall_mem_cons.2 ⟨.int ⟨.i32, -1, _⟩, List.forall_mem_singleton.2 (.int ⟨.i32, 2, _⟩)⟩
    · refine .map (List.forall_mem_singleton.2 ?_) (List.forall_mem_singleton.2 (.list ?_))
        (List.pairwise_singleton _ _)
      · exact .tuple (.cons (.string _) (.cons (.bool _) .nil))
      · exact List.forall_mem_cons.2 ⟨.none, List.forall_mem_singleton.2 (.some (.blob _))⟩
    · exact .record (.cons (.uuid _) (.cons (.inetOf (.v4 0x7f000001)) .nil))
  have hy : y.Rearranges x := by
    refine .record (.cons ?_ (List.forall₂_same.2 fun z _ => Host.rearranges_refl z))
    exact .set (List.forall₂_same.2 fun z _ => Host.rearranges_refl z) (.swap _ _ _)
  have hb : y.bind = .ok v := rfl
  exact ⟨⟨hs, hx, hy, hb⟩, read_bind hs hx hy hb⟩

end Shape

end Cql
