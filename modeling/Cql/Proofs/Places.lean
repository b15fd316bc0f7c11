import Cql.Host.Fitting
import Cql.Host.Reading
import Cql.Proofs.Binding
import Cql.Proofs.Spelling

/-!
# Reading what was bound

What a value without parts is read as, when it was bound from data of the shape, and how the readers
of tuples and records get along with what was bound place by place.

* `Shape.Returns`      data without parts that is read back from what it is bound to;
* `returns_of_holds`   all the data of a shape that has no parts;
* `readTuple_ok`       a tuple, place by place;
* `readRecord_ok`      a record, whose fields are found by their names.
-/

namespace Cql

theorem ofInt_byte (b : UInt8) : UInt8.ofInt (b.toNat : Int) = b := by
  have h : (b.toNat : Int) % 2 ^ 8 = b.toNat :=
    Int.emod_eq_of_lt (Int.natCast_nonneg _) (Int.ofNat_lt.2 b.toNat_lt)
  rw [UInt8.ofInt, h, Int.toNat_natCast, UInt8.ofNat_toNat]

theorem ofInt_count (n : UInt32) : UInt32.ofInt (n.toNat : Int) = n := by
  have h : (n.toNat : Int) % 2 ^ 32 = n.toNat :=
    Int.emod_eq_of_lt (Int.natCast_nonneg _) (Int.ofNat_lt.2 n.toNat_lt)
  rw [UInt32.ofInt, h, Int.toNat_natCast, UInt32.ofNat_toNat]

namespace Shape

/-! ## data without parts -/

/-- data without parts that is read back from what it is bound to -/
structure Returns (s : Shape) (x : Host) : Prop where
  single : x.isScalar
  bound : ∀ v, x.bind = .ok v →
    v.plain = true ∧ v ≠ .null ∧ v ≠ .unset ∧ s.read (.value v) = .ok x

/-- data that is always bound to one value -/
theorem returns_of_bind {s : Shape} {x : Host} {v : Value} (single : x.isScalar)
    (hb : x.bind = .ok v) (plain : v.plain = true) (hn : v ≠ .null) (hu : v ≠ .unset)
    (hr : s.read (.value v) = .ok x) : Returns s x where
  single := single
  bound w hw := by
    obtain rfl : v = w := Except.ok.inj (hb.symm.trans hw)
    exact ⟨plain, hn, hu, hr⟩

theorem inWidth_val (n : HostInt) : inWidth n.type n.val = .ok n := by
  rw [inWidth, HostInt.ofInt?, dif_pos n.holds]

theorem inWidth_ok {t : IntType} {n : Int} (h : t.Holds n) : inWidth t n = .ok ⟨t, n, h⟩ :=
  inWidth_val ⟨t, n, h⟩

/-- a number is bound to a signed number of the same size, whatever the width -/
theorem signed_of_bindInt {n : HostInt} {v : Value} (h : Host.bindInt n = .ok v) :
    Source.ofValue v = .signed n.val ∧ v.plain = true := by
  have default {m : Int} (h : Host.bindDefault m = .ok v) :
      Source.ofValue v = .signed m ∧ v.plain = true := by
    unfold Host.bindDefault at h
    split at h
    · next hm =>
      cases h
      exact ⟨congrArg _ (Int32.toInt_ofInt_of_le hm.1 (Int.lt_add_one_of_le hm.2)), rfl⟩
    · cases h
  obtain ⟨t, m, hm⟩ := n
  cases t with
  | i8 =>
    cases h
    exact ⟨congrArg _ (Int8.toInt_ofInt_of_le hm.1 (Int.lt_add_one_of_le hm.2)), rfl⟩
  | i16 =>
    cases h
    exact ⟨congrArg _ (Int16.toInt_ofInt_of_le hm.1 (Int.lt_add_one_of_le hm.2)), rfl⟩
  | i32 =>
    cases h
    exact ⟨congrArg _ (Int32.toInt_ofInt_of_le hm.1 (Int.lt_add_one_of_le hm.2)), rfl⟩
  | i64 =>
    cases h
    exact ⟨congrArg _ (Int64.toInt_ofInt_of_le hm.1 (Int.lt_add_one_of_le hm.2)), rfl⟩
  | i128 | u8 | u16 | u32 | u64 | u128 | isize | usize => exact default h

theorem returns_int (n : HostInt) : Returns (int n.type) (.int n) where
  single := rfl
  bound v hv := by
    obtain ⟨hs, hplain⟩ := signed_of_bindInt hv
    refine ⟨hplain, ?_, ?_, ?_⟩
    · rintro rfl
      cases hs
    · rintro rfl
      cases hs
    · rw [read, readInt, Source.presented, hs]
      dsimp only
      rw [inWidth_val]
      rfl

theorem readInt_signed {t : IntType} {v : Value} {n : Int} (hv : Source.ofValue v = .signed n)
    (h : t.Holds n) : readInt t (.value v) = .ok ⟨t, n, h⟩ := by
  rw [readInt, Source.presented, hv]
  exact inWidth_ok h

theorem readUuid_text {v : Value} {u : Uuid}
    (hv : Source.ofValue v = .text (String.ofList u.text)) : readUuid (.value v) = .ok u := by
  rw [readUuid, Source.presented, hv]
  dsimp only
  rw [String.toList_ofList, Uuid.parse?_text]

theorem readAddress_text {parse? : List Char → Option Inet} {wrong : ReadError}
    {expected : String} {a : Inet} (h : parse? a.text = some a) :
    readAddress parse? wrong expected (.value (.inet a)) = .ok a := by
  rw [readAddress, Source.presented, Source.ofValue]
  dsimp only
  rw [String.toList_ofList, h]

theorem readBytes_blob (bs : Bytes) : readBytes (.value (.blob bs)) = .ok bs := by
  have hbyte (b : UInt8) : IntType.u8.Holds b.toNat :=
    ⟨Int.natCast_nonneg _, Int.le_of_lt_add_one (Int.ofNat_lt.2 b.toNat_lt)⟩
  have hread (b : UInt8) : readInt .u8 (.byte b) = .ok ⟨.u8, b.toNat, hbyte b⟩ :=
    inWidth_ok (hbyte b)
  have hall : (bs.map Source.byte).mapM (readInt .u8) =
      .ok (bs.map fun b => ⟨.u8, b.toNat, hbyte b⟩) := by
    rw [mapM_ok_iff, List.forall₂_map_left_iff, List.forall₂_map_right_iff]
    exact List.forall₂_same.2 fun b _ => hread b
  show ((bs.map Source.byte).mapM (readInt .u8) >>= fun ns =>
    Except.ok (ns.map fun n => UInt8.ofInt n.val)) = _
  rw [hall, bind_ok, List.map_map]
  refine congrArg _ ((List.map_congr_left fun b _ => ?_).trans (List.map_id _))
  exact ofInt_byte b

/-- a whole number under a wrapper -/
theorem returns_number {w : Wrapper} {x : Host} {v : Value} {t : IntType} {n : Int}
    (make : HostInt → Host) (single : x.isScalar) (hb : x.bind = .ok v) (plain : v.plain = true)
    (hv : Source.ofValue v = .signed n) (hn : t.Holds n)
    (hw : readInner w (.value v) = (readInt t (.value v)).map make) (hx : make ⟨t, n, hn⟩ = x) :
    Returns (wrapped w) x := by
  refine returns_of_bind single hb plain ?_ ?_ ?_
  · rintro rfl
    cases hv
  · rintro rfl
    cases hv
  · show readInner w (.value v) = _
    rw [hw, readInt_signed hv hn, map_ok, hx]

theorem holds_i64 (n : Int64) : IntType.i64.Holds n.toInt :=
  ⟨n.le_toInt, Int.le_of_lt_add_one n.toInt_lt⟩

theorem returns_wrapped {w : Wrapper} {x : Host} (h : (wrapped w).Holds x) :
    Returns (wrapped w) x := by
  cases h with
  | tinyInt n =>
    have hn : IntType.i8.Holds n.toInt := ⟨n.le_toInt, Int.le_of_lt_add_one n.toInt_lt⟩
    exact returns_number (fun i => .tinyInt (Int8.ofInt i.val)) rfl rfl rfl rfl hn rfl
      (congrArg _ n.ofInt_toInt)
  | smallInt n =>
    have hn : IntType.i16.Holds n.toInt := ⟨n.le_toInt, Int.le_of_lt_add_one n.toInt_lt⟩
    exact returns_number (fun i => .smallInt (Int16.ofInt i.val)) rfl rfl rfl rfl hn rfl
      (congrArg _ n.ofInt_toInt)
  | bigInt n =>
    exact returns_number (fun i => .bigInt (Int64.ofInt i.val)) rfl rfl rfl rfl (holds_i64 n) rfl
      (congrArg _ n.ofInt_toInt)
  | counter n =>
    exact returns_number (fun i => .counter (Int64.ofInt i.val)) rfl rfl rfl rfl (holds_i64 n) rfl
      (congrArg _ n.ofInt_toInt)
  | time t =>
    exact returns_number (fun i => .time ⟨Int64.ofInt i.val⟩) rfl rfl rfl rfl (holds_i64 t.nanos) rfl
      (congrArg (fun n => Host.time ⟨n⟩) t.nanos.ofInt_toInt)
  | timestamp t =>
    exact returns_number (fun i => .timestamp ⟨Int64.ofInt i.val⟩) rfl rfl rfl rfl
      (holds_i64 t.millis) rfl (congrArg (fun n => Host.timestamp ⟨n⟩) t.millis.ofInt_toInt)
  | date d =>
    have hn : IntType.u32.Holds d.raw.toNat :=
      ⟨Int.natCast_nonneg _, Int.le_of_lt_add_one (Int.ofNat_lt.2 d.raw.toNat_lt)⟩
    refine returns_of_bind rfl rfl rfl nofun nofun ?_
    show (inWidth .u32 d.raw.toNat >>= fun n => Except.ok (Host.date ⟨UInt32.ofInt n.val⟩)) = _
    rw [inWidth_ok hn, bind_ok, ofInt_count]
  | wrappedDouble bits => exact returns_of_bind rfl rfl rfl nofun nofun rfl
  | timeUuid u =>
    refine returns_of_bind rfl rfl rfl nofun nofun ?_
    show (readUuid (.value (.timeUuid u)) >>= fun u => Except.ok (Host.timeUuid u)) = _
    rw [readUuid_text rfl, bind_ok]
  | blob bs =>
    refine returns_of_bind rfl rfl rfl nofun nofun ?_
    show (readBytes (.value (.blob bs)) >>= fun bs => Except.ok (Host.blob bs)) = _
    rw [readBytes_blob, bind_ok]

theorem returns_uuid (u : Uuid) : Returns uuid (.uuid u) := by
  refine returns_of_bind rfl rfl rfl nofun nofun ?_
  show (readUuid (.value (.uuid u)) >>= fun u => Except.ok (Host.uuid u)) = _
  rw [readUuid_text rfl, bind_ok]

theorem returns_inet (a : Inet) : Returns inet (.inet a) := by
  refine returns_of_bind rfl rfl rfl nofun nofun ?_
  show (readInet (.value (.inet a)) >>= fun a => Except.ok (Host.inet a)) = _
  rw [readInet, readAddress_text a.parse?_text, bind_ok]

theorem returns_inetOf (a : Inet) : Returns (inetOf a.family) (.inet a) := by
  refine returns_of_bind rfl rfl rfl nofun nofun ?_
  show (readInetOf a.family (.value (.inet a)) >>= fun a => Except.ok (Host.inet a)) = _
  rw [readInetOf, readAddress_text (Inet.parse?_text_of_family rfl), bind_ok]

theorem returns_of_holds {s : Shape} {x : Host} (h : s.Holds x) (single : x.isScalar) :
    Returns s x := by
  have hx := h
  cases h with
  | bool | single | double | string => exact returns_of_bind rfl rfl rfl nofun nofun rfl
  | int n => exact returns_int n
  | uuid u => exact returns_uuid u
  | inet a => exact returns_inet a
  | inetOf a => exact returns_inetOf a
  | tinyInt | smallInt | bigInt | counter | wrappedDouble | date | time | timestamp | timeUuid
  | blob => exact returns_wrapped hx
  | none | some | list | set | map | tuple | record => cases single

/-! ## tuples -/

/-- a value of each shape, with what it is read as -/
abbrev ReadAs (ss : List Shape) (us : List (Value × Host)) : Prop :=
  List.Forall₂ (fun s u => s.read (.value u.1) = .ok u.2) ss us

theorem readTuple_ok {ss : List Shape} {us : List (Value × Host)} (h : ReadAs ss us)
    (expected : String) (i : Nat) :
    readTuple ss expected i (us.map fun u => .value u.1) = .ok (us.map Prod.snd) := by
  induction h generalizing i with
  | nil => rfl
  | cons hu _ ih =>
    rw [List.map_cons, readTuple, hu, bind_ok, ih, bind_ok]
    rfl

/-! ## records -/

theorem readAt_append (before : List Field) (f : Field) (rest : List Field) (x : Source) :
    readAt (before ++ f :: rest) before.length x = f.shape.read x := by
  induction before with
  | nil => rfl
  | cons _ before ih => exact ih

/-- a name is found in its place, where none before it is the same -/
theorem placeOf_append (style : RecordStyle) {before : List String} {name : String}
    (h : name ∉ before) (rest : List String) :
    placeOf style (before ++ name :: rest) name = .ok (some before.length) := by
  have hnone : before.findIdx? (· == name) = none := by
    refine List.findIdx?_eq_none_iff.2 fun n hn => beq_eq_false_iff_ne.2 ?_
    rintro rfl
    exact h hn
  rw [placeOf, List.findIdx?_append, hnone, List.findIdx?_cons, beq_self_eq_true]
  simp

section
variable {rest : List Field} {done : List Host} {n : Nat} (h : n = done.length) (f : Field)
include h

/-- the place behind those that are filled is free … -/
theorem free_place :
    (done.map some ++ (f :: rest).map fun _ => none)[n]? = some (none : Option Host) := by
  rw [h, ← List.length_map some, List.getElem?_append_right (Nat.le_refl _), Nat.sub_self]
  rfl

/-- … and is the next to be filled -/
theorem set_place (x : Host) :
    (done.map some ++ (f :: rest).map fun _ => none).set n (some x) =
      (done ++ [x]).map some ++ rest.map fun _ => none := by
  rw [h, ← List.length_map some, List.set_append_right _ _ (Nat.le_refl _), Nat.sub_self,
    List.map_append, List.append_assoc]
  rfl

end

/-- what a record's fields present themselves as -/
def fieldSources (fs : List (String × Value)) : List (Source × Source) :=
  fs.map fun f => (.name f.1, .value f.2)

/-- the fields that are left go to the places that are left -/
theorem fillPlaces_ok (style : RecordStyle) (before : List Field) (done : List Host)
    {rest : List Field} {us : List (Value × Host)} (hd : before.length = done.length)
    (names : ((before ++ rest).map FieldOf.name).Nodup) (h : ReadAs (rest.map FieldOf.shape) us) :
    fillPlaces style ((before ++ rest).map FieldOf.name) (readAt (before ++ rest))
      (fieldSources ((rest.map FieldOf.name).zip (us.map Prod.fst)))
      (done.map some ++ rest.map fun _ => none) = .ok ((done ++ us.map Prod.snd).map some) := by
  induction rest generalizing before done us with
  | nil =>
    cases h
    simp only [List.map_nil, List.append_nil]
    rfl
  | cons f rest ih =>
    cases h with
    | @cons _ u _ us hu h =>
      obtain ⟨v, x⟩ := u
      have hnew : f.name ∉ before.map FieldOf.name := by
        rw [List.map_append, List.map_cons] at names
        exact fun hm => (List.nodup_append.1 names).2.2 _ hm _ List.mem_cons_self rfl
      have hplace : placeOfKey style ((before ++ f :: rest).map FieldOf.name) (.name f.name) =
          .ok (some before.length) := by
        rw [List.map_append, List.map_cons]
        show placeOf _ _ _ = _
        rw [placeOf_append style hnew, List.length_map]
      have hd' : (before ++ [f]).length = (done ++ [x]).length := by
        rw [List.length_append, List.length_append, hd]
        rfl
      have hrest := ih (before ++ [f]) (done ++ [x]) hd' (by rwa [List.append_assoc]) h
      rw [List.append_assoc, List.append_assoc] at hrest
      show fillPlaces style _ _ ((.name f.name, .value v) :: fieldSources _) _ = _
      rw [fillPlaces, hplace, bind_ok]
      dsimp only
      rw [free_place hd f]
      dsimp only
      rw [readAt_append, hu, bind_ok, set_place hd f]
      exact hrest

theorem completed_map_some {notes : List FieldNote} {xs : List Host}
    (h : notes.length = xs.length) : completed notes (xs.map some) = .ok xs := by
  induction notes generalizing xs with
  | nil =>
    cases xs with
    | nil => rfl
    | cons => cases h
  | cons note notes ih =>
    cases xs with
    | nil => cases h
    | cons x xs =>
      show (completed notes (xs.map some) >>= fun as => Except.ok (x :: as)) = _
      rw [ih (Nat.succ.inj h), bind_ok]

theorem readRecord_ok {typeName typeName' : String} {style : RecordStyle} {fields : List Field}
    {us : List (Value × Host)} (names : (fields.map FieldOf.name).Nodup)
    (h : ReadAs (fields.map FieldOf.shape) us) :
    readRecord typeName style (fields.map FieldOf.note) (readAt fields)
      (.value (.udt typeName' ((fields.map FieldOf.name).zip (us.map Prod.fst)))) =
        .ok (us.map Prod.snd) := by
  have hfill := fillPlaces_ok style [] [] rfl names h
  have hlen : (fields.map FieldOf.note).length = (us.map Prod.snd).length := by
    rw [List.length_map, List.length_map, ← h.length_eq, List.length_map]
  show (fillPlaces style ((fields.map FieldOf.note).map FieldNote.name) (readAt fields)
      (fieldSources _) ((fields.map FieldOf.note).map fun _ => none) >>=
        completed (fields.map FieldOf.note)) = _
  rw [List.map_map, List.map_map]
  refine Eq.trans (congrArg (· >>= _) hfill) ?_
  rw [bind_ok]
  exact completed_map_some hlen

end Shape

end Cql
