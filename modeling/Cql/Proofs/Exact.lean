import Cql.Host.Exact
import Cql.Host.Reading
import Cql.Proofs.Binding
import Cql.Proofs.Places
import Cql.Row

/-!
# Whole numbers are read exactly

What is read of a shape of whole numbers is a copy of its source, and where nothing is read a number
is too wide, or something is in the place of something else, or the count of parts is another.
Every shape has two facts to it: what it reads, and where it fails (`Shape.ReadsExactly`).  Both are
proved for one kind of shape at a time, over every source, since the elements of a blob are bytes
and no values.

* `Shape.readInt_ok_iff`, `readTuple_fails_iff` …   numbers and sequences;
* `Shape.readsExactly_int` …                        one kind of shape at a time;
* `Value.readAs_exact`                              all shapes of whole numbers.
-/

namespace Cql

open Cell (bind_eq_ok bind_pure_eq_ok)

/-- what fails has no result -/
theorem error_iff {ε α : Type} {r : Except ε α} : (∃ e, r = .error e) ↔ ∀ a, r ≠ .ok a := by
  cases r with
  | ok a => exact ⟨nofun, fun h => absurd rfl (h a)⟩
  | error e => exact ⟨fun _ => nofun, fun _ => ⟨e, rfl⟩⟩

/-- steps in a row fail where one does -/
theorem mapM_fails_iff {ε α β : Type} {f : α → Except ε β} {xs : List α} :
    (∃ e, xs.mapM f = .error e) ↔ ∃ x ∈ xs, ∃ e, f x = .error e := by
  constructor
  · rintro ⟨e, he⟩
    obtain ⟨front, x, back, rfl, -, hx⟩ := mapM_error_iff.1 he
    exact ⟨x, List.mem_append_right _ (List.mem_cons_self), e, hx⟩
  · rintro ⟨x, hmem, he⟩
    rw [error_iff] at he ⊢
    intro ys hys
    obtain ⟨y, -, hy⟩ := exists_of_forall₂ (mapM_ok_iff.1 hys).flip x hmem
    exact he y hy

/-- what is made of a result fails as the result does -/
theorem return_fails_iff {ε α β : Type} {r : Except ε α} {f : α → β} :
    (∃ e, (do return f (← r) : Except ε β) = .error e) ↔ ∃ e, r = .error e := by
  cases r with
  | ok a => exact iff_of_false nofun nofun
  | error e => exact iff_of_true ⟨e, rfl⟩ ⟨e, rfl⟩

theorem Source.value_of_absent {x : Source} (h : x.isAbsent = true) : ∃ v, x = .value v := by
  cases x with
  | value v => exact ⟨v, rfl⟩
  | _ => cases h

namespace Shape

/-! ## numbers -/

/-- a number is what presents itself as one -/
theorem whole?_eq (x : Source) :
    x.whole? = match x.presented with
      | .signed n => some n
      | .unsigned n => some n
      | _ => none := by
  cases x with
  | value v => cases v <;> rfl
  | _ => rfl

theorem readInt_whole {t : IntType} {x : Source} {n : Int} (h : x.whole? = some n) :
    readInt t x = inWidth t n := by
  rw [whole?_eq] at h
  unfold readInt
  split at h <;> cases h <;> simp only [*]

theorem readInt_other {t : IntType} {x : Source} (h : x.whole? = none) :
    ∃ e, readInt t x = .error e := by
  rw [whole?_eq] at h
  unfold readInt
  split
  · next hx => rw [hx] at h; cases h
  · next hx => rw [hx] at h; cases h
  · exact ⟨_, rfl⟩

theorem inWidth_ok_iff {t : IntType} {n : Int} {i : HostInt} :
    inWidth t n = .ok i ↔ i.type = t ∧ i.val = n := by
  constructor
  · intro h
    by_cases hn : t.Holds n
    · rw [inWidth_ok hn] at h
      cases h
      exact ⟨rfl, rfl⟩
    · rw [inWidth, HostInt.ofInt?_eq_none.2 hn] at h
      cases h
  · rintro ⟨rfl, rfl⟩
    exact inWidth_val i

theorem readInt_ok_iff {t : IntType} {x : Source} {i : HostInt} :
    readInt t x = .ok i ↔ i.type = t ∧ x.whole? = some i.val := by
  cases hx : x.whole? with
  | some n =>
    rw [readInt_whole hx, inWidth_ok_iff, Option.some.injEq, eq_comm (a := n)]
  | none =>
    obtain ⟨e, he⟩ := readInt_other (t := t) hx
    rw [he]
    exact ⟨nofun, fun h => nomatch h.2⟩

theorem readInt_fails_iff {t : IntType} {x : Source} :
    (∃ e, readInt t x = .error e) ↔ (int t).Refuses x := by
  cases hx : x.whole? with
  | some n =>
    rw [readInt_whole hx, error_iff]
    constructor
    · intro h
      exact .width hx fun hn => h _ (inWidth_ok hn)
    · intro h i hi
      obtain ⟨rfl, rfl⟩ := inWidth_ok_iff.1 hi
      cases h with
      | width hx' wide =>
        obtain rfl := Option.some.inj (hx.symm.trans hx')
        exact wide i.holds
      | noNumber hx' => cases hx.symm.trans hx'
  | none => exact ⟨fun _ => .noNumber hx, fun _ => readInt_other hx⟩

/-! ## sequences -/

/-- the elements are what a list takes for a sequence -/
theorem elements_iff {x : Source} {items : List Source} :
    x.elements? = some items ↔ x.asList = .sequence items := by
  cases x with
  | value v => cases v <;> exact ⟨fun h => by cases h <;> rfl, fun h => by cases h <;> rfl⟩
  | _ => exact ⟨fun h => by cases h <;> rfl, fun h => by cases h <;> rfl⟩

/-- the parts are what a tuple takes for a sequence -/
theorem parts_iff {x : Source} {items : List Source} :
    x.parts? = some items ↔ x.asTuple = .sequence items := by
  cases x with
  | value v => cases v <;> exact ⟨fun h => by cases h <;> rfl, fun h => by cases h <;> rfl⟩
  | _ => exact ⟨fun h => by cases h <;> rfl, fun h => by cases h <;> rfl⟩

theorem read_list_elements {s : Shape} {x : Source} {items : List Source}
    (h : x.elements? = some items) :
    (list s).read x = (do return .list (← items.mapM s.read)) := by
  rw [read, elements_iff.1 h]

theorem read_list_other {s : Shape} {x : Source} (h : x.elements? = none) :
    ∃ e, (list s).read x = .error e := by
  rw [read]
  split
  · next items hx => cases h.symm.trans (elements_iff.2 hx)
  · exact ⟨_, rfl⟩

/-- a tuple takes no more items than it finds -/
theorem length_of_readTuple {ss : List Shape} {expected : String} {i : Nat} {items : List Source}
    {as : List Host} (h : readTuple ss expected i items = .ok as) : ss.length ≤ items.length := by
  induction ss generalizing i items as with
  | nil => exact Nat.zero_le _
  | cons s ss ih =>
    cases items with
    | nil => cases h
    | cons x xs =>
      obtain ⟨a, -, h⟩ := bind_eq_ok.1 h
      obtain ⟨as', has, -⟩ := bind_pure_eq_ok.1 h
      exact Nat.succ_le_succ (ih has)

theorem readTuple_fails_iff {ss : List Shape} {expected : String} {i : Nat} {items : List Source} :
    (∃ e, readTuple ss expected i items = .error e) ↔
      items.length < ss.length ∨ ∃ p ∈ ss.zip items, ∃ e, p.1.read p.2 = .error e := by
  induction ss generalizing i items with
  | nil => simp [readTuple]
  | cons s ss ih =>
    cases items with
    | nil => simp [readTuple]
    | cons x xs =>
      have hrest := @ih (i + 1) xs
      cases hx : s.read x with
      | error e =>
        refine iff_of_true ⟨e, ?_⟩ (.inr ⟨(s, x), List.mem_cons_self, e, hx⟩)
        rw [readTuple, hx]
        rfl
      | ok a =>
        have hstep : (∃ e, readTuple (s :: ss) expected i (x :: xs) = .error e) ↔
            ∃ e, readTuple ss expected (i + 1) xs = .error e := by
          rw [readTuple, hx, bind_ok, return_fails_iff]
        rw [hstep, hrest]
        simp [hx]

theorem parts_of_tupleItems {x : Source} {expected : String} {n : Nat} {items : List Source}
    (h : tupleItems expected n x = .ok items) : x.parts? = some items := by
  rw [parts_iff]
  unfold tupleItems at h
  split at h
  · next hx =>
    rw [hx]
    split at h
    · split at h <;> cases h
      rfl
    · cases h
      rfl
  · cases h

theorem tupleItems_ok {x : Source} {items : List Source} (h : x.parts? = some items)
    (expected : String) : tupleItems expected items.length x = .ok items := by
  rw [tupleItems, parts_iff.1 h]
  cases x with
  | column s v =>
    cases h
    rfl
  | _ => rfl

theorem read_tuple_ok_iff {ss : List Shape} {x : Source} {a : Host} :
    (tuple ss).read x = .ok a ↔ ∃ items as, x.parts? = some items ∧ items.length = ss.length ∧
      readTuple ss ("a tuple of size " ++ toString ss.length) 0 items = .ok as ∧
      a = .tuple as := by
  rw [read]
  constructor
  · intro h
    obtain ⟨items, hitems, h⟩ := bind_eq_ok.1 h
    obtain ⟨as, has, h⟩ := bind_eq_ok.1 h
    unfold usedUp at h
    split at h
    · next hle =>
      cases h
      have hlen := hle.antisymm (length_of_readTuple has)
      exact ⟨items, as, parts_of_tupleItems hitems, hlen, has, rfl⟩
    · cases h
  · rintro ⟨items, as, hx, hlen, has, rfl⟩
    rw [← hlen] at has ⊢
    rw [tupleItems_ok hx, bind_ok, has, bind_ok, usedUp, if_pos le_rfl]

theorem read_tuple_fails_iff {ss : List Shape} {x : Source} :
    (∃ e, (tuple ss).read x = .error e) ↔ x.parts? = none ∨ ∃ items, x.parts? = some items ∧
      (items.length ≠ ss.length ∨ ∃ p ∈ ss.zip items, ∃ e, p.1.read p.2 = .error e) := by
  have hno : (∃ e, (tuple ss).read x = .error e) ↔ ∀ items, x.parts? = some items →
      items.length = ss.length → ∃ e, readTuple ss ("a tuple of size " ++ toString ss.length) 0
        items = .error e := by
    simp only [error_iff, ne_eq, read_tuple_ok_iff]
    constructor
    · intro h items hx hlen as has
      exact h (.tuple as) ⟨items, as, hx, hlen, has, rfl⟩
    · rintro h a ⟨items, as, hx, hlen, has, -⟩
      exact h items hx hlen as has
  rw [hno]
  cases hx : x.parts? with
  | none => exact iff_of_true nofun (.inl rfl)
  | some items =>
    simp only [readTuple_fails_iff]
    constructor
    · intro h
      refine .inr ⟨items, rfl, ?_⟩
      by_cases hlen : items.length = ss.length
      · exact .inr ((h items rfl hlen).resolve_left (by omega))
      · exact .inl hlen
    · rintro (h | ⟨_, ⟨⟩, h⟩) _ ⟨⟩ hlen
      · cases h
      · exact .inr (h.resolve_left fun hne => hne hlen)

/-! ## all shapes of whole numbers -/

/-- reading the shape gives what is exactly the source, and fails where nothing is -/
structure ReadsExactly (s : Shape) : Prop where
  reads : ∀ x a, s.read x = .ok a ↔ s.Holds a ∧ a.Exact x
  fails : ∀ x, (∃ e, s.read x = .error e) ↔ s.Refuses x

theorem readsExactly_int (t : IntType) : ReadsExactly (int t) where
  reads x a := by
    rw [read, bind_pure_eq_ok]
    constructor
    · rintro ⟨i, hi, rfl⟩
      obtain ⟨rfl, hx⟩ := readInt_ok_iff.1 hi
      exact ⟨.int i, .int hx⟩
    · rintro ⟨holds, hexact⟩
      cases holds with
      | int i =>
        cases hexact with
        | int hx => exact ⟨i, readInt_ok_iff.2 ⟨rfl, hx⟩, rfl⟩
  fails x := by
    rw [← readInt_fails_iff, read, return_fails_iff]

theorem read_option_present {s : Shape} {v : Value} (h : (Source.value v).isAbsent = false) :
    (option s).read (.value v) = (do return .some (← s.read (.value v))) := by
  rw [read]
  · rintro rfl
    cases h
  · rintro rfl
    cases h

theorem read_option_absent {s : Shape} {x : Source} (h : x.isAbsent = true) :
    (option s).read x = .ok .none := by
  unfold Source.isAbsent at h
  split at h
  · rfl
  · rfl
  · cases h

theorem read_option_other {s : Shape} {x : Source} (h : ∀ v, x ≠ .value v) :
    ∃ e, (option s).read x = .error e := by
  cases x with
  | value v => exact absurd rfl (h v)
  | _ => exact ⟨_, rfl⟩

/-- a source of an optional datum -/
theorem optional_cases (x : Source) : x.isAbsent = true ∨
    (∃ v, x = .value v ∧ (Source.value v).isAbsent = false) ∨ ∀ v, x ≠ .value v := by
  cases x with
  | value v =>
    cases hv : (Source.value v).isAbsent with
    | true => exact .inl rfl
    | false => exact .inr (.inl ⟨v, rfl, hv⟩)
  | _ => exact .inr (.inr nofun)

theorem readsExactly_option {s : Shape} (hs : ReadsExactly s) : ReadsExactly (option s) where
  reads x a := by
    obtain habsent | ⟨v, rfl, hv⟩ | hother := optional_cases x
    · rw [read_option_absent habsent]
      constructor
      · rintro ⟨⟩
        exact ⟨.none, .none habsent⟩
      · rintro ⟨holds, hexact⟩
        cases holds with
        | none => rfl
        | some _ =>
          cases hexact with
          | some present _ => cases habsent.symm.trans present
    · rw [read_option_present hv, bind_pure_eq_ok]
      constructor
      · rintro ⟨b, hb, rfl⟩
        obtain ⟨holds, hexact⟩ := (hs.reads _ _).1 hb
        exact ⟨.some holds, .some hv hexact⟩
      · rintro ⟨holds, hexact⟩
        cases hexact with
        | none absent => cases absent.symm.trans hv
        | some _ hexact =>
          cases holds with
          | some holds => exact ⟨_, (hs.reads _ _).2 ⟨holds, hexact⟩, rfl⟩
        | int _ => cases holds
        | list _ _ => cases holds
        | tuple _ _ => cases holds
    · obtain ⟨e, he⟩ := read_option_other (s := s) hother
      rw [he]
      refine iff_of_false nofun ?_
      rintro ⟨holds, hexact⟩
      cases holds with
      | none =>
        cases hexact with
        | none absent =>
          obtain ⟨v, rfl⟩ := Source.value_of_absent absent
          exact hother v rfl
      | some _ =>
        cases hexact with
        | some _ _ => exact hother _ rfl
  fails x := by
    obtain habsent | ⟨v, rfl, hv⟩ | hother := optional_cases x
    · rw [read_option_absent habsent]
      refine iff_of_false nofun ?_
      rintro (_ | _ | ⟨present, _⟩ | hx)
      · cases habsent.symm.trans present
      · obtain ⟨v, rfl⟩ := Source.value_of_absent habsent
        exact hx v rfl
    · rw [read_option_present hv, return_fails_iff, hs.fails]
      constructor
      · exact .present hv
      · intro h
        cases h with
        | present _ h => exact h
        | noValue hx => exact absurd rfl (hx v)
    · exact iff_of_true (read_option_other hother) (.noValue hother)

theorem mapM_reads_iff {s : Shape} (hs : ReadsExactly s) {items : List Source} {as : List Host} :
    items.mapM s.read = .ok as ↔ (∀ a ∈ as, s.Holds a) ∧ List.Forall₂ Host.Exact as items := by
  rw [mapM_ok_iff, ← List.forall₂_and_left]
  constructor
  · intro h
    exact (h.imp fun x a hx => (hs.reads x a).1 hx).flip
  · intro h
    exact (h.imp fun a x hx => (hs.reads x a).2 hx).flip

theorem readsExactly_list {s : Shape} (hs : ReadsExactly s) : ReadsExactly (list s) where
  reads x a := by
    cases hx : x.elements? with
    | none =>
      obtain ⟨e, he⟩ := read_list_other (s := s) hx
      rw [he]
      refine iff_of_false nofun ?_
      rintro ⟨⟨⟩, hexact⟩
      cases hexact with
      | list hx' _ => cases hx.symm.trans hx'
    | some items =>
      rw [read_list_elements hx, bind_pure_eq_ok]
      constructor
      · rintro ⟨as, has, rfl⟩
        obtain ⟨holds, hexact⟩ := (mapM_reads_iff hs).1 has
        exact ⟨.list holds, .list hx hexact⟩
      · rintro ⟨holds, hexact⟩
        cases holds with
        | list holds =>
          cases hexact with
          | list hx' hexact =>
            obtain rfl := Option.some.inj (hx.symm.trans hx')
            exact ⟨_, (mapM_reads_iff hs).2 ⟨holds, hexact⟩, rfl⟩
  fails x := by
    cases hx : x.elements? with
    | none => exact iff_of_true (read_list_other hx) (.noElements hx)
    | some items =>
      rw [read_list_elements hx, return_fails_iff, mapM_fails_iff]
      simp only [hs.fails]
      constructor
      · rintro ⟨item, mem, h⟩
        exact .element hx mem h
      · intro h
        cases h with
        | element hx' mem h =>
          obtain rfl := Option.some.inj (hx.symm.trans hx')
          exact ⟨_, mem, h⟩
        | noElements hx' => cases hx.symm.trans hx'

theorem readTuple_reads_iff {ss : List Shape} (hss : ∀ s ∈ ss, ReadsExactly s)
    {expected : String} {i : Nat} {items : List Source} (hlen : items.length = ss.length)
    {as : List Host} : readTuple ss expected i items = .ok as ↔
      List.Forall₂ Holds ss as ∧ List.Forall₂ Host.Exact as items := by
  induction ss generalizing i items as with
  | nil =>
    obtain rfl := List.length_eq_zero_iff.1 hlen
    constructor
    · rintro ⟨⟩
      exact ⟨.nil, .nil⟩
    · rintro ⟨hholds, -⟩
      cases hholds
      rfl
  | cons s ss ih =>
    cases items with
    | nil => cases hlen
    | cons x xs =>
      obtain ⟨hs, hrest⟩ := List.forall_mem_cons.1 hss
      have ih := @ih hrest (i + 1) xs (Nat.succ.inj hlen)
      rw [readTuple]
      constructor
      · intro h
        obtain ⟨a, ha, h⟩ := bind_eq_ok.1 h
        obtain ⟨as', has, rfl⟩ := bind_pure_eq_ok.1 h
        obtain ⟨holds, hexact⟩ := (hs.reads x a).1 ha
        obtain ⟨hholds, hexacts⟩ := ih.1 has
        exact ⟨.cons holds hholds, .cons hexact hexacts⟩
      · rintro ⟨hholds, hexacts⟩
        cases hholds with
        | cons holds hholds =>
          cases hexacts with
          | cons hexact hexacts =>
            rw [(hs.reads _ _).2 ⟨holds, hexact⟩, bind_ok, ih.2 ⟨hholds, hexacts⟩]
            rfl

theorem readsExactly_tuple {ss : List Shape} (hss : ∀ s ∈ ss, ReadsExactly s) :
    ReadsExactly (tuple ss) where
  reads x a := by
    rw [read_tuple_ok_iff]
    constructor
    · rintro ⟨items, as, hx, hlen, has, rfl⟩
      obtain ⟨holds, hexact⟩ := (readTuple_reads_iff hss hlen).1 has
      exact ⟨.tuple holds, .tuple hx hexact⟩
    · rintro ⟨holds, hexact⟩
      cases holds with
      | tuple holds =>
        cases hexact with
        | tuple hx hexact =>
          have hlen := (holds.length_eq.trans hexact.length_eq).symm
          exact ⟨_, _, hx, hlen, (readTuple_reads_iff hss hlen).2 ⟨holds, hexact⟩, rfl⟩
  fails x := by
    have hplace {items : List Source} {p : Shape × Source} (hp : p ∈ ss.zip items) :
        (∃ e, p.1.read p.2 = .error e) ↔ p.1.Refuses p.2 :=
      (hss p.1 (List.of_mem_zip hp).1).fails p.2
    rw [read_tuple_fails_iff]
    constructor
    · rintro (hx | ⟨items, hx, hlen | ⟨p, hp, h⟩⟩)
      · exact .noParts hx
      · exact .arity hx hlen
      · exact .place hx hp ((hplace hp).1 h)
    · intro h
      cases h with
      | place hx hp h => exact .inr ⟨_, hx, .inr ⟨_, hp, (hplace hp).2 h⟩⟩
      | arity hx hlen => exact .inr ⟨_, hx, .inl hlen⟩
      | noParts hx => exact .inl hx

theorem Whole.readsExactly {s : Shape} (h : s.Whole) : ReadsExactly s := by
  induction h with
  | int t => exact readsExactly_int t
  | option _ ih => exact readsExactly_option ih
  | list _ ih => exact readsExactly_list ih
  | tuple _ _ ih => exact readsExactly_tuple ih

end Shape

theorem ofReading_ok_iff {α : Type} {r : ReadResult α} {a : α} :
    ofReading r = .ok a ↔ r = .ok a := by
  cases r with
  | ok b => exact ⟨fun h => by cases h; rfl, fun h => by cases h; rfl⟩
  | error e => exact iff_of_false nofun nofun

theorem ofReading_fails_iff {α : Type} {r : ReadResult α} :
    (∃ cause, ofReading r = .error (.mapping (.unreadable cause))) ↔ ∃ e, r = .error e := by
  cases r with
  | ok b => exact iff_of_false nofun nofun
  | error e => exact iff_of_true ⟨e, rfl⟩ ⟨e, rfl⟩

/-- A value as data of whole numbers.  What is read has exactly the numbers and the parts of the
value: no number is wrapped or cut, no element is dropped or added, and absent is what was absent.
There is no such data exactly if a number is too wide, an element or a place cannot be read, or
there are more places than parts or fewer. -/
theorem Value.readAs_exact {s : Shape} (hs : s.Whole) (v : Value) :
    (∀ a, v.readAs s = .ok a ↔ s.Holds a ∧ a.Exact (.value v)) ∧
    ((∃ cause, v.readAs s = .error (.mapping (.unreadable cause))) ↔ s.Refuses (.value v)) := by
  have h := hs.readsExactly
  exact ⟨fun a => ofReading_ok_iff.trans (h.reads _ a), ofReading_fails_iff.trans (h.fails _)⟩

/-- a blob inside of a tuple, and in another tuple a number that is too wide -/
theorem Value.readAs_exact_nested :
    let s : Shape :=
      .tuple [.list (.option (.int .i8)), .option (.tuple [.int .u128]), .list (.int .u8)]
    let v (n : Int32) : Value :=
      .tuple [.set [.null, .bigInt (-5)], .list [.int n], .blob [1, 255]]
    s.Whole ∧
    (∃ a, (v 7).readAs s = .ok a ∧ a.Exact (.value (v 7))) ∧
    s.Refuses (.value (v (-1))) := by
  intro s v
  have hs : s.Whole := by
    refine .tuple nofun ?_
    simp only [List.forall_mem_cons]
    refine ⟨.list (.option (.int _)), .option (.tuple nofun ?_), .list (.int _), nofun⟩
    exact List.forall_mem_singleton.2 (.int _)
  obtain ⟨hreads, -⟩ := Value.readAs_exact hs (v 7)
  obtain ⟨-, hfails⟩ := Value.readAs_exact hs (v (-1))
  exact ⟨hs, ⟨_, rfl, ((hreads _).1 rfl).2⟩, hfails.1 ⟨_, rfl⟩⟩

end Cql
