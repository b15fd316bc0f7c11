import Cql.ColumnType.Parts
import Cql.Proofs.Grammar
import Cql.Proofs.Writer

/-!
# Where cells end

The length in front of a cell says where the cell ends.  A reader that takes off a cell therefore
stops behind it whatever follows, and when the bytes end within the cell it cannot mistake what is
there for another cell: it fails for want of bytes.  The same holds of the parts of a collection,
one behind the other, since their count says how many there are.

* `Framed cell`          the length of `null`, or a length and as many bytes;
* `Framed.rest_eq`       what is behind a cell is determined by the bytes;
* `EndsEarly r`          the reader failed because there were fewer bytes than it needed;
* `Guarded read front`   the reader ends early on every front that is cut short;
* `decode_cut_or_longer`   a collection that is cut short, or that something follows.
-/

namespace Cql.Cell

/-! ## cells -/

/-- the length of `null`, or the length of a body and the body -/
inductive Framed : Bytes → Prop where
  | null : Framed nullLength
  | body {bs : Bytes} (hl : bs.length ≤ limit) : Framed (Bytes.ofNat 4 bs.length ++ bs)

theorem DenotesCell.framed {t : ColumnType} {cell : Bytes} {v : Value}
    (h : DenotesCell t cell v) : Framed cell := by
  cases h with
  | null => exact .null
  | body _ hl => exact .body hl

theorem framed_encode {v : Value} (hu : v ≠ .unset) (hf : Fits v) : Framed (encode v) := by
  by_cases hn : v = .null
  · subst hn
    exact .null
  · rw [encode, cellWith_of_ne hn hu]
    exact .body hf

theorem Framed.length_le {cell : Bytes} (h : Framed cell) : 4 ≤ cell.length := by
  cases h with
  | null => exact Nat.le_refl 4
  | body hl =>
    rw [List.length_append, Bytes.length_ofNat]
    omega

theorem Framed.readCell_eq {cell : Bytes} (h : Framed cell) :
    ∃ b, ∀ rest, readCell (cell ++ rest) = .ok (b, rest) := by
  cases h with
  | null => exact ⟨none, fun rest => readCell_none_iff.2 rfl⟩
  | @body bs hl =>
    exact ⟨some bs, fun rest => readCell_some_iff.2 ⟨hl, List.append_assoc _ _ _⟩⟩

/-- of two cells at the front of the same bytes, both leave the same -/
theorem Framed.rest_eq {x y a b : Bytes} (hx : Framed x) (hy : Framed y)
    (h : x ++ a = y ++ b) : a = b := by
  obtain ⟨c, hc⟩ := hx.readCell_eq
  obtain ⟨d, hd⟩ := hy.readCell_eq
  have hsame : (Except.ok (c, a) : Except DecodeError (Option Bytes × Bytes)) = .ok (d, b) := by
    rw [← hc a, ← hd b, h]
  exact (Prod.mk.inj (Except.ok.inj hsame)).2

/-! ## bytes that end early -/

/-- the reader failed because there were fewer bytes than it needed -/
def EndsEarly {α : Type} (r : Except DecodeError α) : Prop :=
  ∃ needed available, available < needed ∧ r = .error (.unexpectedEnd needed available)

section
variable {α β γ : Type}

theorem EndsEarly.bind {r : Except DecodeError α} (h : EndsEarly r)
    (f : α → Except DecodeError β) : EndsEarly (r >>= f) := by
  obtain ⟨needed, available, hlt, rfl⟩ := h
  exact ⟨needed, available, hlt, rfl⟩

theorem take_endsEarly {n : Nat} {bs : Bytes} (h : bs.length < n) : EndsEarly (take n bs) := by
  have hs : bs.split n = none := Bytes.split_eq_none.2 h
  refine ⟨n, bs.length, h, ?_⟩
  rw [take, hs]

theorem readLength_endsEarly {bs : Bytes} (h : bs.length < 4) : EndsEarly (readLength bs) :=
  (take_endsEarly h).bind _

theorem readLength_ofNat {n : Nat} (hn : n ≤ limit) (rest : Bytes) :
    readLength (Bytes.ofNat 4 n ++ rest) = .ok ((n : Int), rest) :=
  readLength_iff.2 ⟨_, rfl, Bytes.length_ofNat 4 n, (signed_ofNat hn).symm⟩

theorem readCell_ofNat {n : Nat} (hn : n ≤ limit) (rest : Bytes) :
    readCell (Bytes.ofNat 4 n ++ rest) =
      (take n rest).map fun cut => (some cut.1, cut.2) := by
  rw [readCell, readLength_ofNat hn]
  show (if (n : Int) = -1 then .ok (none, rest)
    else if (n : Int) < 0 then .error (.invalidLength n)
    else (take (n : Int).toNat rest).map fun cut => (some cut.1, cut.2)) = _
  rw [if_neg (by omega), if_neg (by omega), Int.toNat_natCast]

/-- bytes that are cut short are cut in the front or behind it -/
theorem cut_append {front back p c : Bytes} (h : front ++ back = p ++ c) :
    (∃ c', c' ≠ [] ∧ front = p ++ c') ∨ ∃ q, p = front ++ q ∧ back = q ++ c := by
  rcases List.append_eq_append_iff.1 h with ⟨q, hp, hb⟩ | ⟨c', hf, hc⟩
  · exact .inr ⟨q, hp, hb⟩
  · by_cases he : c' = []
    · subst he
      rw [List.append_nil] at hf
      exact .inr ⟨[], by rw [hf, List.append_nil], hc.symm⟩
    · exact .inl ⟨c', he, hf⟩

theorem length_lt_of_cut {front p c : Bytes} (h : front = p ++ c) (hc : c ≠ []) :
    p.length < front.length := by
  have hpos : 0 < c.length := List.length_pos_iff.2 hc
  rw [h, List.length_append]
  omega

theorem Framed.cut {p c : Bytes} (h : Framed (p ++ c)) (hc : c ≠ []) : EndsEarly (readCell p) := by
  have hword : ∀ {word c' : Bytes}, word.length = 4 → word = p ++ c' → c' ≠ [] →
      EndsEarly (readCell p) := by
    intro word c' hl hw hc'
    have hlt := length_lt_of_cut hw hc'
    rw [hl] at hlt
    exact (readLength_endsEarly hlt).bind _
  generalize hcell : p ++ c = cell at h
  cases h with
  | null => exact hword rfl hcell.symm hc
  | @body bs hl =>
    rcases cut_append hcell.symm with ⟨c', hc', hw⟩ | ⟨q, rfl, hb⟩
    · exact hword (Bytes.length_ofNat 4 _) hw hc'
    · -- the length is there and promises more than is left
      have hlt := length_lt_of_cut hb hc
      obtain ⟨needed, available, hn, ht⟩ := take_endsEarly hlt
      refine ⟨needed, available, hn, ?_⟩
      rw [readCell_ofNat hl, ht]
      rfl

/-! ## readers on fronts that are cut short -/

/-- the reader ends early on every front that is cut short -/
def Guarded (read : Bytes → Except DecodeError α) (front : Bytes → Prop) : Prop :=
  ∀ p c, front (p ++ c) → c ≠ [] → EndsEarly (read p)

theorem guarded_part (t : ColumnType) :
    Guarded (readPart t (decodeBody t)) fun cell => ∃ v, DenotesCell t cell v := by
  intro p c hx hc
  obtain ⟨v, hv⟩ := hx
  exact (hv.framed.cut hc).bind _

/-- one reader after another: the cut is in the front of the one or of the other -/
theorem guarded_andThen {read : Bytes → Except DecodeError (α × Bytes)}
    {next : Bytes → Except DecodeError (β × Bytes)} {r : Bytes → α → Prop}
    {front : Bytes → Prop} (hr : Reads read r) (hg : Guarded read fun x => ∃ a, r x a)
    (hn : Guarded next front) (f : α → β → γ) :
    Guarded (fun bs => do
        let (a, bs) ← read bs
        let (b, bs) ← next bs
        return (f a b, bs))
      fun bs => ∃ x y, bs = x ++ y ∧ (∃ a, r x a) ∧ front y := by
  intro p c hx hc
  obtain ⟨x, y, hxy, hrx, hy⟩ := hx
  rcases cut_append hxy.symm with ⟨c', hc', rfl⟩ | ⟨q, rfl, rfl⟩
  · exact (hg p c' hrx hc').bind _
  · obtain ⟨a, ha⟩ := hrx
    have hread : read (x ++ q) = .ok (a, q) := (hr _ _ _).2 ⟨x, rfl, ha⟩
    show EndsEarly (read (x ++ q) >>= _)
    rw [hread]
    exact (hn q c hy hc).bind _

theorem guarded_many {read : Bytes → Except DecodeError (α × Bytes)} {r : Bytes → α → Prop}
    (hr : Reads read r) (hg : Guarded read fun x => ∃ a, r x a) (n : Nat) :
    Guarded (readMany read n) fun bs => ∃ as, as.length = n ∧ Row r bs as := by
  induction n with
  | zero =>
    intro p c hx hc
    obtain ⟨as, hl, hrow⟩ := hx
    rw [List.length_eq_zero_iff.1 hl] at hrow
    -- nothing can be cut off what is empty
    generalize hb : p ++ c = bs at hrow
    cases hrow
    exact absurd (List.append_eq_nil_iff.1 hb).2 hc
  | succ n ih =>
    intro p c hx hc
    obtain ⟨as, hl, hrow⟩ := hx
    refine guarded_andThen hr hg ih List.cons p c ?_ hc
    generalize hb : p ++ c = bs at hrow
    cases hrow with
    | nil => cases hl
    | @cons cell rest a as ha hs => exact ⟨cell, rest, rfl, ⟨a, ha⟩, as, Nat.succ.inj hl, hs⟩

theorem guarded_entry (k w : ColumnType) :
    Guarded (readEntry (readPart k (decodeBody k)) (readPart w (decodeBody w)))
      fun bs => ∃ e, DenotesEntry k w bs e := by
  intro p c hx hc
  obtain ⟨e, key, value, hb, hk, hv⟩ := hx
  exact guarded_andThen (reads_part (decodeBody_iff k)) (guarded_part k) (guarded_part w)
    Prod.mk p c ⟨key, value, hb, ⟨_, hk⟩, _, hv⟩ hc

/-! ## collections -/

theorem readCollection_cut {read : Bytes → Except DecodeError (α × Bytes)}
    {r : Bytes → α → Prop} (hr : Reads read r) (hg : Guarded read fun x => ∃ a, r x a)
    {p c : Bytes} {as : List α} (h : readCollection read (p ++ c) = .ok as) (hc : c ≠ []) :
    EndsEarly (readCollection read p) := by
  obtain ⟨hl, front, hb, hrow⟩ := (readCollection_iff hr).1 h
  rcases cut_append hb.symm with ⟨c', hc', hw⟩ | ⟨q, rfl, rfl⟩
  · -- within the count
    have hlt := length_lt_of_cut hw hc'
    rw [Bytes.length_ofNat] at hlt
    exact ((readLength_endsEarly hlt).bind _).bind _
  · -- within the parts
    have hread : readCount (Bytes.ofNat 4 as.length ++ q) = .ok (as.length, q) :=
      readCount_iff.2 ⟨hl, rfl⟩
    rw [readCollection, hread]
    exact (guarded_many hr hg as.length q c ⟨as, rfl, hrow⟩ hc).bind _

theorem readCollection_longer {read : Bytes → Except DecodeError (α × Bytes)}
    {r : Bytes → α → Prop} (hr : Reads read r) {bs c : Bytes} {as : List α}
    (h : readCollection read bs = .ok as) (hc : c ≠ []) :
    readCollection read (bs ++ c) = .error (.trailingBytes c.length) := by
  obtain ⟨hl, front, rfl, hrow⟩ := (readCollection_iff hr).1 h
  have hcount : readCount (Bytes.ofNat 4 as.length ++ front ++ c) =
      .ok (as.length, front ++ c) := readCount_iff.2 ⟨hl, List.append_assoc _ _ _⟩
  have hmany : readMany read as.length (front ++ c) = .ok (as, c) :=
    (reads_many hr as.length _ _ _).2 ⟨front, rfl, rfl, hrow⟩
  rw [readCollection, hcount]
  show (readMany read as.length (front ++ c) >>= finish) = _
  rw [hmany]
  cases c with
  | nil => exact absurd rfl hc
  | cons b c => rfl

/-- every cut of a body that is read ends early, and what follows it is told by its length -/
def Delimited (read : Bytes → Except DecodeError α) : Prop :=
  ∀ bs a, read bs = .ok a →
    (∀ p c, bs = p ++ c → c ≠ [] → EndsEarly (read p)) ∧
    ∀ c, c ≠ [] → read (bs ++ c) = .error (.trailingBytes c.length)

theorem delimited_collection {read : Bytes → Except DecodeError (α × Bytes)}
    {r : Bytes → α → Prop} (hr : Reads read r) (hg : Guarded read fun x => ∃ a, r x a)
    (f : List α → β) : Delimited fun bs => do return f (← readCollection read bs) := by
  intro bs b h
  obtain ⟨as, ha, _⟩ := bind_pure_eq_ok.1 h
  refine ⟨?_, ?_⟩
  · intro p c hp hc
    subst hp
    exact (readCollection_cut hr hg ha hc).bind _
  · intro c hc
    show (readCollection read (bs ++ c) >>= _) = _
    rw [readCollection_longer hr ha hc]
    rfl

end

theorem delimited_decodeBody {t : ColumnType} (h : t.isCollection = true) :
    Delimited (decodeBody t) := by
  cases t with
  | list t =>
    exact delimited_collection (reads_part (decodeBody_iff t)) (guarded_part t) Value.list
  | set t =>
    exact delimited_collection (reads_part (decodeBody_iff t)) (guarded_part t) Value.setOf
  | map k w =>
    exact delimited_collection (r := DenotesEntry k w)
      (reads_entry (reads_part (decodeBody_iff k)) (reads_part (decodeBody_iff w)))
      (guarded_entry k w) Value.mapOf
  | _ => cases h

/-- A body of a collection is read at no other length: cut short anywhere it ends early, and what
follows it is trailing. -/
theorem decode_cut_or_longer {t : ColumnType} {bs : Bytes} {v : Value}
    (ht : t.isCollection = true) (h : decode t (some bs) = .ok v) :
    (∀ p, p <+: bs → p ≠ bs → ∃ needed available, available < needed ∧
      decode t (some p) = .error (.unexpectedEnd needed available)) ∧
    ∀ c, c ≠ [] → decode t (some (bs ++ c)) = .error (.trailingBytes c.length) := by
  obtain ⟨hcut, hlonger⟩ := delimited_decodeBody ht bs v h
  refine ⟨?_, hlonger⟩
  intro p hp hne
  obtain ⟨c, rfl⟩ := hp
  refine hcut p c rfl ?_
  intro hc
  subst hc
  exact hne (List.append_nil p).symm

/-- a map whose key is a tuple without its second field, cut where the tuple would do without more:
the length of the key's cell gives it away -/
theorem decode_cut_or_longer_key :
    let t : ColumnType := .map (.tuple [.tinyInt, .int]) (.set .bool)
    let bs : Bytes := [0, 0, 0, 1, 0, 0, 0, 5, 0, 0, 0, 1, 7, 255, 255, 255, 255]
    (t.isCollection = true ∧
      decode t (some bs) = .ok (.map [(.tuple [.tinyInt 7, .null], .set [])])) ∧
    (∃ needed available, available < needed ∧
      decode t (some (bs.take 8)) = .error (.unexpectedEnd needed available)) ∧
    decode t (some (bs ++ [0, 0])) = .error (.trailingBytes 2) := by
  intro t bs
  have hk : DenotesCell (.tuple [.tinyInt, .int]) [0, 0, 0, 5, 0, 0, 0, 1, 7]
      (.tuple [.tinyInt 7, .null]) :=
    .body (.tuple (.cons (.body (.tinyInt 7) (by decide)) (.absent [.int]))) (by decide)
  have hd : Denotes t bs (.map [(.tuple [.tinyInt 7, .null], .set [])]) :=
    .map (.cons hk (.null (.set .bool)) (.nil _ _)) (by decide)
  have h : decode t (some bs) = .ok (.map [(.tuple [.tinyInt 7, .null], .set [])]) :=
    (decodeBody_iff t bs _).2 hd
  obtain ⟨hcut, hlonger⟩ := decode_cut_or_longer rfl h
  exact ⟨⟨rfl, h⟩, hcut _ (List.take_prefix 8 bs) (by decide), hlonger [0, 0] (by decide)⟩

end Cql.Cell
