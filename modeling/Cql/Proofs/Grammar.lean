import Cql.Cell.Grammar
import Cql.ColumnType.Induction
import Cql.Proofs.Reader

/-!
# The reader follows the grammar

`decode` succeeds on a body exactly when the grammar has a value for it, and then with this value;
on any other body it fails.  The induction is on the type: each kind of type asks of its parts that
their bodies are read by the grammar (`Agrees`), and gets the same for itself.

* `reads_part`            a cell of an agreeing type takes off what the grammar calls a cell;
* `parts_iff`, `pairs_iff`   the cells of a collection are a `Row`;
* `decodeFields_iff`      fields up to the last that is there;
* `decodeBody_iff`        the body of every type.
-/

namespace Cql.Cell

/-! ## words -/

/-- the members of `α` are the words of `w` bytes -/
structure WordType (w : Nat) (α : Type) where
  word : α → Nat
  ofWord : Nat → α
  word_lt : ∀ a, word a < 256 ^ w
  ofWord_word : ∀ a, ofWord (word a) = a
  word_ofWord : ∀ {n}, n < 256 ^ w → word (ofWord n) = n

/-- words by their bits -/
def ofBits (w : Nat) {α : Type} (bits : α → BitVec (8 * w)) (make : BitVec (8 * w) → α)
    (hm : ∀ a, make (bits a) = a) (hb : ∀ b, bits (make b) = b) : WordType w α where
  word a := (bits a).toNat
  ofWord n := make (.ofNat (8 * w) n)
  word_lt a := by
    have h := (bits a).isLt
    rwa [Nat.pow_mul] at h
  ofWord_word a := by rw [BitVec.ofNat_toNat, BitVec.setWidth_eq, hm]
  word_ofWord {n} h := by
    rw [hb, BitVec.toNat_ofNat, Nat.pow_mul, Nat.mod_eq_of_lt h]

def int8 : WordType 1 Int8 := ofBits 1 Int8.toBitVec Int8.ofBitVec (fun _ => rfl) fun _ => rfl
def int16 : WordType 2 Int16 := ofBits 2 Int16.toBitVec Int16.ofBitVec (fun _ => rfl) fun _ => rfl
def int32 : WordType 4 Int32 := ofBits 4 Int32.toBitVec Int32.ofBitVec (fun _ => rfl) fun _ => rfl
def int64 : WordType 8 Int64 := ofBits 8 Int64.toBitVec Int64.ofBitVec (fun _ => rfl) fun _ => rfl
def uint32 : WordType 4 UInt32 := ofBits 4 UInt32.toBitVec .ofBitVec (fun _ => rfl) fun _ => rfl
def uint64 : WordType 8 UInt64 := ofBits 8 UInt64.toBitVec .ofBitVec (fun _ => rfl) fun _ => rfl

theorem reads_word {w : Nat} {α : Type} (A : WordType w α) (f : α → Value) {name : String}
    {bs : Bytes} {v : Value} :
    (do return f (A.ofWord (← fixed name w bs))) = .ok v ↔
      ∃ a, bs = Bytes.ofNat w (A.word a) ∧ v = f a := by
  rw [bind_pure_eq_ok]
  refine ⟨?_, ?_⟩
  · intro h
    obtain ⟨n, hn, rfl⟩ := h
    obtain ⟨hl, rfl⟩ := fixed_iff.1 hn
    have hlt := Bytes.toNat_lt bs
    rw [hl] at hlt
    exact ⟨_, by rw [A.word_ofWord hlt, Bytes.ofNat_toNat_of_length hl], rfl⟩
  · intro h
    obtain ⟨a, rfl, rfl⟩ := h
    refine ⟨A.word a, fixed_iff.2 ⟨Bytes.length_ofNat w _, ?_⟩, by rw [A.ofWord_word]⟩
    rw [Bytes.toNat_ofNat_of_lt (A.word_lt a)]

/-! ## cells -/

/-- the bodies of type `t` are read by the grammar -/
def Agrees (t : ColumnType) : Prop := ∀ bs v, decodeBody t bs = .ok v ↔ Denotes t bs v

theorem denotesCell_iff {t : ColumnType} {cell : Bytes} {v : Value} :
    DenotesCell t cell v ↔ (cell = nullLength ∧ v = nullValue t) ∨
      ∃ bs, bs.length ≤ limit ∧ cell = Bytes.ofNat 4 bs.length ++ bs ∧ Denotes t bs v := by
  refine ⟨?_, ?_⟩
  · intro he
    obtain ⟨⟩ | ⟨h, hl⟩ := he
    · exact .inl ⟨rfl, rfl⟩
    · exact .inr ⟨_, hl, rfl, h⟩
  · intro he
    obtain ⟨rfl, rfl⟩ | ⟨bs, hl, rfl, h⟩ := he
    · exact .null t
    · exact .body h hl

theorem reads_part {t : ColumnType} (h : Agrees t) :
    Reads (readPart t (decodeBody t)) (DenotesCell t) := by
  intro bs v rest
  rw [readPart, bind_eq_ok]
  refine ⟨?_, ?_⟩
  · intro hx
    obtain ⟨⟨cell, tail⟩, hc, he⟩ := hx
    cases cell with
    | none =>
      cases Except.ok.inj he
      exact ⟨nullLength, readCell_none_iff.1 hc, .null t⟩
    | some body =>
      obtain ⟨hl, rfl⟩ := readCell_some_iff.1 hc
      obtain ⟨v', hv, hp⟩ := bind_eq_ok.1 he
      cases Except.ok.inj hp
      exact ⟨_, (List.append_assoc _ _ _).symm, .body ((h _ _).1 hv) hl⟩
  · intro hx
    obtain ⟨cell, rfl, hc⟩ := hx
    rcases denotesCell_iff.1 hc with ⟨rfl, rfl⟩ | ⟨body, hl, rfl, hb⟩
    · exact ⟨(none, rest), readCell_none_iff.2 rfl, rfl⟩
    · refine ⟨(some body, rest), readCell_some_iff.2 ⟨hl, List.append_assoc _ _ _⟩, ?_⟩
      exact bind_eq_ok.2 ⟨v, (h _ _).2 hb, rfl⟩

theorem cell_ne_nil {t : ColumnType} {cell : Bytes} {v : Value} (h : DenotesCell t cell v) :
    cell ≠ [] := by
  rcases denotesCell_iff.1 h with ⟨rfl, _⟩ | ⟨bs, _, rfl, _⟩
  · exact List.cons_ne_nil _ _
  · exact List.cons_ne_nil _ _

/-! ## collections -/

theorem parts_iff {t : ColumnType} {bs : Bytes} {xs : List Value} :
    Parts t bs xs ↔ Row (DenotesCell t) bs xs := by
  induction xs generalizing bs with
  | nil =>
    refine ⟨?_, ?_⟩
    · intro he
      cases he
      exact .nil
    · intro he
      cases he
      exact .nil t
  | cons x xs ih =>
    refine ⟨?_, ?_⟩
    · intro he
      obtain _ | ⟨h, hs⟩ := he
      exact .cons h (ih.1 hs)
    · intro he
      obtain _ | ⟨h, hs⟩ := he
      exact .cons h (ih.2 hs)

/-- the cell of a key and the cell of its value -/
def DenotesEntry (k w : ColumnType) (bs : Bytes) (e : Value × Value) : Prop :=
  ∃ key value, bs = key ++ value ∧ DenotesCell k key e.1 ∧ DenotesCell w value e.2

theorem pairs_iff {k w : ColumnType} {bs : Bytes} {es : List (Value × Value)} :
    Pairs k w bs es ↔ Row (DenotesEntry k w) bs es := by
  induction es generalizing bs with
  | nil =>
    refine ⟨?_, ?_⟩
    · intro h
      cases h
      exact .nil
    · intro h
      cases h
      exact .nil k w
  | cons e es ih =>
    refine ⟨?_, ?_⟩
    · intro h
      obtain _ | ⟨hk, hv, hs⟩ := h
      rw [← List.append_assoc]
      exact .cons ⟨_, _, rfl, hk, hv⟩ (ih.1 hs)
    · intro h
      obtain _ | ⟨⟨key, value, rfl, hk, hv⟩, hs⟩ := h
      rw [List.append_assoc]
      exact .cons hk hv (ih.2 hs)

/-! ## fields -/

theorem fields_nil_iff {ts : List ColumnType} {xs : List Value} :
    Fields ts [] xs ↔ xs = ts.map nullValue := by
  refine ⟨?_, ?_⟩
  · intro h
    generalize hb : ([] : Bytes) = bs at h
    cases h with
    | absent => rfl
    | cons hc hs => exact absurd (List.append_eq_nil_iff.1 hb.symm).1 (cell_ne_nil hc)
  · intro he
    subst he
    exact .absent ts

theorem fields_cons_iff {t : ColumnType} {ts : List ColumnType} {bs : Bytes} {xs : List Value}
    (hb : bs ≠ []) : Fields (t :: ts) bs xs ↔
      ∃ cell rest x ys, bs = cell ++ rest ∧ xs = x :: ys ∧ DenotesCell t cell x ∧
        Fields ts rest ys := by
  refine ⟨?_, ?_⟩
  · intro h
    obtain _ | ⟨hc, hs⟩ := h
    · exact absurd rfl hb
    · exact ⟨_, _, _, _, rfl, rfl, hc, hs⟩
  · intro h
    obtain ⟨cell, rest, x, ys, rfl, rfl, hc, hs⟩ := h
    exact .cons hc hs

theorem length_of_fields {ts : List ColumnType} {bs : Bytes} {xs : List Value}
    (h : Fields ts bs xs) : xs.length = ts.length := by
  induction ts generalizing bs xs with
  | nil =>
    cases h with
    | absent => rfl
  | cons t ts ih =>
    cases h with
    | absent => exact List.length_map _
    | cons _ hs => rw [List.length_cons, List.length_cons, ih hs]

theorem readField_of_ne_nil {t : ColumnType} {body : Bytes → Except DecodeError Value} {bs : Bytes}
    (hb : bs ≠ []) : readField t body bs = readPart t body bs := by
  cases bs with
  | nil => exact absurd rfl hb
  | cons b bs => rfl

theorem decodeFields_iff {ts : List ColumnType} (h : ∀ t ∈ ts, Agrees t) {bs : Bytes}
    {xs : List Value} : decodeFields ts bs = .ok (xs, []) ↔ Fields ts bs xs := by
  induction ts generalizing bs xs with
  | nil =>
    refine ⟨?_, ?_⟩
    · intro he
      cases Except.ok.inj he
      exact .absent []
    · intro hx
      cases hx
      rfl
  | cons t ts ih =>
    obtain ⟨ht, hts⟩ := List.forall_mem_cons.1 h
    rw [decodeFields, bind_eq_ok]
    by_cases hb : bs = []
    · -- nothing is left: this field and all behind it are absent
      subst hb
      rw [fields_nil_iff, List.map_cons]
      refine ⟨?_, ?_⟩
      · intro hx
        obtain ⟨⟨v, tail⟩, hv, he⟩ := hx
        cases Except.ok.inj hv
        obtain ⟨⟨vs, rest⟩, hvs, hp⟩ := bind_eq_ok.1 he
        cases Except.ok.inj hp
        rw [fields_nil_iff.1 ((ih hts).1 hvs)]
      · intro hx
        subst hx
        exact ⟨(nullValue t, []), rfl, bind_eq_ok.2
          ⟨(ts.map nullValue, []), (ih hts).2 (.absent ts), rfl⟩⟩
    · rw [fields_cons_iff hb, readField_of_ne_nil hb]
      refine ⟨?_, ?_⟩
      · intro hx
        obtain ⟨⟨v, tail⟩, hv, he⟩ := hx
        obtain ⟨cell, rfl, hc⟩ := (reads_part ht _ _ _).1 hv
        obtain ⟨⟨vs, rest⟩, hvs, hp⟩ := bind_eq_ok.1 he
        cases Except.ok.inj hp
        exact ⟨cell, tail, v, vs, rfl, rfl, hc, (ih hts).1 hvs⟩
      · intro hx
        obtain ⟨cell, rest, x, ys, rfl, rfl, hc, hs⟩ := hx
        exact ⟨(x, rest), (reads_part ht _ _ _).2 ⟨cell, rfl, hc⟩, bind_eq_ok.2
          ⟨(ys, []), (ih hts).2 hs, rfl⟩⟩

/-- names are put beside the fields, which are read without them -/
theorem decodeNamed_eq (fs : List (String × ColumnType)) (bs : Bytes) :
    decodeNamed fs bs = (decodeFields (fs.map Prod.snd) bs).map
      fun read => ((fs.map Prod.fst).zip read.1, read.2) := by
  induction fs generalizing bs with
  | nil => rfl
  | cons f fs ih =>
    obtain ⟨name, t⟩ := f
    rw [decodeNamed, List.map_cons, List.map_cons, decodeFields]
    cases readField t (decodeBody t) bs with
    | error e => rfl
    | ok read =>
      obtain ⟨v, rest⟩ := read
      show (decodeNamed fs rest >>= _) = ((decodeFields (fs.map Prod.snd) rest >>= _).map _)
      rw [ih]
      cases decodeFields (fs.map Prod.snd) rest <;> rfl

theorem decodeNamed_iff {fs : List (String × ColumnType)} (h : ∀ f ∈ fs, Agrees f.2) {bs : Bytes}
    {ys : List (String × Value)} :
    decodeNamed fs bs = .ok (ys, []) ↔
      ∃ xs, ys = (fs.map Prod.fst).zip xs ∧ Fields (fs.map Prod.snd) bs xs := by
  have hts : ∀ t ∈ fs.map Prod.snd, Agrees t := List.forall_mem_map.2 h
  rw [decodeNamed_eq]
  refine ⟨?_, ?_⟩
  · intro he
    cases hd : decodeFields (fs.map Prod.snd) bs with
    | error e =>
      rw [hd] at he
      cases he
    | ok read =>
      obtain ⟨xs, rest⟩ := read
      rw [hd] at he
      cases Except.ok.inj he
      exact ⟨xs, rfl, (decodeFields_iff hts).1 hd⟩
  · intro hx
    obtain ⟨xs, rfl, hf⟩ := hx
    rw [(decodeFields_iff hts).2 hf]
    rfl

/-! ## every type -/

/-- a type whose bodies are the `bytes` of something; that its rule is the only one of the grammar
for it is left to the default -/
theorem agrees_of {t : ColumnType} {α : Type} {bytes : α → Bytes} {make : α → Value}
    (hr : ∀ {bs v}, decodeBody t bs = .ok v ↔ ∃ a, bs = bytes a ∧ v = make a)
    (hd : ∀ a, Denotes t (bytes a) (make a))
    (hi : ∀ bs v, Denotes t bs v → ∃ a, bs = bytes a ∧ v = make a := by
      intro _ _ h
      cases h
      exact ⟨_, rfl, rfl⟩) : Agrees t := by
  refine fun bs v => hr.trans ⟨?_, hi bs v⟩
  intro h
  obtain ⟨a, rfl, rfl⟩ := h
  exact hd a

/-- a type that no body has -/
theorem agrees_of_unsupported {t : ColumnType}
    (hr : ∀ bs, decodeBody t bs = .error (.unsupportedType t))
    (hd : ∀ bs v, ¬ Denotes t bs v := by
      rintro _ _ ⟨⟩) : Agrees t := by
  intro bs v
  rw [hr]
  exact ⟨fun h => (nomatch h), fun h => absurd h (hd bs v)⟩

theorem reads_bool {bs : Bytes} {v : Value} :
    decodeBody .bool bs = .ok v ↔ ∃ b : UInt8, bs = [b] ∧ v = .bool (b != 0) := by
  have hne : ∀ b : UInt8, (Bytes.toNat [b] != 0) = (b != 0) := by
    intro b
    have hb : Bytes.toNat [b] = b.toNat := by
      rw [Bytes.toNat_cons, List.length_nil, Nat.pow_zero, Nat.mul_one, Bytes.toNat_nil,
        Nat.add_zero]
    rw [Bool.eq_iff_iff, bne_iff_ne, bne_iff_ne, hb]
    exact not_congr (UInt8.toNat_inj (b := 0))
  refine bind_pure_eq_ok.trans ⟨?_, ?_⟩
  · intro h
    obtain ⟨n, hn, rfl⟩ := h
    obtain ⟨hl, rfl⟩ := fixed_iff.1 hn
    obtain ⟨b, rfl⟩ := List.length_eq_one_iff.1 hl
    exact ⟨b, rfl, congrArg Value.bool (hne b)⟩
  · intro h
    obtain ⟨b, rfl, rfl⟩ := h
    exact ⟨_, fixed_iff.2 ⟨rfl, rfl⟩, congrArg Value.bool (hne b).symm⟩

theorem reads_scalar {α : Type} {read : Bytes → Except DecodeError α} {bytes : α → Bytes}
    (h : ∀ {bs a}, read bs = .ok a ↔ bs = bytes a) (f : α → Value) {bs : Bytes} {v : Value} :
    (do return f (← read bs)) = .ok v ↔ ∃ a, bs = bytes a ∧ v = f a :=
  bind_pure_eq_ok.trans (exists_congr fun _ => and_congr_left fun _ => h)

theorem reads_blob {bs : Bytes} {v : Value} :
    decodeBody .blob bs = .ok v ↔ ∃ b : Bytes, bs = b ∧ v = .blob b := by
  refine ⟨?_, ?_⟩
  · intro h
    exact ⟨bs, rfl, (Except.ok.inj h).symm⟩
  · intro he
    obtain ⟨b, rfl, rfl⟩ := he
    rfl

/-- a body that is a count and as many parts -/
theorem reads_collection {α : Type} {read : Bytes → Except DecodeError (α × Bytes)}
    {r : Bytes → α → Prop} (h : Reads read r) (f : List α → Value) {bs : Bytes} {v : Value} :
    (do return f (← readCollection read bs)) = .ok v ↔
      ∃ as front, as.length ≤ limit ∧ bs = Bytes.ofNat 4 as.length ++ front ∧ Row r front as ∧
        v = f as := by
  refine bind_pure_eq_ok.trans ⟨?_, ?_⟩
  · intro he
    obtain ⟨as, ha, rfl⟩ := he
    obtain ⟨hl, front, rfl, hr⟩ := (readCollection_iff h).1 ha
    exact ⟨as, front, hl, rfl, hr, rfl⟩
  · intro he
    obtain ⟨as, front, hl, rfl, hr, rfl⟩ := he
    exact ⟨as, (readCollection_iff h).2 ⟨hl, front, rfl, hr⟩, rfl⟩

theorem agrees_list {t : ColumnType} (ht : Agrees t) : Agrees (.list t) := by
  intro bs v
  refine (reads_collection (reads_part ht) .list).trans ⟨?_, ?_⟩
  · intro h
    obtain ⟨xs, front, hl, rfl, hr, rfl⟩ := h
    exact .list (parts_iff.2 hr) hl
  · intro hd
    cases hd with
    | list hs hl => exact ⟨_, _, hl, rfl, parts_iff.1 hs, rfl⟩

theorem agrees_set {t : ColumnType} (ht : Agrees t) : Agrees (.set t) := by
  intro bs v
  refine (reads_collection (reads_part ht) .setOf).trans ⟨?_, ?_⟩
  · intro h
    obtain ⟨xs, front, hl, rfl, hr, rfl⟩ := h
    exact .set (parts_iff.2 hr) hl
  · intro hd
    cases hd with
    | set hs hl => exact ⟨_, _, hl, rfl, parts_iff.1 hs, rfl⟩

theorem agrees_map {k w : ColumnType} (hk : Agrees k) (hw : Agrees w) : Agrees (.map k w) := by
  intro bs v
  refine (reads_collection (reads_entry (reads_part hk) (reads_part hw)) .mapOf).trans ⟨?_, ?_⟩
  · intro h
    obtain ⟨es, front, hl, rfl, hr, rfl⟩ := h
    exact .map (pairs_iff.2 hr) hl
  · intro hd
    cases hd with
    | map hs hl => exact ⟨_, _, hl, rfl, pairs_iff.1 hs, rfl⟩

theorem agrees_tuple {ts : List ColumnType} (h : ∀ t ∈ ts, Agrees t) : Agrees (.tuple ts) := by
  intro bs v
  refine bind_eq_ok.trans ⟨?_, ?_⟩
  · intro hw
    obtain ⟨⟨xs, rest⟩, hx, he⟩ := hw
    obtain ⟨ys, hf, hp⟩ := bind_eq_ok.1 he
    obtain ⟨rfl, rfl⟩ := finish_iff.1 hf
    cases Except.ok.inj hp
    exact .tuple ((decodeFields_iff h).1 hx)
  · intro hd
    cases hd with
    | tuple hf => exact ⟨(_, []), (decodeFields_iff h).2 hf, rfl⟩

theorem agrees_udt {keyspace name : String} {fs : List (String × ColumnType)}
    (h : ∀ f ∈ fs, Agrees f.2) : Agrees (.udt keyspace name fs) := by
  intro bs v
  refine bind_eq_ok.trans ⟨?_, ?_⟩
  · intro hx
    obtain ⟨⟨ys, rest⟩, hy, he⟩ := hx
    obtain ⟨zs, hf, hp⟩ := bind_eq_ok.1 he
    obtain ⟨rfl, rfl⟩ := finish_iff.1 hf
    cases Except.ok.inj hp
    obtain ⟨xs, rfl, hfs⟩ := (decodeNamed_iff h).1 hy
    exact .udt hfs
  · intro hd
    cases hd with
    | udt hf => exact ⟨(_, []), (decodeNamed_iff h).2 ⟨_, rfl, hf⟩, rfl⟩

theorem decodeBody_iff (t : ColumnType) : Agrees t := by
  induction t with
  | bool => exact agrees_of reads_bool .bool
  | tinyInt => exact agrees_of (reads_word int8 _) .tinyInt
  | smallInt => exact agrees_of (reads_word int16 _) .smallInt
  | int => exact agrees_of (reads_word int32 _) .int
  | bigInt => exact agrees_of (reads_word int64 _) .bigInt
  | counter => exact agrees_of (reads_word int64 _) .counter
  | float => exact agrees_of (reads_word uint32 _) .float
  | double => exact agrees_of (reads_word uint64 _) .double
  | date => exact agrees_of (reads_word uint32 fun n => .date ⟨n⟩) fun n => .date ⟨n⟩
  | time => exact agrees_of (reads_word int64 fun n => .time ⟨n⟩) fun n => .time ⟨n⟩
  | timestamp =>
    exact agrees_of (reads_word int64 fun n => .timestamp ⟨n⟩) fun n => .timestamp ⟨n⟩
  | ascii => exact agrees_of (reads_scalar readText_iff _) .ascii
  | text => exact agrees_of (reads_scalar readText_iff _) .text
  | uuid => exact agrees_of (reads_scalar readUuid_iff _) .uuid
  | timeUuid => exact agrees_of (reads_scalar readUuid_iff _) .timeUuid
  | inet => exact agrees_of (reads_scalar readInet_iff _) .inet
  | blob => exact agrees_of reads_blob .blob
  | list t h => exact agrees_list h
  | set t h => exact agrees_set h
  | map k w hk hw => exact agrees_map hk hw
  | tuple ts h => exact agrees_tuple h
  | udt keyspace name fs h => exact agrees_udt h
  | varint => exact agrees_of_unsupported fun _ => rfl
  | decimal => exact agrees_of_unsupported fun _ => rfl
  | duration => exact agrees_of_unsupported fun _ => rfl
  | custom c => exact agrees_of_unsupported fun _ => rfl

/-- the reader takes the bodies of the grammar for the values of the grammar, and fails on every
other body -/
theorem decode_iff_denotes (t : ColumnType) (bs : Bytes) :
    (∀ v, decode t (some bs) = .ok v ↔ Denotes t bs v) ∧
      ((∃ e, decode t (some bs) = .error e) ↔ ∀ v, ¬ Denotes t bs v) := by
  refine ⟨decodeBody_iff t bs, ?_⟩
  simp only [← decodeBody_iff t bs]
  cases h : decode t (some bs) with
  | error e =>
    refine ⟨fun _ v hv => ?_, fun _ => ⟨e, rfl⟩⟩
    cases h.symm.trans hv
  | ok v =>
    refine ⟨?_, ?_⟩
    · intro hx
      obtain ⟨e, he⟩ := hx
      cases he
    · intro hn
      exact absurd h (hn v)

end Cql.Cell
