import Cql.Cell.Reader
import Cql.Cell.Writer
import Cql.Proofs.Word

/-!
# What the readers accept

A reader takes a front off its bytes and gives the rest back.  `Reads read r` says of it that it
succeeds on just those bytes that have a front which stands for the result by `r`, and that the
rest is what follows this front.  Counts, cells and rows of cells are of this kind:

* `readCount_iff`, `readCell_none_iff`, `readCell_some_iff`   a length of four bytes, and a body;
* `reads_many`            as many parts as the count says, one behind the other (`Row`);
* `readCollection_iff`    a count, its parts and nothing else;
* `fixed_iff`, `readText_iff`, `readUuid_iff`, `readInet_iff`   a scalar is the whole of its bytes.
-/

namespace Cql.Cell

/-! ## steps that may fail -/

section
variable {ε α β : Type}

theorem bind_eq_ok {x : Except ε α} {f : α → Except ε β} {b : β} :
    x >>= f = .ok b ↔ ∃ a, x = .ok a ∧ f a = .ok b := by
  cases x with
  | error e => exact ⟨fun h => (nomatch h), fun ⟨_, h, _⟩ => (nomatch h)⟩
  | ok a => exact ⟨fun h => ⟨a, rfl, h⟩, fun ⟨_, h, hb⟩ => Except.ok.inj h ▸ hb⟩

theorem bind_pure_eq_ok {x : Except ε α} {f : α → β} {b : β} :
    (do return f (← x)) = .ok b ↔ ∃ a, x = .ok a ∧ b = f a := by
  rw [bind_eq_ok]
  exact exists_congr fun a => and_congr_right fun _ =>
    ⟨fun h => (Except.ok.inj h).symm, fun h => congrArg Except.ok h.symm⟩

end

/-! ## lengths -/

theorem take_iff {n : Nat} {bs xs rest : Bytes} :
    take n bs = .ok (xs, rest) ↔ bs = xs ++ rest ∧ xs.length = n := by
  unfold take
  cases h : bs.split n with
  | none =>
    refine ⟨fun he => (nomatch he), ?_⟩
    intro hx
    obtain ⟨rfl, rfl⟩ := hx
    rw [Bytes.split_append] at h
    cases h
  | some cut =>
    refine ⟨?_, ?_⟩
    · intro he
      cases Except.ok.inj he
      exact Bytes.split_eq_some h
    · intro hx
      obtain ⟨rfl, rfl⟩ := hx
      rw [Bytes.split_append] at h
      cases h
      rfl

theorem signed_ofNat {n : Nat} (h : n ≤ limit) : signed (Bytes.ofNat 4 n).toNat = n := by
  unfold limit at h
  rw [Bytes.toNat_ofNat_of_lt (by omega), signed, if_pos (by omega)]

theorem signed_nullLength : signed nullLength.toNat = -1 := by decide

/-- a word of four bytes is the length of null, a length or a count, or lower than both -/
theorem signed_cases {word : Bytes} (h : word.length = 4) :
    word = nullLength ∨ (∃ n ≤ limit, word = Bytes.ofNat 4 n) ∨ signed word.toNat < -1 := by
  have hw := Bytes.ofNat_toNat_of_length h
  have hlt := Bytes.toNat_lt word
  rw [h] at hlt
  by_cases hp : word.toNat ≤ limit
  · exact .inr (.inl ⟨word.toNat, hp, hw.symm⟩)
  · unfold limit at hp
    by_cases hn : word.toNat = 4294967295
    · rw [hn] at hw
      exact .inl hw.symm
    · refine .inr (.inr ?_)
      rw [signed, if_neg (by omega)]
      omega

theorem readLength_iff {bs rest : Bytes} {n : Int} :
    readLength bs = .ok (n, rest) ↔
      ∃ word, bs = word ++ rest ∧ word.length = 4 ∧ n = signed word.toNat := by
  unfold readLength
  rw [bind_eq_ok]
  refine ⟨?_, ?_⟩
  · intro h
    obtain ⟨⟨word, tail⟩, ht, he⟩ := h
    obtain ⟨rfl, hl⟩ := take_iff.1 ht
    cases Except.ok.inj he
    exact ⟨word, rfl, hl, rfl⟩
  · intro h
    obtain ⟨word, rfl, hl, rfl⟩ := h
    exact ⟨(word, rest), take_iff.2 ⟨rfl, hl⟩, rfl⟩

theorem readCount_iff {bs rest : Bytes} {n : Nat} :
    readCount bs = .ok (n, rest) ↔ n ≤ limit ∧ bs = Bytes.ofNat 4 n ++ rest := by
  unfold readCount
  rw [bind_eq_ok]
  refine ⟨?_, ?_⟩
  · intro h
    obtain ⟨⟨m, tail⟩, hm, he⟩ := h
    obtain ⟨word, rfl, hl, rfl⟩ := readLength_iff.1 hm
    dsimp only at he
    rcases signed_cases hl with rfl | ⟨k, hk, rfl⟩ | hneg
    · rw [signed_nullLength, if_pos (by omega)] at he
      cases he
    · rw [signed_ofNat hk, if_neg (by omega)] at he
      cases Except.ok.inj he
      exact ⟨hk, rfl⟩
    · rw [if_pos (by omega)] at he
      cases he
  · intro h
    obtain ⟨hn, rfl⟩ := h
    refine ⟨(n, rest), readLength_iff.2 ⟨_, rfl, Bytes.length_ofNat 4 n, ?_⟩, ?_⟩
    · exact (signed_ofNat hn).symm
    dsimp only
    rw [if_neg (by omega)]
    rfl

theorem readCell_none_iff {bs rest : Bytes} :
    readCell bs = .ok (none, rest) ↔ bs = nullLength ++ rest := by
  unfold readCell
  rw [bind_eq_ok]
  refine ⟨?_, ?_⟩
  · intro h
    obtain ⟨⟨m, tail⟩, hm, he⟩ := h
    obtain ⟨word, rfl, hl, rfl⟩ := readLength_iff.1 hm
    dsimp only at he
    rcases signed_cases hl with rfl | ⟨k, hk, rfl⟩ | hneg
    · rw [signed_nullLength, if_pos rfl] at he
      cases Except.ok.inj he
      rfl
    · rw [signed_ofNat hk, if_neg (by omega), if_neg (by omega)] at he
      cases ht : take (k : Int).toNat tail <;> rw [ht] at he <;> cases he
    · rw [if_neg (by omega), if_pos (by omega)] at he
      cases he
  · intro h
    subst h
    exact ⟨(-1, rest), readLength_iff.2 ⟨nullLength, rfl, rfl, signed_nullLength.symm⟩, rfl⟩

theorem readCell_some_iff {bs rest b : Bytes} :
    readCell bs = .ok (some b, rest) ↔
      b.length ≤ limit ∧ bs = Bytes.ofNat 4 b.length ++ (b ++ rest) := by
  unfold readCell
  rw [bind_eq_ok]
  refine ⟨?_, ?_⟩
  · intro h
    obtain ⟨⟨m, tail⟩, hm, he⟩ := h
    obtain ⟨word, rfl, hl, rfl⟩ := readLength_iff.1 hm
    dsimp only at he
    rcases signed_cases hl with rfl | ⟨k, hk, rfl⟩ | hneg
    · rw [signed_nullLength, if_pos rfl] at he
      cases he
    · rw [signed_ofNat hk, if_neg (by omega), if_neg (by omega), Int.toNat_natCast] at he
      cases ht : take k tail with
      | error e =>
        rw [ht] at he
        cases he
      | ok cut =>
        rw [ht] at he
        cases Except.ok.inj he
        obtain ⟨rfl, rfl⟩ := take_iff.1 ht
        exact ⟨hk, rfl⟩
    · rw [if_neg (by omega), if_pos (by omega)] at he
      cases he
  · intro h
    obtain ⟨hb, rfl⟩ := h
    refine ⟨(b.length, b ++ rest),
      readLength_iff.2 ⟨_, rfl, Bytes.length_ofNat 4 _, (signed_ofNat hb).symm⟩, ?_⟩
    have ht : take b.length (b ++ rest) = .ok (b, rest) := take_iff.2 ⟨rfl, rfl⟩
    dsimp only
    rw [if_neg (by omega), if_neg (by omega), Int.toNat_natCast, ht]
    rfl

/-! ## parts -/

section
variable {α β : Type}

/-- `read` takes off a front that stands for the result by `r`, and succeeds if there is one -/
def Reads (read : Bytes → Except DecodeError (α × Bytes)) (r : Bytes → α → Prop) : Prop :=
  ∀ bs a rest, read bs = .ok (a, rest) ↔ ∃ front, bs = front ++ rest ∧ r front a

/-- one thing behind the other -/
inductive Row (r : Bytes → α → Prop) : Bytes → List α → Prop where
  | nil : Row r [] []
  | cons {cell bs : Bytes} {a : α} {as : List α} (h : r cell a) (hs : Row r bs as) :
    Row r (cell ++ bs) (a :: as)

theorem reads_many {read : Bytes → Except DecodeError (α × Bytes)} {r : Bytes → α → Prop}
    (h : Reads read r) (n : Nat) :
    Reads (readMany read n) fun bs as => as.length = n ∧ Row r bs as := by
  induction n with
  | zero =>
    intro bs as rest
    refine ⟨?_, ?_⟩
    · intro he
      cases Except.ok.inj he
      exact ⟨[], rfl, rfl, .nil⟩
    · intro hx
      obtain ⟨front, rfl, hl, hr⟩ := hx
      rw [List.length_eq_zero_iff.1 hl] at hr ⊢
      cases hr
      rfl
  | succ n ih =>
    intro bs as rest
    rw [readMany, bind_eq_ok]
    refine ⟨?_, ?_⟩
    · intro hx
      obtain ⟨⟨a, tail⟩, ha, he⟩ := hx
      obtain ⟨cell, rfl, hc⟩ := (h _ _ _).1 ha
      obtain ⟨⟨as', rest'⟩, has, hp⟩ := bind_eq_ok.1 he
      obtain ⟨front, rfl, hl, hr⟩ := (ih _ _ _).1 has
      cases Except.ok.inj hp
      exact ⟨cell ++ front, (List.append_assoc _ _ _).symm, congrArg (· + 1) hl, .cons hc hr⟩
    · intro hx
      obtain ⟨front, rfl, hl, hr⟩ := hx
      cases hr with
      | nil => cases hl
      | @cons cell bs a as hc hr =>
        refine ⟨(a, bs ++ rest), (h _ _ _).2 ⟨cell, List.append_assoc _ _ _, hc⟩, ?_⟩
        exact bind_eq_ok.2 ⟨(as, rest), (ih _ _ _).2 ⟨bs, rfl, Nat.succ.inj hl, hr⟩, rfl⟩

theorem reads_entry {key value : Bytes → Except DecodeError (Value × Bytes)}
    {r s : Bytes → Value → Prop} (hk : Reads key r) (hv : Reads value s) :
    Reads (readEntry key value) fun bs e => ∃ k v, bs = k ++ v ∧ r k e.1 ∧ s v e.2 := by
  intro bs e rest
  rw [readEntry, bind_eq_ok]
  refine ⟨?_, ?_⟩
  · intro h
    obtain ⟨⟨x, tail⟩, hx, he⟩ := h
    obtain ⟨⟨y, tail'⟩, hy, hp⟩ := bind_eq_ok.1 he
    obtain ⟨k, rfl, hr⟩ := (hk _ _ _).1 hx
    obtain ⟨v, rfl, hs⟩ := (hv _ _ _).1 hy
    cases Except.ok.inj hp
    exact ⟨k ++ v, (List.append_assoc _ _ _).symm, k, v, rfl, hr, hs⟩
  · intro h
    obtain ⟨front, rfl, k, v, rfl, hr, hs⟩ := h
    refine ⟨(e.1, v ++ rest), (hk _ _ _).2 ⟨k, List.append_assoc _ _ _, hr⟩, ?_⟩
    exact bind_eq_ok.2 ⟨(e.2, rest), (hv _ _ _).2 ⟨v, rfl, hs⟩, rfl⟩

theorem finish_iff {a b : α} {rest : Bytes} :
    finish (a, rest) = .ok b ↔ rest = [] ∧ a = b := by
  cases rest with
  | nil => exact ⟨fun h => ⟨rfl, Except.ok.inj h⟩, fun h => congrArg Except.ok h.2⟩
  | cons x rest => exact ⟨fun h => (nomatch h), fun h => (nomatch h.1)⟩

theorem readCollection_iff {read : Bytes → Except DecodeError (α × Bytes)}
    {r : Bytes → α → Prop} (h : Reads read r) {bs : Bytes} {as : List α} :
    readCollection read bs = .ok as ↔
      as.length ≤ limit ∧ ∃ front, bs = Bytes.ofNat 4 as.length ++ front ∧ Row r front as := by
  rw [readCollection, bind_eq_ok]
  refine ⟨?_, ?_⟩
  · intro hx
    obtain ⟨⟨n, tail⟩, hn, he⟩ := hx
    obtain ⟨hl, rfl⟩ := readCount_iff.1 hn
    obtain ⟨⟨as', rest⟩, hm, hf⟩ := bind_eq_ok.1 he
    obtain ⟨rfl, rfl⟩ := finish_iff.1 hf
    obtain ⟨front, rfl, rfl, hr⟩ := (reads_many h n _ _ _).1 hm
    exact ⟨hl, front, congrArg _ (List.append_nil _), hr⟩
  · intro hx
    obtain ⟨hl, front, rfl, hr⟩ := hx
    refine ⟨(as.length, front), readCount_iff.2 ⟨hl, rfl⟩, bind_eq_ok.2 ⟨(as, []), ?_, rfl⟩⟩
    exact (reads_many h _ _ _ _).2 ⟨front, (List.append_nil _).symm, rfl, hr⟩

end

/-! ## scalars -/

theorem fixed_iff {name : String} {w : Nat} {bs : Bytes} {n : Nat} :
    fixed name w bs = .ok n ↔ bs.length = w ∧ n = bs.toNat := by
  unfold fixed
  split
  · next h => exact ⟨fun he => ⟨h, (Except.ok.inj he).symm⟩, fun he => congrArg Except.ok he.2.symm⟩
  · next h => exact ⟨fun he => (nomatch he), fun he => absurd he.1 h⟩

theorem readText_iff {bs : Bytes} {s : String} :
    readText bs = .ok s ↔ bs = s.toUTF8.data.toList := by
  unfold readText String.fromUTF8?
  refine ⟨?_, ?_⟩
  · intro h
    split at h
    · next s' hs =>
      split at hs
      · cases Except.ok.inj h
        cases Option.some.inj hs
        rfl
      · cases hs
    · cases h
  · intro he
    subst he
    have hv : (ByteArray.mk s.toUTF8.data.toList.toArray).IsValidUTF8 := s.isValidUTF8
    rw [dif_pos hv]
    rfl

theorem readUuid_iff {name : String} {bs : Bytes} {u : Uuid} :
    readUuid name bs = .ok u ↔ bs = u.bytes := by
  unfold readUuid Uuid.bytes
  rw [bind_eq_ok]
  refine ⟨?_, ?_⟩
  · intro h
    obtain ⟨n, hn, he⟩ := h
    obtain ⟨hl, rfl⟩ := fixed_iff.1 hn
    have hlt := Bytes.toNat_lt bs
    rw [hl] at hlt
    cases Except.ok.inj he
    rw [BitVec.toNat_ofNat, Nat.mod_eq_of_lt (by omega), Bytes.ofNat_toNat_of_length hl]
  · intro h
    subst h
    have hlt := u.bits.isLt
    refine ⟨_, fixed_iff.2 ⟨Bytes.length_ofNat 16 _, rfl⟩, ?_⟩
    rw [Bytes.toNat_ofNat_of_lt (by omega), BitVec.ofNat_toNat, BitVec.setWidth_eq]
    rfl

theorem readInet_iff {bs : Bytes} {a : Inet} : readInet bs = .ok a ↔ bs = a.bytes := by
  have hlt := Bytes.toNat_lt bs
  unfold readInet Inet.ofBytes?
  refine ⟨?_, ?_⟩
  · intro h
    by_cases h4 : bs.length = 4
    · rw [if_pos h4] at h
      cases Except.ok.inj h
      rw [h4] at hlt
      rw [Inet.bytes, BitVec.toNat_ofNat, Nat.mod_eq_of_lt (by omega),
        Bytes.ofNat_toNat_of_length h4]
    · rw [if_neg h4] at h
      by_cases h16 : bs.length = 16
      · rw [if_pos h16] at h
        cases Except.ok.inj h
        rw [h16] at hlt
        rw [Inet.bytes, BitVec.toNat_ofNat, Nat.mod_eq_of_lt (by omega),
          Bytes.ofNat_toNat_of_length h16]
      · rw [if_neg h16] at h
        cases h
  · intro he
    subst he
    cases a with
    | v4 a =>
      have ha := a.isLt
      rw [Inet.bytes, if_pos (Bytes.length_ofNat 4 _), Bytes.toNat_ofNat_of_lt (by omega),
        BitVec.ofNat_toNat, BitVec.setWidth_eq]
    | v6 a =>
      have ha := a.isLt
      rw [Inet.bytes, if_neg (by rw [Bytes.length_ofNat]; decide),
        if_pos (Bytes.length_ofNat 16 _), Bytes.toNat_ofNat_of_lt (by omega), BitVec.ofNat_toNat,
        BitVec.setWidth_eq]

end Cql.Cell
