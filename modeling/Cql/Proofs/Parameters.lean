import Cql.Parameters
import Cql.Proofs.Reader
import Cql.Proofs.Writer
import Mathlib.Data.List.Forall2
import Mathlib.Data.List.Induction

/-!
# Runs of pushes

A list of parameters keeps its count apart from its buffer, and the writer of a cell has written
something when it fails.  `Lists p vs` ties them together: `p` lists the cells of `vs` and nothing
else.  Every push, whether it succeeds or fails, keeps it (`lists_attempt`), so it is kept by every
run of pushes (`lists_attempts`), where `vs` are the values that were taken.

* `push_eq`              what one push does;
* `push_fails_iff`       when it fails, and with what;
* `cells_of_lists`       the cells read back from the buffer;
* `ofValues_ok_iff`, `ofValues_error_iff`   all parameters at once, as pushes;
* `attempts_spec`        what holds after every run of pushes.
-/

namespace Cql

namespace Parameters

open Cell (encode fault? fits_of_fault?)

/-! ## one push -/

theorem push_eq (v : Value) (p : Parameters) :
    push v p =
      if limit ≤ p.count then .error (.tooManyValues (p.count + 1)) p
      else
        match fault? v with
        | none => .ok () ⟨p.count + 1, p.buffer ++ (encode v).toArray⟩
        | some e => .error e p := by
  show (if limit ≤ p.count then _ else _) = _
  rw [Cell.put_eq]
  cases fault? v with
  | none => rfl
  | some e => rfl

theorem push_of_full {p : Parameters} (h : limit ≤ p.count) (v : Value) :
    push v p = .error (.tooManyValues (p.count + 1)) p := by
  rw [push_eq, if_pos h]

theorem push_of_fault {p : Parameters} (h : p.count < limit) {v : Value} {e : BindingError}
    (hv : fault? v = some e) : push v p = .error e p := by
  rw [push_eq, if_neg (Nat.not_le.2 h), hv]

theorem push_of_none {p : Parameters} (h : p.count < limit) {v : Value} (hv : fault? v = none) :
    push v p = .ok () ⟨p.count + 1, p.buffer ++ (encode v).toArray⟩ := by
  rw [push_eq, if_neg (Nat.not_le.2 h), hv]

theorem eq_of_push_error {v : Value} {p q : Parameters} {e : BindingError}
    (h : push v p = .error e q) : q = p := by
  rw [push_eq] at h
  split at h
  · cases h
    rfl
  · split at h
    · cases h
    · cases h
      rfl

theorem fault?_ne_tooManyValues (v : Value) (n : Nat) : fault? v ≠ some (.tooManyValues n) :=
  fun h => Cell.forall_fault (p := fun e => e ≠ .tooManyValues n) nofun nofun nofun v _ h rfl

theorem put_fails_iff {v : Value} {e : BindingError} :
    (∃ out, Cell.put v #[] = .error e out) ↔ fault? v = some e := by
  rw [Cell.put_eq]
  cases fault? v with
  | none => exact ⟨fun ⟨_, h⟩ => (nomatch h), fun h => (nomatch h)⟩
  | some f =>
    refine ⟨?_, ?_⟩
    · intro he
      obtain ⟨out, h⟩ := he
      cases h
      rfl
    · intro he
      cases he
      exact ⟨#[], rfl⟩

/-- below the greatest count a push fails as the writer does -/
theorem push_fails_iff {p : Parameters} (h : p.count < limit) {v : Value} {e : BindingError} :
    (∃ q, push v p = .error e q) ↔ ∃ out, Cell.put v #[] = .error e out := by
  rw [put_fails_iff]
  cases hv : fault? v with
  | none =>
    rw [push_of_none h hv]
    exact ⟨fun ⟨_, he⟩ => (nomatch he), fun he => (nomatch he)⟩
  | some f =>
    rw [push_of_fault h hv]
    refine ⟨?_, ?_⟩
    · intro hx
      obtain ⟨q, he⟩ := hx
      cases he
      rfl
    · intro hx
      cases hx
      exact ⟨p, rfl⟩

/-- a push fails for the number of values at the greatest count, whatever the value -/
theorem push_full_iff {p : Parameters} (h : p.count ≤ limit) {v : Value} :
    (∃ q, push v p = .error (.tooManyValues (limit + 1)) q) ↔ p.count = limit := by
  refine ⟨?_, ?_⟩
  · intro he
    by_contra hne
    obtain ⟨out, hp⟩ := (push_fails_iff (by omega)).1 he
    exact fault?_ne_tooManyValues v _ (put_fails_iff.1 ⟨out, hp⟩)
  · intro hc
    exact ⟨p, by rw [push_of_full (Nat.le_of_eq hc.symm), hc]⟩

/-! ## the cells of a buffer -/

/-- the parameter that the cell of a value is read as -/
inductive ReadAs : Value → Parameter → Prop where
  | null : ReadAs .null .null
  | unset : ReadAs .unset .unset
  | bytes {v : Value} {body : Bytes} (h : Cell.body? v = .ok (some body)) : ReadAs v (.bytes body)

theorem nextCell?_word {word : Bytes} (h : word.length = 4) (rest : Bytes) :
    nextCell? (word ++ rest) =
      if Cell.signed word.toNat = -1 then some (.null, rest)
      else if Cell.signed word.toNat = -2 then some (.unset, rest)
      else if Cell.signed word.toNat < 0 then none
      else (rest.split (Cell.signed word.toNat).toNat).map fun cut => (.bytes cut.1, cut.2) := by
  have hs := Bytes.split_append word rest
  rw [h] at hs
  rw [nextCell?, hs]

theorem nextCell?_null (rest : Bytes) :
    nextCell? (Cell.nullLength ++ rest) = some (.null, rest) := by
  rw [nextCell?_word rfl, Cell.signed_nullLength, if_pos rfl]

theorem nextCell?_unset (rest : Bytes) :
    nextCell? (Cell.unsetLength ++ rest) = some (.unset, rest) := by
  have hs : Cell.signed Cell.unsetLength.toNat = -2 := by decide
  rw [nextCell?_word rfl, hs, if_neg (by decide), if_pos rfl]

/-- the length and the body of a cell are cut off, and nothing behind it -/
theorem nextCell?_body {bs : Bytes} (h : bs.length ≤ Cell.limit) (rest : Bytes) :
    nextCell? (Bytes.ofNat 4 bs.length ++ bs ++ rest) = some (.bytes bs, rest) := by
  rw [List.append_assoc, nextCell?_word (Bytes.length_ofNat 4 _), Cell.signed_ofNat h,
    if_neg (by omega), if_neg (by omega), if_neg (by omega), Int.toNat_natCast,
    Bytes.split_append]
  rfl

/-- a cell that was written is the next one, and is of the value -/
theorem nextCell?_encode {v : Value} (h : fault? v = none) (rest : Bytes) :
    ∃ c, ReadAs v c ∧ nextCell? (encode v ++ rest) = some (c, rest) := by
  by_cases hn : v = .null
  · subst hn
    exact ⟨.null, .null, nextCell?_null rest⟩
  by_cases hu : v = .unset
  · subst hu
    exact ⟨.unset, .unset, nextCell?_unset rest⟩
  have hf := fits_of_fault? h
  have hw : Cell.faultWithin? v = none := by
    rw [fault?, Cell.faultOfCell_of_ne hn hu] at h
    exact (Option.or_eq_none_iff.1 h).1
  have hb : Cell.body? v = .ok (some (Cell.body v)) := by
    rw [Cell.body?_eq hn hu, hw]
  refine ⟨.bytes (Cell.body v), .bytes hb, ?_⟩
  rw [encode, Cell.cellWith_of_ne hn hu]
  exact nextCell?_body hf rest

theorem cellsFrom_of_some {bs rest : Bytes} {c : Parameter} (h : nextCell? bs = some (c, rest))
    (acc : List Parameter) : cellsFrom acc bs = cellsFrom (c :: acc) rest := by
  rw [cellsFrom]
  split
  · next c' rest' h' =>
    rw [h] at h'
    cases h'
    rfl
  · next h' =>
    rw [h] at h'
    cases h'

theorem cellsFrom_nil (acc : List Parameter) : cellsFrom acc [] = acc.reverse := by
  rw [cellsFrom]
  rfl

/-- cells written one behind the other are read one after the other, up to the end -/
theorem cellsFrom_flatMap {vs : List Value} (h : ∀ v ∈ vs, fault? v = none)
    (acc : List Parameter) :
    ∃ cs, List.Forall₂ ReadAs vs cs ∧ cellsFrom acc (vs.flatMap encode) = acc.reverse ++ cs := by
  induction vs generalizing acc with
  | nil => exact ⟨[], .nil, by rw [List.flatMap_nil, cellsFrom_nil, List.append_nil]⟩
  | cons v vs ih =>
    obtain ⟨hv, hvs⟩ := List.forall_mem_cons.1 h
    obtain ⟨c, hc, hnext⟩ := nextCell?_encode hv (vs.flatMap encode)
    obtain ⟨cs, hcs, he⟩ := ih hvs (c :: acc)
    refine ⟨c :: cs, .cons hc hcs, ?_⟩
    rw [List.flatMap_cons, cellsFrom_of_some hnext, he, List.reverse_cons, List.append_assoc]
    rfl

/-! ## what a list of parameters holds -/

/-- the parameters are the cells of the values, each of them written, and as many as counted -/
structure Lists (p : Parameters) (vs : List Value) : Prop where
  count_eq : p.count = vs.length
  count_le : p.count ≤ limit
  written : ∀ v ∈ vs, Cell.put v #[] = .ok () (encode v).toArray
  cellBytes_eq : p.cellBytes = vs.flatMap encode

theorem lists_empty : Lists empty [] :=
  ⟨rfl, Nat.zero_le _, fun _ h => (nomatch h), rfl⟩

theorem put_eq_ok_iff {v : Value} :
    Cell.put v #[] = .ok () (encode v).toArray ↔ fault? v = none := by
  rw [Cell.put_eq]
  cases fault? v with
  | none => exact ⟨fun _ => rfl, fun _ => by rw [Array.empty_append]⟩
  | some e => exact ⟨fun h => (nomatch h), fun h => (nomatch h)⟩

theorem cells_of_lists {p : Parameters} {vs : List Value} (h : Lists p vs) :
    List.Forall₂ ReadAs vs p.cells := by
  obtain ⟨cs, hcs, he⟩ := cellsFrom_flatMap (fun v hv => put_eq_ok_iff.1 (h.written v hv)) []
  rw [cells, h.cellBytes_eq, he]
  exact hcs

theorem lists_concat {p : Parameters} {vs : List Value} (h : Lists p vs) (hp : p.count < limit)
    {v : Value} (hv : fault? v = none) :
    Lists ⟨p.count + 1, p.buffer ++ (encode v).toArray⟩ (vs ++ [v]) where
  count_eq := by rw [List.length_append, ← h.count_eq]; rfl
  count_le := hp
  written := List.forall_mem_append.2
    ⟨h.written, List.forall_mem_singleton.2 (put_eq_ok_iff.2 hv)⟩
  cellBytes_eq := by
    have hc : p.buffer.toList = vs.flatMap encode := h.cellBytes_eq
    rw [cellBytes, Array.toList_append, hc, List.flatMap_append, List.flatMap_singleton]

/-! ## runs of pushes -/

/-- one push, by what there is behind it: the parameters, and the values taken so far -/
def attempt : Parameters × List Value → Value → Parameters × List Value
  | (p, vs), v =>
    match push v p with
    | .ok _ q => (q, vs ++ [v])
    | .error _ q => (q, vs)

/-- one push after another on an empty list, whether they succeed or not -/
def attempts (vs : List Value) : Parameters × List Value := vs.foldl attempt (empty, [])

theorem attempts_concat (vs : List Value) (v : Value) :
    attempts (vs ++ [v]) = attempt (attempts vs) v := by
  rw [attempts, List.foldl_append]
  rfl

theorem lists_attempt {p : Parameters} {vs : List Value} (h : Lists p vs) (v : Value) :
    Lists (attempt (p, vs) v).1 (attempt (p, vs) v).2 := by
  rcases Nat.lt_or_ge p.count limit with hp | hp
  · cases hv : fault? v with
    | none =>
      rw [attempt, push_of_none hp hv]
      exact lists_concat h hp hv
    | some e =>
      rw [attempt, push_of_fault hp hv]
      exact h
  · rw [attempt, push_of_full hp]
    exact h

theorem lists_attempts (vs : List Value) : Lists (attempts vs).1 (attempts vs).2 := by
  induction vs using List.reverseRecOn with
  | nil => exact lists_empty
  | append_singleton vs v ih =>
    rw [attempts_concat]
    exact lists_attempt ih v

theorem length_attempts_le (vs : List Value) : (attempts vs).2.length ≤ vs.length := by
  induction vs using List.reverseRecOn with
  | nil => exact Nat.le_refl _
  | append_singleton vs v ih =>
    rw [attempts_concat, attempt, List.length_append]
    split
    · rw [List.length_append]
      exact Nat.add_le_add_right ih _
    · exact Nat.le_add_right_of_le ih

theorem attempts_concat_eq_iff {vs : List Value} {v : Value} {q : Parameters} :
    attempts (vs ++ [v]) = (q, vs ++ [v]) ↔
      ∃ p, attempts vs = (p, vs) ∧ push v p = .ok () q := by
  have hl := length_attempts_le vs
  rw [attempts_concat]
  cases ha : attempts vs with
  | mk p taken =>
    rw [ha] at hl
    cases hp : push v p with
    | ok _ q' =>
      rw [attempt, hp]
      refine ⟨?_, ?_⟩
      · intro h
        obtain ⟨rfl, ht⟩ := Prod.mk.inj h
        exact ⟨p, by rw [List.append_cancel_right ht], hp⟩
      · intro he
        obtain ⟨p', h, hq⟩ := he
        obtain ⟨rfl, rfl⟩ := Prod.mk.inj h
        rw [hp] at hq
        cases hq
        rfl
    | error e q' =>
      -- nothing is taken now, and never more than there are, so one value stays missing
      rw [attempt, hp]
      refine ⟨?_, ?_⟩
      · intro h
        obtain ⟨_, ht⟩ := Prod.mk.inj h
        dsimp only at ht hl
        rw [ht, List.length_append, List.length_singleton] at hl
        omega
      · intro he
        obtain ⟨p', h, hq⟩ := he
        obtain ⟨rfl, rfl⟩ := Prod.mk.inj h
        rw [hp] at hq
        cases hq

/-! ## all parameters at once -/

theorem pushAll_append (vs ws : List Value) (p : Parameters) :
    pushAll (vs ++ ws) p =
      match pushAll vs p with
      | .ok _ q => pushAll ws q
      | .error e q => .error e q := by
  induction vs generalizing p with
  | nil => rfl
  | cons v vs ih =>
    rw [List.cons_append, pushAll, pushAll]
    cases push v p with
    | ok _ q => exact ih q
    | error e q => rfl

theorem pushAll_singleton (v : Value) (p : Parameters) : pushAll [v] p = push v p := by
  rw [pushAll]
  cases push v p with
  | ok _ q => rfl
  | error e q => rfl

theorem pushAll_ok_iff {vs : List Value} {q : Parameters} :
    pushAll vs empty = .ok () q ↔ attempts vs = (q, vs) := by
  induction vs using List.reverseRecOn generalizing q with
  | nil =>
    refine ⟨?_, ?_⟩
    · intro hx
      cases hx
      rfl
    · intro hx
      cases hx
      rfl
  | append_singleton vs v ih =>
    rw [attempts_concat_eq_iff, pushAll_append]
    cases ha : pushAll vs empty with
    | ok _ p =>
      rw [ih.1 ha]
      dsimp only
      rw [pushAll_singleton]
      refine ⟨?_, ?_⟩
      · intro h
        exact ⟨p, rfl, h⟩
      · intro hx
        obtain ⟨p', he, hv⟩ := hx
        obtain ⟨rfl, _⟩ := Prod.mk.inj he
        exact hv
    | error e p =>
      refine ⟨?_, ?_⟩
      · intro h
        cases h
      · intro hx
        obtain ⟨p', he, _⟩ := hx
        have hp := ih.2 he
        rw [ha] at hp
        cases hp

theorem pushAll_error_iff {vs : List Value} {p q : Parameters} {e : BindingError} :
    pushAll vs p = .error e q ↔
      ∃ front v back p', vs = front ++ v :: back ∧ pushAll front p = .ok () p' ∧
        push v p' = .error e q := by
  refine ⟨?_, ?_⟩
  · intro h
    induction vs generalizing p with
    | nil => cases h
    | cons v vs ih =>
      rw [pushAll] at h
      cases hv : push v p with
      | ok _ p' =>
        rw [hv] at h
        obtain ⟨front, w, back, p'', rfl, hf, hw⟩ := ih h
        refine ⟨v :: front, w, back, p'', rfl, ?_, hw⟩
        rw [pushAll, hv]
        exact hf
      | error f p' =>
        rw [hv] at h
        cases h
        exact ⟨[], v, vs, p, rfl, rfl, hv⟩
  · intro he
    obtain ⟨front, v, back, p', rfl, hf, hv⟩ := he
    rw [pushAll_append, hf]
    dsimp only
    rw [pushAll, hv]

theorem ofValues_ok_iff {vs : List Value} {q : Parameters} :
    ofValues vs = .ok q ↔ attempts vs = (q, vs) := by
  rw [← pushAll_ok_iff, ofValues]
  cases pushAll vs empty with
  | ok _ p =>
    refine ⟨?_, ?_⟩
    · intro he
      cases he
      rfl
    · intro he
      cases he
      rfl
  | error e p => exact ⟨fun h => (nomatch h), fun h => (nomatch h)⟩

theorem ofValues_error_iff {vs : List Value} {e : BindingError} :
    ofValues vs = .error e ↔
      ∃ front v back p q, vs = front ++ v :: back ∧ attempts front = (p, front) ∧
        push v p = .error e q := by
  have hq : ofValues vs = .error e ↔ ∃ q, pushAll vs empty = .error e q := by
    rw [ofValues]
    cases pushAll vs empty with
    | ok _ p => exact ⟨fun h => (nomatch h), fun ⟨_, h⟩ => (nomatch h)⟩
    | error f p =>
      refine ⟨?_, ?_⟩
      · intro he
        cases he
        exact ⟨p, rfl⟩
      · intro he
        obtain ⟨q, ⟨⟩⟩ := he
        rfl
  rw [hq]
  refine ⟨?_, ?_⟩
  · intro he
    obtain ⟨q, h⟩ := he
    obtain ⟨front, v, back, p, rfl, hf, hv⟩ := pushAll_error_iff.1 h
    exact ⟨front, v, back, p, q, rfl, pushAll_ok_iff.1 hf, hv⟩
  · intro he
    obtain ⟨front, v, back, p, q, rfl, hf, hv⟩ := he
    exact ⟨q, pushAll_error_iff.2 ⟨front, v, back, p, rfl, pushAll_ok_iff.2 hf, hv⟩⟩

/-- after any run of pushes the count is that of the values taken, the buffer is their cells and is
read back as these; the next push fails at the greatest count, and below it when the writer does,
and then leaves all as it was; all parameters at once are a run in which every push succeeds -/
theorem attempts_spec (vs : List Value) :
    let p := (attempts vs).1
    let taken := (attempts vs).2
    (Lists p taken ∧ List.Forall₂ ReadAs taken p.cells ∧
      p.toBytes = Bytes.ofNat 2 taken.length ++ taken.flatMap encode) ∧
    (∀ v, ((∃ q, push v p = .error (.tooManyValues 65536) q) ↔ p.count = 65535) ∧
      (p.count ≠ 65535 →
        ∀ e, (∃ q, push v p = .error e q) ↔ ∃ out, Cell.put v #[] = .error e out) ∧
      ∀ e q, push v p = .error e q → q = p) ∧
    (∀ q, ofValues vs = .ok q ↔ attempts vs = (q, vs)) ∧
    ∀ e, ofValues vs = .error e ↔
      ∃ front v back p q, vs = front ++ v :: back ∧ attempts front = (p, front) ∧
        push v p = .error e q := by
  intro p taken
  have hl : Lists p taken := lists_attempts vs
  have hb : p.toBytes = Bytes.ofNat 2 taken.length ++ taken.flatMap encode := by
    rw [toBytes, hl.count_eq, hl.cellBytes_eq]
  refine ⟨⟨hl, cells_of_lists hl, hb⟩, fun v => ⟨push_full_iff hl.count_le, ?_, ?_⟩,
    fun q => ofValues_ok_iff, fun e => ofValues_error_iff⟩
  · intro hne e
    exact push_fails_iff (Nat.lt_of_le_of_ne hl.count_le hne)
  · intro e q h
    exact eq_of_push_error h

end Parameters

end Cql
