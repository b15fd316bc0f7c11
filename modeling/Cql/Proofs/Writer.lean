import Cql.Cell.Encoding
import Cql.Value.Induction

/-!
# The writer writes the composed cell

`put` reserves a length, writes the body behind it and fills the length in, or cuts the buffer back.
What comes of it is said by composition: the cell of the value at the end of the buffer, or the
first fault and the buffer as it was.  This holds of every value and every buffer; `Follows` is what
a writer of a part keeps to, which may leave something behind when it fails, and `Atomic` what the
writer of a cell keeps to, which does not.

* `follows_putBody`          the body of every value;
* `put_eq`, `body?_eq`       the cell at the end of a buffer, the body alone;
* `fault?_of_fits`           where lengths fit, only an `unset` inside is a fault;
* `forall_faultWithin`       a fault is of one of three kinds.
-/

namespace Cql.Cell

/-! ## the three ways to write a cell -/

theorem cellWith_of_ne {v : Value} (hn : v ≠ .null) (hu : v ≠ .unset) (bs : Bytes) :
    cellWith v bs = Bytes.ofNat 4 bs.length ++ bs := by
  unfold cellWith
  split
  · exact absurd rfl hn
  · exact absurd rfl hu
  · rfl

theorem cellOf_of_ne {v : Value} (hn : v ≠ .null) (hu : v ≠ .unset) (w : Writer Unit) :
    cellOf v w = framed w := by
  unfold cellOf
  split
  · exact absurd rfl hn
  · exact absurd rfl hu
  · rfl

theorem partOf_of_ne (holder : Holder) {v : Value} (hu : v ≠ .unset) (w : Writer Unit) :
    partOf holder v w = cellOf v w := by
  unfold partOf
  split
  · exact absurd rfl hu
  · rfl

theorem faultOfCell_of_ne {v : Value} (hn : v ≠ .null) (hu : v ≠ .unset)
    (within : Option BindingError) :
    faultOfCell v within = within.or (lengthFault? (body v).length) := by
  unfold faultOfCell
  split
  · exact absurd rfl hn
  · exact absurd rfl hu
  · rfl

theorem faultOfPart_of_ne (holder : Holder) {v : Value} (hu : v ≠ .unset)
    (within : Option BindingError) : faultOfPart holder v within = faultOfCell v within := by
  unfold faultOfPart
  split
  · exact absurd rfl hu
  · rfl

theorem inPart_of_ne (holder : Holder) {v : Value} (hu : v ≠ .unset) (within : Option Holder) :
    inPart holder v within = within := by
  unfold inPart
  split
  · exact absurd rfl hu
  · rfl

theorem body?_of_ne {v : Value} (hn : v ≠ .null) (hu : v ≠ .unset) :
    body? v =
      match putBody v #[] with
      | .ok _ out => .ok (some out.toList)
      | .error e _ => .error e := by
  unfold body?
  split
  · exact absurd rfl hn
  · exact absurd rfl hu
  · rfl

/-! ## faults -/

/-- where the parts of `v` fit and `v` does, an `unset` is the only fault of its cell -/
theorem faultOfCell_eq {v : Value} (hf : Fits v)
    (h : faultWithin? v = (unsetWithin? v).map .nestedUnset) :
    faultOfCell v (faultWithin? v) = (unsetWithin? v).map .nestedUnset := by
  by_cases hn : v = .null
  · subst hn
    rfl
  by_cases hu : v = .unset
  · subst hu
    rfl
  rw [faultOfCell_of_ne hn hu, lengthFault?_of_le hf, Option.or_none, h]

theorem faultOfPart_eq (holder : Holder) {v : Value} (hf : Fits v)
    (h : faultWithin? v = (unsetWithin? v).map .nestedUnset) :
    faultOfPart holder v (faultWithin? v) =
      (inPart holder v (unsetWithin? v)).map .nestedUnset := by
  by_cases hu : v = .unset
  · subst hu
    rfl
  rw [faultOfPart_of_ne holder hu, inPart_of_ne holder hu, faultOfCell_eq hf h]

theorem faultInParts?_eq (holder : Holder) {xs : List Value} (hf : ∀ x ∈ xs, Fits x)
    (h : ∀ x ∈ xs, faultWithin? x = (unsetWithin? x).map .nestedUnset) :
    faultInParts? holder xs = (unsetInParts? holder xs).map .nestedUnset := by
  induction xs with
  | nil => rfl
  | cons x xs ih =>
    obtain ⟨hx, hxs⟩ := List.forall_mem_cons.1 hf
    obtain ⟨h₁, h₂⟩ := List.forall_mem_cons.1 h
    rw [faultInParts?, unsetInParts?, faultOfPart_eq holder hx h₁, ih hxs h₂, Option.map_or]

theorem faultInEntries?_eq {es : List (Value × Value)} (hf : ∀ e ∈ es, Fits e.1 ∧ Fits e.2)
    (h : ∀ e ∈ es, faultWithin? e.1 = (unsetWithin? e.1).map .nestedUnset ∧
      faultWithin? e.2 = (unsetWithin? e.2).map .nestedUnset) :
    faultInEntries? es = (unsetInEntries? es).map .nestedUnset := by
  induction es with
  | nil => rfl
  | cons e es ih =>
    obtain ⟨k, v⟩ := e
    obtain ⟨he, hes⟩ := List.forall_mem_cons.1 hf
    obtain ⟨h₁, h₂⟩ := List.forall_mem_cons.1 h
    rw [faultInEntries?, unsetInEntries?, faultOfPart_eq .map he.1 h₁.1,
      faultOfPart_eq .map he.2 h₁.2, ih hes h₂, Option.map_or, Option.map_or]

theorem faultInFields?_eq (fs : List (String × Value)) :
    faultInFields? fs = faultInParts? .udt (fs.map Prod.snd) := by
  induction fs with
  | nil => rfl
  | cons f fs ih => rw [faultInFields?, List.map_cons, faultInParts?, ih]

theorem unsetInFields?_eq (fs : List (String × Value)) :
    unsetInFields? fs = unsetInParts? .udt (fs.map Prod.snd) := by
  induction fs with
  | nil => rfl
  | cons f fs ih => rw [unsetInFields?, List.map_cons, unsetInParts?, ih]

theorem faultWithin?_of_partsFit {v : Value} (h : PartsFit v) :
    faultWithin? v = (unsetWithin? v).map .nestedUnset := by
  induction v with
  | list xs ih =>
    rw [faultWithin?, unsetWithin?, countFault?_of_le h.1, Option.none_or]
    exact faultInParts?_eq .list h.2 fun x hx => ih x hx (partsFit_of_fits (h.2 x hx))
  | set xs ih =>
    rw [faultWithin?, unsetWithin?, countFault?_of_le h.1, Option.none_or]
    exact faultInParts?_eq .set h.2 fun x hx => ih x hx (partsFit_of_fits (h.2 x hx))
  | map es ih =>
    rw [faultWithin?, unsetWithin?, countFault?_of_le h.1, Option.none_or]
    exact faultInEntries?_eq h.2 fun e he =>
      ⟨(ih e he).1 (partsFit_of_fits (h.2 e he).1), (ih e he).2 (partsFit_of_fits (h.2 e he).2)⟩
  | tuple xs ih =>
    rw [faultWithin?, unsetWithin?]
    exact faultInParts?_eq .tuple h fun x hx => ih x hx (partsFit_of_fits (h x hx))
  | udt name fs ih =>
    rw [faultWithin?, unsetWithin?, faultInFields?_eq, unsetInFields?_eq]
    exact faultInParts?_eq .udt (List.forall_mem_map.2 h)
      (List.forall_mem_map.2 fun f hf => ih f hf (partsFit_of_fits (h f hf)))
  | _ => rfl

theorem fault?_of_fits {v : Value} (h : Fits v) :
    fault? v = (unsetWithin? v).map .nestedUnset :=
  faultOfCell_eq h (faultWithin?_of_partsFit (partsFit_of_fits h))

theorem le_of_lengthFault? {n : Nat} (h : lengthFault? n = none) : n ≤ limit := by
  unfold lengthFault? at h
  split at h
  · cases h
  · omega

theorem fits_of_fault? {v : Value} (h : fault? v = none) : Fits v := by
  by_cases hn : v = .null
  · subst hn
    exact Nat.zero_le _
  by_cases hu : v = .unset
  · subst hu
    exact Nat.zero_le _
  rw [fault?, faultOfCell_of_ne hn hu] at h
  exact le_of_lengthFault? (Option.or_eq_none_iff.1 h).2

section
variable {p : BindingError → Prop} (hu : ∀ h, p (.nestedUnset h)) (hv : ∀ n, p (.valueTooLarge n))
  (hc : ∀ n, p (.collectionTooLarge n))

theorem forall_or {x y : Option BindingError} (hx : ∀ e ∈ x, p e) (hy : ∀ e ∈ y, p e) :
    ∀ e ∈ x.or y, p e := by
  cases x with
  | none => exact hy
  | some e => exact hx

include hc in
theorem forall_countFault (n : Nat) : ∀ e ∈ countFault? n, p e := by
  unfold countFault?
  split
  · intro _ h
    cases h
    exact hc n
  · intro _ h
    cases h

include hv in
theorem forall_lengthFault (n : Nat) : ∀ e ∈ lengthFault? n, p e := by
  unfold lengthFault?
  split
  · intro _ h
    cases h
    exact hv n
  · intro _ h
    cases h

include hv in
theorem forall_faultOfCell {v : Value} {within : Option BindingError} (h : ∀ e ∈ within, p e) :
    ∀ e ∈ faultOfCell v within, p e := by
  unfold faultOfCell
  split
  · intro _ he
    cases he
  · intro _ he
    cases he
  · exact forall_or h (forall_lengthFault hv _)

include hu hv in
theorem forall_faultOfPart {holder : Holder} {v : Value} {within : Option BindingError}
    (h : ∀ e ∈ within, p e) : ∀ e ∈ faultOfPart holder v within, p e := by
  unfold faultOfPart
  split
  · intro _ he
    cases he
    exact hu holder
  · exact forall_faultOfCell hv h

include hu hv in
theorem forall_faultInParts {holder : Holder} {xs : List Value}
    (h : ∀ x ∈ xs, ∀ e ∈ faultWithin? x, p e) : ∀ e ∈ faultInParts? holder xs, p e := by
  induction xs with
  | nil => rintro _ ⟨⟩
  | cons x xs ih =>
    obtain ⟨hx, hxs⟩ := List.forall_mem_cons.1 h
    exact forall_or (forall_faultOfPart hu hv hx) (ih hxs)

include hu hv in
theorem forall_faultInEntries {es : List (Value × Value)}
    (h : ∀ e ∈ es, (∀ f ∈ faultWithin? e.1, p f) ∧ ∀ f ∈ faultWithin? e.2, p f) :
    ∀ e ∈ faultInEntries? es, p e := by
  induction es with
  | nil => rintro _ ⟨⟩
  | cons e es ih =>
    obtain ⟨he, hes⟩ := List.forall_mem_cons.1 h
    exact forall_or (forall_faultOfPart hu hv he.1)
      (forall_or (forall_faultOfPart hu hv he.2) (ih hes))

include hu hv hc

/-- what holds of the three kinds of faults holds of whatever is found -/
theorem forall_faultWithin (v : Value) : ∀ e ∈ faultWithin? v, p e := by
  induction v with
  | list xs ih => exact forall_or (forall_countFault hc _) (forall_faultInParts hu hv ih)
  | set xs ih => exact forall_or (forall_countFault hc _) (forall_faultInParts hu hv ih)
  | map es ih => exact forall_or (forall_countFault hc _) (forall_faultInEntries hu hv ih)
  | tuple xs ih => exact forall_faultInParts hu hv ih
  | udt name fs ih =>
    rw [faultWithin?, faultInFields?_eq]
    exact forall_faultInParts hu hv (List.forall_mem_map.2 ih)
  | _ => rintro _ ⟨⟩

theorem forall_fault (v : Value) : ∀ e ∈ fault? v, p e :=
  forall_faultOfCell hv (forall_faultWithin hu hv hc v)

end

/-! ## what a writer does -/

/-- the writer appends `bs`, or fails with what was `found`, having appended something -/
def Follows (w : Writer Unit) (found : Option BindingError) (bs : Bytes) : Prop :=
  match found with
  | none => ∀ out, w out = .ok () (out ++ bs.toArray)
  | some e => ∀ out, ∃ more : Buffer, w out = .error e (out ++ more)

/-- the writer appends `bs`, or fails with what was `found` and leaves the buffer as it was -/
def Atomic (w : Writer Unit) (found : Option BindingError) (bs : Bytes) : Prop :=
  ∀ out, w out =
    match found with
    | none => .ok () (out ++ bs.toArray)
    | some e => .error e out

theorem Atomic.follows {w : Writer Unit} {found : Option BindingError} {bs : Bytes}
    (h : Atomic w found bs) : Follows w found bs := by
  cases found with
  | none => exact h
  | some e => exact fun out => ⟨#[], by rw [h out, Array.append_empty]⟩

theorem atomic_emit (bs : Bytes) : Atomic (emit bs) none bs := fun _ => rfl

theorem atomic_throw (e : BindingError) (bs : Bytes) : Atomic (throw e) (some e) bs :=
  fun _ => rfl

theorem atomic_emitCount (n : Nat) : Atomic (emitCount n) (countFault? n) (Bytes.ofNat 4 n) := by
  unfold emitCount countFault?
  split
  · exact atomic_throw _ _
  · exact atomic_emit _

theorem follows_pure : Follows (pure ()) none [] := fun out => by
  show EStateM.Result.ok () out = .ok () (out ++ #[])
  rw [Array.append_empty]

theorem follows_andThen {a b : Writer Unit} {f g : Option BindingError} {x y : Bytes}
    (ha : Follows a f x) (hb : Follows b g y) : Follows (do a; b) (f.or g) (x ++ y) := by
  cases f with
  | some e =>
    intro out
    obtain ⟨more, ho⟩ := ha out
    refine ⟨more, ?_⟩
    show EStateM.bind a (fun _ => b) out = _
    rw [EStateM.bind, ho]
  | none =>
    cases g with
    | none =>
      intro out
      show EStateM.bind a (fun _ => b) out = _
      rw [EStateM.bind, ha out]
      show b (out ++ x.toArray) = _
      rw [hb, Array.append_assoc, List.append_toArray x y]
    | some e =>
      intro out
      obtain ⟨more, ho⟩ := hb (out ++ x.toArray)
      refine ⟨x.toArray ++ more, ?_⟩
      show EStateM.bind a (fun _ => b) out = _
      rw [EStateM.bind, ha out]
      show b (out ++ x.toArray) = _
      rw [ho, Array.append_assoc]

/-- the bytes that stood there give way to as many others -/
theorem overwrite_append (bs : Bytes) (a b c : Buffer) (h : b.size = bs.length) :
    overwrite (a ++ b ++ c) a.size bs = a ++ bs.toArray ++ c := by
  induction bs generalizing a b with
  | nil =>
    have hb : b = #[] := Array.eq_empty_of_size_eq_zero h
    rw [hb]
    rfl
  | cons x bs ih =>
    obtain ⟨l⟩ := a
    obtain ⟨m⟩ := b
    obtain ⟨n⟩ := c
    cases m with
    | nil => cases h
    | cons y m =>
      have hs : (l.toArray ++ (y :: m).toArray ++ n.toArray).setIfInBounds l.toArray.size x =
          (l ++ [x]).toArray ++ m.toArray ++ n.toArray := by
        simp
      have hl : l.toArray.size + 1 = (l ++ [x]).toArray.size := by simp
      rw [overwrite, hs, hl, ih]
      · simp
      · simpa using h

theorem shrink_append (a b : Buffer) : (a ++ b).shrink a.size = a := by
  obtain ⟨l⟩ := a
  obtain ⟨m⟩ := b
  simp [Array.shrink_eq_take]

/-- a length is put before what is written, or everything is taken back -/
theorem atomic_framed {w : Writer Unit} {found : Option BindingError} {bs : Bytes}
    (hw : Follows w found bs) :
    Atomic (framed w) (found.or (lengthFault? bs.length)) (Bytes.ofNat 4 bs.length ++ bs) := by
  intro out
  have hback : ∀ more : Buffer, (out ++ #[0, 0, 0, 0] ++ more).shrink out.size = out := by
    intro more
    rw [Array.append_assoc, shrink_append]
  unfold framed
  dsimp only
  cases found with
  | some e =>
    obtain ⟨more, ho⟩ := hw (out.append #[0, 0, 0, 0])
    rw [ho]
    exact congrArg (EStateM.Result.error e) (hback more)
  | none =>
    -- what stands behind the four reserved bytes is the body
    have hs : (out ++ #[0, 0, 0, 0] ++ bs.toArray).size - out.size - 4 = bs.length := by
      simp only [Array.size_append, List.size_toArray]
      show out.size + 4 + bs.length - out.size - 4 = bs.length
      omega
    rw [hw, Option.none_or, lengthFault?]
    show (if limit < (out ++ #[0, 0, 0, 0] ++ bs.toArray).size - out.size - 4 then
        EStateM.Result.error
          (BindingError.valueTooLarge ((out ++ #[0, 0, 0, 0] ++ bs.toArray).size - out.size - 4))
          ((out ++ #[0, 0, 0, 0] ++ bs.toArray).shrink out.size)
      else EStateM.Result.ok () (overwrite (out ++ #[0, 0, 0, 0] ++ bs.toArray) out.size
        (Bytes.ofNat 4 ((out ++ #[0, 0, 0, 0] ++ bs.toArray).size - out.size - 4)))) = _
    rw [hs, hback,
      overwrite_append _ out #[0, 0, 0, 0] bs.toArray (Bytes.length_ofNat 4 _).symm,
      Array.append_assoc, List.append_toArray (Bytes.ofNat 4 bs.length) bs]
    split
    · rfl
    · rfl

/-! ## a value and its parts -/

theorem atomic_cellOf {v : Value} (h : Follows (putBody v) (faultWithin? v) (body v)) :
    Atomic (cellOf v (putBody v)) (faultOfCell v (faultWithin? v)) (encode v) := by
  by_cases hn : v = .null
  · subst hn
    exact atomic_emit nullLength
  by_cases hu : v = .unset
  · subst hu
    exact atomic_emit unsetLength
  rw [cellOf_of_ne hn hu, faultOfCell_of_ne hn hu, encode, cellWith_of_ne hn hu]
  exact atomic_framed h

theorem atomic_partOf (holder : Holder) {v : Value}
    (h : Follows (putBody v) (faultWithin? v) (body v)) :
    Atomic (partOf holder v (putBody v)) (faultOfPart holder v (faultWithin? v)) (encode v) := by
  by_cases hu : v = .unset
  · subst hu
    exact atomic_throw _ _
  rw [partOf_of_ne holder hu, faultOfPart_of_ne holder hu]
  exact atomic_cellOf h

theorem follows_putParts (holder : Holder) {xs : List Value}
    (h : ∀ x ∈ xs, Follows (putBody x) (faultWithin? x) (body x)) :
    Follows (putParts holder xs) (faultInParts? holder xs) (bodyOfParts xs) := by
  induction xs with
  | nil => exact follows_pure
  | cons x xs ih =>
    obtain ⟨hx, hxs⟩ := List.forall_mem_cons.1 h
    exact follows_andThen (atomic_partOf holder hx).follows (ih hxs)

theorem follows_putEntries {es : List (Value × Value)}
    (h : ∀ e ∈ es, Follows (putBody e.1) (faultWithin? e.1) (body e.1) ∧
      Follows (putBody e.2) (faultWithin? e.2) (body e.2)) :
    Follows (putEntries es) (faultInEntries? es) (bodyOfEntries es) := by
  induction es with
  | nil => exact follows_pure
  | cons e es ih =>
    obtain ⟨k, v⟩ := e
    obtain ⟨he, hes⟩ := List.forall_mem_cons.1 h
    exact follows_andThen (atomic_partOf .map he.1).follows
      (follows_andThen (atomic_partOf .map he.2).follows (ih hes))

theorem putFields_eq (fs : List (String × Value)) :
    putFields fs = putParts .udt (fs.map Prod.snd) := by
  induction fs with
  | nil => rfl
  | cons f fs ih => rw [putFields, List.map_cons, putParts, ih]

theorem follows_putBody (v : Value) : Follows (putBody v) (faultWithin? v) (body v) := by
  induction v with
  | null => exact follows_pure
  | unset => exact follows_pure
  | list xs ih => exact follows_andThen (atomic_emitCount _).follows (follows_putParts .list ih)
  | set xs ih => exact follows_andThen (atomic_emitCount _).follows (follows_putParts .set ih)
  | map es ih => exact follows_andThen (atomic_emitCount _).follows (follows_putEntries ih)
  | tuple xs ih => exact follows_putParts .tuple ih
  | udt name fs ih =>
    rw [putBody, faultWithin?, body, putFields_eq, faultInFields?_eq, bodyOfFields_eq]
    exact follows_putParts .udt (List.forall_mem_map.2 ih)
  | _ => exact (atomic_emit _).follows

/-- the cell of every value is appended, or its first fault is told and the buffer is as it was -/
theorem put_eq (v : Value) (out : Buffer) :
    put v out =
      match fault? v with
      | none => .ok () (out ++ (encode v).toArray)
      | some e => .error e out :=
  atomic_cellOf (follows_putBody v) out

/-- the body alone is the composed one, or the first fault within -/
theorem body?_eq {v : Value} (hn : v ≠ .null) (hu : v ≠ .unset) :
    body? v =
      match faultWithin? v with
      | none => .ok (some (body v))
      | some e => .error e := by
  have h := follows_putBody v
  rw [body?_of_ne hn hu]
  cases hw : faultWithin? v with
  | none =>
    rw [hw] at h
    rw [h #[], Array.empty_append]
  | some e =>
    rw [hw] at h
    obtain ⟨more, ho⟩ := h #[]
    rw [ho]

end Cql.Cell
