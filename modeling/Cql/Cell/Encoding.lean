import Cql.Cell.Writer

/-!
# Cells by composition

The bytes of a cell said without a buffer: a length and the body, and the body of a collection or a
record put together from the cells of its parts.  `unsetWithin?` says whether, and in what, an
`unset` stands inside a value; it is the first one in the order in which the parts are written.

* `Cell.encode v`        the cell, `Cell.body v` its body;
* `Cell.unsetWithin? v`  the kind of holder of the first `unset` inside;
* `Cell.faultWithin? v`  the first thing inside that keeps the body from being written: an `unset`,
                         a count or a length of more than four bytes;
* `Cell.fault? v`        the same for the whole cell;
* `Cell.Fits v`          the body is no longer than a length can tell;
* `Cell.PartsFit v`      the bodies of the parts are not, and neither is their count.

A body that fits has no part that does not, because a part is shorter than what it stands in and a
collection has no more parts than bytes (`partsFit_of_fits`); so `PartsFit` need not look deeper.
Where the parts fit, an `unset` is the only fault (`faultWithin?_of_partsFit`).
-/

namespace Cql.Cell

/-! ## the bytes -/

/-- a body behind its length; `null` and `unset` have a length of their own and no body -/
def cellWith (v : Value) (body : Bytes) : Bytes :=
  match v with
  | .null => nullLength
  | .unset => unsetLength
  | _ => Bytes.ofNat 4 body.length ++ body

mutual

def body : Value → Bytes
  | .null | .unset => []
  | .bool b => [if b then 1 else 0]
  | .tinyInt n => Bytes.ofNat 1 n.toBitVec.toNat
  | .smallInt n => Bytes.ofNat 2 n.toBitVec.toNat
  | .int n => Bytes.ofNat 4 n.toBitVec.toNat
  | .bigInt n => Bytes.ofNat 8 n.toBitVec.toNat
  | .counter n => Bytes.ofNat 8 n.toBitVec.toNat
  | .float bits => Bytes.ofNat 4 bits.toNat
  | .double bits => Bytes.ofNat 8 bits.toNat
  | .text s => s.toUTF8.data.toList
  | .blob bs => bs
  | .uuid u => u.bytes
  | .timeUuid u => u.bytes
  | .date d => Bytes.ofNat 4 d.raw.toNat
  | .time t => Bytes.ofNat 8 t.nanos.toBitVec.toNat
  | .timestamp t => Bytes.ofNat 8 t.millis.toBitVec.toNat
  | .inet a => a.bytes
  | .list xs => Bytes.ofNat 4 xs.length ++ bodyOfParts xs
  | .set xs => Bytes.ofNat 4 xs.length ++ bodyOfParts xs
  | .map es => Bytes.ofNat 4 es.length ++ bodyOfEntries es
  | .tuple xs => bodyOfParts xs
  | .udt _ fs => bodyOfFields fs
termination_by structural v => v

def bodyOfParts : List Value → Bytes
  | [] => []
  | x :: xs => cellWith x (body x) ++ bodyOfParts xs
termination_by structural xs => xs

/-- the cell of a key and the cell of its value -/
def bodyOfEntries : List (Value × Value) → Bytes
  | [] => []
  | (k, v) :: es => cellWith k (body k) ++ (cellWith v (body v) ++ bodyOfEntries es)
termination_by structural es => es

/-- the cells of the fields, without their names -/
def bodyOfFields : List (String × Value) → Bytes
  | [] => []
  | (_, v) :: fs => cellWith v (body v) ++ bodyOfFields fs
termination_by structural fs => fs

end

def encode (v : Value) : Bytes := cellWith v (body v)

theorem bodyOfParts_cons (x : Value) (xs : List Value) :
    bodyOfParts (x :: xs) = encode x ++ bodyOfParts xs := rfl
theorem bodyOfEntries_cons (k v : Value) (es : List (Value × Value)) :
    bodyOfEntries ((k, v) :: es) = encode k ++ (encode v ++ bodyOfEntries es) := rfl
theorem bodyOfFields_cons (name : String) (v : Value) (fs : List (String × Value)) :
    bodyOfFields ((name, v) :: fs) = encode v ++ bodyOfFields fs := rfl

theorem bodyOfParts_eq_flatMap (xs : List Value) : bodyOfParts xs = xs.flatMap encode := by
  induction xs with
  | nil => rfl
  | cons x xs ih => rw [bodyOfParts_cons, List.flatMap_cons, ih]

/-- a cell is longer than its body -/
theorem length_body_lt (v : Value) : (body v).length < (encode v).length := by
  cases v
  case null => decide
  case unset => decide
  all_goals
    show _ < (Bytes.ofNat 4 _ ++ _).length
    rw [List.length_append, Bytes.length_ofNat]
    omega

theorem length_bodyOfParts (xs : List Value) : xs.length ≤ (bodyOfParts xs).length := by
  induction xs with
  | nil => exact Nat.le_refl _
  | cons x xs ih =>
    have := length_body_lt x
    rw [bodyOfParts_cons, List.length_cons, List.length_append]
    omega

theorem length_bodyOfEntries (es : List (Value × Value)) :
    es.length ≤ (bodyOfEntries es).length := by
  induction es with
  | nil => exact Nat.le_refl _
  | cons e es ih =>
    obtain ⟨k, v⟩ := e
    have := length_body_lt k
    rw [bodyOfEntries_cons, List.length_cons, List.length_append, List.length_append]
    omega

theorem bodyOfFields_eq (fs : List (String × Value)) :
    bodyOfFields fs = bodyOfParts (fs.map Prod.snd) := by
  induction fs with
  | nil => rfl
  | cons f fs ih => rw [bodyOfFields_cons, List.map_cons, bodyOfParts_cons, ih]

/-! ## `unset` inside of a value -/

/-- what is found in a part: the part itself, or what is within it -/
def inPart (holder : Holder) (v : Value) (within : Option Holder) : Option Holder :=
  match v with
  | .unset => some holder
  | _ => within

mutual

/-- what the first `unset` inside of a value is held by -/
def unsetWithin? : Value → Option Holder
  | .list xs => unsetInParts? .list xs
  | .set xs => unsetInParts? .set xs
  | .map es => unsetInEntries? es
  | .tuple xs => unsetInParts? .tuple xs
  | .udt _ fs => unsetInFields? fs
  | _ => none
termination_by structural v => v

def unsetInParts? (holder : Holder) : List Value → Option Holder
  | [] => none
  | x :: xs => (inPart holder x (unsetWithin? x)).or (unsetInParts? holder xs)
termination_by structural xs => xs

def unsetInEntries? : List (Value × Value) → Option Holder
  | [] => none
  | (k, v) :: es =>
    (inPart .map k (unsetWithin? k)).or
      ((inPart .map v (unsetWithin? v)).or (unsetInEntries? es))
termination_by structural es => es

def unsetInFields? : List (String × Value) → Option Holder
  | [] => none
  | (_, v) :: fs => (inPart .udt v (unsetWithin? v)).or (unsetInFields? fs)
termination_by structural fs => fs

end

/-! ## faults -/

def countFault? (n : Nat) : Option BindingError :=
  if limit < n then some (.collectionTooLarge n) else none

def lengthFault? (n : Nat) : Option BindingError :=
  if limit < n then some (.valueTooLarge n) else none

/-- what is found in a cell: within its body, or in its length -/
def faultOfCell (v : Value) (within : Option BindingError) : Option BindingError :=
  match v with
  | .null | .unset => none
  | _ => within.or (lengthFault? (body v).length)

/-- what is found in a part, which may not be `unset` -/
def faultOfPart (holder : Holder) (v : Value) (within : Option BindingError) :
    Option BindingError :=
  match v with
  | .unset => some (.nestedUnset holder)
  | _ => faultOfCell v within

mutual

/-- the first thing that keeps the body of a value from being written -/
def faultWithin? : Value → Option BindingError
  | .list xs => (countFault? xs.length).or (faultInParts? .list xs)
  | .set xs => (countFault? xs.length).or (faultInParts? .set xs)
  | .map es => (countFault? es.length).or (faultInEntries? es)
  | .tuple xs => faultInParts? .tuple xs
  | .udt _ fs => faultInFields? fs
  | _ => none
termination_by structural v => v

def faultInParts? (holder : Holder) : List Value → Option BindingError
  | [] => none
  | x :: xs => (faultOfPart holder x (faultWithin? x)).or (faultInParts? holder xs)
termination_by structural xs => xs

def faultInEntries? : List (Value × Value) → Option BindingError
  | [] => none
  | (k, v) :: es =>
    (faultOfPart .map k (faultWithin? k)).or
      ((faultOfPart .map v (faultWithin? v)).or (faultInEntries? es))
termination_by structural es => es

def faultInFields? : List (String × Value) → Option BindingError
  | [] => none
  | (_, v) :: fs => (faultOfPart .udt v (faultWithin? v)).or (faultInFields? fs)
termination_by structural fs => fs

end

def fault? (v : Value) : Option BindingError := faultOfCell v (faultWithin? v)

theorem countFault?_of_le {n : Nat} (h : n ≤ limit) : countFault? n = none :=
  if_neg (Nat.not_lt.2 h)

theorem lengthFault?_of_le {n : Nat} (h : n ≤ limit) : lengthFault? n = none :=
  if_neg (Nat.not_lt.2 h)

/-! ## what fits -/

/-- the body is no longer than a length can tell -/
def Fits (v : Value) : Prop := (body v).length ≤ limit

instance (v : Value) : Decidable (Fits v) := Nat.decLe _ _

/-- the bodies of the parts are no longer than a length can tell, and there are no more of them
than a count can tell -/
def PartsFit : Value → Prop
  | .list xs => xs.length ≤ limit ∧ ∀ x ∈ xs, Fits x
  | .set xs => xs.length ≤ limit ∧ ∀ x ∈ xs, Fits x
  | .map es => es.length ≤ limit ∧ ∀ e ∈ es, Fits e.1 ∧ Fits e.2
  | .tuple xs => ∀ x ∈ xs, Fits x
  | .udt _ fs => ∀ f ∈ fs, Fits f.2
  | _ => True

theorem fits_of_mem_parts {xs : List Value} (h : (bodyOfParts xs).length ≤ limit) :
    ∀ x ∈ xs, Fits x := by
  induction xs with
  | nil => exact fun _ hx => nomatch hx
  | cons x xs ih =>
    have hx := length_body_lt x
    rw [bodyOfParts_cons, List.length_append] at h
    refine List.forall_mem_cons.2 ⟨?_, ih (by omega)⟩
    show (body x).length ≤ limit
    omega

theorem fits_of_mem_entries {es : List (Value × Value)} (h : (bodyOfEntries es).length ≤ limit) :
    ∀ e ∈ es, Fits e.1 ∧ Fits e.2 := by
  induction es with
  | nil => exact fun _ he => nomatch he
  | cons e es ih =>
    obtain ⟨k, v⟩ := e
    have hk := length_body_lt k
    have hv := length_body_lt v
    rw [bodyOfEntries_cons, List.length_append, List.length_append] at h
    refine List.forall_mem_cons.2 ⟨⟨?_, ?_⟩, ih (by omega)⟩
    · show (body k).length ≤ limit
      omega
    · show (body v).length ≤ limit
      omega

theorem partsFit_of_fits {v : Value} (h : Fits v) : PartsFit v := by
  -- a count stands before the parts, which are at least as many bytes
  have hcount : ∀ {n : Nat} {bs : Bytes}, n ≤ bs.length →
      (Bytes.ofNat 4 n ++ bs).length ≤ limit → n ≤ limit ∧ bs.length ≤ limit := by
    intro n bs hn hl
    rw [List.length_append] at hl
    omega
  cases v with
  | list xs =>
    obtain ⟨hn, hl⟩ := hcount (length_bodyOfParts xs) h
    exact ⟨hn, fits_of_mem_parts hl⟩
  | set xs =>
    obtain ⟨hn, hl⟩ := hcount (length_bodyOfParts xs) h
    exact ⟨hn, fits_of_mem_parts hl⟩
  | map es =>
    obtain ⟨hn, hl⟩ := hcount (length_bodyOfEntries es) h
    exact ⟨hn, fits_of_mem_entries hl⟩
  | tuple xs => exact fits_of_mem_parts h
  | udt name fs =>
    have hl : (bodyOfParts (fs.map Prod.snd)).length ≤ limit := bodyOfFields_eq fs ▸ h
    exact List.forall_mem_map.1 (fits_of_mem_parts hl)
  | _ => trivial

end Cql.Cell
