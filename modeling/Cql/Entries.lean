/-!
# Entries in the order of their keys' first appearance

A table whose keys keep the place of their first insertion and hold the value of the last one: the
entries of a map value, the columns of a row, the assignments of a statement.  It is a list of
pairs, and `put` is the only way in.

`get?_put` says that a key holds what was put last, `keys_put` that a known key keeps its place and
a new one goes to the end.
-/

namespace Cql

/-- keys with their values, in the order of the keys' first appearance -/
abbrev Entries (κ ν : Type) := List (κ × ν)

namespace Entries
variable {κ ν : Type} [BEq κ]

/-- the value of the first key equal to `k` -/
def get? (k : κ) : Entries κ ν → Option ν
  | [] => none
  | (key, value) :: es => if k == key then some value else get? k es

/-- give `k` a new value in its place, or append it -/
def put (k : κ) (v : ν) : Entries κ ν → Entries κ ν
  | [] => [(k, v)]
  | (key, value) :: es => if k == key then (key, v) :: es else (key, value) :: put k v es

/-- all pairs put in turn -/
def ofList (es : List (κ × ν)) : Entries κ ν := es.foldl (fun acc e => put e.1 e.2 acc) []

def keys (es : Entries κ ν) : List κ := es.map Prod.fst
def values (es : Entries κ ν) : List ν := es.map Prod.snd

omit [BEq κ] in
theorem keys_cons (e : κ × ν) (es : Entries κ ν) : keys (e :: es) = e.1 :: keys es := rfl
omit [BEq κ] in
theorem values_cons (e : κ × ν) (es : Entries κ ν) : values (e :: es) = e.2 :: values es := rfl

/-- keys and values go through functions; the keys stay as equal or unequal as they were -/
theorem put_map {κ' ν' : Type} [BEq κ'] {f : κ → κ'} {k : κ} {es : Entries κ ν}
    (h : ∀ e ∈ es, (f k == f e.1) = (k == e.1)) (g : ν → ν') (v : ν) :
    put (f k) (g v) (es.map (Prod.map f g)) = (put k v es).map (Prod.map f g) := by
  induction es with
  | nil => rfl
  | cons e es ih =>
    obtain ⟨hkey, hes⟩ := List.forall_mem_cons.1 h
    obtain ⟨key, value⟩ := e
    rw [List.map_cons, Prod.map, put, put, hkey, ih hes]
    split <;> rfl

theorem get?_put [LawfulBEq κ] (k a : κ) (v : ν) (es : Entries κ ν) :
    get? a (put k v es) = if a == k then some v else get? a es := by
  induction es with
  | nil => rfl
  | cons e es ih =>
    obtain ⟨key, value⟩ := e
    by_cases h : k = key
    · subst h
      by_cases ha : a = k <;> simp [put, get?, ha]
    · by_cases ha : a = key
      · subst ha
        have hk : ¬a = k := fun e => h e.symm
        simp [put, get?, h, hk]
      · simp [put, get?, h, ha, ih]

theorem keys_put [LawfulBEq κ] (k : κ) (v : ν) (es : Entries κ ν) :
    keys (put k v es) = if k ∈ keys es then keys es else keys es ++ [k] := by
  induction es with
  | nil => rfl
  | cons e es ih =>
    obtain ⟨key, value⟩ := e
    by_cases h : k = key
    · subst h
      simp [put, keys_cons]
    · by_cases hk : k ∈ keys es <;> simp [put, keys_cons, h, ih, hk]

end Entries

end Cql
