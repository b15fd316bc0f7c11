import Cql.ColumnType

/-!
# Types with parts

Collections are the types whose bodies begin with a count; tuples and records are those whose bodies
are fields alone, as many as the type declares or fewer.  `widest t` is the greatest number of
fields that any tuple or record within `t` declares, zero if there is none.
-/

namespace Cql.ColumnType

def isCollection : ColumnType → Bool
  | list _ | set _ | map _ _ => true
  | _ => false

/-- whether the type is made from other types -/
def hasParts : ColumnType → Bool
  | list _ | set _ | map _ _ | tuple _ | udt _ _ _ => true
  | _ => false

/-- the types of the fields of a tuple or a record -/
def fields? : ColumnType → Option (List ColumnType)
  | tuple ts => some ts
  | udt _ _ fs => some (fs.map Prod.snd)
  | _ => none

mutual

def widest : ColumnType → Nat
  | list t => widest t
  | set t => widest t
  | map k w => max (widest k) (widest w)
  | tuple ts => max ts.length (widestOf ts)
  | udt _ _ fs => max fs.length (widestNamed fs)
  | _ => 0
termination_by structural t => t

def widestOf : List ColumnType → Nat
  | [] => 0
  | t :: ts => max (widest t) (widestOf ts)
termination_by structural ts => ts

def widestNamed : List (String × ColumnType) → Nat
  | [] => 0
  | (_, t) :: fs => max (widest t) (widestNamed fs)
termination_by structural fs => fs

end

theorem widestNamed_eq (fs : List (String × ColumnType)) :
    widestNamed fs = widestOf (fs.map Prod.snd) := by
  induction fs with
  | nil => rfl
  | cons f fs ih =>
    obtain ⟨name, t⟩ := f
    rw [widestNamed, ih, List.map_cons, widestOf]

theorem widest_le_of_mem {ts : List ColumnType} {t : ColumnType} (h : t ∈ ts) :
    widest t ≤ widestOf ts := by
  induction ts with
  | nil => cases h
  | cons u us ih =>
    rw [widestOf]
    rcases List.mem_cons.1 h with rfl | h
    · exact Nat.le_max_left _ _
    · exact Nat.le_trans (ih h) (Nat.le_max_right _ _)

end Cql.ColumnType
