import Cql.Cursor

/-!
# What a cursor has left to tell

Reading a cursor again and again tells a list that is settled by the rows at hand and the queue of
the session before the first read is made: `told`, by recursion on the queue.  It ends with the one
report of the end.  `turns` counts the requests on the way.  No cursor moves in either of them.
-/

namespace Cql.Cursor

section
variable {α : Type} (f : List ColumnSpec → RawRow → Outcome α)

/-- the rows at hand, each seen through `f` -/
def seen (c : Cursor) : List (Outcome (Option α)) :=
  c.buffer.map fun raw => (f c.columns raw).map some

/-- all that reads tell, the end included -/
def told (c : Cursor) : List (Outcome RawResult) → List (Outcome (Option α))
  | [] => c.seen f ++ [.ok none]
  | .ok page :: queue => c.seen f ++ if c.hasMore then told (c.absorb page) queue else [.ok none]
  | .error e :: queue =>
    c.seen f ++ if c.hasMore then .error e :: told { c with buffer := [] } queue else [.ok none]

end

/-- how many requests reads make up to the end -/
def turns (c : Cursor) : List (Outcome RawResult) → Nat
  | [] => if c.hasMore then 1 else 0
  | .ok page :: queue => if c.hasMore then turns (c.absorb page) queue + 1 else 0
  | .error _ :: queue => if c.hasMore then turns c queue + 1 else 0

section
variable {α : Type} {f : List ColumnSpec → RawRow → Outcome α} {c : Cursor}

theorem told_row {raw : RawRow} {rest : List RawRow} (hb : c.buffer = raw :: rest)
    (queue : List (Outcome RawResult)) :
    c.told f queue = (f c.columns raw).map some :: told f { c with buffer := rest } queue := by
  match queue with
  | [] | .ok _ :: _ | .error _ :: _ =>
    rw [told, told, seen, seen, hb]
    rfl

theorem told_over (hb : c.buffer = []) (hm : c.hasMore = false) (queue : List (Outcome RawResult)) :
    c.told f queue = [.ok none] := by
  match queue with
  | [] | .ok _ :: _ | .error _ :: _ => simp [told, seen, hb, hm]

theorem turns_over (hm : c.hasMore = false) (queue : List (Outcome RawResult)) :
    c.turns queue = 0 := by
  match queue with
  | [] | .ok _ :: _ | .error _ :: _ => simp [turns, hm]

end

end Cql.Cursor
