/-!
# Texts with a separator between neighbours

The one rule by which elements, clauses, column names and conditions are put together: the
separator stands between two neighbours and nowhere else.  `joined` works on characters, `join` on
strings; `toList_join` says that they agree.
-/

namespace Cql.Text

/-- the texts of `xs` with `sep` between neighbours -/
def joined (sep : List Char) : List (List Char) → List Char
  | [] => []
  | [x] => x
  | x :: y :: xs => x ++ sep ++ joined sep (y :: xs)

theorem joined_nil (sep : List Char) : joined sep [] = [] := rfl
theorem joined_singleton (sep x : List Char) : joined sep [x] = x := rfl
theorem joined_cons_cons (sep x y : List Char) (xs : List (List Char)) :
    joined sep (x :: y :: xs) = x ++ sep ++ joined sep (y :: xs) := rfl

/-- the strings of `xs` with `sep` between neighbours -/
def join (sep : String) : List String → String
  | [] => ""
  | [x] => x
  | x :: y :: xs => x ++ sep ++ join sep (y :: xs)

theorem join_nil (sep : String) : join sep [] = "" := rfl
theorem join_singleton (sep x : String) : join sep [x] = x := rfl
theorem join_cons_cons (sep x y : String) (xs : List String) :
    join sep (x :: y :: xs) = x ++ sep ++ join sep (y :: xs) := rfl

theorem toList_join (sep : String) (xs : List String) :
    (join sep xs).toList = joined sep.toList (xs.map String.toList) := by
  induction xs with
  | nil => rfl
  | cons x xs ih =>
    cases xs with
    | nil => rfl
    | cons y xs =>
      rw [join_cons_cons, String.toList_append, String.toList_append, ih]
      rfl

end Cql.Text
