/-!
# Placeholders of a text

A question mark stands for a value that is sent apart from the text.  `fill` puts renderings of the
values in the place of the question marks, the first for the first and so on, without looking again
at what it has put there.
-/

namespace Cql.Text

def placeholder : Char := '?'

/-- how many placeholders a text has -/
def marks (s : String) : Nat := s.toList.count placeholder

/-- placeholders without a rendering stay -/
def fillFrom : List Char → List String → List Char
  | [], _ => []
  | c :: cs, [] => c :: fillFrom cs []
  | c :: cs, r :: rs =>
    if c = placeholder then r.toList ++ fillFrom cs rs else c :: fillFrom cs (r :: rs)

/-- the text with its placeholders replaced in turn -/
def fill (s : String) (renderings : List String) : String :=
  String.ofList (fillFrom s.toList renderings)

theorem fillFrom_cons_of_ne {c : Char} (h : c ≠ placeholder) (cs : List Char) (rs : List String) :
    fillFrom (c :: cs) rs = c :: fillFrom cs rs := by
  cases rs with
  | nil => rfl
  | cons r rs => rw [fillFrom, if_neg h]

theorem fillFrom_nil (cs : List Char) : fillFrom cs [] = cs := by
  induction cs with
  | nil => rfl
  | cons c cs ih => rw [fillFrom, ih]

theorem fillFrom_append {cs : List Char} {rs : List String}
    (h : cs.count placeholder = rs.length) (ds : List Char) (ss : List String) :
    fillFrom (cs ++ ds) (rs ++ ss) = fillFrom cs rs ++ fillFrom ds ss := by
  induction cs generalizing rs with
  | nil =>
    have hr : rs = [] := List.length_eq_zero_iff.1 h.symm
    rw [hr]
    rfl
  | cons c cs ih =>
    by_cases hc : c = placeholder
    · subst hc
      rw [List.count_cons_self] at h
      cases rs with
      | nil => cases h
      | cons r rs =>
        show fillFrom (placeholder :: (cs ++ ds)) (r :: (rs ++ ss)) = _
        rw [fillFrom, fillFrom, if_pos rfl, if_pos rfl, ih (Nat.succ.inj h), List.append_assoc]
    · rw [List.count_cons_of_ne hc] at h
      rw [List.cons_append, fillFrom_cons_of_ne hc, fillFrom_cons_of_ne hc, ih h, List.cons_append]

theorem marks_append (s t : String) : marks (s ++ t) = marks s + marks t := by
  rw [marks, String.toList_append, List.count_append]
  rfl

theorem fill_nil (s : String) : fill s [] = s := by
  rw [fill, fillFrom_nil, String.ofList_toList]

theorem fill_append {s : String} {rs : List String} (h : marks s = rs.length) (t : String)
    (ss : List String) : fill (s ++ t) (rs ++ ss) = fill s rs ++ fill t ss := by
  rw [fill, String.toList_append, fillFrom_append h, String.ofList_append]
  rfl

end Cql.Text
