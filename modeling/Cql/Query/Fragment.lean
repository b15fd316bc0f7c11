import Cql.Host.Binding
import Cql.Text.Joined

/-!
# Fragments

A fragment is a piece of a statement's text with the values of its placeholders.  Fragments that
stand together are joined by `AND`, and their values follow one another in the same order.
-/

namespace Cql

structure Fragment where
  text : String
  values : List Value

/-- a text with the host data of its placeholders -/
def Fragment.bind (text : String) (data : List Host) : Except BindingError Fragment :=
  (Host.bindAll data).map fun values => ⟨text, values⟩

/-- fragments that must all hold -/
abbrev Fragments := List Fragment

namespace Fragments

def text (fs : Fragments) : String := Text.join " AND " (fs.map Fragment.text)

def values (fs : Fragments) : List Value := fs.flatMap Fragment.values

/-- the fragments behind a keyword, nothing if there are none -/
def clause (keyword : String) (fs : Fragments) : String :=
  if fs.isEmpty then "" else keyword ++ " " ++ fs.text

theorem values_nil : values [] = [] := rfl
theorem values_cons (f : Fragment) (fs : Fragments) : values (f :: fs) = f.values ++ values fs := rfl
theorem values_append (fs gs : Fragments) : values (fs ++ gs) = values fs ++ values gs :=
  List.flatMap_append
theorem clause_nil (keyword : String) : clause keyword [] = "" := rfl

end Fragments

def keywordIf (keyword : String) (on : Bool) : String := if on then keyword else ""

/-- clauses with a blank between neighbours; those without text are left out -/
def joinClauses (clauses : List String) : String :=
  Text.join " " (clauses.filter fun c => !c.isEmpty)

end Cql
