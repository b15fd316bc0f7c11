import Cql.Error.Causes
import Cql.Query.Fragment

/-!
# The condition of a write

A write is unconditional, or happens only if its row exists, or only if all of some conditions
hold.  The last two exclude each other: whichever was asked for first stays, and the other is
refused.
-/

namespace Cql

inductive Guard where
  | always
  | ifExists
  | ifAll (conditions : Fragments)

namespace Guard

def requireExists : Guard → Except BuilderError Guard
  | ifAll _ => .error .conflictingConditions
  | _ => .ok ifExists

def require (f : Fragment) : Guard → Except BuilderError Guard
  | ifExists => .error .conflictingConditions
  | ifAll fs => .ok (ifAll (fs ++ [f]))
  | always => .ok (ifAll [f])

def clause : Guard → String
  | always => ""
  | ifExists => "IF EXISTS"
  | ifAll fs => "IF " ++ fs.text

def values : Guard → List Value
  | ifAll fs => fs.values
  | _ => []

end Guard

end Cql
