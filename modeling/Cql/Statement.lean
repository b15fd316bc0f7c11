import Cql.Profile

/-!
# Statements

What a session is asked to run: a text, or a handle that the session gave out for a text, and the
profile that goes with it.
-/

namespace Cql

inductive Statement where
  | direct (text : String) (profile : Option Profile)
  | prepared (handle : Bytes) (text : String) (profile : Option Profile)
deriving DecidableEq

namespace Statement

def text : Statement → String
  | direct text _ => text
  | prepared _ text _ => text

def profile : Statement → Option Profile
  | direct _ p => p
  | prepared _ _ p => p

/-- the handle of a prepared statement -/
def handle? : Statement → Option Bytes
  | direct _ _ => none
  | prepared handle _ _ => some handle

def withProfile (p : Profile) : Statement → Statement
  | direct text _ => direct text (some p)
  | prepared handle text _ => prepared handle text (some p)

/-- the rows of a page that the profile asks for -/
def pageSize (s : Statement) : Option Int32 := s.profile.bind Profile.pageSize

end Statement

end Cql
