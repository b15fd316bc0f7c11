import Cql.Bytes
import Cql.Error.Causes
import Cql.Host.ReadError

/-!
# Errors

`Error` gathers the causes of all concerns, the answers of a database that refuses a statement, the
failures of the connection, and the end of a cursor that was reported before.  A message is always
that of the innermost cause.
-/

namespace Cql

/-- why rows do not become what was asked for -/
inductive MappingError where
  | noRows
  | emptyRow
  | unreadable (cause : ReadError)
deriving DecidableEq

def MappingError.message : MappingError → String
  | noRows => "The query did not return rows"
  | emptyRow => "Row has no columns"
  | unreadable e => e.message

/-- a refusal by the database: the code of its protocol and its own words -/
structure DatabaseError where
  code : Int32
  text : String
deriving DecidableEq

/-- at least four hexadecimal digits, a negative code by its two's complement -/
def DatabaseError.message (e : DatabaseError) : String :=
  let digits := Nat.toDigits 16 e.code.toBitVec.toNat
  "Database error 0x" ++ String.ofList (Text.zeroFill 4 digits) ++ ": " ++ e.text

inductive Error where
  | binding (cause : BindingError)
  | builder (cause : BuilderError)
  | database (cause : DatabaseError)
  | mapping (cause : MappingError)
  | decode (cause : DecodeError)
  | transport (text : String)
  | cursorExhausted

def Error.message : Error → String
  | binding e => e.message
  | builder e => e.message
  | database e => e.message
  | mapping e => e.message
  | decode e => e.message
  | transport text => "Session error: " ++ text
  | cursorExhausted => "Paged result is exhausted"

/-! ## lifting -/

/-- a failure of one concern among all others -/
def ofBinding {α : Type} (r : Except BindingError α) : Except Error α := r.mapError .binding
def ofBuilder {α : Type} (r : Except BuilderError α) : Except Error α := r.mapError .builder
def ofDecode {α : Type} (r : Except DecodeError α) : Except Error α := r.mapError .decode
def ofReading {α : Type} (r : Except ReadError α) : Except Error α :=
  r.mapError fun e => .mapping (.unreadable e)

section
variable {ε α β : Type} (a : α)

@[simp] theorem map_ok (f : α → β) : (Except.ok a : Except ε α).map f = .ok (f a) := rfl
@[simp] theorem map_error (f : α → β) (e : ε) : (Except.error e : Except ε α).map f = .error e := rfl
@[simp] theorem bind_ok (f : α → Except ε β) : ((Except.ok a : Except ε α) >>= f) = f a := rfl
@[simp] theorem bind_error (f : α → Except ε β) (e : ε) :
    ((Except.error e : Except ε α) >>= f) = .error e := rfl
@[simp] theorem toOption_ok : (Except.ok a : Except ε α).toOption = some a := rfl
@[simp] theorem toOption_error (e : ε) : (Except.error e : Except ε α).toOption = none := rfl

@[simp] theorem ofBinding_ok : ofBinding (.ok a) = .ok a := rfl
@[simp] theorem ofBinding_error (e : BindingError) :
    ofBinding (.error e : Except _ α) = .error (.binding e) := rfl
@[simp] theorem ofBuilder_ok : ofBuilder (.ok a) = .ok a := rfl
@[simp] theorem ofBuilder_error (e : BuilderError) :
    ofBuilder (.error e : Except _ α) = .error (.builder e) := rfl

end

end Cql
