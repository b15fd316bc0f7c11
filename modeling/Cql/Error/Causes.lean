import Cql.ColumnType

/-!
# What can go wrong on the way to the wire and back

One type of causes per concern, each with its wording in one function `message`:

* `BindingError`   host data that is no value, or a value that cannot be sent;
* `BuilderError`   a statement put together inconsistently;
* `DecodeError`    bytes that are no cell of the column's type.
-/

namespace Cql

/-- what an `unset` may not be inside of -/
inductive Holder where
  | list | set | map | tuple | udt | cell
deriving DecidableEq

def Holder.name : Holder → String
  | list => "list"
  | set => "set"
  | map => "map"
  | tuple => "tuple"
  | udt => "udt"
  | cell => "cell"

inductive BindingError where
  /-- a whole number without a width of its own does not fit 32 bits -/
  | integerOutOfRange (value : Int)
  | udtFieldCount (typeName : String) (declared dumped : Nat)
  | nestedUnset (holder : Holder)
  | valueTooLarge (bytes : Nat)
  | tooManyValues (count : Nat)
  | collectionTooLarge (count : Nat)
deriving DecidableEq

def BindingError.message : BindingError → String
  | integerOutOfRange n =>
    "Integer " ++ toString n ++ " does not fit into a CQL int; use an explicit width wrapper"
  | udtFieldCount name declared dumped =>
    "UDT `" ++ name ++ "` declares " ++ toString declared ++ " fields but dumped "
      ++ toString dumped ++ " values"
  | nestedUnset holder =>
    "Unset can only be bound as a statement parameter, not inside a " ++ holder.name
  | valueTooLarge n => "Serialized value of " ++ toString n ++ " bytes exceeds the protocol limit"
  | tooManyValues n =>
    "Statement has " ++ toString n ++ " parameters, the protocol allows at most 65535"
  | collectionTooLarge n =>
    "Collection with " ++ toString n ++ " elements exceeds the protocol limit"

/-- the statements that assign columns -/
inductive Assigning where
  | insert | update
deriving DecidableEq

def Assigning.keyword : Assigning → String
  | insert => "INSERT"
  | update => "UPDATE"

inductive BuilderError where
  | conflictingConditions
  | noAssignments (statement : Assigning)
  | counterAssignment (column : String)
deriving DecidableEq

def BuilderError.message : BuilderError → String
  | conflictingConditions => "IF EXISTS cannot be combined with custom IF conditions"
  | noAssignments s => s.keyword ++ " statement needs at least one assigned column"
  | counterAssignment c =>
    "Counter column `" ++ c ++ "` cannot be assigned directly, use inc or dec"

inductive DecodeError where
  | unexpectedEnd (needed available : Nat)
  | invalidLength (length : Int)
  | invalidWidth (typeName : String) (expected got : Nat)
  | invalidUtf8
  | trailingBytes (count : Nat)
  | unsupportedType (type : ColumnType)
  | rowArity (columns cells : Nat)

def DecodeError.message : DecodeError → String
  | unexpectedEnd needed available =>
    "Expected " ++ toString needed ++ " bytes but only " ++ toString available ++ " are left"
  | invalidLength n => "Invalid length prefix " ++ toString n
  | invalidWidth name expected got =>
    "A " ++ name ++ " value needs " ++ toString expected ++ " bytes, got " ++ toString got
  | invalidUtf8 => "Text value is not valid UTF-8"
  | trailingBytes n => toString n ++ " trailing bytes after value"
  | unsupportedType t => "Column type " ++ t.declaration ++ " is not supported"
  | rowArity columns cells =>
    "Row has " ++ toString cells ++ " cells but the result has " ++ toString columns ++ " columns"

end Cql
