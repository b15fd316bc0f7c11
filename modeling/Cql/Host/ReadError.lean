import Cql.FloatFormat.Shortest
import Cql.Inet
import Cql.Text.Joined
import Cql.Text.Quoted

/-!
# Why host data cannot be read

A reading fails because the value presents itself as something else than what is expected, because
it is of the right kind but not in range, or because parts of it are missing, unknown, repeated or
too many.  `Called` is how a message speaks of what was found.
-/

namespace Cql

/-- what was found, as far as a message tells it -/
inductive Called where
  | unit
  | bool (b : Bool)
  | integer (n : Int)
  /-- the bit pattern of a double -/
  | float (bits : UInt64)
  | text (s : String)
  | bytes
  | sequence
  | map
deriving DecidableEq

namespace Called

def floatWords : FloatWords where
  nan := ['N', 'a', 'N']
  infinity := ['i', 'n', 'f']

def description : Called → String
  | unit => "unit value"
  | bool b => "boolean `" ++ (if b then "true" else "false") ++ "`"
  | integer n => "integer `" ++ toString n ++ "`"
  | float bits =>
    "floating point `" ++ String.ofList (FloatFormat.double.text floatWords bits.toNat) ++ "`"
  | text s => "string " ++ Text.quoted s
  | bytes => "byte array"
  | sequence => "sequence"
  | map => "map"

end Called

inductive ReadError where
  | invalidType (found : Called) (expected : String)
  | invalidValue (found : Called) (expected : String)
  | invalidLength (length : Nat) (expected : String)
  | unknownVariant (name : String) (known : List String)
  | unknownField (name : String) (known : List String)
  | missingField (name : String)
  | duplicateField (name : String)
  | uuidSyntax
  | addressSyntax
  | familySyntax (family : Inet.Family)
  | durationOverflow
deriving DecidableEq

namespace ReadError

def ticked (name : String) : String := "`" ++ name ++ "`"

/-- the names that would have been right; `plural` is what they are names of -/
def oneOf (plural : String) : List String → String
  | [] => "there are no " ++ plural
  | [a] => "expected " ++ ticked a
  | [a, b] => "expected " ++ ticked a ++ " or " ++ ticked b
  | names => "expected one of " ++ Text.join ", " (names.map ticked)

def message : ReadError → String
  | invalidType found expected => "invalid type: " ++ found.description ++ ", expected " ++ expected
  | invalidValue found expected =>
    "invalid value: " ++ found.description ++ ", expected " ++ expected
  | invalidLength n expected => "invalid length " ++ toString n ++ ", expected " ++ expected
  | unknownVariant name known =>
    "unknown variant " ++ ticked name ++ ", " ++ oneOf "variants" known
  | unknownField name known => "unknown field " ++ ticked name ++ ", " ++ oneOf "fields" known
  | missingField name => "missing field " ++ ticked name
  | duplicateField name => "duplicate field " ++ ticked name
  | uuidSyntax => "UUID parsing failed"
  | addressSyntax => "invalid IP address syntax"
  | familySyntax f => "invalid " ++ f.name ++ " address syntax"
  | durationOverflow => "overflow deserializing Duration"

end ReadError

end Cql
