import Cql.Value

/-!
# What a value feeds to a hasher

Equal values must feed the same words, or a table of values would hold both.  A value writes its
kind and then its content; a list, a tuple or a record its length and its parts in order.  Sets and
maps are equal in whatever order they were filled, so nothing but their size is written.
-/

namespace Cql

/-- one word for the hasher -/
inductive HashWord where
  | kind (name : String)
  | number (n : Int)
  | size (n : Nat)
  | chars (s : String)
  | bytes (bs : Bytes)
deriving DecidableEq

namespace Value

mutual

/-- the words of a value, in the order in which they are written -/
def hashWords : Value → List HashWord
  | null => [.kind "null"]
  | unset => [.kind "unset"]
  | bool b => [.kind "boolean", .number (if b then 1 else 0)]
  | tinyInt n => [.kind "tinyint", .number n.toInt]
  | smallInt n => [.kind "smallint", .number n.toInt]
  | int n => [.kind "int", .number n.toInt]
  | bigInt n => [.kind "bigint", .number n.toInt]
  | counter n => [.kind "counter", .number n.toInt]
  | float bits => [.kind "float", .number bits.toNat]
  | double bits => [.kind "double", .number bits.toNat]
  | text s => [.kind "text", .chars s]
  | blob bs => [.kind "blob", .bytes bs]
  | uuid u => [.kind "uuid", .bytes u.bytes]
  | timeUuid u => [.kind "timeuuid", .bytes u.bytes]
  | date d => [.kind "date", .number d.raw.toNat]
  | time t => [.kind "time", .number t.nanos.toInt]
  | timestamp t => [.kind "timestamp", .number t.millis.toInt]
  | inet a => [.kind "inet", .bytes a.bytes]
  | list xs => .kind "list" :: .size xs.length :: hashWordsItems xs
  | set xs => [.kind "set", .size xs.length]
  | map es => [.kind "map", .size es.length]
  | tuple xs => .kind "tuple" :: .size xs.length :: hashWordsItems xs
  | udt name fs => .kind "udt" :: .chars name :: .size fs.length :: hashWordsFields fs
termination_by structural v => v

def hashWordsItems : List Value → List HashWord
  | [] => []
  | x :: xs => hashWords x ++ hashWordsItems xs
termination_by structural xs => xs

def hashWordsFields : List (String × Value) → List HashWord
  | [] => []
  | (name, x) :: fs => .chars name :: hashWords x ++ hashWordsFields fs
termination_by structural fs => fs

end

theorem hashWordsItems_cons (x : Value) (xs : List Value) :
    hashWordsItems (x :: xs) = hashWords x ++ hashWordsItems xs := rfl
theorem hashWordsFields_cons (name : String) (x : Value) (fs : List (String × Value)) :
    hashWordsFields ((name, x) :: fs) = .chars name :: hashWords x ++ hashWordsFields fs := rfl

end Value

end Cql
