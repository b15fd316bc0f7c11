import Cql.Error.Causes
import Cql.Host

/-!
# Binding host data

`Host.bind` turns host data into a value.  Numbers of a signed width are bound at that width, the
others as a 32-bit `int` if they fit; wrappers choose another kind; absent data is `null`; lists,
sets, maps, tuples and records are bound part by part, from the left, a map's key before its value,
up to the first failure.  A record is bound completely before its count of fields is checked
against the declared names.

`bindAll` binds the parameters of a statement, one value each.
-/

namespace Cql.Host

/-- a number without a width of its own, as a 32-bit `int` -/
def bindDefault (n : Int) : Except BindingError Value :=
  if IntType.i32.Holds n then .ok (.int (Int32.ofInt n)) else .error (.integerOutOfRange n)

/-- a whole number: the signed widths that the database knows, else the default -/
def bindInt (n : HostInt) : Except BindingError Value :=
  match n.type with
  | .i8 => .ok (.tinyInt (Int8.ofInt n.val))
  | .i16 => .ok (.smallInt (Int16.ofInt n.val))
  | .i32 => .ok (.int (Int32.ofInt n.val))
  | .i64 => .ok (.bigInt (Int64.ofInt n.val))
  | _ => bindDefault n.val

/-- the bound fields under their declared names, which must be as many -/
def bindRecord (typeName : String) (names : List String) (fields : List Value) :
    Except BindingError Value :=
  if names.length = fields.length then .ok (.udt typeName (names.zip fields))
  else .error (.udtFieldCount typeName names.length fields.length)

mutual

def bind : Host → Except BindingError Value
  | value v => .ok v
  | unset => .ok .unset
  | unit => .ok .null
  | ignored => .ok .null
  | bool b => .ok (.bool b)
  | int n => bindInt n
  | single bits => .ok (.float bits)
  | double bits => .ok (.double bits)
  | char c => .ok (.text (String.singleton c))
  | string s => .ok (.text s)
  | blob bs => .ok (.blob bs)
  | uuid u => .ok (.uuid u)
  | timeUuid u => .ok (.timeUuid u)
  | inet a => .ok (.inet a)
  | date d => .ok (.date d)
  | time t => .ok (.time t)
  | timestamp t => .ok (.timestamp t)
  | tinyInt n => .ok (.tinyInt n)
  | smallInt n => .ok (.smallInt n)
  | bigInt n => .ok (.bigInt n)
  | counter n => .ok (.counter n)
  | variant _ name => .ok (.text name)
  | none => .ok .null
  | some x => bind x
  | list xs => return .list (← bindItems xs)
  | set xs => return .setOf (← bindItems xs)
  | map es => return .mapOf (← bindEntries es)
  | tuple xs => return .tuple (← bindItems xs)
  | record typeName names fields => do bindRecord typeName names (← bindItems fields)
termination_by structural x => x

/-- from the left, up to the first failure -/
def bindItems : List Host → Except BindingError (List Value)
  | [] => .ok []
  | x :: xs => do
    let v ← bind x
    let vs ← bindItems xs
    return v :: vs
termination_by structural xs => xs

/-- a key before its value -/
def bindEntries : List (Host × Host) → Except BindingError (List (Value × Value))
  | [] => .ok []
  | (k, x) :: es => do
    let key ← bind k
    let v ← bind x
    let rest ← bindEntries es
    return (key, v) :: rest
termination_by structural es => es

end

def bindAll (xs : List Host) : Except BindingError (List Value) := bindItems xs

end Cql.Host
