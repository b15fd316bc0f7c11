import Cql.Host.Shape
import Cql.Host.Source
import Cql.Text.Lossy

/-!
# Reading host data

`Shape.read s x` reads host data of the shape `s` from the source `x`.  A scalar is taken when the
source presents itself as one of its kinds and the number is in range; nothing is ever rounded to a
whole number, cut or wrapped.  A list takes all items of a sequence, a tuple or an array exactly as
many as it has places, a map all entries, a record its fields by name or by place.

Only a value can be absent and only a value unwraps: an optional or wrapped target refuses bytes,
names and rows.

* `readScalar` …   the targets without parts;
* `readRecord`     the entries of a map into the places of a record, and what is missing;
* `Shape.read`     all targets.
-/

namespace Cql

abbrev ReadResult := Except ReadError

namespace Shape

/-! ## targets without parts -/

def readBool (x : Source) : ReadResult Bool :=
  match x.presented with
  | .bool b => .ok b
  | p => .error (.invalidType p.called "a boolean")

def inWidth (t : IntType) (n : Int) : ReadResult HostInt :=
  match HostInt.ofInt? t n with
  | some i => .ok i
  | none => .error (.invalidValue (.integer n) t.name)

def readInt (t : IntType) (x : Source) : ReadResult HostInt :=
  match x.presented with
  | .signed n => inWidth t n
  | .unsigned n => inWidth t n
  | p => .error (.invalidType p.called t.name)

/-- a float, or a whole number rounded to the nearest one -/
def readSingle (x : Source) : ReadResult UInt32 :=
  match x.presented with
  | .single bits => .ok bits
  | .double bits => .ok (FloatFormat.narrow bits)
  | .signed n => .ok (UInt32.ofNat (FloatFormat.single.ofInt n))
  | .unsigned n => .ok (UInt32.ofNat (FloatFormat.single.ofInt n))
  | p => .error (.invalidType p.called "f32")

/-- a float, or a whole number rounded to the nearest one -/
def readDouble (x : Source) : ReadResult UInt64 :=
  match x.presented with
  | .single bits => .ok (FloatFormat.widen bits)
  | .double bits => .ok bits
  | .signed n => .ok (UInt64.ofNat (FloatFormat.double.ofInt n))
  | .unsigned n => .ok (UInt64.ofNat (FloatFormat.double.ofInt n))
  | p => .error (.invalidType p.called "f64")

def readChar (x : Source) : ReadResult Char :=
  match x.presented with
  | .text s =>
    match s.toList with
    | [c] => .ok c
    | _ => .error (.invalidValue (.text s) "a character")
  | p => .error (.invalidType p.called "a character")

def readString (x : Source) : ReadResult String :=
  match x.presented with
  | .text s => .ok s
  | .bytes bs =>
    match String.fromUTF8? ⟨bs.toArray⟩ with
    | some s => .ok s
    | none => .error (.invalidValue .bytes "a string")
  | p => .error (.invalidType p.called "a string")

def readUnit (x : Source) : ReadResult Unit :=
  match x.presented with
  | .unit => .ok ()
  | p => .error (.invalidType p.called "unit")

/-- the address that a text spells -/
def readAddress (parse? : List Char → Option Inet) (wrong : ReadError) (expected : String)
    (x : Source) : ReadResult Inet :=
  match x.presented with
  | .text s =>
    match parse? s.toList with
    | some a => .ok a
    | none => .error wrong
  | p => .error (.invalidType p.called expected)

def readInet : Source → ReadResult Inet :=
  readAddress Inet.parse? .addressSyntax "IP address"

def readInetOf (f : Inet.Family) : Source → ReadResult Inet :=
  readAddress f.parse? (.familySyntax f) (f.name ++ " address")

/-- one of the names; only text is a name -/
def readVariant (typeName : String) (names : List String) (x : Source) : ReadResult String :=
  let ofText (s : String) : ReadResult String :=
    if names.contains s then .ok s else .error (.unknownVariant s names)
  match x with
  | .value (.text s) => ofText s
  | .name s => ofText s
  | x => .error (.invalidType x.presented.called ("enum " ++ typeName))

/-! ## sequences -/

def elements (n : Nat) : String := if n = 1 then "1 element" else toString n ++ " elements"

/-- a sequence of `found` items must be used up by the first `taken` -/
def usedUp {α : Type} (found taken : Nat) (a : α) : ReadResult α :=
  if found ≤ taken then .ok a
  else .error (.invalidLength found (elements taken ++ " in sequence"))

/-- the first `n` items, `read` one by one; `i` of them were read before -/
def readFirst {α : Type} (read : Source → ReadResult α) (expected : String) :
    Nat → Nat → List Source → ReadResult (List α)
  | 0, _, _ => .ok []
  | _ + 1, i, [] => .error (.invalidLength i expected)
  | n + 1, i, x :: xs => do
    let a ← read x
    let as ← readFirst read expected n (i + 1) xs
    return a :: as

def readExactly {α : Type} (read : Source → ReadResult α) (expected : String) (n : Nat)
    (items : List Source) : ReadResult (List α) := do
  let as ← readFirst read expected n 0 items
  usedUp items.length n as

/-- what a source presents to a target of `n` places; a column of a row is a pair -/
def tupleItems (expected : String) (n : Nat) (x : Source) : ReadResult (List Source) :=
  match x.asTuple with
  | .sequence items =>
    match x with
    | .column _ _ =>
      if n = 2 then .ok items else .error (.invalidLength 2 (elements n ++ " in sequence"))
    | _ => .ok items
  | p => .error (.invalidType p.called expected)

/-- text in one of the four spellings, sixteen bytes, or a sequence of sixteen -/
def readUuid (x : Source) : ReadResult Uuid :=
  let expected := "a formatted UUID string"
  match x.presented with
  | .text s =>
    match Uuid.parse? s.toList with
    | some u => .ok u
    | none => .error .uuidSyntax
  | .bytes bs =>
    match Uuid.ofBytes? bs with
    | some u => .ok u
    | none => .error .uuidSyntax
  | .sequence items => do
    let bs ← readExactly (readInt .u8) expected 16 items
    return ⟨BitVec.ofNat 128 (Bytes.toNat (bs.map fun b => UInt8.ofInt b.val))⟩
  | p => .error (.invalidType p.called expected)

/-- the bytes of a blob, or a sequence of numbers that are bytes -/
def readBytes (x : Source) : ReadResult Bytes :=
  match x.asList with
  | .sequence items => do
    let bs ← items.mapM (readInt .u8)
    return bs.map fun b => UInt8.ofInt b.val
  | p => .error (.invalidType p.called "a sequence")

/-! ## wrappers -/

def readInner : Wrapper → Source → ReadResult Host
  | .tinyInt, x => return .tinyInt (Int8.ofInt (← readInt .i8 x).val)
  | .smallInt, x => return .smallInt (Int16.ofInt (← readInt .i16 x).val)
  | .bigInt, x => return .bigInt (Int64.ofInt (← readInt .i64 x).val)
  | .counter, x => return .counter (Int64.ofInt (← readInt .i64 x).val)
  | .double, x => return .double (← readDouble x)
  | .date, x => return .date ⟨UInt32.ofInt (← readInt .u32 x).val⟩
  | .time, x => return .time ⟨Int64.ofInt (← readInt .i64 x).val⟩
  | .timestamp, x => return .timestamp ⟨Int64.ofInt (← readInt .i64 x).val⟩
  | .timeUuid, x => return .timeUuid (← readUuid x)
  | .blob, x => return .blob (← readBytes x)

/-- a value is read as what the wrapper holds, a sequence as its one field -/
def readWrapped (w : Wrapper) (x : Source) : ReadResult Host :=
  match x with
  | .value _ => readInner w x
  | x =>
    let expected := "tuple struct " ++ w.name
    match x.presented with
    | .sequence items => do
      let as ← readExactly (readInner w) (expected ++ " with 1 element") 1 items
      return as.headD .unit
    | p => .error (.invalidType p.called expected)

/-! ## records -/

/-- what is known of a record's field before it is read -/
structure FieldNote where
  name : String
  optional : Bool
  fallback : Option Host

def FieldOf.note (f : Field) : FieldNote := ⟨f.name, f.shape.isOption, f.fallback⟩

/-- the place of a field of that name, nothing where other fields are passed over -/
def placeOf (style : RecordStyle) (names : List String) (name : String) :
    ReadResult (Option Nat) :=
  match names.findIdx? (· == name) with
  | some i => .ok (some i)
  | none => if style.closed then .error (.unknownField name names) else .ok none

/-- the place of the field that a key names: by text, by bytes, or by its index -/
def placeOfKey (style : RecordStyle) (names : List String) (key : Source) :
    ReadResult (Option Nat) :=
  match key.presented with
  | .text s => placeOf style names s
  | .bytes bs =>
    match String.fromUTF8? ⟨bs.toArray⟩ with
    | some s => placeOf style names s
    | none => placeOf style names (Text.lossy bs)
  | .unsigned n =>
    if style.indexed then
      if n < names.length then .ok (some n)
      else if style.closed then
        .error (.invalidValue (.integer n) ("field index 0 <= i < " ++ toString names.length))
      else .ok none
    else .error (.invalidType (.integer n) style.keys)
  | p => .error (.invalidType p.called style.keys)

/-- the entries of a map, one by one, into the places of the fields -/
def fillPlaces (style : RecordStyle) (names : List String) (readAt : Nat → Source → ReadResult Host) :
    List (Source × Source) → List (Option Host) → ReadResult (List (Option Host))
  | [], places => .ok places
  | (key, x) :: entries, places => do
    match ← placeOfKey style names key with
    | none => fillPlaces style names readAt entries places
    | some i =>
      match places[i]? with
      | some (some _) => .error (.duplicateField (names.getD i ""))
      | _ =>
        let a ← readAt i x
        fillPlaces style names readAt entries (places.set i (some a))

/-- what stands in for an absent field -/
def absent (note : FieldNote) : ReadResult Host :=
  match note.fallback with
  | some a => .ok a
  | none => if note.optional then .ok .none else .error (.missingField note.name)

/-- the fields in the order of their declaration, with what stands in for those that are absent -/
def completed : List FieldNote → List (Option Host) → ReadResult (List Host)
  | [], _ => .ok []
  | note :: notes, places => do
    let a ←
      match places.head? with
      | some (some a) => .ok a
      | _ => absent note
    let as ← completed notes places.tail
    return a :: as

/-- the fields in the order of their declaration from a sequence; only a fallback stands in -/
def readPlaces (readAt : Nat → Source → ReadResult Host) (expected : String) :
    List FieldNote → Nat → List Source → ReadResult (List Host)
  | [], _, _ => .ok []
  | note :: notes, i, [] =>
    match note.fallback with
    | some a => do
      let as ← readPlaces readAt expected notes (i + 1) []
      return a :: as
    | none => .error (.invalidLength i expected)
  | _ :: notes, i, x :: xs => do
    let a ← readAt i x
    let as ← readPlaces readAt expected notes (i + 1) xs
    return a :: as

/-- the fields of a record, given the reader of each place -/
def readRecord (typeName : String) (style : RecordStyle) (notes : List FieldNote)
    (readAt : Nat → Source → ReadResult Host) (x : Source) : ReadResult (List Host) :=
  let expected := "struct " ++ typeName
  match x.presented with
  | .sequence items => do
    let short := if style.counted then expected ++ " with " ++ elements notes.length else expected
    let as ← readPlaces readAt short notes 0 items
    usedUp items.length notes.length as
  | .map entries => do
    let names := notes.map FieldNote.name
    let places ← fillPlaces style names readAt entries (notes.map fun _ => none)
    completed notes places
  | p => .error (.invalidType p.called expected)

/-! ## durations -/

def durationNotes : List FieldNote := [⟨"secs", false, none⟩, ⟨"nanos", false, none⟩]

def durationStyle : RecordStyle := ⟨"`secs` or `nanos`", false, true, false⟩

/-- seconds in one width, nanoseconds in another -/
def readDurationPlace (i : Nat) (x : Source) : ReadResult Host :=
  return .int (← readInt (if i = 0 then .u64 else .u32) x)

/-- more than a second of nanoseconds is carried over to the seconds -/
def carried (seconds nanos : Int) : ReadResult (List Host) :=
  match HostInt.ofInt? .u64 (seconds + nanos / 1000000000),
      HostInt.ofInt? .u32 (nanos % 1000000000) with
  | some s, some n => .ok [.int s, .int n]
  | _, _ => .error .durationOverflow

def readDuration (x : Source) : ReadResult Host := do
  match ← readRecord "Duration" durationStyle durationNotes readDurationPlace x with
  | [.int seconds, .int nanos] =>
    return .record "Duration" ["secs", "nanos"] (← carried seconds.val nanos.val)
  | fields => return .record "Duration" ["secs", "nanos"] fields

/-! ## all targets -/

def readBoth (key value : Source → ReadResult Host) (e : Source × Source) :
    ReadResult (Host × Host) := do
  let k ← key e.1
  let v ← value e.2
  return (k, v)

mutual

def read : Shape → Source → ReadResult Host
  | bool, x => return .bool (← readBool x)
  | int t, x => return .int (← readInt t x)
  | single, x => return .single (← readSingle x)
  | double, x => return .double (← readDouble x)
  | char, x => return .char (← readChar x)
  | string, x => return .string (← readString x)
  | unit, x => do readUnit x; return .unit
  | ignored, _ => return .ignored
  | uuid, x => return .uuid (← readUuid x)
  | inet, x => return .inet (← readInet x)
  | inetOf f, x => return .inet (← readInetOf f x)
  | wrapped w, x => readWrapped w x
  | variant typeName names, x => return .variant typeName (← readVariant typeName names x)
  | option s, x =>
    match x with
    | .value .null => return .none
    | .value .unset => return .none
    | .value v => return .some (← read s (.value v))
    | x => .error (.invalidType x.presented.called "option")
  | list s, x =>
    match x.asList with
    | .sequence items => return .list (← items.mapM (read s))
    | p => .error (.invalidType p.called "a sequence")
  | set s, x =>
    match x.asList with
    | .sequence items => return Host.sortedSet (← items.mapM (read s))
    | p => .error (.invalidType p.called "a sequence")
  | tuple ss, x => do
    let expected := "a tuple of size " ++ toString ss.length
    let items ← tupleItems expected ss.length x
    let as ← readTuple ss expected 0 items
    usedUp items.length ss.length (.tuple as)
  | array n s, x => do
    let expected := "an array of length " ++ toString n
    let items ← tupleItems expected n x
    return .list (← readExactly (read s) expected n items)
  | map k v, x =>
    match x.presented with
    | .map entries => return Host.sortedMap (← entries.mapM (readBoth (read k) (read v)))
    | p => .error (.invalidType p.called "a map")
  | record typeName style fields, x => do
    let as ← readRecord typeName style (fields.map FieldOf.note) (readAt fields) x
    return .record typeName (fields.map FieldOf.name) as
  | duration, x => readDuration x
termination_by structural s => s

def readTuple : List Shape → String → Nat → List Source → ReadResult (List Host)
  | [], _, _, _ => .ok []
  | _ :: _, expected, i, [] => .error (.invalidLength i expected)
  | s :: ss, expected, i, x :: xs => do
    let a ← read s x
    let as ← readTuple ss expected (i + 1) xs
    return a :: as
termination_by structural ss => ss

def readAt : List (FieldOf Shape) → Nat → Source → ReadResult Host
  | [], _, _ => return .unit
  | ⟨_, s, _⟩ :: _, 0, x => read s x
  | _ :: fs, i + 1, x => readAt fs i x
termination_by structural fs => fs

end

end Shape

end Cql
