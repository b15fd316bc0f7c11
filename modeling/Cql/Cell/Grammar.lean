import Cql.Cell.Reader
import Cql.Cell.Writer

/-!
# The grammar of cells

`Denotes t bs v` is the rule book that the reader follows, said without reading: the bytes `bs` are
a body of type `t` and stand for `v`.  A cell is the length of `null`, or the length of a body and
the body; the cells of a collection stand behind their count, and fields that are left out at the
end of a tuple or a record are null.  There is no rule for the types whose bodies are not known.

The bytes of a scalar are the whole of its width, and any byte but zero is true.
-/

namespace Cql.Cell

mutual

/-- the bytes are a body of the type and stand for the value -/
inductive Denotes : ColumnType → Bytes → Value → Prop where
  | bool (b : UInt8) : Denotes .bool [b] (.bool (b != 0))
  | tinyInt (n : Int8) : Denotes .tinyInt (Bytes.ofNat 1 n.toBitVec.toNat) (.tinyInt n)
  | smallInt (n : Int16) : Denotes .smallInt (Bytes.ofNat 2 n.toBitVec.toNat) (.smallInt n)
  | int (n : Int32) : Denotes .int (Bytes.ofNat 4 n.toBitVec.toNat) (.int n)
  | bigInt (n : Int64) : Denotes .bigInt (Bytes.ofNat 8 n.toBitVec.toNat) (.bigInt n)
  | counter (n : Int64) : Denotes .counter (Bytes.ofNat 8 n.toBitVec.toNat) (.counter n)
  | float (bits : UInt32) : Denotes .float (Bytes.ofNat 4 bits.toNat) (.float bits)
  | double (bits : UInt64) : Denotes .double (Bytes.ofNat 8 bits.toNat) (.double bits)
  | ascii (s : String) : Denotes .ascii s.toUTF8.data.toList (.text s)
  | text (s : String) : Denotes .text s.toUTF8.data.toList (.text s)
  | blob (bs : Bytes) : Denotes .blob bs (.blob bs)
  | uuid (u : Uuid) : Denotes .uuid u.bytes (.uuid u)
  | timeUuid (u : Uuid) : Denotes .timeUuid u.bytes (.timeUuid u)
  | date (d : Date) : Denotes .date (Bytes.ofNat 4 d.raw.toNat) (.date d)
  | time (t : Time) : Denotes .time (Bytes.ofNat 8 t.nanos.toBitVec.toNat) (.time t)
  | timestamp (t : Timestamp) :
    Denotes .timestamp (Bytes.ofNat 8 t.millis.toBitVec.toNat) (.timestamp t)
  | inet (a : Inet) : Denotes .inet a.bytes (.inet a)
  | list {t : ColumnType} {bs : Bytes} {xs : List Value} (h : Parts t bs xs)
      (hl : xs.length ≤ limit) :
    Denotes (.list t) (Bytes.ofNat 4 xs.length ++ bs) (.list xs)
  | set {t : ColumnType} {bs : Bytes} {xs : List Value} (h : Parts t bs xs)
      (hl : xs.length ≤ limit) :
    Denotes (.set t) (Bytes.ofNat 4 xs.length ++ bs) (.setOf xs)
  | map {k w : ColumnType} {bs : Bytes} {es : List (Value × Value)} (h : Pairs k w bs es)
      (hl : es.length ≤ limit) :
    Denotes (.map k w) (Bytes.ofNat 4 es.length ++ bs) (.mapOf es)
  | tuple {ts : List ColumnType} {bs : Bytes} {xs : List Value} (h : Fields ts bs xs) :
    Denotes (.tuple ts) bs (.tuple xs)
  | udt {keyspace name : String} {fs : List (String × ColumnType)} {bs : Bytes} {xs : List Value}
      (h : Fields (fs.map Prod.snd) bs xs) :
    Denotes (.udt keyspace name fs) bs (.udt name ((fs.map Prod.fst).zip xs))

/-- the bytes are a cell of the type and stand for the value -/
inductive DenotesCell : ColumnType → Bytes → Value → Prop where
  | null (t : ColumnType) : DenotesCell t nullLength (nullValue t)
  | body {t : ColumnType} {bs : Bytes} {v : Value} (h : Denotes t bs v)
      (hl : bs.length ≤ limit) :
    DenotesCell t (Bytes.ofNat 4 bs.length ++ bs) v

/-- cells of one type, one behind the other -/
inductive Parts : ColumnType → Bytes → List Value → Prop where
  | nil (t : ColumnType) : Parts t [] []
  | cons {t : ColumnType} {cell bs : Bytes} {x : Value} {xs : List Value}
      (h : DenotesCell t cell x) (hs : Parts t bs xs) : Parts t (cell ++ bs) (x :: xs)

/-- cells of keys, each with the cell of its value behind it -/
inductive Pairs : ColumnType → ColumnType → Bytes → List (Value × Value) → Prop where
  | nil (k w : ColumnType) : Pairs k w [] []
  | cons {k w : ColumnType} {key value bs : Bytes} {x y : Value} {es : List (Value × Value)}
      (hk : DenotesCell k key x) (hv : DenotesCell w value y) (hs : Pairs k w bs es) :
    Pairs k w (key ++ (value ++ bs)) ((x, y) :: es)

/-- a cell a field, as far as there are any -/
inductive Fields : List ColumnType → Bytes → List Value → Prop where
  | absent (ts : List ColumnType) : Fields ts [] (ts.map nullValue)
  | cons {t : ColumnType} {ts : List ColumnType} {cell bs : Bytes} {x : Value} {xs : List Value}
      (h : DenotesCell t cell x) (hs : Fields ts bs xs) : Fields (t :: ts) (cell ++ bs) (x :: xs)

end

end Cql.Cell
