import Cql.FloatFormat.Shortest
import Cql.Inet.Text
import Cql.Text.Joined
import Cql.Value

/-!
# Values as literals of the query language

Text stands between single quotes, and a quote inside is written twice: that is the whole escape,
every other character stands for itself.  Dates and addresses are quoted too and hold no quote.
Blobs are hexadecimal after `0x`, floats the shortest decimal that reads back, with a point; lists
are in square brackets, tuples in round ones, sets, maps and records in curly ones, with a comma and
a blank between neighbours and a colon and a blank after a key or a field's name.
-/

namespace Cql.Value

def quote : Char := '\x27'

def doubled : List Char → List Char
  | [] => []
  | c :: cs => if c = quote then quote :: quote :: doubled cs else c :: doubled cs

def quoted (cs : List Char) : List Char := quote :: cs ++ [quote]

/-- floats that are no numbers -/
def floatWords : FloatWords where
  nan := ['N', 'a', 'N']
  infinity := ['I', 'n', 'f', 'i', 'n', 'i', 't', 'y']

/-- between brackets, with a comma and a blank between neighbours -/
def bracketed (opening closing : Char) (parts : List (List Char)) : List Char :=
  opening :: Text.joined [',', ' '] parts ++ [closing]

mutual

def literalChars : Value → List Char
  | null => ['N', 'U', 'L', 'L']
  | unset => ['U', 'N', 'S', 'E', 'T']
  | bool true => ['t', 'r', 'u', 'e']
  | bool false => ['f', 'a', 'l', 's', 'e']
  | tinyInt n => Text.integer n.toInt
  | smallInt n => Text.integer n.toInt
  | int n => Text.integer n.toInt
  | bigInt n => Text.integer n.toInt
  | counter n => Text.integer n.toInt
  | float bits => FloatFormat.single.text floatWords bits.toNat
  | double bits => FloatFormat.double.text floatWords bits.toNat
  | text s => quoted (doubled s.toList)
  | blob bs => '0' :: 'x' :: Bytes.hex bs
  | uuid u => u.text
  | timeUuid u => u.text
  | date d => quoted d.text
  | time t => Text.integer t.nanos.toInt
  | timestamp t => Text.integer t.millis.toInt
  | inet a => quoted a.text
  | list xs => bracketed '[' ']' (literals xs)
  | set xs => bracketed '\x7b' '\x7d' (literals xs)
  | map es => bracketed '\x7b' '\x7d' (entryLiterals es)
  | tuple xs => bracketed '(' ')' (literals xs)
  | udt _ fs => bracketed '\x7b' '\x7d' (fieldLiterals fs)
termination_by structural v => v

def literals : List Value → List (List Char)
  | [] => []
  | x :: xs => literalChars x :: literals xs
termination_by structural xs => xs

def entryLiterals : List (Value × Value) → List (List Char)
  | [] => []
  | (k, v) :: es => (literalChars k ++ ':' :: ' ' :: literalChars v) :: entryLiterals es
termination_by structural es => es

def fieldLiterals : List (String × Value) → List (List Char)
  | [] => []
  | (name, v) :: fs => (name.toList ++ ':' :: ' ' :: literalChars v) :: fieldLiterals fs
termination_by structural fs => fs

end

def literal (v : Value) : String := String.ofList (literalChars v)

theorem doubled_nil : doubled [] = [] := rfl
theorem doubled_cons (c : Char) (cs : List Char) :
    doubled (c :: cs) = if c = quote then quote :: quote :: doubled cs else c :: doubled cs := rfl

/-- what has no quote in it is not changed -/
theorem doubled_of_not_mem {cs : List Char} (h : quote ∉ cs) : doubled cs = cs := by
  induction cs with
  | nil => rfl
  | cons c cs ih =>
    rw [List.mem_cons, not_or] at h
    rw [doubled_cons, if_neg (Ne.symm h.1), ih h.2]

theorem doubled_append (cs ds : List Char) : doubled (cs ++ ds) = doubled cs ++ doubled ds := by
  induction cs with
  | nil => rfl
  | cons c cs ih =>
    rw [List.cons_append, doubled_cons, doubled_cons, ih]
    split <;> rfl

theorem toList_literal (v : Value) : v.literal.toList = literalChars v := String.toList_ofList

theorem literals_eq_map (xs : List Value) : literals xs = xs.map literalChars := by
  induction xs with
  | nil => rfl
  | cons x xs ih => rw [literals, ih]; rfl

end Cql.Value
