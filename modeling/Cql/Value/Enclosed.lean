import Cql.Value.Literal
import Cql.Value.Within

/-!
# What stands between quotes and brackets

Whoever reads a literal from the left, without knowing the value, keeps two things in mind: whether
an odd number of quotes stands before, and which brackets have yet to be closed.  Between quotes a
bracket is a character like any other.

The literal of a value is cut into pieces: the frame, which the language writes, and the contents of
the texts inside of the value.

* `Text.Scan`, `Scan.run`   what the reader keeps in mind, and the reading;
* `Value.pieces`            the pieces of a literal from left to right;
* `Value.texts`             the texts inside of a value, in the order in which they are written;
* `Value.PlainNames`        no name of a field has a quote or a bracket in it.
-/

namespace Cql

namespace Text

/-! ## reading from the left -/

/-- what closes an opening bracket -/
def closing? (c : Char) : Option Char :=
  if c = '(' then some ')' else if c = '[' then some ']' else if c = '\x7b' then some '\x7d'
  else none

def isClosing (c : Char) : Bool := c = ')' ∨ c = ']' ∨ c = '\x7d'

/-- a quote or a bracket -/
def isEnclosing (c : Char) : Bool := c = Value.quote ∨ (closing? c).isSome ∨ isClosing c

def Plain (cs : List Char) : Prop := ∀ c ∈ cs, isEnclosing c = false

-- character by character; a search for the instance may come up with all characters there are
instance (cs : List Char) : Decidable (Plain cs) :=
  List.decidableBAll (fun c => isEnclosing c = false) cs

structure Scan where
  /-- an odd number of quotes stands before -/
  quoted : Bool
  /-- what closes the open brackets, the innermost first -/
  due : List Char
deriving DecidableEq

namespace Scan

def outside (due : List Char) : Scan := ⟨false, due⟩
def inside (due : List Char) : Scan := ⟨true, due⟩

/-- one more character; nothing if it is a bracket that closes another one than the innermost -/
def step (s : Scan) (c : Char) : Option Scan :=
  if c = Value.quote then some { s with quoted := !s.quoted }
  else if s.quoted then some s
  else
    match closing? c with
    | some d => some { s with due := d :: s.due }
    | none =>
      if isClosing c then
        match s.due with
        | [] => none
        | d :: due => if c = d then some { s with due := due } else none
      else some s

def run (s : Scan) (cs : List Char) : Option Scan := cs.foldlM step s

theorem run_cons (s : Scan) (c : Char) (cs : List Char) :
    s.run (c :: cs) = (s.step c).bind fun t => t.run cs := rfl
theorem run_append (s : Scan) (cs ds : List Char) :
    s.run (cs ++ ds) = (s.run cs).bind fun t => t.run ds := List.foldlM_append

theorem step_quote (due : List Char) :
    (outside due).step Value.quote = some (inside due) ∧
      (inside due).step Value.quote = some (outside due) := ⟨rfl, rfl⟩

theorem step_inside (due : List Char) {c : Char} (h : c ≠ Value.quote) :
    (inside due).step c = some (inside due) := by
  rw [step, if_neg h]
  rfl

end Scan

end Text

namespace Value

/-! ## the pieces of a literal -/

inductive Piece where
  /-- what the language writes -/
  | frame (cs : List Char)
  /-- what a text says -/
  | content (s : String)

/-- how a piece is written -/
def Piece.chars : Piece → List Char
  | frame cs => cs
  | content s => doubled s.toList

def Piece.contents : Piece → List String
  | frame _ => []
  | content s => [s]

/-- between brackets, with a comma and a blank between neighbours -/
def enclosed (opening closing : Char) (parts : List (List Piece)) : List Piece :=
  .frame [opening] :: List.intercalate [.frame [',', ' ']] parts ++ [.frame [closing]]

mutual

def pieces : Value → List Piece
  | text s => [.frame [quote], .content s, .frame [quote]]
  | list xs => enclosed '[' ']' (partPieces xs)
  | set xs => enclosed '\x7b' '\x7d' (partPieces xs)
  | map es => enclosed '\x7b' '\x7d' (entryPieces es)
  | tuple xs => enclosed '(' ')' (partPieces xs)
  | udt _ fs => enclosed '\x7b' '\x7d' (fieldPieces fs)
  | v => [.frame (literalChars v)]
termination_by structural v => v

def partPieces : List Value → List (List Piece)
  | [] => []
  | x :: xs => pieces x :: partPieces xs
termination_by structural xs => xs

def entryPieces : List (Value × Value) → List (List Piece)
  | [] => []
  | (k, v) :: es => (pieces k ++ .frame [':', ' '] :: pieces v) :: entryPieces es
termination_by structural es => es

def fieldPieces : List (String × Value) → List (List Piece)
  | [] => []
  | (name, v) :: fs => (.frame (name.toList ++ [':', ' ']) :: pieces v) :: fieldPieces fs
termination_by structural fs => fs

end

theorem partPieces_eq_map (xs : List Value) : partPieces xs = xs.map pieces := by
  induction xs with
  | nil => rfl
  | cons x xs ih => rw [partPieces, ih]; rfl

theorem entryPieces_eq_map (es : List (Value × Value)) :
    entryPieces es = es.map fun e => pieces e.1 ++ .frame [':', ' '] :: pieces e.2 := by
  induction es with
  | nil => rfl
  | cons e es ih => rw [entryPieces, ih]; rfl

theorem fieldPieces_eq_map (fs : List (String × Value)) :
    fieldPieces fs = fs.map fun f => .frame (f.1.toList ++ [':', ' ']) :: pieces f.2 := by
  induction fs with
  | nil => rfl
  | cons f fs ih => rw [fieldPieces, ih]; rfl

/-! ## texts and names -/

def text? : Value → Option String
  | text s => some s
  | _ => none

/-- the texts inside of a value, itself among them -/
def texts (v : Value) : List String := v.all.filterMap text?

theorem texts_of_parts {v : Value} (h : v.text? = none) :
    v.texts = v.parts.flatMap fun p => p.2.texts := by
  rw [texts, all_eq, List.filterMap_cons_none h, List.filterMap_flatMap]
  rfl

/-- the names of the fields of a record -/
def names : Value → List String
  | udt _ fs => fs.map Prod.fst
  | _ => []

/-- neither in the value nor inside of it has a field's name a quote or a bracket -/
def PlainNames (v : Value) : Prop :=
  ∀ w ∈ v.all, ∀ name ∈ w.names, Text.Plain name.toList

instance (v : Value) : Decidable v.PlainNames :=
  inferInstanceAs (Decidable (∀ w ∈ v.all, ∀ name ∈ w.names, Text.Plain name.toList))

theorem PlainNames.part {v : Value} (h : v.PlainNames) {p : Holder × Value} (hp : p ∈ v.parts) :
    p.2.PlainNames := fun w hw => h w (mem_all_of_part hp hw)

end Value

end Cql
