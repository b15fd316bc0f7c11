import Cql.Value.Literal
import Cql.Value.Within

/-!
# Where a literal ends

A literal inside of another is followed by a comma, a colon or a closing bracket.  Two values are
told apart by their literals if they are the same wherever the literals with whatever follows them
are the same.

* `Text.isDelimiter`, `Text.Ends`   what may follow a literal;
* `Text.Apart`                      things that are told apart by their texts;
* `Value.NanFree`                   a value with no NaN in it: all of these are written alike.
-/

namespace Cql

namespace Text

/-- the characters that may follow a literal inside of another -/
def isDelimiter (c : Char) : Bool := c = ',' ∨ c = ':' ∨ c = ']' ∨ c = '\x7d' ∨ c = ')'

/-- nothing follows, or a delimiter -/
def Ends (cs : List Char) : Prop := ∀ c, cs.head? = some c → isDelimiter c = true

theorem ends_nil : Ends [] := nofun
theorem ends_cons {c : Char} (h : isDelimiter c = true) (cs : List Char) : Ends (c :: cs) :=
  fun _ he => Option.some.inj he ▸ h

section
variable {α : Type} (text : α → List Char)

/-- whatever follows the texts, the same characters are the same text of the same thing -/
def Apart (a b : α) : Prop :=
  ∀ r s, Ends r → Ends s → text a ++ r = text b ++ s → a = b ∧ r = s

end

end Text

/-- a pattern of a float that is neither a number nor infinite -/
def FloatFormat.isNan (f : FloatFormat) (bits : Nat) : Bool :=
  match f.datum bits with
  | .nan _ => true
  | _ => false

namespace Value

/-- the text of an entry of a map -/
def entryChars (e : Value × Value) : List Char := literalChars e.1 ++ ':' :: ' ' :: literalChars e.2

/-- the text of a field of a record -/
def fieldChars (f : String × Value) : List Char := f.1.toList ++ ':' :: ' ' :: literalChars f.2

theorem entryLiterals_eq_map (es : List (Value × Value)) :
    entryLiterals es = es.map entryChars := by
  induction es with
  | nil => rfl
  | cons e es ih =>
    rw [entryLiterals, ih]
    rfl

theorem fieldLiterals_eq_map (fs : List (String × Value)) :
    fieldLiterals fs = fs.map fieldChars := by
  induction fs with
  | nil => rfl
  | cons f fs ih =>
    rw [fieldLiterals, ih]
    rfl

def isNan : Value → Bool
  | float bits => FloatFormat.single.isNan bits.toNat
  | double bits => FloatFormat.double.isNan bits.toNat
  | _ => false

/-- neither the value nor anything inside of it is a NaN -/
def NanFree (v : Value) : Prop := v.isNan = false ∧ ∀ p ∈ v.within, p.2.isNan = false

theorem NanFree.part {v : Value} (h : v.NanFree) {p : Holder × Value} (hp : p ∈ v.parts) :
    p.2.NanFree := by
  have hmem {q : Holder × Value} (hq : q ∈ withPart p) : q ∈ v.within := by
    rw [within_eq]
    exact List.mem_flatMap.2 ⟨p, hp, hq⟩
  exact ⟨h.2 p (hmem List.mem_cons_self), fun q hq => h.2 q (hmem (List.mem_cons_of_mem _ hq))⟩

end Value

end Cql
