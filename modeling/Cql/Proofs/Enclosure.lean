import Cql.Proofs.Alphabets
import Cql.Value.Enclosed
import Cql.Value.Induction

/-!
# No text ends its literal

A quote inside of a text is written twice, so that the reader who goes out of the quotes at the
first is in again at the second and has seen nothing in between.  Everything else that is written is
either between quotes of its own or free of quotes, and then it has just the brackets of collections
and records, which close in turn.

The induction is on the value.  What it carries is that the reader leaves the pieces of a literal as
it came to them, outside of quotes and with the same brackets open, whichever these are, and that it
is between quotes whenever it comes to the content of a text (`Closed`).

* `run_doubled`                         the reader of a text between its quotes;
* `run_of_pass`, `pass_quoted`          what is known of a reader that passes pieces;
* `closed_enclosed`                     brackets around closed parts;
* `closed_pieces`                       the pieces of a literal are closed;
* `chars_pieces`, `contents_pieces`     they are the literal, and hold the texts of the value;
* `texts_enclosed`                      all of it put together.
-/

namespace Cql.Value

open Text (Scan closing? isClosing isEnclosing Plain InNumber)
open Text.Scan (outside inside run_append run_cons step_quote step_inside)

/-! ## characters -/

theorem isEnclosing_eq_false {c : Char} : isEnclosing c = false ↔
    c ≠ quote ∧ closing? c = none ∧ isClosing c = false := by
  rw [isEnclosing, decide_eq_false_iff_not]
  simp only [not_or, Bool.not_eq_true, Option.isSome_eq_false_iff, Option.isNone_iff_eq_none]

theorem step_plain (due : List Char) {c : Char} (h : isEnclosing c = false) :
    (outside due).step c = some (outside due) := by
  obtain ⟨hquote, hopening, hclosing⟩ := isEnclosing_eq_false.1 h
  simp only [Scan.step, if_neg hquote, hopening, hclosing, outside]
  rfl

theorem run_plain (due : List Char) {cs : List Char} (h : Plain cs) :
    (outside due).run cs = some (outside due) := by
  induction cs with
  | nil => rfl
  | cons c cs ih =>
    obtain ⟨hc, hcs⟩ := List.forall_mem_cons.1 h
    rw [run_cons, step_plain due hc]
    exact ih hcs

/-- what a bracket adds to the brackets that are due, the one that closes it takes away -/
theorem step_brackets (due : List Char) {opening closing : Char}
    (h : closing? opening = some closing) :
    (outside due).step opening = some (outside (closing :: due)) ∧
      (outside (closing :: due)).step closing = some (outside due) := by
  have hpair : opening = '(' ∧ closing = ')' ∨ opening = '[' ∧ closing = ']' ∨
      opening = '\x7b' ∧ closing = '\x7d' := by
    unfold closing? at h
    grind
  rcases hpair with ⟨rfl, rfl⟩ | ⟨rfl, rfl⟩ | ⟨rfl, rfl⟩
  all_goals exact ⟨rfl, rfl⟩

/-! ## texts between quotes -/

theorem run_doubled (due : List Char) (cs : List Char) :
    (inside due).run (doubled cs) = some (inside due) := by
  induction cs with
  | nil => rfl
  | cons c cs ih =>
    rw [doubled_cons]
    split
    · -- out of the quotes, and in again
      rw [run_cons, (step_quote due).2, Option.bind_some, run_cons, (step_quote due).1]
      exact ih
    · next hc =>
      rw [run_cons, step_inside due hc]
      exact ih

theorem run_quoted (due : List Char) {cs : List Char} (h : quote ∉ cs) :
    (outside due).run (quoted cs) = some (outside due) := by
  have hinside : (inside due).run cs = some (inside due) := by
    have hrun := run_doubled due cs
    rwa [doubled_of_not_mem h] at hrun
  rw [quoted, List.cons_append, run_cons, (step_quote due).1, Option.bind_some, run_append, hinside]
  rfl

/-! ## passing pieces -/

/-- one more piece; nothing if it is the content of a text and no quote is open -/
def passPiece (s : Scan) : Piece → Option Scan
  | .frame cs => s.run cs
  | .content t => if s.quoted then s.run (doubled t.toList) else none

def pass (s : Scan) (ps : List Piece) : Option Scan := ps.foldlM passPiece s

theorem pass_cons (s : Scan) (p : Piece) (ps : List Piece) :
    pass s (p :: ps) = (passPiece s p).bind fun t => pass t ps := rfl
theorem pass_append (s : Scan) (ps qs : List Piece) :
    pass s (ps ++ qs) = (pass s ps).bind fun t => pass t qs := List.foldlM_append

theorem run_of_passPiece {s t : Scan} {p : Piece} (h : passPiece s p = some t) :
    s.run p.chars = some t := by
  cases p with
  | frame cs => exact h
  | content c =>
    rw [passPiece] at h
    split at h
    · exact h
    · cases h

/-- who passes the pieces reads them -/
theorem run_of_pass {s t : Scan} {ps : List Piece} (h : pass s ps = some t) :
    s.run (ps.flatMap Piece.chars) = some t := by
  induction ps generalizing s with
  | nil => exact h
  | cons p ps ih =>
    rw [pass_cons] at h
    obtain ⟨m, hm, hrest⟩ := Option.bind_eq_some_iff.1 h
    rw [List.flatMap_cons, run_append, run_of_passPiece hm]
    exact ih hrest

/-- and is between quotes at the content of a text -/
theorem pass_quoted {s t : Scan} {front back : List Piece} {c : String}
    (h : pass s (front ++ .content c :: back) = some t) :
    ∃ due, s.run (front.flatMap Piece.chars) = some (inside due) := by
  rw [pass_append] at h
  obtain ⟨⟨quoted, due⟩, hfront, hrest⟩ := Option.bind_eq_some_iff.1 h
  rw [pass_cons] at hrest
  obtain ⟨_, hcontent, -⟩ := Option.bind_eq_some_iff.1 hrest
  cases quoted with
  | false => cases hcontent
  | true => exact ⟨due, run_of_pass hfront⟩

/-! ## closed pieces -/

/-- the reader passes the pieces, and is then as it was before them -/
def Closed (ps : List Piece) : Prop := ∀ due, pass (outside due) ps = some (outside due)

theorem closed_nil : Closed [] := fun _ => rfl

theorem Closed.append {ps qs : List Piece} (hp : Closed ps) (hq : Closed qs) :
    Closed (ps ++ qs) := by
  intro due
  rw [pass_append, hp due]
  exact hq due

theorem closed_frame {cs : List Char} (h : ∀ due, (outside due).run cs = some (outside due)) :
    Closed [.frame cs] := by
  intro due
  rw [pass_cons, passPiece, h due]
  rfl

theorem closed_plain {cs : List Char} (h : Plain cs) :
    Closed [.frame cs] := closed_frame fun due => run_plain due h

theorem closed_intercalate {sep : List Piece} {pss : List (List Piece)} (hsep : Closed sep)
    (h : ∀ ps ∈ pss, Closed ps) : Closed (List.intercalate sep pss) := by
  induction pss with
  | nil => exact closed_nil
  | cons ps pss ih =>
    obtain ⟨hps, hpss⟩ := List.forall_mem_cons.1 h
    cases pss with
    | nil =>
      rw [List.intercalate_singleton]
      exact hps
    | cons qs pss =>
      rw [List.intercalate_cons_cons]
      exact (hps.append hsep).append (ih hpss)

/-- whatever brackets are open around them, the parts leave them open -/
theorem closed_enclosed {opening closing : Char} (hb : closing? opening = some closing)
    {parts : List (List Piece)} (h : ∀ ps ∈ parts, Closed ps) :
    Closed (enclosed opening closing parts) := by
  have hparts : Closed (List.intercalate [.frame [',', ' ']] parts) :=
    closed_intercalate (closed_plain (by decide)) h
  intro due
  obtain ⟨hopen, hclose⟩ := step_brackets due hb
  have hfirst : passPiece (outside due) (.frame [opening]) = some (outside (closing :: due)) := by
    rw [passPiece, run_cons, hopen]
    rfl
  have hlast : pass (outside (closing :: due)) [.frame [closing]] = some (outside due) := by
    rw [pass_cons, passPiece, run_cons, hclose]
    rfl
  rw [enclosed, List.cons_append, pass_cons, hfirst, Option.bind_some, pass_append,
    hparts (closing :: due)]
  exact hlast

theorem closed_content (s : String) : Closed [.frame [quote], .content s, .frame [quote]] := by
  intro due
  have hcontent : passPiece (inside due) (.content s) = some (inside due) :=
    run_doubled due s.toList
  show (passPiece (inside due) (.content s)).bind (fun t => pass t [.frame [quote]]) = _
  rw [hcontent]
  rfl

/-! ## the pieces of a literal -/

theorem plain_of_inNumber {c : Char} (h : InNumber c) : isEnclosing c = false := by
  refine isEnclosing_eq_false.2 ⟨h.ne_quote, ?_, ?_⟩
  · rw [closing?, if_neg (h.ne (by decide) (by decide) rfl),
      if_neg (h.ne (by decide) (by decide) rfl), if_neg (h.ne (by decide) (by decide) rfl)]
  · rw [isClosing, decide_eq_false_iff_not]
    rintro (hc | hc | hc)
    all_goals exact h.ne (by decide) (by decide) rfl hc

theorem closed_number {cs : List Char} (h : ∀ c ∈ cs, InNumber c) : Closed [.frame cs] :=
  closed_plain fun c hc => plain_of_inNumber (h c hc)

theorem closed_integer (n : Int) : Closed [.frame (Text.integer n)] :=
  closed_number fun _ => Text.inNumber_integer

theorem closed_quoted {cs : List Char} (h : quote ∉ cs) : Closed [.frame (quoted cs)] :=
  closed_frame fun due => run_quoted due h

theorem closed_blob (bs : Bytes) : Closed [.frame ('0' :: 'x' :: Bytes.hex bs)] := by
  refine closed_plain fun c hc => ?_
  rcases List.mem_cons.1 hc with rfl | hc
  · decide
  rcases List.mem_cons.1 hc with rfl | hc
  · decide
  · exact plain_of_inNumber (Text.inNumber_hex hc)

theorem closed_float (f : FloatFormat) (bits : Nat) :
    Closed [.frame (f.text floatWords bits)] := by
  have hwords : Plain (floatWords.nan ++ floatWords.infinity) := by decide
  refine closed_plain fun c hc => ?_
  rcases FloatFormat.mem_text hc with ⟨-, hc⟩ | hc | hc | hc | ⟨d, hd⟩
  · exact hwords c (List.mem_append_left _ hc)
  · exact hwords c (List.mem_append_right _ hc)
  · exact plain_of_inNumber (.inl hc)
  · exact plain_of_inNumber (.inr (.inl hc))
  · exact plain_of_inNumber (Text.inNumber_digit hd)

/-- parts that stand one behind the other -/
theorem closed_items {opening closing : Char} (hb : closing? opening = some closing)
    {xs : List Value} (h : ∀ x ∈ xs, Closed x.pieces) :
    Closed (enclosed opening closing (partPieces xs)) := by
  refine closed_enclosed hb ?_
  rw [partPieces_eq_map]
  exact List.forall_mem_map.2 h

theorem closed_pieces {v : Value} (h : v.PlainNames) : Closed v.pieces := by
  induction v with
  | text s => exact closed_content s
  | date d => exact closed_quoted d.quote_not_mem_text
  | inet a => exact closed_quoted a.quote_not_mem_text
  | list xs ih => exact closed_items rfl fun x hx => ih x hx (h.part (List.mem_map_of_mem hx))
  | set xs ih => exact closed_items rfl fun x hx => ih x hx (h.part (List.mem_map_of_mem hx))
  | tuple xs ih => exact closed_items rfl fun x hx => ih x hx (h.part (List.mem_map_of_mem hx))
  | map es ih =>
    refine closed_enclosed rfl ?_
    rw [entryPieces_eq_map]
    refine List.forall_mem_map.2 fun e he => ?_
    have hkey : e.1.PlainNames := h.part (entry_mem_parts he).1
    have hvalue : e.2.PlainNames := h.part (entry_mem_parts he).2
    have hcolon : Closed [.frame [':', ' ']] := closed_plain (by decide)
    exact ((ih e he).1 hkey).append (hcolon.append ((ih e he).2 hvalue))
  | udt name fs ih =>
    refine closed_enclosed rfl ?_
    rw [fieldPieces_eq_map]
    refine List.forall_mem_map.2 fun f hf => ?_
    have hname : Plain f.1.toList := h _ List.mem_cons_self f.1 (List.mem_map_of_mem hf)
    have hcolon : Plain [':', ' '] := by decide
    have hframe : Closed [.frame (f.1.toList ++ [':', ' '])] :=
      closed_plain (List.forall_mem_append.2 ⟨hname, hcolon⟩)
    exact hframe.append (ih f hf (h.part (List.mem_map_of_mem hf)))
  | null => exact closed_plain (by decide)
  | unset => exact closed_plain (by decide)
  | bool b => cases b <;> exact closed_plain (by decide)
  | tinyInt n => exact closed_integer _
  | smallInt n => exact closed_integer _
  | int n => exact closed_integer _
  | bigInt n => exact closed_integer _
  | counter n => exact closed_integer _
  | time t => exact closed_integer _
  | timestamp t => exact closed_integer _
  | float bits => exact closed_float _ _
  | double bits => exact closed_float _ _
  | blob bs => exact closed_blob bs
  | uuid u => exact closed_number fun _ => Text.inNumber_uuid
  | timeUuid u => exact closed_number fun _ => Text.inNumber_uuid

/-! ## the pieces are the literal -/

theorem chars_intercalate (sep : List Char) (pss : List (List Piece)) :
    (List.intercalate [.frame sep] pss).flatMap Piece.chars =
      Text.joined sep (pss.map fun ps => ps.flatMap Piece.chars) := by
  induction pss with
  | nil => rfl
  | cons ps pss ih =>
    cases pss with
    | nil =>
      rw [List.intercalate_singleton]
      rfl
    | cons qs pss =>
      rw [List.intercalate_cons_cons, List.flatMap_append, List.flatMap_append,
        List.flatMap_singleton, ih]
      rfl

theorem chars_enclosed (opening closing : Char) (parts : List (List Piece)) :
    (enclosed opening closing parts).flatMap Piece.chars =
      bracketed opening closing (parts.map fun ps => ps.flatMap Piece.chars) := by
  rw [enclosed, List.flatMap_append, List.flatMap_cons, chars_intercalate]
  rfl

theorem chars_items {opening closing : Char} {xs : List Value}
    (h : ∀ x ∈ xs, x.pieces.flatMap Piece.chars = literalChars x) :
    (enclosed opening closing (partPieces xs)).flatMap Piece.chars =
      bracketed opening closing (literals xs) := by
  rw [chars_enclosed, partPieces_eq_map, literals_eq_map, List.map_map]
  exact congrArg _ (List.map_congr_left h)

theorem chars_pieces (v : Value) : v.pieces.flatMap Piece.chars = literalChars v := by
  induction v with
  | text s => rfl
  | list xs ih => exact chars_items ih
  | set xs ih => exact chars_items ih
  | tuple xs ih => exact chars_items ih
  | map es ih =>
    rw [pieces, chars_enclosed, entryPieces_eq_map, literalChars, entryLiterals_eq_map,
      List.map_map]
    refine congrArg _ (List.map_congr_left fun e he => ?_)
    show (e.1.pieces ++ .frame [':', ' '] :: e.2.pieces).flatMap Piece.chars = entryChars e
    rw [List.flatMap_append, List.flatMap_cons, (ih e he).1, (ih e he).2]
    rfl
  | udt name fs ih =>
    rw [pieces, chars_enclosed, fieldPieces_eq_map, literalChars, fieldLiterals_eq_map,
      List.map_map]
    refine congrArg _ (List.map_congr_left fun f hf => ?_)
    show (.frame (f.1.toList ++ [':', ' ']) :: f.2.pieces).flatMap Piece.chars = fieldChars f
    rw [List.flatMap_cons, ih f hf, Piece.chars, List.append_assoc]
    rfl
  | _ => exact List.append_nil _

/-! ## and hold the texts -/

theorem contents_intercalate (sep : List Char) (pss : List (List Piece)) :
    (List.intercalate [.frame sep] pss).flatMap Piece.contents =
      pss.flatMap fun ps => ps.flatMap Piece.contents := by
  induction pss with
  | nil => rfl
  | cons ps pss ih =>
    cases pss with
    | nil =>
      rw [List.intercalate_singleton, List.flatMap_singleton]
    | cons qs pss =>
      rw [List.intercalate_cons_cons, List.flatMap_append, List.flatMap_append,
        List.flatMap_singleton, ih, Piece.contents, List.append_nil]
      rfl

theorem contents_enclosed (opening closing : Char) (parts : List (List Piece)) :
    (enclosed opening closing parts).flatMap Piece.contents =
      parts.flatMap fun ps => ps.flatMap Piece.contents := by
  rw [enclosed, List.flatMap_append, List.flatMap_cons, contents_intercalate]
  exact List.append_nil _

theorem contents_items {opening closing : Char} {xs : List Value} (holder : Holder)
    (h : ∀ x ∈ xs, x.pieces.flatMap Piece.contents = x.texts) :
    (enclosed opening closing (partPieces xs)).flatMap Piece.contents =
      (xs.map fun x => (holder, x)).flatMap fun p => p.2.texts := by
  rw [contents_enclosed, partPieces_eq_map, List.flatMap_map, List.flatMap_map]
  exact List.flatMap_congr h

theorem contents_pieces (v : Value) : v.pieces.flatMap Piece.contents = v.texts := by
  induction v with
  | text s => rfl
  | list xs ih =>
    rw [texts_of_parts rfl]
    exact contents_items .list ih
  | set xs ih =>
    rw [texts_of_parts rfl]
    exact contents_items .set ih
  | tuple xs ih =>
    rw [texts_of_parts rfl]
    exact contents_items .tuple ih
  | map es ih =>
    rw [texts_of_parts rfl, pieces, contents_enclosed, entryPieces_eq_map, parts,
      List.flatMap_map, List.flatMap_assoc]
    refine List.flatMap_congr fun e he => ?_
    rw [List.flatMap_append, List.flatMap_cons, (ih e he).1, (ih e he).2]
    exact congrArg _ (List.append_nil _).symm
  | udt name fs ih =>
    rw [texts_of_parts rfl, pieces, contents_enclosed, fieldPieces_eq_map, parts,
      List.flatMap_map, List.flatMap_map]
    exact List.flatMap_congr fun f hf => ih f hf
  | _ => rfl

/-- Read from the left, the literal of a value closes its brackets in turn and ends outside of
quotes, whatever brackets are open before it; and its texts are read between quotes, all of their
characters as they are but the quotes, each of which is written twice. -/
theorem texts_enclosed {v : Value} (h : v.PlainNames) (due : List Char) :
    (outside due).run v.literal.toList = some (outside due) ∧
    v.literal.toList = v.pieces.flatMap Piece.chars ∧
    v.pieces.flatMap Piece.contents = v.texts ∧
    ∀ front s back, v.pieces = front ++ .content s :: back →
      ∃ due', ∀ a c b, s.toList = a ++ c :: b →
        let before := front.flatMap Piece.chars ++ doubled a
        let after := doubled b ++ back.flatMap Piece.chars
        (outside due).run before = some (inside due') ∧
        v.literal.toList = before ++ (if c = quote then [quote, quote] else [c]) ++ after := by
  have hpass : pass (outside due) v.pieces = some (outside due) := closed_pieces h due
  have hchars : v.literal.toList = v.pieces.flatMap Piece.chars :=
    (toList_literal v).trans (chars_pieces v).symm
  refine ⟨hchars ▸ run_of_pass hpass, hchars, contents_pieces v, fun front s back hpieces => ?_⟩
  rw [hpieces] at hpass
  obtain ⟨due', hfront⟩ := pass_quoted hpass
  refine ⟨due', fun a c b hs => ⟨?_, ?_⟩⟩
  · rw [run_append, hfront]
    exact run_doubled due' a
  · have hc : doubled (c :: b) = (if c = quote then [quote, quote] else [c]) ++ doubled b := by
      rw [doubled_cons]
      split <;> rfl
    rw [hchars, hpieces, List.flatMap_append, List.flatMap_cons, Piece.chars, hs, doubled_append,
      hc]
    simp only [List.append_assoc]

/-- quotes at both ends of a text, brackets and separators in texts that are keys, fields and
elements, and a reader who has a bracket open already -/
theorem texts_enclosed_odd :
    let v : Value := .list [.udt "odd" [("a, b", .text "'')]"), ("c", .null)],
      .map [(.text "\x7d: '", .set [.text "'", .date ⟨0⟩])]]
    v.PlainNames ∧ v.texts = ["'')]", "\x7d: '", "'"] ∧
      (outside [')']).run v.literal.toList = some (outside [')']) ∧
      ∃ due, ∀ a c b, "'')]".toList = a ++ c :: b →
        (outside [')']).run ("[\x7ba, b: '".toList ++ doubled a) = some (inside due) := by
  intro v
  have h : v.PlainNames := by decide
  obtain ⟨hrun, -, -, htexts⟩ := texts_enclosed h [')']
  let front : List Piece :=
    [.frame ['['], .frame ['\x7b'], .frame ['a', ',', ' ', 'b', ':', ' '], .frame [quote]]
  obtain ⟨due, hinside⟩ := htexts front _ _ rfl
  exact ⟨h, rfl, hrun, due, fun a c b hs => (hinside a c b hs).1⟩

end Cql.Value
