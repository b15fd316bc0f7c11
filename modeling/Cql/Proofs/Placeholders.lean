import Cql.Proofs.History
import Cql.Query.Inlined

/-!
# Placeholders and values in step

The text of a query and the list of its values are put together apart from each other.  `Fills`
says of a text and a list of values that they belong together: there are as many placeholders as
values, and with the values in their places the text is a known one.  It is kept when texts are put
one behind the other and when they are joined, and so it is proved piece by piece.

* `FillsAll.join`                     texts with a separator between neighbours;
* `Clauses.join`                      clauses, of which those without text are left out;
* `Select.fills` and its siblings     a query of plain texts and balanced fragments;
* `fill_build`                        a query after any run of steps, against what they have said.
-/

namespace Cql

open Text (marks)

/-! ## texts without placeholders -/

theorem marks_digits (n : Nat) : marks (toString n) = 0 := by
  have h : Text.placeholder ∉ Nat.toDigits 10 n := by
    intro hm
    have hd := Nat.isDigit_of_mem_toDigits (by decide) (by decide) hm
    revert hd
    decide
  show (Nat.repr n).toList.count _ = 0
  rw [Nat.toList_repr]
  exact List.count_eq_zero.2 h

theorem marks_int (n : Int) : marks (toString n) = 0 := by
  cases n with
  | ofNat n => exact marks_digits n
  | negSucc n =>
    show marks ("-" ++ toString (n + 1)) = 0
    rw [Text.marks_append, marks_digits]
    rfl

theorem marks_join {sep : String} (hs : marks sep = 0) {xs : List String}
    (h : ∀ x ∈ xs, marks x = 0) : marks (Text.join sep xs) = 0 := by
  induction xs with
  | nil => rfl
  | cons x xs ih =>
    obtain ⟨hx, hxs⟩ := List.forall_mem_cons.1 h
    cases xs with
    | nil => exact hx
    | cons y xs => rw [Text.join_cons_cons, Text.marks_append, Text.marks_append, hx, hs, ih hxs]

theorem marks_keywordIf {keyword : String} (h : marks keyword = 0) (on : Bool) :
    marks (keywordIf keyword on) = 0 := by
  cases on with
  | true => exact h
  | false => rfl

theorem marks_limitClause {keyword : String} (h : marks keyword = 0) (n : Option UInt32) :
    marks (Select.limitClause keyword n) = 0 := by
  cases n with
  | none => rfl
  | some n =>
    show marks (keyword ++ " " ++ toString n.toNat) = 0
    rw [Text.marks_append, Text.marks_append, h, marks_digits]
    rfl

theorem marks_span (s : Span) : marks s.text = 0 := by
  unfold Span.text
  dsimp only
  split
  · rw [Text.marks_append, marks_digits]; rfl
  split
  · rw [Text.marks_append, marks_digits]; rfl
  · rw [Text.marks_append, marks_digits]; rfl

theorem marks_settings (u : Using) : marks u.clause = 0 := by
  have hp : ∀ p ∈ u.parts, marks p = 0 := by
    intro p hp
    rw [Using.parts, List.mem_append, List.mem_append] at hp
    simp only [Option.mem_toList, Option.map_eq_some_iff] at hp
    obtain (⟨t, -, rfl⟩ | ⟨n, -, rfl⟩) | ⟨s, -, rfl⟩ := hp
    · rw [Text.marks_append, marks_int]; rfl
    · rw [Text.marks_append, marks_digits]; rfl
    · rw [Text.marks_append, marks_span]; rfl
  unfold Using.clause
  split
  · rfl
  · rw [Text.marks_append, marks_join rfl hp]
    rfl

/-! ## texts and their values -/

/-- the text has as many placeholders as there are values, and is `out` with these in place -/
structure Fills (ρ : Value → String) (text : String) (values : List Value) (out : String) :
    Prop where
  marks_eq : marks text = values.length
  fill_eq : Text.fill text (values.map ρ) = out

namespace Fills
variable {ρ : Value → String}

theorem plain {s : String} (h : marks s = 0) : Fills ρ s [] s := ⟨h, Text.fill_nil s⟩

theorem placeholder (v : Value) : Fills ρ "?" [v] (ρ v) := by
  refine ⟨rfl, ?_⟩
  show String.ofList ((ρ v).toList ++ []) = ρ v
  rw [List.append_nil, String.ofList_toList]

theorem append {s t a b : String} {vs ws : List Value} (hs : Fills ρ s vs a) (ht : Fills ρ t ws b) :
    Fills ρ (s ++ t) (vs ++ ws) (a ++ b) := by
  have hl : marks s = (vs.map ρ).length := by rw [hs.marks_eq, List.length_map]
  refine ⟨?_, ?_⟩
  · rw [Text.marks_append, hs.marks_eq, ht.marks_eq, List.length_append]
  · rw [List.map_append, Text.fill_append hl, hs.fill_eq, ht.fill_eq]

/-- a text without placeholders in front -/
theorem behind {s t b : String} {vs : List Value} (hs : marks s = 0) (ht : Fills ρ t vs b) :
    Fills ρ (s ++ t) vs (s ++ b) := (plain hs).append ht

/-- a text without placeholders at the end -/
theorem before {s t a : String} {vs : List Value} (hs : Fills ρ s vs a) (ht : marks t = 0) :
    Fills ρ (s ++ t) vs (a ++ t) := by
  have h := hs.append (plain (ρ := ρ) ht)
  rwa [List.append_nil] at h

end Fills

/-- texts one after the other, with the values of the first before those of the rest -/
inductive FillsAll (ρ : Value → String) : List String → List Value → List String → Prop where
  | nil : FillsAll ρ [] [] []
  | cons {c o : String} {cs os : List String} {vs ws : List Value} (h : Fills ρ c vs o)
      (t : FillsAll ρ cs ws os) : FillsAll ρ (c :: cs) (vs ++ ws) (o :: os)

namespace FillsAll
variable {ρ : Value → String}

theorem map {α : Type} {text out : α → String} {values : α → List Value} {xs : List α}
    (h : ∀ x ∈ xs, Fills ρ (text x) (values x) (out x)) :
    FillsAll ρ (xs.map text) (xs.flatMap values) (xs.map out) := by
  induction xs with
  | nil => exact .nil
  | cons x xs ih =>
    obtain ⟨hx, hxs⟩ := List.forall_mem_cons.1 h
    exact .cons hx (ih hxs)

theorem join {sep : String} (hs : marks sep = 0) {cs os : List String} {vs : List Value}
    (h : FillsAll ρ cs vs os) : Fills ρ (Text.join sep cs) vs (Text.join sep os) := by
  induction h with
  | nil => exact .plain rfl
  | cons h t ih =>
    cases t with
    | nil =>
      rw [List.append_nil]
      exact h
    | cons h' t' =>
      rw [Text.join_cons_cons, Text.join_cons_cons]
      exact (h.before hs).append ih

end FillsAll

/-! ## clauses -/

/-- clauses of a statement: those without placeholders may be empty, those with values are not -/
inductive Clauses (ρ : Value → String) : List String → List Value → List String → Prop where
  | nil : Clauses ρ [] [] []
  | plain {c : String} {cs os : List String} {vs : List Value} (h : marks c = 0)
      (t : Clauses ρ cs vs os) : Clauses ρ (c :: cs) vs (c :: os)
  | keyed {c o : String} {cs os : List String} {vs ws : List Value} (h : Fills ρ c vs o)
      (hc : c ≠ "") (ho : o ≠ "") (t : Clauses ρ cs ws os) :
      Clauses ρ (c :: cs) (vs ++ ws) (o :: os)

namespace Clauses
variable {ρ : Value → String}

theorem filter {cs os : List String} {vs : List Value} (h : Clauses ρ cs vs os) :
    FillsAll ρ (cs.filter fun c => !c.isEmpty) vs (os.filter fun c => !c.isEmpty) := by
  induction h with
  | nil => exact .nil
  | @plain c cs os vs h t ih =>
    by_cases hc : c = ""
    · simpa [hc] using ih
    · have hp := FillsAll.cons (Fills.plain h) ih
      simpa [hc] using hp
  | @keyed c o cs os vs ws h hc ho t ih => simpa [hc, ho] using FillsAll.cons h ih

theorem join {cs os : List String} {vs : List Value} (h : Clauses ρ cs vs os) :
    Fills ρ (joinClauses cs) vs (joinClauses os) := h.filter.join rfl

end Clauses

/-! ## fragments and conditions -/

/-- a fragment has a value for each of its placeholders -/
def Fragment.Balanced (f : Fragment) : Prop := marks f.text = f.values.length

theorem Fragment.fills {f : Fragment} (h : f.Balanced) (ρ : Value → String) :
    Fills ρ f.text f.values (f.inlined ρ).text := ⟨h, rfl⟩

theorem Fragments.clause_ne_empty (keyword : String) (f : Fragment) (fs : Fragments) :
    Fragments.clause keyword (f :: fs) ≠ "" := by
  simp [Fragments.clause]

section
variable {ρ : Value → String} {fs : Fragments} (h : ∀ f ∈ fs, f.Balanced)
include h

theorem Fragments.fills :
    Fills ρ fs.text fs.values (Fragments.text (fs.map (Fragment.inlined ρ))) := by
  have hm : FillsAll ρ (fs.map Fragment.text) fs.values
      (fs.map fun f => (f.inlined ρ).text) := .map fun f hf => Fragment.fills (h f hf) ρ
  have hs : marks " AND " = 0 := rfl
  have hj := hm.join hs
  unfold Fragments.text
  rwa [List.map_map]

/-- the fragments behind a keyword, in front of other clauses -/
theorem Clauses.fragments {keyword : String} (hk : marks keyword = 0) {cs os : List String}
    {vs : List Value} (t : Clauses ρ cs vs os) :
    Clauses ρ (fs.clause keyword :: cs) (fs.values ++ vs)
      (Fragments.clause keyword (fs.map (Fragment.inlined ρ)) :: os) := by
  cases fs with
  | nil => exact .plain rfl t
  | cons f fs =>
    have hs : marks (keyword ++ " ") = 0 := by rw [Text.marks_append, hk]; rfl
    exact .keyed (.behind hs (Fragments.fills h)) (Fragments.clause_ne_empty _ _ _)
      (Fragments.clause_ne_empty _ _ _) t

end

/-- the conditions of a guard, all of them balanced -/
def Guard.Balanced : Guard → Prop
  | ifAll fs => ∀ f ∈ fs, f.Balanced
  | _ => True

theorem Clauses.guard {ρ : Value → String} {g : Guard} (h : g.Balanced) {cs os : List String}
    {vs : List Value} (t : Clauses ρ cs vs os) :
    Clauses ρ (g.clause :: cs) (g.values ++ vs) ((g.inlined ρ).clause :: os) := by
  cases g with
  | always => exact .plain rfl t
  | ifExists => exact .plain rfl t
  | ifAll fs =>
    have hf : Fills ρ ("IF " ++ Fragments.text fs) fs.values _ := .behind rfl (Fragments.fills h)
    exact .keyed hf (by simp [Guard.clause]) (by simp [Guard.clause, Guard.inlined]) t

/-! ## queries -/

theorem Assignment.fills {column : String} (h : marks column = 0) (a : Assignment)
    (ρ : Value → String) : Fills ρ (a.text column) [a.value] (a.inlined ρ column) := by
  obtain ⟨how, v⟩ := a
  have hv : ∀ s : String, marks s = 0 → Fills ρ (s ++ "?") [v] (s ++ ρ v) :=
    fun s hs => .behind hs (.placeholder v)
  have hc : marks (column ++ " = ") = 0 := by rw [Text.marks_append, h]; rfl
  have hm : ∀ s : String, marks s = 0 → marks (column ++ " = " ++ column ++ s) = 0 := by
    intro s hs
    rw [Text.marks_append, Text.marks_append, hc, h, hs]
  have he : (" = ?" : String) = " = " ++ "?" := rfl
  have hp : (" + ?" : String) = " + " ++ "?" := rfl
  have hd : (" - ?" : String) = " - " ++ "?" := rfl
  cases how with
  | assign =>
    show Fills ρ (column ++ " = ?") [v] _
    rw [he, ← String.append_assoc]
    exact hv _ hc
  | increment =>
    show Fills ρ (column ++ " = " ++ column ++ " + ?") [v] _
    rw [hp, ← String.append_assoc]
    exact hv _ (hm " + " rfl)
  | decrement =>
    show Fills ρ (column ++ " = " ++ column ++ " - ?") [v] _
    rw [hd, ← String.append_assoc]
    exact hv _ (hm " - " rfl)

theorem Select.fills {q : Select} (ht : marks q.table = 0) (hc : ∀ c ∈ q.columns, marks c = 0)
    (hw : ∀ f ∈ q.conditions, f.Balanced) (hg : ∀ g ∈ q.groups, marks g = 0)
    (ho : ∀ o ∈ q.orders, marks o.1 = 0) (ρ : Value → String) :
    Fills ρ q.text q.values (q.inlined ρ) := by
  have hp : marks q.projection = 0 := by
    unfold Select.projection
    split
    · rfl
    · exact marks_join rfl hc
  have hgc : marks q.groupClause = 0 := by
    unfold Select.groupClause
    split
    · rfl
    · rw [Text.marks_append, marks_join rfl hg]
      rfl
  have hoc : marks q.orderClause = 0 := by
    have hall : ∀ t ∈ q.orders.map (fun o => o.1 ++ " " ++ o.2.keyword), marks t = 0 := by
      intro t hm
      obtain ⟨o, hmem, rfl⟩ := List.mem_map.1 hm
      rw [Text.marks_append, Text.marks_append, ho o hmem]
      cases o.2 <;> rfl
    unfold Select.orderClause
    split
    · rfl
    · rw [Text.marks_append, marks_join rfl hall]
      rfl
  have h : Clauses ρ q.clauses (q.values ++ []) _ :=
    .plain rfl <| .plain (marks_keywordIf rfl _) <| .plain hp <| .plain rfl <| .plain ht <|
      .fragments hw rfl <| .plain hgc <| .plain hoc <| .plain (marks_limitClause rfl _) <|
      .plain (marks_limitClause rfl _) <| .plain (marks_keywordIf rfl _) <|
      .plain (marks_keywordIf rfl _) <| .plain (marks_settings _) .nil
  rw [List.append_nil] at h
  exact h.join

theorem Insert.fills {q : Insert} (ht : marks q.table = 0)
    (ha : ∀ e ∈ q.assigned, marks e.1 = 0) (ρ : Value → String) :
    Fills ρ q.text q.values (q.inlined ρ) := by
  have hk : ∀ k ∈ q.assigned.keys, marks k = 0 := by
    intro k hk
    obtain ⟨e, he, rfl⟩ := List.mem_map.1 hk
    exact ha e he
  have hn : marks (q.table ++ " (" ++ Text.join ", " q.assigned.keys ++ ")") = 0 := by
    rw [Text.marks_append, Text.marks_append, Text.marks_append, ht, marks_join rfl hk]
    rfl
  have hv : FillsAll ρ (q.assigned.keys.map fun _ => "?") q.values (q.assigned.values.map ρ) := by
    have hm : FillsAll ρ (q.assigned.map fun _ => "?") (q.assigned.flatMap fun e => [e.2])
        (q.assigned.map fun e => ρ e.2) := .map fun e _ => .placeholder e.2
    have hs : q.values = q.assigned.flatMap fun e => [e.2] := List.map_eq_flatMap
    rw [hs]
    unfold Entries.keys Entries.values
    rwa [List.map_map, List.map_map]
  have hj : Fills ρ ("VALUES (" ++ Text.join ", " (q.assigned.keys.map fun _ => "?") ++ ")")
      q.values ("VALUES (" ++ Text.join ", " (q.assigned.values.map ρ) ++ ")") :=
    .before (.behind rfl (hv.join rfl)) rfl
  have h : Clauses ρ q.clauses (q.values ++ []) _ :=
    .plain rfl <| .plain hn <| .keyed hj (by simp) (by simp) <|
      .plain (marks_keywordIf rfl _) <| .plain (marks_settings _) .nil
  rw [List.append_nil] at h
  exact h.join

theorem Update.fills {q : Update} (ht : marks q.table = 0)
    (ha : ∀ e ∈ q.assigned, marks e.1 = 0) (hw : ∀ f ∈ q.conditions, f.Balanced)
    (hg : q.guard.Balanced) (ρ : Value → String) : Fills ρ q.text q.values (q.inlined ρ) := by
  have hs : Fills ρ ("SET " ++ Text.join ", " (q.assigned.map fun e => e.2.text e.1))
      (q.assigned.flatMap fun e => [e.2.value])
      ("SET " ++ Text.join ", " (q.assigned.map fun e => e.2.inlined ρ e.1)) :=
    .behind rfl (FillsAll.join rfl (.map fun e he => Assignment.fills (ha e he) e.2 ρ))
  have hv : q.values = (q.assigned.flatMap fun e => [e.2.value]) ++
      (q.guard.values ++ (q.conditions.values ++ [])) := by
    unfold Update.values Entries.values
    rw [List.map_map, List.append_nil, List.append_assoc, List.map_eq_flatMap]
    rfl
  have h : Clauses ρ q.clauses _ _ :=
    .plain rfl <| .plain ht <| .plain (marks_settings _) <| .keyed hs (by simp) (by simp) <|
      .guard hg <| .fragments hw rfl .nil
  rw [hv]
  exact h.join

theorem Delete.fills {q : Delete} (ht : marks q.table = 0) (hc : ∀ c ∈ q.columns, marks c = 0)
    (hw : ∀ f ∈ q.conditions, f.Balanced) (hg : q.guard.Balanced) (ρ : Value → String) :
    Fills ρ q.text q.values (q.inlined ρ) := by
  have h : Clauses ρ q.clauses (q.guard.values ++ (q.conditions.values ++ [])) _ :=
    .plain rfl <| .plain (marks_join rfl hc) <| .plain rfl <| .plain ht <|
      .plain (marks_settings _) <| .guard hg <| .fragments hw rfl .nil
  rw [List.append_nil] at h
  exact h.join

/-! ## what was said -/

namespace Query

/-- a step whose fragments are balanced and whose other texts have no placeholders -/
structure Step.Plain (s : Step) : Prop where
  columns : ∀ c ∈ s.columns, marks c = 0
  groups : ∀ c, s.group? = some c → marks c = 0
  orders : ∀ o, s.order? = some o → marks o.1 = 0
  assigned : ∀ e, s.assignment? = some e → marks e.1 = 0
  conditions : ∀ f, s.condition? = some f → f.Balanced
  demands : ∀ f, s.demand? = some (.condition f) → f.Balanced

theorem mem_keys_of_mem_settled {κ ν : Type} [BEq κ] [LawfulBEq κ] {es : List (κ × ν)} {e : κ × ν}
    (h : e ∈ Entries.settled es) : e.1 ∈ Entries.keys es := by
  have hk : e.1 ∈ Entries.keys (Entries.settled es) := List.mem_map_of_mem h
  rw [Entries.keys_settled] at hk
  exact List.mem_eraseDups.1 hk

theorem balanced_ofDemands {ds : List Demand} (h : ∀ f, .condition f ∈ ds → f.Balanced) :
    (Guard.ofDemands ds).Balanced := by
  cases ds with
  | nil => trivial
  | cons d ds =>
    cases d with
    | row => trivial
    | condition f =>
      intro g hg
      rcases List.mem_cons.1 hg with rfl | hg
      · exact h g List.mem_cons_self
      · obtain ⟨d, hd, he⟩ := List.mem_filterMap.1 hg
        cases d with
        | row => cases he
        | condition g' =>
          cases he
          exact h g (List.mem_cons_of_mem _ hd)

section
variable {table : String} (ht : marks table = 0) {ss : List Step} (hs : ∀ s ∈ ss, s.Plain)
include hs

theorem plain_columns : ∀ c ∈ ss.flatMap Step.columns, marks c = 0 := by
  intro c hc
  obtain ⟨s, hm, hc⟩ := List.mem_flatMap.1 hc
  exact (hs s hm).columns c hc

theorem plain_assigned : ∀ e ∈ ss.filterMap Step.assignment?, marks e.1 = 0 := by
  intro e he
  obtain ⟨s, hm, he⟩ := List.mem_filterMap.1 he
  exact (hs s hm).assigned e he

theorem balanced_conditions : ∀ f ∈ ss.filterMap Step.condition?, f.Balanced := by
  intro f hf
  obtain ⟨s, hm, hf⟩ := List.mem_filterMap.1 hf
  exact (hs s hm).conditions f hf

theorem balanced_guard : (saidGuard ss).Balanced := by
  refine balanced_ofDemands fun f hf => ?_
  obtain ⟨s, hm, hf⟩ := List.mem_filterMap.1 hf
  exact (hs s hm).demands f hf

include ht

theorem saidSelect_fills (ρ : Value → String) :
    Fills ρ (saidSelect table ss).text (saidSelect table ss).values
      ((saidSelect table ss).inlined ρ) := by
  have hg : ∀ g ∈ ss.filterMap Step.group?, marks g = 0 := by
    intro g hg
    obtain ⟨s, hm, hg⟩ := List.mem_filterMap.1 hg
    exact (hs s hm).groups g hg
  have ho : ∀ o ∈ ss.filterMap Step.order?, marks o.1 = 0 := by
    intro o ho
    obtain ⟨s, hm, ho⟩ := List.mem_filterMap.1 ho
    exact (hs s hm).orders o ho
  exact Select.fills ht (plain_columns hs) (balanced_conditions hs) hg ho ρ

theorem saidInsert_fills (ρ : Value → String) :
    Fills ρ (saidInsert table ss).text (saidInsert table ss).values
      ((saidInsert table ss).inlined ρ) := by
  refine Insert.fills ht (fun e he => ?_) ρ
  have hk := mem_keys_of_mem_settled he
  unfold Entries.keys at hk
  rw [List.map_map] at hk
  obtain ⟨a, hm, ha⟩ := List.mem_map.1 hk
  exact ha ▸ plain_assigned hs a hm

theorem saidUpdate_fills (ρ : Value → String) :
    Fills ρ (saidUpdate table ss).text (saidUpdate table ss).values
      ((saidUpdate table ss).inlined ρ) := by
  refine Update.fills ht (fun e he => ?_) (balanced_conditions hs) (balanced_guard hs) ρ
  obtain ⟨a, hm, ha⟩ := List.mem_map.1 (mem_keys_of_mem_settled he)
  exact ha ▸ plain_assigned hs a hm

theorem saidDelete_fills (ρ : Value → String) :
    Fills ρ (saidDelete table ss).text (saidDelete table ss).values
      ((saidDelete table ss).inlined ρ) :=
  Delete.fills ht (plain_columns hs) (balanced_conditions hs) (balanced_guard hs) ρ

theorem said_fills {kind : Kind} {b : Built} (hb : (said kind table ss).build = .ok b)
    (ρ : Value → String) : Fills ρ b.text b.values ((said kind table ss).inlined ρ) := by
  have ho : ∀ s ∈ ss.filter fun s => s.kind == kind, s.Plain :=
    fun s h => hs s (List.mem_of_mem_filter h)
  cases kind with
  | select =>
    cases hb
    exact saidSelect_fills ht ho ρ
  | insert =>
    have hb : (if _ then _ else _) = Except.ok b := hb
    split at hb
    · cases hb
    · cases hb
      exact saidInsert_fills ht ho ρ
  | update =>
    have hb : (if _ then _ else _) = Except.ok b := hb
    split at hb
    · cases hb
    · cases hb
      exact saidUpdate_fills ht ho ρ
  | delete =>
    cases hb
    exact saidDelete_fills ht ho ρ

end

/-- a built query has as many placeholders as values, and with the values in place, whatever their
renderings, it is the query in which every piece that was said has its own values -/
theorem fill_build {kind : Kind} {table : String} (ht : marks table = 0) {steps : List Step}
    (hs : ∀ s ∈ steps, s.Plain) {b : Built}
    (hb : ((ofTable kind table).run steps).build = .ok b) :
    marks b.text = b.values.length ∧
      ∀ ρ : Value → String,
        Text.fill b.text (b.values.map ρ) = (said kind table steps).inlined ρ := by
  rw [run_ofTable] at hb
  exact ⟨(said_fills ht hs hb fun _ => "").marks_eq, fun ρ => (said_fills ht hs hb ρ).fill_eq⟩

/-- conditions before the assignments, a column said twice, and a step that is refused -/
theorem fill_build_update :
    let steps : List Step :=
      [.update (.whereAll "k IN (?, ?)" [.string "x", .string "y"]),
        .update (.change .assign "a" (.string "old")), .update (.ifFragment ⟨"c = ?", [.int 3]⟩),
        .update .ifExists, .update (.change .increment "b" (.counter 1)),
        .update (.change .assign "a" (.string "new"))]
    let b : Built :=
      ⟨"UPDATE t SET a = ?, b = b + ? IF c = ? WHERE k IN (?, ?)",
        [.text "new", .counter 1, .int 3, .text "x", .text "y"]⟩
    (marks "t" = 0 ∧ (∀ s ∈ steps, s.Plain) ∧ ((ofTable .update "t").run steps).build = .ok b) ∧
      marks b.text = b.values.length ∧
      ∀ ρ : Value → String, Text.fill b.text (b.values.map ρ) = (said .update "t" steps).inlined ρ := by
  intro steps b
  have ht : marks "t" = 0 := by decide
  have hs : ∀ s ∈ steps, s.Plain := by
    simp only [steps, List.forall_mem_cons, List.not_mem_nil, false_implies, implies_true, and_true]
    refine ⟨?_, ?_, ?_, ?_, ?_, ?_⟩ <;> constructor <;> intro x hx <;> cases hx <;> rfl
  have hb : ((ofTable .update "t").run steps).build = .ok b := by rfl
  exact ⟨⟨ht, hs, hb⟩, fill_build ht hs hb⟩

end Query

end Cql
