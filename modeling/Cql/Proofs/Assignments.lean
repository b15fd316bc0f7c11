import Cql.Query.Assignments
import Cql.Proofs.Clauses

/-!
# The last change of a column holds

The columns of an insert or an update are what is left of the changes that it has taken.  One more
change keeps this (`Settles.put`), and so it holds after any run of steps.  Which steps are taken
depends on their own data alone (`refusal?_change`): a change is refused when its data cannot be
bound, and an assignment when it would set a counter.

* `Settles.put`, `settles_settled`   one change, and all changes;
* `boundChange?_of_taken`            what was taken is the change with its data bound;
* `columns_settled`                  the columns, their values, and when there is no statement.
-/

namespace Cql

/-! ## what is left of pairs -/

namespace Entries
variable {κ ν : Type} [BEq κ] [LawfulBEq κ]

theorem settled_map {μ : Type} (f : ν → μ) (es : List (κ × ν)) :
    settled (es.map fun e => (e.1, f e.2)) = (settled es).map fun e => (e.1, f e.2) := by
  induction es using List.reverseRecOn with
  | nil => rfl
  | append_singleton es e ih =>
    rw [List.map_append, List.map_singleton, settled_concat, settled_concat, ih]
    exact put_map (f := id) (fun _ _ => rfl) f e.2

/-- what is there after `put` is the new pair, or was there with another key -/
theorem mem_put {k : κ} {v : ν} {es : Entries κ ν} (hn : (keys es).Nodup) {e : κ × ν}
    (he : e ∈ put k v es) : e = (k, v) ∨ e ∈ es ∧ e.1 ≠ k := by
  induction es with
  | nil => exact .inl (List.mem_singleton.1 he)
  | cons d es ih =>
    obtain ⟨key, value⟩ := d
    obtain ⟨hkey, hn⟩ := List.nodup_cons.1 hn
    by_cases h : k = key
    · subst h
      rw [put, if_pos (beq_self_eq_true k)] at he
      rcases List.mem_cons.1 he with rfl | he
      · exact .inl rfl
      · -- the key stands here, so it does not stand behind
        refine .inr ⟨List.mem_cons_of_mem _ he, fun hk => hkey ?_⟩
        exact List.mem_map.2 ⟨e, he, hk⟩
    · rw [put, if_neg (mt beq_iff_eq.1 h)] at he
      rcases List.mem_cons.1 he with rfl | he
      · exact .inr ⟨List.mem_cons_self, fun hk => h hk.symm⟩
      · rcases ih hn he with rfl | ⟨he, hk⟩
        · exact .inl rfl
        · exact .inr ⟨List.mem_cons_of_mem _ he, hk⟩

omit [LawfulBEq κ] in
theorem settles_nil : Settles ([] : List (κ × ν)) [] where
  once := List.nodup_nil
  named _ := Iff.rfl
  inOrder := .nil
  last := fun _ he => nomatch he

/-- one more pair, put where its key is or at the end -/
theorem Settles.put {puts : List (κ × ν)} {es : Entries κ ν} (h : Settles puts es) (e : κ × ν) :
    Settles (puts ++ [e]) (put e.1 e.2 es) := by
  have hk : keys (puts ++ [e]) = keys puts ++ [e.1] := List.map_append
  -- a key that was known has the place that it had
  have hidx (k : κ) (hm : k ∈ keys es) : (keys puts ++ [e.1]).idxOf k = (keys puts).idxOf k := by
    rw [List.idxOf_append, if_pos ((h.named k).1 hm)]
  have horder : (keys es).Pairwise fun j k =>
      (keys puts ++ [e.1]).idxOf j < (keys puts ++ [e.1]).idxOf k := by
    refine List.Pairwise.imp_of_mem ?_ h.inOrder
    intro j k hj hk hlt
    rwa [hidx j hj, hidx k hk]
  refine ⟨?_, ?_, ?_, ?_⟩
  · rw [keys_put]
    split
    · exact h.once
    · next hm => simpa using h.once.concat hm
  · intro k
    rw [keys_put, hk, List.mem_append, List.mem_singleton, ← h.named]
    split
    · next hm =>
      refine ⟨Or.inl, fun hor => hor.elim id ?_⟩
      rintro rfl
      exact hm
    · rw [List.mem_append, List.mem_singleton]
  · rw [keys_put, hk]
    split
    · exact horder
    · next hm =>
      refine List.pairwise_append.2 ⟨horder, List.pairwise_singleton _ _, ?_⟩
      intro j hj k hks
      obtain rfl := List.mem_singleton.1 hks
      have hnew : e.1 ∉ keys puts := mt (h.named e.1).2 hm
      rw [hidx j hj, List.idxOf_append, if_neg hnew]
      have hlt := List.idxOf_lt_length_of_mem ((h.named j).1 hj)
      omega
  · intro d hd
    rcases mem_put h.once hd with rfl | ⟨hd, hne⟩
    · exact ⟨puts, [], rfl, fun hm => nomatch hm⟩
    · obtain ⟨front, back, rfl, hback⟩ := h.last d hd
      refine ⟨front, back ++ [e], by rw [List.append_assoc]; rfl, ?_⟩
      have hb : keys (back ++ [e]) = keys back ++ [e.1] := List.map_append
      rw [hb, List.mem_append, List.mem_singleton]
      exact fun hm => hm.elim hback hne

theorem settles_settled (puts : List (κ × ν)) : Settles puts (settled puts) := by
  induction puts using List.reverseRecOn with
  | nil => exact settles_nil
  | append_singleton puts e ih =>
    rw [settled_concat]
    exact ih.put e

end Entries

namespace Query

/-! ## the changes that are taken -/

/-- why a change is refused, nothing if it is taken -/
def changeRefused? (column : String) (how : Change) (x : Host) : Option Error :=
  match x.bind with
  | .error b => some (.binding b)
  | .ok v => if how = .assign ∧ v.isCounter then some (.builder (.counterAssignment column)) else none

theorem isCounter_iff {v : Value} : v.isCounter ↔ ∃ n, v = .counter n := by
  cases v <;> simp [Value.isCounter]

theorem changeRefused?_eq_some {column : String} {how : Change} {x : Host} {e : Error} :
    changeRefused? column how x = some e ↔
      (∃ b, x.bind = .error b ∧ e = .binding b) ∨
      ∃ n, x.bind = .ok (.counter n) ∧ how = .assign ∧ e = .builder (.counterAssignment column) := by
  unfold changeRefused?
  cases hb : x.bind with
  | error b => simp [eq_comm]
  | ok v =>
    by_cases hc : how = .assign ∧ v.isCounter
    · obtain ⟨ha, hv⟩ := hc
      obtain ⟨n, rfl⟩ := isCounter_iff.1 hv
      simp [ha, Value.isCounter, eq_comm]
    · simp only [hc, if_false]
      refine iff_of_false nofun ?_
      rintro (⟨b, hb, -⟩ | ⟨n, hb, ha, -⟩)
      · cases hb
      · cases hb
        exact hc ⟨ha, rfl⟩

/-- a change is refused, or taken, for its own data whatever was said before -/
theorem refusal?_change {a : Assigning} (table : String) (ss : List Step) {s : Step}
    {column : String} {how : Change} {x : Host} (hk : s.kind = a.kind)
    (hs : s.columnChange? = some (column, how, x)) :
    (said a.kind table ss).refusal? s = changeRefused? column how x := by
  unfold changeRefused?
  cases a with
  | insert =>
    cases s with
    | insert s =>
      cases s with
      | set c y =>
        cases hs
        unfold said refusal? step
        cases hb : x.bind with
        | error b => simp [Assigning.kind, Insert.step, hb]
        | ok v => cases hc : v.isCounter <;> simp [Assigning.kind, Insert.step, Insert.assign, hb, hc]
      | setNull c =>
        cases hs
        rfl
      | _ => cases hs
    | _ => cases hk
  | update =>
    cases s with
    | update s =>
      cases s with
      | change h c y =>
        cases hs
        unfold said refusal? step
        cases hb : x.bind with
        | error b => simp [Assigning.kind, Update.step, hb]
        | ok v =>
          by_cases hc : how = .assign ∧ v.isCounter
          · simp [Assigning.kind, Update.step, Update.assign, hb, hc]
          · simp [Assigning.kind, Update.step, Update.assign, hb, hc]
      | _ => cases hs
    | _ => cases hk

/-- what a step says of a column is what it would do to it, unless it is refused -/
theorem assignment?_eq (s : Step) : s.assignment? = s.columnChange?.bind fun c =>
    match changeRefused? c.1 c.2.1 c.2.2 with
    | none => s.boundChange?
    | some _ => none := by
  have hchange (how : Change) (column : String) (x : Host) :
      Step.change? how column x = match changeRefused? column how x with
        | none => x.bind.toOption.map fun v => (column, ⟨how, v⟩)
        | some _ => none := by
    unfold Step.change? changeRefused?
    cases x.bind with
    | error b => rfl
    | ok v => by_cases hc : how = .assign ∧ v.isCounter <;> simp [hc]
  cases s with
  | insert s =>
    cases s with
    | set column x => exact hchange .assign column x
    | setNull column => rfl
    | _ => rfl
  | update s =>
    cases s with
    | change how column x => exact hchange how column x
    | _ => rfl
  | select s => rfl
  | delete s => rfl

theorem boundChange?_isSome {s : Step} {column : String} {how : Change} {x : Host}
    (hs : s.columnChange? = some (column, how, x)) (hr : changeRefused? column how x = none) :
    s.boundChange?.isSome := by
  unfold Step.boundChange?
  unfold changeRefused? at hr
  cases hb : x.bind with
  | error b =>
    rw [hb] at hr
    cases hr
  | ok v => simp [hs, hb]

section
variable (a : Assigning) (table : String) (ss : List Step)

/-- a change that was taken could be bound, and is no counter that is set -/
theorem boundChange?_of_taken : ∀ s ∈ taken a.kind table ss,
    s.assignment? = s.boundChange? ∧ (s.columnChange?.isSome → s.boundChange?.isSome) := by
  induction ss using List.reverseRecOn with
  | nil => exact fun _ hs => nomatch hs
  | append_singleton ss s ih =>
    rcases taken_concat a.kind table ss s with ⟨hk, hr, ht⟩ | ⟨-, ht⟩
    · rw [ht]
      refine List.forall_mem_append.2 ⟨ih, List.forall_mem_singleton.2 ?_⟩
      rw [run_ofTable] at hr
      rw [assignment?_eq]
      cases hc : s.columnChange? with
      | none =>
        refine ⟨?_, nofun⟩
        rw [Step.boundChange?, hc]
        rfl
      | some c =>
        obtain ⟨column, how, x⟩ := c
        rw [refusal?_change table ss hk hc] at hr
        refine ⟨?_, fun _ => boundChange?_isSome hc hr⟩
        show (match changeRefused? column how x with | none => _ | some _ => none) = _
        rw [hr]
    · rwa [ht]

theorem filterMap_taken :
    (taken a.kind table ss).filterMap Step.assignment? = changesMade a.kind table ss :=
  List.filterMap_congr fun s hs => (boundChange?_of_taken a table ss s hs).1

end

/-- no counter is set, whoever says so -/
theorem not_counter_of_assignment? {s : Step} {e : String × Assignment}
    (h : s.assignment? = some e) (ha : e.2.change = .assign) (n : Int64) :
    e.2.value ≠ .counter n := by
  have hchange {how : Change} {column : String} {x : Host}
      (h : Step.change? how column x = some e) : e.2.value ≠ .counter n := by
    unfold Step.change? at h
    split at h
    · split at h
      · cases h
      · next v _ hc =>
        cases h
        rintro rfl
        exact hc ⟨ha, rfl⟩
    · cases h
  cases s with
  | insert s =>
    cases s with
    | set column x => exact hchange h
    | setNull column =>
      cases h
      nofun
    | _ => cases h
  | update s =>
    cases s with
    | change how column x => exact hchange h
    | _ => cases h
  | select s => cases h
  | delete s => cases h

/-! ## the statement -/

section
variable (table : String) {ss : List Step} {made : List (String × Assignment)}
  (hm : ss.filterMap Step.assignment? = made)
include hm

theorem assigned_saidInsert : (saidInsert table ss).assigned =
    (Entries.settled made).map fun e => (e.1, e.2.value) := by
  rw [← hm]
  exact Entries.settled_map Assignment.value _

theorem assigned_saidUpdate : (saidUpdate table ss).assigned = Entries.settled made := by
  rw [← hm]
  rfl

theorem writes_saidInsert : Writes table (Entries.settled made) (insert (saidInsert table ss))
    ⟨(saidInsert table ss).text, (saidInsert table ss).values⟩ := by
  have ha := assigned_saidInsert table hm
  have hkeys : (saidInsert table ss).assigned.keys = (Entries.settled made).keys := by
    rw [ha]
    exact List.map_map
  have hvalues : (saidInsert table ss).values =
      (Entries.settled made).values.map Assignment.value := by
    rw [Insert.values, ha]
    simp only [Entries.values, List.map_map, Function.comp_def]
  rw [Insert.text, hvalues, Insert.clauses, hkeys]
  exact .insert _

theorem writes_saidUpdate : Writes table (Entries.settled made) (update (saidUpdate table ss))
    ⟨(saidUpdate table ss).text, (saidUpdate table ss).values⟩ := by
  rw [Update.text, Update.values, Update.clauses, assigned_saidUpdate table hm]
  exact .update _

/-- what was changed is written, and where nothing was changed there is no statement -/
theorem build_said (a : Assigning) (own : ∀ s ∈ ss, s.kind = a.kind) :
    (made = [] ∧ (said a.kind table ss).build = .error (.builder (.noAssignments a))) ∨
      made ≠ [] ∧ ∃ built, (said a.kind table ss).build = .ok built ∧
        Writes table (Entries.settled made) (said a.kind table ss) built := by
  cases a with
  | insert =>
    show _ ∧ (said .insert table ss).build = _ ∨ _ ∧ ∃ _, (said .insert table ss).build = _ ∧ _
    rw [build_insert table own, hm]
    by_cases hn : made = []
    · exact .inl ⟨hn, if_pos (List.isEmpty_iff.2 hn)⟩
    · refine .inr ⟨hn, _, if_neg (mt List.isEmpty_iff.1 hn), ?_⟩
      exact said_insert table own ▸ writes_saidInsert table hm
  | update =>
    show _ ∧ (said .update table ss).build = _ ∨ _ ∧ ∃ _, (said .update table ss).build = _ ∧ _
    rw [build_update table own, hm]
    by_cases hn : made = []
    · exact .inl ⟨hn, if_pos (List.isEmpty_iff.2 hn)⟩
    · refine .inr ⟨hn, _, if_neg (mt List.isEmpty_iff.1 hn), ?_⟩
      exact said_update table own ▸ writes_saidUpdate table hm

end

end Query

end Cql
