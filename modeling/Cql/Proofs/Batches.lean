import Mathlib.Data.List.Forall2
import Cql.Batch.Calls
import Cql.Proofs.Script

/-!
# What a batch keeps

A call prepares its statement without a look at the batch, and adds what was prepared or nothing
(`add_eq`).  So what becomes of a call does not hang on the calls before it, and the batch grows by
what was prepared for the calls that succeeded.

* `call_cases`        one call: a statement is added with its parameters, or all is as it was;
* `Grown.entries`     where both lists have grown, the pairs have;
* `entries_kept`      any sequence of calls.
-/

namespace Cql.Batch

/-! ## one call -/

theorem add_eq (b : Batch) (w : Entry) : b.add w = w.prepared.map fun p => b.push p.1 p.2 := by
  cases w with
  | statement st data =>
    show b.addStatement st data = (Session.bound st data).map _
    rw [addStatement, Session.bound]
    cases ofBinding (Parameters.bind data) <;> rfl
  | query q =>
    show b.addQuery q = q.statement.map _
    rw [addQuery]
    cases q.statement <;> rfl

/-- a call adds what was prepared for it, or fails as its preparation did -/
theorem call_cases (b : Batch) (w : Entry) :
    (∃ p, w.Prepares (.ok p) ∧ b.refusal? w = none ∧ b.advance w = b.push p.1 p.2) ∨
    ∃ e, w.Prepares (.error e) ∧ b.refusal? w = some e ∧ b.advance w = b := by
  have hw := w.prepares_prepared
  have hadd := b.add_eq w
  unfold refusal? advance
  cases hp : w.prepared with
  | ok p =>
    rw [hp] at hw hadd
    rw [hadd]
    exact .inl ⟨p, hw, rfl, rfl⟩
  | error e =>
    rw [hp] at hw hadd
    rw [hadd]
    exact .inr ⟨e, hw, rfl, rfl⟩

theorem refusal?_eq_some {b : Batch} {w : Entry} {e : Error} :
    b.refusal? w = some e ↔ w.Prepares (.error e) := by
  rw [Entry.prepares_iff, refusal?, add_eq]
  cases w.prepared with
  | ok p => exact iff_of_false nofun nofun
  | error f => exact ⟨fun h => by cases h; rfl, fun h => by cases h; rfl⟩

theorem advance_of_refused {b : Batch} {w : Entry} {e : Error} (h : b.refusal? w = some e) :
    b.advance w = b := by
  rcases b.call_cases w with ⟨-, -, hn, -⟩ | ⟨-, -, -, hsame⟩
  · rw [hn] at h
    cases h
  · exact hsame

/-! ## any sequence of calls -/

theorem taken_cons (b : Batch) (w : Entry) (ws : List Entry) :
    b.taken (w :: ws) =
      if (b.refusal? w).isNone then w :: (b.advance w).taken ws else (b.advance w).taken ws := by
  rw [taken, outcomes_cons, List.filter_cons]
  split <;> rfl

/-- a call fares as its preparation does, whatever the calls before it have done -/
theorem outcomes_prepares (b : Batch) (ws : List Entry) :
    ∀ o ∈ b.outcomes ws, ∀ e, o.2 = some e ↔ o.1.Prepares (.error e) := by
  induction ws generalizing b with
  | nil => exact fun _ ho => nomatch ho
  | cons w ws ih => exact List.forall_mem_cons.2 ⟨fun _ => refusal?_eq_some, ih _⟩

theorem Grown.refl (b : Batch) : b.Grown [] b :=
  ⟨(List.append_nil _).symm, (List.append_nil _).symm, rfl, rfl⟩

/-- a statement that is added comes before those that are added later -/
theorem Grown.push {b after : Batch} {p : Statement × Parameters}
    {ps : List (Statement × Parameters)} (h : (b.push p.1 p.2).Grown ps after) :
    b.Grown (p :: ps) after where
  statements := by rw [h.statements, List.map_cons]; exact List.append_cons _ _ _ |>.symm
  parameters := by rw [h.parameters, List.map_cons]; exact List.append_cons _ _ _ |>.symm
  kind := h.kind
  profile := h.profile

theorem Grown.entries {b after : Batch} {ps : List (Statement × Parameters)}
    (h : b.Grown ps after) : after.entries = b.entries ++ ps := by
  rw [Batch.entries, h.statements, h.parameters, List.zip_append b.paired, Batch.entries]
  congr 1
  rw [List.zip_map']
  exact List.map_id ps

theorem run_grown (b : Batch) (ws : List Entry) : ∃ added,
    List.Forall₂ (fun w p => w.Prepares (.ok p)) (b.taken ws) added ∧ b.Grown added (b.run ws) := by
  induction ws generalizing b with
  | nil => exact ⟨[], .nil, .refl b⟩
  | cons w ws ih =>
    rw [taken_cons, run_cons]
    obtain ⟨added, hadded, hgrown⟩ := ih (b.advance w)
    rcases b.call_cases w with ⟨p, hp, hn, hpush⟩ | ⟨e, -, he, hsame⟩
    · rw [hpush] at hadded hgrown ⊢
      rw [hn]
      exact ⟨p :: added, .cons hp hadded, hgrown.push⟩
    · rw [hsame] at hadded hgrown ⊢
      rw [he]
      exact ⟨added, hadded, hgrown⟩

theorem map_fst_entries (b : Batch) : b.entries.map Prod.fst = b.statements :=
  List.map_fst_zip (Nat.le_of_eq b.paired)

theorem map_snd_entries (b : Batch) : b.entries.map Prod.snd = b.parameters :=
  List.map_snd_zip (Nat.le_of_eq b.paired.symm)

/-- A batch after any calls.  A call fails exactly when its statement cannot be prepared, whatever
the calls before it, and then leaves the batch as it was.  The others add what was prepared for
them, in their order and in one place each: no statement is without parameters, none has those of
another, and as many are added as calls succeeded.  Kind and profile stay. -/
theorem entries_kept (b : Batch) (ws : List Entry) :
    let after := b.run ws
    (b.outcomes ws).map Prod.fst = ws ∧
    (∀ o ∈ b.outcomes ws, ∀ e, o.2 = some e ↔ o.1.Prepares (.error e)) ∧
    (∃ added, List.Forall₂ (fun w p => w.Prepares (.ok p)) (b.taken ws) added ∧
      b.Grown added after ∧ after.entries = b.entries ++ added) ∧
    after.statements.length = after.parameters.length ∧
    after.entries.map Prod.fst = after.statements ∧
    after.entries.map Prod.snd = after.parameters ∧
    after.size = b.size + (b.taken ws).length ∧
    ∀ w e, after.refusal? w = some e → after.advance w = after := by
  intro after
  obtain ⟨added, hadded, hgrown⟩ := b.run_grown ws
  have hsize : after.size = b.size + (b.taken ws).length := by
    rw [size, hgrown.statements, List.length_append, List.length_map, hadded.length_eq]
    rfl
  exact ⟨b.map_fst_outcomes ws, b.outcomes_prepares ws, ⟨added, hadded, hgrown, hgrown.entries⟩,
    after.paired, after.map_fst_entries, after.map_snd_entries, hsize,
    fun _ _ => advance_of_refused⟩

/-- a query that assigns nothing; then a prepared statement and a query that have a profile, and
between them a number that does not fit and a value that may not stand inside another -/
theorem entries_kept_mixed :
    let slow : Profile := { Profile.empty with tracing := some true }
    let st : Statement := .prepared [1] "UPDATE t SET a = ?" (some slow)
    let broad : Entry := .statement st [.int ⟨.u32, 4294967295, by decide⟩]
    let nested : Entry := .statement st [.list [.unset]]
    let front : Entry := .statement st [.smallInt 258]
    let back : Entry := .query ((Query.delete (.ofTable "t")).run
      [.delete (.whereAll "k = ?" [.string "x"]), .delete (.profile slow)])
    let ws := [.query (.insert (.ofTable "t")), front, broad, nested, back]
    let b := (empty .logged).withProfile .empty
    let one : Parameters := ⟨1, #[0, 0, 0, 2, 1, 2]⟩
    let other : Parameters := ⟨1, #[0, 0, 0, 1, 120]⟩
    let added := [(st, one), (.direct "DELETE FROM t WHERE k = ?" (some slow), other)]
    (b.taken ws = [front, back] ∧
      (b.outcomes ws).filterMap Prod.snd = [.builder (.noAssignments .insert),
        .binding (.integerOutOfRange 4294967295), .binding (.nestedUnset .list)]) ∧
    (b.run ws).entries = added ∧ (b.run ws).size = 2 ∧
    (b.run ws).profile = some .empty ∧ (b.run ws).advance nested = b.run ws := by
  intro slow st broad nested front back ws b one other added
  have ht : b.taken ws = [front, back] := by rfl
  have ho : (b.outcomes ws).filterMap Prod.snd = [.builder (.noAssignments .insert),
      .binding (.integerOutOfRange 4294967295), .binding (.nestedUnset .list)] := by rfl
  obtain ⟨-, -, ⟨prepared, hprepared, hgrown, hentries⟩, -, -, -, hsize, hsame⟩ := b.entries_kept ws
  rw [ht] at hprepared hsize
  have hadded : prepared = added := by
    obtain ⟨p, ps, hp, hps, rfl⟩ := List.forall₂_cons_left_iff.1 hprepared
    obtain ⟨q, qs, hq, hqs, rfl⟩ := List.forall₂_cons_left_iff.1 hps
    cases hqs
    have hp : Except.ok p = front.prepared := Entry.prepares_iff.1 hp
    have hq : Except.ok q = back.prepared := Entry.prepares_iff.1 hq
    cases hp
    cases hq
    rfl
  have hrefused : (b.run ws).refusal? nested = some (.binding (.nestedUnset .list)) :=
    refusal?_eq_some.2 (Entry.prepares_iff.2 rfl)
  exact ⟨⟨ht, ho⟩, hadded ▸ hentries, hsize, hgrown.profile, hsame _ _ hrefused⟩

end Cql.Batch
