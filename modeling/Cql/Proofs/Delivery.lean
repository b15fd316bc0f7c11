import Cql.Cursor
import Cql.Proofs.Parameters
import Cql.Proofs.RoundTrip
import Cql.Query.History
import Cql.Session.Record

/-!
# What the session is handed

A statement goes to the session at once, page by page, or in a batch, from a query or from a text
with its host data.  Whatever the way, the parameters are written once, as one list of cells, and
the session gets that list beside the statement.  So it is enough that the list is read back as the
values that were bound (`decode?_of_takes`), and that no way touches statement or list
(`delivers_of_statement`, `delivers_of_bound`).

* `Takes t v`           a placeholder of type `t` can be given the value `v`;
* `decode?_eq_none_iff` when a list of parameters cannot be read with the types at hand;
* `delivered_as_bound`  parameters reach the session as they were bound.
-/

namespace Cql

/-- a placeholder can be left alone, set to null whatever its type, or given a value of its type
whose cell can be written -/
def ColumnType.Takes (t : ColumnType) (v : Value) : Prop :=
  v = .null ∨ v = .unset ∨ t.Holds v ∧ v.Distinct ∧ Cell.Fits v

namespace Parameters

open Cell (fault?)
open ColumnType (Takes)

/-! ## writing the values -/

theorem fault?_of_takes {t : ColumnType} {v : Value} (h : t.Takes v) : fault? v = none := by
  rcases h with rfl | rfl | ⟨hh, -, hf⟩
  · rfl
  · rfl
  · rw [Cell.fault?_of_fits hf, Cell.unsetWithin?_of_holds hh]
    rfl

theorem attempts_of_faultless {vs : List Value} (h : ∀ v ∈ vs, fault? v = none)
    (hl : vs.length ≤ limit) : ∃ p, attempts vs = (p, vs) := by
  induction vs using List.reverseRecOn with
  | nil => exact ⟨empty, rfl⟩
  | append_singleton vs v ih =>
    obtain ⟨hvs, hv⟩ := List.forall_mem_append.1 h
    rw [List.length_append, List.length_singleton] at hl
    obtain ⟨p, hp⟩ := ih hvs (by omega)
    have hlists : Lists p vs := by
      have hl := lists_attempts vs
      rwa [hp] at hl
    have hcount : p.count < limit := by
      rw [hlists.count_eq]
      omega
    have hv : fault? v = none := hv v (List.mem_singleton_self v)
    have hpush := push_of_none hcount hv
    exact ⟨_, attempts_concat_eq_iff.2 ⟨p, hp, hpush⟩⟩

/-! ## reading the cells -/

theorem decodeOne_of_takes {t : ColumnType} {v : Value} {c : Parameter} (h : t.Takes v)
    (hc : ReadAs v c) : decodeOne t c = .ok v := by
  cases hc with
  | null => rfl
  | unset => rfl
  | @bytes v body hb =>
    rcases h with rfl | rfl | ⟨hh, hd, hf⟩
    · cases hb
    · cases hb
    · have hn : v ≠ .null := by
        rintro rfl
        cases hb
      have hp := Cell.partsFit_of_fits hf
      rw [Cell.body?_of_holds hh hp hn] at hb
      cases hb
      exact Cell.decode_body hh hd hp hn

theorem mapM_decodeOne {types : List ColumnType} {vs : List Value} {cs : List Parameter}
    (h : List.Forall₂ Takes types vs) (hc : List.Forall₂ ReadAs vs cs) :
    (types.zip cs).mapM (fun tc => decodeOne tc.1 tc.2) = .ok vs := by
  induction h generalizing cs with
  | nil => rfl
  | @cons t v types vs ht _ ih =>
    cases hc with
    | cons hc hcs =>
      rw [List.zip_cons_cons, List.mapM_cons, decodeOne_of_takes ht hc, ih hcs]
      rfl

/-- values that placeholders can be given are written as one list and read back from it -/
theorem decode?_of_takes {types : List ColumnType} {vs : List Value} (hl : vs.length ≤ limit)
    (h : List.Forall₂ Takes types vs) :
    ∃ p, ofValues vs = .ok p ∧ p.decode? types = some vs := by
  have hfault : ∀ v ∈ vs, fault? v = none := by
    clear hl
    induction h with
    | nil => exact fun _ hv => nomatch hv
    | cons ht _ ih => exact List.forall_mem_cons.2 ⟨fault?_of_takes ht, ih⟩
  obtain ⟨p, hp⟩ := attempts_of_faultless hfault hl
  have hlists : Lists p vs := by
    have hl := lists_attempts vs
    rwa [hp] at hl
  refine ⟨p, ofValues_ok_iff.2 hp, ?_⟩
  rw [decode?, if_pos (hlists.count_eq.trans h.length_eq.symm),
    mapM_decodeOne h (cells_of_lists hlists)]
  rfl

theorem mapM_fails_iff {ε α β : Type} {f : α → Except ε β} {xs : List α} :
    (xs.mapM f).toOption = none ↔ ∃ x ∈ xs, ∃ e, f x = .error e := by
  induction xs with
  | nil => simp [pure, Except.pure]
  | cons x xs ih =>
    rw [List.mapM_cons]
    cases hx : f x with
    | error e => simp [hx]
    | ok y =>
      rw [bind_ok]
      cases hxs : xs.mapM f with
      | error e =>
        rw [hxs] at ih
        simpa [hx] using ih.1 rfl
      | ok ys =>
        rw [hxs] at ih
        have hnone : ¬ ∃ z ∈ xs, ∃ e, f z = .error e := fun h => nomatch ih.2 h
        simpa [hx, pure, Except.pure] using hnone

/-- a cell that does not decode has a body -/
theorem decodeOne_fails_iff {t : ColumnType} {c : Parameter} :
    (∃ e, decodeOne t c = .error e) ↔
      ∃ body e, c = .bytes body ∧ Cell.decode t (some body) = .error e := by
  cases c with
  | null => simp [decodeOne]
  | unset => simp [decodeOne]
  | bytes body => simp [decodeOne]

/-- parameters are not read when there is not one type for each, or when some body does not decode
as the type in its place -/
theorem decode?_eq_none_iff {p : Parameters} {types : List ColumnType} :
    p.decode? types = none ↔ p.count ≠ types.length ∨
      ∃ (i : Nat) (t : ColumnType) (body : Bytes) (e : DecodeError), types[i]? = some t ∧
        p.cells[i]? = some (.bytes body) ∧ Cell.decode t (some body) = .error e := by
  rw [decode?]
  by_cases hc : p.count = types.length
  · rw [if_pos hc, mapM_fails_iff, or_iff_right (not_not.2 hc)]
    refine ⟨?_, ?_⟩
    · intro h
      obtain ⟨⟨t, c⟩, hm, hfails⟩ := h
      obtain ⟨body, e, rfl, he⟩ := decodeOne_fails_iff.1 hfails
      obtain ⟨i, hi⟩ := List.mem_iff_getElem?.1 hm
      obtain ⟨ht, hb⟩ := List.getElem?_zip_eq_some.1 hi
      exact ⟨i, t, body, e, ht, hb, he⟩
    · intro h
      obtain ⟨i, t, body, e, ht, hb, he⟩ := h
      have hm : (t, Parameter.bytes body) ∈ types.zip p.cells :=
        List.mem_iff_getElem?.2 ⟨i, List.getElem?_zip_eq_some.2 ⟨ht, hb⟩⟩
      exact ⟨_, hm, decodeOne_fails_iff.2 ⟨body, e, rfl, he⟩⟩
  · rw [if_neg hc]
    exact iff_of_true rfl (.inl hc)

end Parameters

/-! ## the ways to the session -/

/-- all at once, page by page, and in a batch the session is handed the statement and the
parameters, and nothing else -/
structure Delivers (send : Session → Exchange RawResult)
    (page : Session → Outcome Cursor × Session) (add : Batch → Outcome Batch)
    (statement : Statement) (parameters : Parameters) : Prop where
  sent (s : Session) : (send s).2.requests = s.requests ++ [⟨statement, parameters, none⟩]
  paged (s : Session) : (page s).2.requests =
    s.requests ++ [⟨statement, parameters, some ⟨statement.pageSize, none⟩⟩]
  batched (b : Batch) : ∃ b', add b = .ok b' ∧
    b'.entries = b.entries ++ [(statement, parameters)] ∧
    ∀ s : Session, (s.runBatch b').2.batches = s.batches ++ [b']

namespace Session

theorem batches_runBatch (s : Session) (b : Batch) :
    (s.runBatch b).2.batches = s.batches ++ [b] := by
  unfold runBatch answer
  cases s.queue <;> rfl

theorem requests_send (s : Session) (statement : Statement) (parameters : Parameters) :
    (s.send (.ok (statement, parameters))).2.requests =
      s.requests ++ [⟨statement, parameters, none⟩] := by
  rw [send, execute_eq]
  rfl

theorem requests_openCursor (s : Session) (statement : Statement) (parameters : Parameters) :
    (s.openCursor (.ok (statement, parameters))).2.requests =
      s.requests ++ [⟨statement, parameters, some ⟨statement.pageSize, none⟩⟩] := by
  rw [openCursor, Cursor.start, Cursor.fetch, execute_eq]
  cases s.reply <;> rfl

theorem delivers_of_statement {q : Query} {statement : Statement} {parameters : Parameters}
    (h : q.statement = .ok (statement, parameters)) :
    Delivers (fun s => s.run q) (fun s => s.openCursor q.statement) (fun b => b.addQuery q)
      statement parameters where
  sent s := by rw [run, h, requests_send]
  paged s := by rw [h, requests_openCursor]
  batched b := by
    refine ⟨b.push statement parameters, ?_, b.entries_push _ _, fun s => s.batches_runBatch _⟩
    rw [Batch.addQuery, h]
    rfl

theorem delivers_of_bound {data : List Host} {parameters : Parameters}
    (h : Parameters.bind data = .ok parameters) (statement : Statement) :
    Delivers (fun s => s.query statement data) (fun s => s.openCursor (bound statement data))
      (fun b => b.addStatement statement data) statement parameters where
  sent s := by rw [query, bound, h, ofBinding_ok, map_ok, requests_send]
  paged s := by rw [bound, h, ofBinding_ok, map_ok, requests_openCursor]
  batched b := by
    refine ⟨b.push statement parameters, ?_, b.entries_push _ _, fun s => s.batches_runBatch _⟩
    rw [Batch.addStatement, h]
    rfl

end Session

end Cql
